import SibylMemory.AtomicWrite

/-!
# Runs of atomic writes (`config.py:183-204`)

Where a writer stands, the rule of its program, and what a run of many has done to the files.
-/

namespace SibylMemory.AtomicWrite
open FileSystem

namespace Writers
variable {ι : Type} {w : Writers ι} {i j : ι} {s s' : Files ι}

/-! ### Points of a writer -/

/-- The writer has no inode yet. -/
structure Unmade (w : Writers ι) (i : ι) (s : Files ι) : Prop where
  fresh : w.Fresh s
  ownerless : ∀ k m, s.inodes k = some m → m.writer ≠ some i

/-- The temporary file is there, and nothing else is the writer's. -/
structure Opened (w : Writers ι) (i : ι) (t : Path) (h : Nat) (n : Inode ι) (s : Files ι) : Prop where
  fresh : w.Fresh s
  drawn : t ∈ s.drawn
  name : s.names t = some h
  inode : s.inodes h = some n
  own : n.writer = some i
  alone : ∀ k m, s.inodes k = some m → m.writer = some i → k = h
  once : ∀ p, s.names p = some h → p = t ∨ p = w.target i

/-- No name but the target leads to an inode of the writer. -/
def Tidy (w : Writers ι) (i : ι) (s : Files ι) : Prop :=
  ∀ p h n, s.names p = some h → s.inodes h = some n → n.writer = some i → p = w.target i

/-- The temporary file has become the target. -/
structure Placed (w : Writers ι) (i : ι) (t : Path) (s : Files ι) : Prop where
  drawn : t ∈ s.drawn
  gone : s.names t = none
  whole : w.Sealed s (w.target i)
  tidy : w.Tidy i s

section Points
variable {t : Path} {h : Nat} {n : Inode ι}

theorem Unmade.stable (hs : w.Unmade i s) (hr : w.Rely i s s') : w.Unmade i s' where
  fresh := hr.fresh hs.fresh
  ownerless k m hm hw := hs.ownerless k m (hr.ownBack k m hm hw) hw

theorem Opened.foreign (hs : w.Opened i t h n s) : w.Foreign t := hs.fresh t hs.drawn

theorem Opened.old (hs : w.Opened i t h n s) : w.target i ∉ s.drawn :=
  fun hmem => hs.fresh _ hmem i rfl

theorem Opened.stable (hs : w.Opened i t h n s) (hr : w.Rely i s s') : w.Opened i t h n s' where
  fresh := hr.fresh hs.fresh
  drawn := hr.drawn t hs.drawn
  name := hr.kept t h n hs.foreign hs.name hs.inode hs.own
  inode := hr.own h n hs.inode hs.own
  own := hs.own
  alone k m hm hw := hs.alone k m (hr.ownBack k m hm hw) hw
  once p hp := (hr.keptBack p h n hp (hr.own h n hs.inode hs.own) hs.own).elim (hs.once p) .inr

theorem tidy_stable (hs : w.Tidy i s) (hr : w.Rely i s s') : w.Tidy i s' := by
  intro p k m hp hm hw
  rcases hr.keptBack p k m hp hm hw with hp | hp
  · exact hs p k m hp (hr.ownBack k m hm hw) hw
  · exact hp

theorem Placed.stable (hs : w.Placed i t s) (hr : w.Rely i s s') : w.Placed i t s' where
  drawn := hr.drawn t hs.drawn
  gone := hr.gone t hs.drawn hs.gone
  whole := hr.whole _ hs.whole
  tidy := tidy_stable hs.tidy hr

theorem Unmade.create (hs : w.Unmade i s) {p : Path} (hforeign : w.Foreign p) (hnew : s.inodes h = none) :
    w.Opened i p h ⟨"", 0o600, false, some i⟩ (s.create i p h) where
  fresh q hq := by
    rcases List.mem_cons.mp hq with rfl | hq
    · exact hforeign
    · exact hs.fresh q hq
  drawn := .head _
  name := Function.update_self ..
  inode := Function.update_self ..
  own := rfl
  alone k m hm hw := by
    by_contra hk
    exact hs.ownerless k m ((Function.update_of_ne hk ..).symm.trans hm) hw
  once q hq := by
    by_contra hne
    rw [not_or] at hne
    have hname : s.names q = some h := (Function.update_of_ne hne.1 ..).symm.trans hq
    have hsome := s.named q h hname
    rw [hnew] at hsome
    cases hsome

theorem Opened.modify (hs : w.Opened i t h n s) {f : Inode ι → Inode ι} (hf : (f n).writer = some i) :
    w.Opened i t h (f n) (s.modify h f) where
  fresh := hs.fresh
  drawn := hs.drawn
  name := hs.name
  inode := by rw [Files.modify_inodes, Function.update_self, hs.inode, Option.map_some]
  own := hf
  alone k m hm hw := by
    by_contra hk
    exact hk (hs.alone k m ((Function.update_of_ne hk ..).symm.trans hm) hw)
  once := hs.once

theorem Opened.place {text : String} (htext : w.texts i text) (hs : w.Opened i t h (whole i text) s) :
    w.Placed i t (s.rename t (w.target i)) where
  drawn := hs.drawn
  gone := by
    rw [Files.rename_names, Function.update_of_ne (hs.foreign i), Function.update_self]
  whole := ⟨h, i, text, (Function.update_self ..).trans hs.name, hs.inode, rfl, htext⟩
  tidy p k m hp hm hw := by
    by_contra htarget
    rw [Files.rename_names, Function.update_of_ne htarget] at hp
    obtain rfl := hs.alone k m hm hw
    by_cases ht : p = t
    · rw [ht, Function.update_self] at hp
      cases hp
    · rw [Function.update_of_ne ht] at hp
      exact (hs.once p hp).elim ht htarget

theorem Opened.remove (hs : w.Opened i t h n s) : w.Tidy i (s.remove t) := by
  intro p k m hp hm hw
  obtain rfl := hs.alone k m hm hw
  by_cases ht : p = t
  · rw [ht, Files.remove_names, Function.update_self] at hp
    cases hp
  · rw [Files.remove_names, Function.update_of_ne ht] at hp
    exact (hs.once p hp).resolve_left ht

end Points

/-! ### The program -/

section Program
variable {faulty : Prop} {t : Path} {h : Nat} {n : Inode ι} {text : String}

/-- What a writer has done when it ends: the target is whole if it returned, and its temporary file
is gone unless the removal failed. -/
def Ended (w : Writers ι) (faulty : Prop) (i : ι) (result : Except String Unit) (s : Files ι) : Prop :=
  (result = .ok () → w.Sealed s (w.target i)) ∧ (result = .ok () ∨ ¬faulty → w.Tidy i s)

/-- A rule of writer `i`. -/
abbrev Meets (w : Writers ι) (faulty : Prop) (i : ι) (post : Except String Unit → Files ι → Prop)
    (p : FileTalk Unit) (s : Files ι) : Prop :=
  p.Holds (Files.respond faulty i) (w.Rely i) (w.Guarantee i) post s

theorem cleanup_meets {result : Except String Unit}
    (hs : (∃ e n, result = .error e ∧ w.Opened i t h n s) ∨ w.Placed i t s) :
    w.Meets faulty i (w.Ended faulty i) (cleanup t result) s := by
  rintro s₁ hr₁ found s₂ ⟨rfl, rfl⟩
  refine ⟨guarantee_refl _, ?_⟩
  rcases hs with ⟨e, n, rfl, hopened⟩ | hplaced
  · have hopened₁ := hopened.stable hr₁
    rw [hopened₁.name]
    rintro s₂ hr₂ reply s₃ hreply
    have hopened₂ := hopened₁.stable hr₂
    cases reply with
    | ok u =>
      obtain ⟨-, rfl⟩ := hreply
      refine ⟨remove_guarantee hopened₂.name hopened₂.inode hopened₂.own hopened₂.foreign, ?_⟩
      exact fun s₄ hr₄ => ⟨nofun, fun _ => tidy_stable hopened₂.remove hr₄⟩
    | error e' =>
      obtain ⟨hfaulty, rfl⟩ := hreply
      refine ⟨guarantee_refl _, fun s₄ hr₄ => ⟨nofun, fun hno => ?_⟩⟩
      exact absurd hfaulty (hno.resolve_left nofun)
  · have hplaced₁ := hplaced.stable hr₁
    rw [hplaced₁.gone]
    intro s₂ hr₂
    have hplaced₂ := hplaced₁.stable hr₂
    exact ⟨fun _ => hplaced₂.whole, fun _ => hplaced₂.tidy⟩

/-- The temporary file is whole, or a failure left something in it. -/
def Filled (w : Writers ι) (i : ι) (text : String) (t : Path) (h : Nat) (result : Except String Unit)
    (s : Files ι) : Prop :=
  (result = .ok () ∧ w.Opened i t h (whole i text) s) ∨ ∃ e n, result = .error e ∧ w.Opened i t h n s

theorem Filled.stable {result : Except String Unit} (hs : w.Filled i text t h result s)
    (hr : w.Rely i s s') : w.Filled i text t h result s' :=
  hs.imp (fun ⟨hok, hwhole⟩ => ⟨hok, hwhole.stable hr⟩)
    fun ⟨e, n, herror, hopened⟩ => ⟨e, n, herror, hopened.stable hr⟩

theorem writeSynced_meets (hs : w.Opened i t h ⟨"", 0o600, false, some i⟩ s) :
    w.Meets faulty i (w.Filled i text t h) (writeSynced h text) s := by
  intro s₁ hr₁ reply s₂ hreply
  have hopened₁ := hs.stable hr₁
  cases reply with
  | error e =>
    obtain ⟨part, -, rfl⟩ := hreply
    refine ⟨modify_guarantee hopened₁.inode rfl (.inl rfl) rfl, fun s₃ hr₃ => ?_⟩
    exact .inr ⟨e, _, rfl, (hopened₁.modify rfl).stable hr₃⟩
  | ok u =>
    obtain rfl := hreply
    refine ⟨modify_guarantee hopened₁.inode rfl (.inl rfl) rfl, fun s₃ hr₃ reply s₄ hreply => ?_⟩
    have hopened₃ := (hopened₁.modify (f := fun n =>
      { n with content := n.content ++ text, synced := false }) rfl).stable hr₃
    cases reply with
    | error e =>
      obtain rfl := hreply
      exact ⟨guarantee_refl _, fun s₅ hr₅ => .inr ⟨e, _, rfl, hopened₃.stable hr₅⟩⟩
    | ok u =>
      obtain rfl := hreply
      refine ⟨modify_guarantee hopened₃.inode rfl (.inl rfl) rfl, fun s₅ hr₅ => .inl ⟨rfl, ?_⟩⟩
      have hopened₅ := (hopened₃.modify (f := fun n => { n with synced := true }) rfl).stable hr₅
      rwa [String.empty_append] at hopened₅

theorem Filled.closed {result : Except String Unit} (hs : w.Filled i text t h result s) {part : String}
    (hn : s.inodes h = some n) (hopen : n.synced = false) :
    w.Guarantee i s (s.modify h fun n => { n with content := n.content ++ part }) ∧
      w.Filled i text t h result (s.modify h fun n => { n with content := n.content ++ part }) := by
  rcases hs with ⟨-, hwhole⟩ | ⟨e, m, rfl, hopened⟩
  · -- a synced file has nothing left to write
    cases hn.symm.trans hwhole.inode
    cases hopen
  · cases hn.symm.trans hopened.inode
    exact ⟨modify_guarantee hn hopened.own (.inl hopen) hopened.own,
      .inr ⟨e, _, rfl, hopened.modify hopened.own⟩⟩

theorem fill_meets (hs : w.Opened i t h ⟨"", 0o600, false, some i⟩ s) :
    w.Meets faulty i (w.Filled i text t h) (fill h text) s := by
  refine (writeSynced_meets hs).andThen rely_refl fun result s hfilled s₁ hr₁ closed s₂ hclosed => ?_
  have hfilled₁ := hfilled.stable hr₁
  have hclose : w.Guarantee i s₁ s₂ ∧ w.Filled i text t h result s₂ := by
    rcases hclosed with rfl | ⟨n, part, hn, hopen, rfl⟩
    · exact ⟨guarantee_refl _, hfilled₁⟩
    · exact hfilled₁.closed hn hopen
  refine ⟨hclose.1, fun s₃ hr₃ => ?_⟩
  have hfilled₃ := hclose.2.stable hr₃
  cases closed with
  | ok u => exact hfilled₃
  | error e =>
    rcases hfilled₃ with ⟨-, hwhole⟩ | ⟨-, n, -, hopened⟩
    · exact .inr ⟨e, _, rfl, hwhole⟩
    · exact .inr ⟨e, n, rfl, hopened⟩

/-- The file was placed, or it is still open behind an error. -/
def Installed (w : Writers ι) (i : ι) (t : Path) (h : Nat) (result : Except String Unit) (s : Files ι) :
    Prop :=
  (∃ e n, result = .error e ∧ w.Opened i t h n s) ∨ w.Placed i t s

theorem install_meets (htext : w.texts i text) (hs : w.Opened i t h (whole i text) s) :
    w.Meets faulty i (w.Installed i t h) (install t (w.target i)) s := by
  intro s₁ hr₁ reply s₂ hreply
  have hopened₁ := hs.stable hr₁
  cases reply with
  | error e =>
    obtain rfl := hreply
    exact ⟨guarantee_refl _, fun s₃ hr₃ => .inl ⟨e, _, rfl, hopened₁.stable hr₃⟩⟩
  | ok u =>
    obtain ⟨k, hk, rfl⟩ := hreply
    cases hopened₁.name.symm.trans hk
    -- the mode of the temporary file is already that of the target
    rw [Files.modify_self s₁ hopened₁.inode rfl]
    refine ⟨guarantee_refl _, fun s₃ hr₃ reply s₄ hreply => ?_⟩
    have hopened₃ := hopened₁.stable hr₃
    cases reply with
    | error e =>
      obtain rfl := hreply
      exact ⟨guarantee_refl _, fun s₅ hr₅ => .inl ⟨e, _, rfl, hopened₃.stable hr₅⟩⟩
    | ok u =>
      obtain ⟨-, rfl⟩ := hreply
      refine ⟨rename_guarantee htext hopened₃.name hopened₃.inode hopened₃.foreign hopened₃.old,
        fun s₅ hr₅ reply s₆ hreply => ?_⟩
      have hplaced₅ := (hopened₃.place htext).stable hr₅
      have hsame : s₆ = s₅ := by
        cases reply with
        | error e => exact hreply
        | ok u =>
          obtain ⟨k, hk, rfl⟩ := hreply
          obtain ⟨k', j, text', hname, hinode, -⟩ := hplaced₅.whole
          cases hname.symm.trans hk
          exact Files.modify_self s₅ hinode rfl
      subst hsame
      exact ⟨guarantee_refl _, fun s₇ hr₇ => .inr (hplaced₅.stable hr₇)⟩

theorem Unmade.failed (hs : w.Unmade i s) (e : String) :
    w.Meets faulty i (w.Ended faulty i) (.done (.error e)) s :=
  fun _ hr => ⟨nofun, fun _ _ k m _ hm hw => absurd hw ((hs.stable hr).ownerless k m hm)⟩

theorem atomicWrite_meets (htext : w.texts i text) (hs : w.Unmade i s) :
    w.Meets faulty i (w.Ended faulty i) (atomicWrite (w.target i) text) s := by
  intro s₁ hr₁ reply s₂ hreply
  have hs₁ := hs.stable hr₁
  obtain rfl : s₂ = s₁ := hreply
  refine ⟨guarantee_refl _, ?_⟩
  cases reply with
  | error e => exact hs₁.failed e
  | ok u =>
    intro s₃ hr₃ reply s₄ hreply
    have hs₃ := hs₁.stable hr₃
    cases reply with
    | error e =>
      obtain rfl := hreply
      exact ⟨guarantee_refl _, hs₃.failed e⟩
    | ok made =>
      obtain ⟨t, h⟩ := made
      obtain ⟨⟨random, rfl⟩, hfree, hold, hnew, rfl⟩ := hreply
      have hforeign : w.Foreign ⟨(w.target i).parent, Path.temporaryStart (w.target i) ++ random⟩ :=
        fun j he => w.apart j i random he.symm
      refine ⟨create_guarantee hforeign hfree hold hnew, ?_⟩
      have hinstalled : w.Meets faulty i (w.Installed i _ h)
          ((fill h text).bind fun _ => install _ (w.target i)) _ :=
        (fill_meets (hs₃.create hforeign hnew)).andThen rely_refl fun
          | .ok _, _, .inl hwhole => install_meets htext hwhole.2
          | .error e, s, .inr ⟨_, n, _, hopened⟩ => fun s' hr => .inl ⟨e, n, rfl, hopened.stable hr⟩
      exact hinstalled.andThen rely_refl fun result s hs => cleanup_meets hs

/-! ### Readers -/

/-- What a writer may do first. -/
structure Reading (w : Writers ι) (i : ι) (s₀ s : Files ι) : Prop where
  unmade : w.Unmade i s
  based : w.Based s₀ s

theorem Reading.stable {s₀ : Files ι} (hs : w.Reading i s₀ s) (hr : w.Rely i s s') : w.Reading i s₀ s' :=
  ⟨hs.unmade.stable hr, hr.based s₀ hs.based⟩

/-- The file is the first one, or a whole one of a writer. -/
def Whole (w : Writers ι) (s₀ : Files ι) (p : Path) (file : Option String) : Prop :=
  file = s₀.read p ∨ ∃ j text, w.target j = p ∧ w.texts j text ∧ file = some text

theorem read_of_inode {p : Path} (hname : s.names p = some h) (hn : s.inodes h = some n) :
    s.read p = some n.content := by
  rw [Files.read, hname, Option.bind_some, hn, Option.map_some]

theorem Sealed.whole {s₀ : Files ι} {p : Path} (hs : w.Sealed s p) : w.Whole s₀ p (s.read p) := by
  obtain ⟨k, j, text, hname, hinode, htarget, htext⟩ := hs
  exact .inr ⟨j, text, htarget, htext, read_of_inode hname hinode⟩

/-- Nobody changes the inode any more. -/
def Lasting (s₀ : Files ι) (h : Nat) (n : Inode ι) : Prop :=
  s₀.inodes h = some n ∨ n.synced = true ∧ n.mode = 0o600

theorem Based.inode {s₀ : Files ι} (hs : w.Based s₀ s) (hname : s.names (w.target j) = some h) :
    ∃ n, s.inodes h = some n ∧ w.Whole s₀ (w.target j) (some n.content) ∧ Lasting s₀ h n := by
  rcases hs.targets j with hsame | hsealed
  · have hname₀ := hsame.symm.trans hname
    obtain ⟨n, hn⟩ := Option.isSome_iff_exists.mp (s₀.named _ h hname₀)
    refine ⟨n, hs.inodes h n hn, .inl ?_, .inl hn⟩
    rw [read_of_inode hname₀ hn]
  · obtain ⟨k, i, text, hk, hinode, htarget, htext⟩ := hsealed
    cases hk.symm.trans hname
    exact ⟨_, hinode, .inr ⟨i, text, htarget, htext, rfl⟩, .inr ⟨rfl, rfl⟩⟩

theorem Lasting.guarantee {s₀ : Files ι} (hl : Lasting s₀ h n) (hn : s.inodes h = some n)
    (hs : w.Based s₀ s) (hg : w.Guarantee i s s') : s'.inodes h = some n := by
  rcases hl with hfirst | ⟨hsync, hmode⟩
  · exact (hg.based hs).inodes h n hfirst
  · exact hg.frozen h n hn hsync hmode

theorem Lasting.rely {s₀ : Files ι} (hl : Lasting s₀ h n) (hn : s.inodes h = some n)
    (hs : w.Based s₀ s) (hr : w.Rely i s s') : s'.inodes h = some n := by
  rcases hl with hfirst | ⟨hsync, hmode⟩
  · exact (hr.based s₀ hs).inodes h n hfirst
  · exact hr.frozen h n hn hsync hmode

theorem readExisting_holds {s₀ : Files ι} (hs : w.Reading i s₀ s) :
    (readExisting (w.target j)).Holds (Files.respond faulty i) (w.Rely i) (w.Guarantee i)
      (fun result s => w.Reading i s₀ s ∧ ∀ file, result = .ok file → w.Whole s₀ (w.target j) file) s := by
  rintro s₁ hr₁ found s₂ ⟨rfl, rfl⟩
  have hs₁ := hs.stable hr₁
  refine ⟨guarantee_refl _, ?_⟩
  cases hfound : (s₂.names (w.target j)).isSome with
  | false =>
    have hnone := Option.not_isSome_iff_eq_none.mp (Bool.eq_false_iff.mp hfound)
    refine fun s₃ hr₃ => ⟨hs₁.stable hr₃, fun file hfile => .inl ?_⟩
    cases hfile
    rcases hs₁.based.targets j with hsame | ⟨k, i', text, hname, -⟩
    · rw [Files.read, ← hsame, hnone, Option.bind_none]
    · cases hnone.symm.trans hname
  | true =>
    intro s₃ hr₃ opened s₄ hopened
    have hs₃ := hs₁.stable hr₃
    cases opened with
    | error e =>
      obtain rfl := hopened
      exact ⟨guarantee_refl _, fun s₅ hr₅ => ⟨hs₃.stable hr₅, nofun⟩⟩
    | ok k =>
      obtain ⟨hname, rfl⟩ := hopened
      obtain ⟨n, hn, hwhole, hlasting⟩ := hs₃.based.inode hname
      refine ⟨guarantee_refl _, fun s₅ hr₅ reply s₆ hreply => ?_⟩
      have hs₅ := hs₃.stable hr₅
      cases reply with
      | error e =>
        obtain rfl := hreply
        exact ⟨guarantee_refl _, fun s₇ hr₇ => ⟨hs₅.stable hr₇, nofun⟩⟩
      | ok text =>
        obtain ⟨⟨m, hm, rfl⟩, rfl⟩ := hreply
        cases hm.symm.trans (hlasting.rely hn hs₃.based hr₅)
        refine ⟨guarantee_refl _, fun s₇ hr₇ => ⟨hs₅.stable hr₇, fun file hfile => ?_⟩⟩
        cases hfile
        exact hwhole

end Program

/-! ### Runs -/

/-- No writer has begun. -/
structure Unwritten (s : Files ι) : Prop where
  drawn : s.drawn = []
  inodes : ∀ h n, s.inodes h = some n → n.writer = none

theorem Unwritten.based (hs : Unwritten s) : w.Based s s :=
  ⟨hs.inodes, fun _ _ hn => hn, fun _ => .inl rfl, fun _ _ _ hp => hp⟩

theorem Unwritten.reading (hs : Unwritten s) : w.Reading i s s where
  unmade := by
    refine ⟨fun p hp => ?_, fun k m hm hw => ?_⟩
    · rw [hs.drawn] at hp
      cases hp
    · cases (hs.inodes k m hm).symm.trans hw
  based := hs.based

section Runs
variable {faulty : Prop} {s₀ s₁ : Files ι} {h : Nat} {n : Inode ι}

theorem based_run (hs : w.Based s₀ s)
    (hrun : Relation.ReflTransGen (fun s s' => ∃ i, w.Guarantee i s s') s s') : w.Based s₀ s' := by
  induction hrun with
  | refl => exact hs
  | tail _ hstep ih =>
    obtain ⟨i, hg⟩ := hstep
    exact hg.based ih

theorem lasting_run (hl : Lasting s₀ h n) (hn : s.inodes h = some n) (hs : w.Based s₀ s)
    (hrun : Relation.ReflTransGen (fun s s' => ∃ i, w.Guarantee i s s') s s') :
    s'.inodes h = some n := by
  induction hrun with
  | refl => exact hn
  | tail hbefore hstep ih =>
    obtain ⟨i, hg⟩ := hstep
    exact hl.guarantee ih (based_run hs hbefore) hg

variable [DecidableEq ι]

theorem writers_steps {x y : (ι → FileTalk Unit) × Files ι}
    (hpool : ∀ i, w.Meets faulty i (w.Ended faulty i) (x.1 i) x.2)
    (hrun : Dialogue.Reaches (Files.respond faulty) x y) :
    Relation.ReflTransGen (fun s s' => ∃ i, w.Guarantee i s s') x.2 y.2 ∧
      ∀ i, w.Meets faulty i (w.Ended faulty i) (y.1 i) y.2 :=
  Dialogue.reaches_holds (fun _ => rely_refl) (fun _ _ _ _ => rely_trans)
    (fun _ _ _ _ hij hg => hg.rely hij) hrun hpool

end Runs

end Writers

end SibylMemory.AtomicWrite
