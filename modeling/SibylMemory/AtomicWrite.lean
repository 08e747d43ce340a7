import SibylMemory.Library.FileSystem

/-!
# Atomic writes (`config.py:183-204`)

The configuration, the key and the identity are written to a temporary file that then takes the
target's name. Any number of writers may run, fail or be stopped at any call.
-/

namespace SibylMemory.AtomicWrite
open FileSystem

abbrev FileTalk (α : Type) : Type := Dialogue FileCall FileCall.Reply String α

def Path.temporaryStart (p : Path) : String := "." ++ p.name ++ "."

/-- The body of the `with` block. -/
def writeSynced (h : Nat) (content : String) : FileTalk Unit :=
  .ask (.write h content) fun
    | .error e => .done (.error e)
    | .ok _ => .ask (.fsync h) .done

/-- The `with` block, which closes the file. -/
def fill (h : Nat) (content : String) : FileTalk Unit :=
  (writeSynced h content).andThen fun result => .ask (.close h) fun closed =>
    .done (match closed with
      | .error e => .error e
      | .ok _ => result)

/-- What follows the `with` block. -/
def install (temporary path : Path) : FileTalk Unit :=
  .ask (.chmod temporary 0o600) fun
    | .error e => .done (.error e)
    | .ok _ => .ask (.replace temporary path) fun
      | .error e => .done (.error e)
      | .ok _ => .ask (.chmod path 0o600) .done

/-- The `finally` clause. -/
def cleanup (temporary : Path) (result : Except String Unit) : FileTalk Unit :=
  .ask (.exists_ temporary) fun
    | false => .done result
    | true => .ask (.unlink temporary) fun
      | .error e => .done (.error e)
      | .ok _ => .done result

/-- `_atomic_write` -/
def atomicWrite (path : Path) (content : String) : FileTalk Unit :=
  .ask (.mkdir path.parent) fun
    | .error e => .done (.error e)
    | .ok _ => .ask (.createTemporary path.parent (Path.temporaryStart path)) fun
      | .error e => .done (.error e)
      | .ok (temporary, h) =>
        ((fill h content).bind fun _ => install temporary path).andThen (cleanup temporary)

/-- `path.read_text()` -/
def readText (path : Path) : FileTalk String :=
  .ask (.openText path) fun
    | .error e => .done (.error e)
    | .ok h => .ask (.readAll h) .done

/-- `path.read_text() if path.exists()` -/
def readExisting (path : Path) : FileTalk (Option String) :=
  .ask (.exists_ path) fun
    | false => .done (.ok none)
    | true => (readText path).bind fun text => .done (.ok (some text))

/-! ### Writers -/

variable {ι : Type}

/-- What the writers write, and where. -/
structure Writers (ι : Type) where
  target : ι → Path
  texts : ι → String → Prop
  /-- no target is a temporary file of another -/
  apart : ∀ i j random, target i ≠ ⟨(target j).parent, Path.temporaryStart (target j) ++ random⟩

/-- The inode of a whole file of writer `i`. -/
def whole (i : ι) (text : String) : Inode ι := ⟨text, 0o600, true, some i⟩

namespace Writers
variable (w : Writers ι)

/-- The name leads to a whole text of a writer of this file. -/
def Sealed (s : Files ι) (p : Path) : Prop :=
  ∃ h i text, s.names p = some h ∧ s.inodes h = some (whole i text) ∧ w.target i = p ∧ w.texts i text

def Foreign (p : Path) : Prop := ∀ i, p ≠ w.target i

def Fresh (s : Files ι) : Prop := ∀ p ∈ s.drawn, w.Foreign p

/-- How writer `i` changes a name: to its whole file, or to a temporary file of its own and back. -/
inductive Renamed (i : ι) (s s' : Files ι) (p : Path) : Prop where
  | kept (same : s'.names p = s.names p)
  | placed (target : p = w.target i) (old : p ∉ s.drawn) (whole : w.Sealed s' p)
  | opened (foreign : w.Foreign p) (free : s.names p = none) (old : p ∉ s.drawn) (h : Nat)
      (n : Inode ι) (name : s'.names p = some h) (inode : s'.inodes h = some n) (own : n.writer = some i)
  | dropped (foreign : w.Foreign p) (h : Nat) (n : Inode ι) (name : s.names p = some h)
      (inode : s.inodes h = some n) (own : n.writer = some i) (gone : s'.names p = none)

structure Guarantee (i : ι) (s s' : Files ι) : Prop where
  foreign : ∀ h n, s.inodes h = some n → n.writer ≠ some i → s'.inodes h = some n
  made : ∀ h n, s'.inodes h = some n → n.writer ≠ some i → s.inodes h = some n
  frozen : ∀ h n, s.inodes h = some n → n.synced = true → n.mode = 0o600 → s'.inodes h = some n
  drawn : ∀ p ∈ s.drawn, p ∈ s'.drawn
  temporaries : ∀ p ∈ s'.drawn, p ∈ s.drawn ∨ w.Foreign p
  names : ∀ p, w.Renamed i s s' p

/-- What the files before the writers have become. -/
structure Based (s₀ s : Files ι) : Prop where
  unwritten : ∀ h n, s₀.inodes h = some n → n.writer = none
  inodes : ∀ h n, s₀.inodes h = some n → s.inodes h = some n
  targets : ∀ i, s.names (w.target i) = s₀.names (w.target i) ∨ w.Sealed s (w.target i)
  others : ∀ p h, w.Foreign p → s₀.names p = some h → s.names p = some h

structure Rely (i : ι) (s s' : Files ι) : Prop where
  own : ∀ h n, s.inodes h = some n → n.writer = some i → s'.inodes h = some n
  ownBack : ∀ h n, s'.inodes h = some n → n.writer = some i → s.inodes h = some n
  kept : ∀ p h n, w.Foreign p → s.names p = some h → s.inodes h = some n → n.writer = some i →
    s'.names p = some h
  keptBack : ∀ p h n, s'.names p = some h → s'.inodes h = some n → n.writer = some i →
    s.names p = some h ∨ p = w.target i
  whole : ∀ p, w.Sealed s p → w.Sealed s' p
  gone : ∀ p ∈ s.drawn, s.names p = none → s'.names p = none
  drawn : ∀ p ∈ s.drawn, p ∈ s'.drawn
  fresh : w.Fresh s → w.Fresh s'
  frozen : ∀ h n, s.inodes h = some n → n.synced = true → n.mode = 0o600 → s'.inodes h = some n
  based : ∀ s₀, w.Based s₀ s → w.Based s₀ s'

variable {w} {i j : ι} {s s' s'' : Files ι}

theorem Guarantee.whole (h : w.Guarantee i s s') {p : Path} (hp : w.Sealed s p) : w.Sealed s' p := by
  obtain ⟨k, j, text, hname, hinode, rfl, htext⟩ := hp
  cases h.names (w.target j) with
  | kept same => exact ⟨k, j, text, same.trans hname, h.frozen k _ hinode rfl rfl, rfl, htext⟩
  | placed target old whole => exact whole
  | opened foreign => exact absurd rfl (foreign j)
  | dropped foreign => exact absurd rfl (foreign j)

theorem Guarantee.based {s₀ : Files ι} (h : w.Guarantee i s s') (hs : w.Based s₀ s) : w.Based s₀ s' where
  unwritten := hs.unwritten
  inodes k n hn := h.foreign k n (hs.inodes k n hn) (by rw [hs.unwritten k n hn]; nofun)
  targets j := by
    rcases hs.targets j with hsame | hsealed
    · cases h.names (w.target j) with
      | kept same => exact .inl (same.trans hsame)
      | placed target old whole => exact .inr whole
      | opened foreign => exact absurd rfl (foreign j)
      | dropped foreign => exact absurd rfl (foreign j)
    · exact .inr (h.whole hsealed)
  others p k hp hk := by
    have hname := hs.others p k hp hk
    cases h.names p with
    | kept same => exact same.trans hname
    | placed target => exact absurd target (hp i)
    | opened foreign free => cases free.symm.trans hname
    | dropped foreign k' n name inode own =>
      cases name.symm.trans hname
      obtain ⟨m, hm⟩ := Option.isSome_iff_exists.mp (s₀.named p k hk)
      cases inode.symm.trans (hs.inodes k m hm)
      cases own.symm.trans (hs.unwritten k n hm)

theorem rely_refl (s : Files ι) : w.Rely i s s where
  own _ _ hn _ := hn
  ownBack _ _ hn _ := hn
  kept _ _ _ _ hp _ _ := hp
  keptBack _ _ _ hp _ _ := .inl hp
  whole _ hp := hp
  gone _ _ hp := hp
  drawn _ hp := hp
  fresh h := h
  frozen _ _ hn _ _ := hn
  based _ h := h

theorem rely_trans (h : w.Rely i s s') (h' : w.Rely i s' s'') : w.Rely i s s'' where
  own k n hn hw := h'.own k n (h.own k n hn hw) hw
  ownBack k n hn hw := h.ownBack k n (h'.ownBack k n hn hw) hw
  kept p k n hp hname hn hw := h'.kept p k n hp (h.kept p k n hp hname hn hw) (h.own k n hn hw) hw
  keptBack p k n hname hn hw := (h'.keptBack p k n hname hn hw).elim
    (fun hname' => h.keptBack p k n hname' (h'.ownBack k n hn hw) hw) .inr
  whole p hp := h'.whole p (h.whole p hp)
  gone p hp hname := h'.gone p (h.drawn p hp) (h.gone p hp hname)
  drawn p hp := h'.drawn p (h.drawn p hp)
  fresh hf := h'.fresh (h.fresh hf)
  frozen k n hn hsync hmode := h'.frozen k n (h.frozen k n hn hsync hmode) hsync hmode
  based s₀ hs := h'.based s₀ (h.based s₀ hs)

/-- What the other writers guarantee is what a writer relies on. -/
theorem Guarantee.rely (h : w.Guarantee j s s') (hij : i ≠ j) : w.Rely i s s' := by
  have hother {n : Inode ι} (hn : n.writer = some i) : n.writer ≠ some j :=
    fun he => hij (Option.some.inj (hn.symm.trans he))
  refine ⟨fun k n hn hw => h.foreign k n hn (hother hw), fun k n hn hw => h.made k n hn (hother hw),
    fun p k n hp hname hn hw => ?_, fun p k n hname hn hw => ?_, fun p hp => h.whole hp,
    fun p hp hname => ?_, h.drawn, fun hf p hp => (h.temporaries p hp).elim (hf p) id, h.frozen,
    fun s₀ hs => h.based hs⟩
  · cases h.names p with
    | kept same => exact same.trans hname
    | placed target => exact absurd target (hp j)
    | opened foreign free => cases free.symm.trans hname
    | dropped foreign k' n' name inode own =>
      cases name.symm.trans hname
      cases inode.symm.trans hn
      exact absurd own (hother hw)
  · cases h.names p with
    | kept same => exact .inl (same.symm.trans hname)
    | placed target old whole =>
      obtain ⟨k', i', text, hname', hinode', htarget, -⟩ := whole
      cases hname'.symm.trans hname
      cases hinode'.symm.trans hn
      cases hw
      exact .inr htarget.symm
    | opened foreign free old k' n' name inode own =>
      cases name.symm.trans hname
      cases inode.symm.trans hn
      exact absurd own (hother hw)
    | dropped foreign k' n' name inode own gone => cases gone.symm.trans hname
  · cases h.names p with
    | kept same => exact same.trans hname
    | placed target old => exact absurd hp old
    | opened foreign free old => exact absurd hp old
    | dropped foreign k' n' name inode own gone => exact gone

/-! ### Steps of a writer -/

section Steps
variable {p t : Path} {h : Nat} {n : Inode ι}

theorem guarantee_refl (s : Files ι) : w.Guarantee i s s where
  foreign _ _ hn _ := hn
  made _ _ hn _ := hn
  frozen _ _ hn _ _ := hn
  drawn _ hp := hp
  temporaries _ hp := .inl hp
  names _ := .kept rfl

theorem create_guarantee (hforeign : w.Foreign p) (hfree : s.names p = none) (hold : p ∉ s.drawn)
    (hnew : s.inodes h = none) : w.Guarantee i s (s.create i p h) := by
  have hinode : (s.create i p h).inodes h = some ⟨"", 0o600, false, some i⟩ := Function.update_self ..
  have hothers {k : Nat} (hk : k ≠ h) : (s.create i p h).inodes k = s.inodes k :=
    Function.update_of_ne hk ..
  have holds {k : Nat} {m : Inode ι} (hm : s.inodes k = some m) : k ≠ h := by
    rintro rfl
    cases hnew.symm.trans hm
  refine ⟨fun k m hm _ => (hothers (holds hm)).trans hm, fun k m hm hw => ?_,
    fun k m hm _ _ => (hothers (holds hm)).trans hm, fun q hq => .tail _ hq, fun q hq => ?_, fun q => ?_⟩
  · by_cases hk : k = h
    · subst hk
      cases hinode.symm.trans hm
      exact absurd rfl hw
    · exact (hothers hk).symm.trans hm
  · rcases List.mem_cons.mp hq with rfl | hq
    · exact .inr hforeign
    · exact .inl hq
  · by_cases hq : q = p
    · subst hq
      exact .opened hforeign hfree hold h _ (Function.update_self ..) hinode rfl
    · exact .kept (Function.update_of_ne hq ..)

theorem modify_guarantee (hn : s.inodes h = some n) (hown : n.writer = some i)
    (hopen : n.synced = false ∨ n.mode ≠ 0o600) {f : Inode ι → Inode ι}
    (hf : (f n).writer = some i) : w.Guarantee i s (s.modify h f) := by
  have hinode : (s.modify h f).inodes h = some (f n) := by
    rw [Files.modify_inodes, Function.update_self, hn, Option.map_some]
  have hothers {k : Nat} (hk : k ≠ h) : (s.modify h f).inodes k = s.inodes k :=
    Function.update_of_ne hk ..
  refine ⟨fun k m hm hw => ?_, fun k m hm hw => ?_, fun k m hm hsync hmode => ?_, fun q hq => hq,
    fun q hq => .inl hq, fun q => .kept rfl⟩
  · refine (hothers ?_).trans hm
    rintro rfl
    cases hn.symm.trans hm
    exact hw hown
  · by_cases hk : k = h
    · subst hk
      cases hinode.symm.trans hm
      exact absurd hf hw
    · exact (hothers hk).symm.trans hm
  · refine (hothers ?_).trans hm
    rintro rfl
    cases hn.symm.trans hm
    rcases hopen with hopen | hopen
    · cases hopen.symm.trans hsync
    · exact hopen hmode

theorem rename_guarantee {text : String} (htext : w.texts i text) (ht : s.names t = some h)
    (hn : s.inodes h = some (whole i text)) (hforeign : w.Foreign t) (hold : w.target i ∉ s.drawn) :
    w.Guarantee i s (s.rename t (w.target i)) := by
  have hsealed : w.Sealed (s.rename t (w.target i)) (w.target i) :=
    ⟨h, i, text, (Function.update_self ..).trans ht, hn, rfl, htext⟩
  refine ⟨fun k m hm _ => hm, fun k m hm _ => hm, fun k m hm _ _ => hm, fun q hq => hq,
    fun q hq => .inl hq, fun q => ?_⟩
  by_cases htarget : q = w.target i
  · subst htarget
    exact .placed rfl hold hsealed
  · have hname : (s.rename t (w.target i)).names q = Function.update s.names t none q :=
      Function.update_of_ne htarget ..
    by_cases hq : q = t
    · subst hq
      exact .dropped hforeign h _ ht hn rfl (hname.trans (Function.update_self ..))
    · exact .kept (hname.trans (Function.update_of_ne hq ..))

theorem remove_guarantee (ht : s.names t = some h) (hn : s.inodes h = some n) (hown : n.writer = some i)
    (hforeign : w.Foreign t) : w.Guarantee i s (s.remove t) := by
  refine ⟨fun k m hm _ => hm, fun k m hm _ => hm, fun k m hm _ _ => hm, fun q hq => hq,
    fun q hq => .inl hq, fun q => ?_⟩
  by_cases hq : q = t
  · subst hq
    exact .dropped hforeign h n ht hn hown (Function.update_self ..)
  · exact .kept (Function.update_of_ne hq ..)

end Steps

end Writers

end SibylMemory.AtomicWrite
