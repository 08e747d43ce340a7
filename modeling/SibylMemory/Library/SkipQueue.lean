import Mathlib.Data.List.Induction
import Mathlib.Data.List.TakeWhile
import Mathlib.Logic.Function.Basic

/-!
# Queues that are read by label

Under each key stands a queue. Reading a label takes the first item with it and drops the items
before it; nothing is dropped when no item has the label. Items are told apart by the position
of the call that recorded them: the same queues are run on items that carry their position.
-/

namespace SkipQueue

inductive Call (κ α η : Type) where
  | record (key : κ) (item : α)
  | consume (key : κ) (label : η)
  | clear (key : κ)

namespace Call
variable {κ α β η : Type}

def key : Call κ α η → κ
  | record key _ => key
  | consume key _ => key
  | clear key => key

def map (f : α → β) : Call κ α η → Call κ β η
  | record key item => record key (f item)
  | consume key label => consume key label
  | clear key => clear key

end Call

section Reading
variable {α β η : Type} [DecidableEq η] {label : α → η}

def read (label : α → η) (l : η) (queue : List α) : Option (α × List α) :=
  match queue.dropWhile fun item => decide (label item ≠ l) with
  | [] => none
  | item :: rest => some (item, rest)

theorem read_some {l : η} {queue rest : List α} {item : α} (h : read label l queue = some (item, rest)) :
    label item = l ∧ ∃ skipped, queue = skipped ++ item :: rest := by
  unfold read at h
  split at h
  · cases h
  · rename_i first others hdrop
    cases h
    have hfirst := List.head?_dropWhile_not (fun item => decide (label item ≠ l)) queue
    rw [hdrop] at hfirst
    refine ⟨by simpa using hfirst, queue.takeWhile fun item => decide (label item ≠ l), ?_⟩
    rw [← hdrop, List.takeWhile_append_dropWhile]

theorem read_none {l : η} {queue : List α} :
    read label l queue = none ↔ ∀ item ∈ queue, label item ≠ l := by
  unfold read
  split
  · rename_i hdrop
    simpa using List.dropWhile_eq_nil_iff.mp hdrop
  · rename_i first others hdrop
    constructor
    · intro h
      cases h
    · intro h
      have hnil : queue.dropWhile (fun item => decide (label item ≠ l)) = [] :=
        List.dropWhile_eq_nil_iff.mpr fun item hitem => by simpa using h item hitem
      rw [hnil] at hdrop
      cases hdrop

theorem read_map (f : β → α) (l : η) (queue : List β) :
    read label l (queue.map f) = (read (label ∘ f) l queue).map fun r => (f r.1, r.2.map f) := by
  unfold read
  rw [List.dropWhile_map]
  have hpred : (fun item => decide (label item ≠ l)) ∘ f
      = fun item => decide ((label ∘ f) item ≠ l) := rfl
  rw [hpred]
  cases queue.dropWhile fun item => decide ((label ∘ f) item ≠ l) <;> rfl

end Reading

section Runs
variable {κ α β η : Type} [DecidableEq κ] [DecidableEq η] {label : α → η}

def step (label : α → η) (q : κ → List α) : Call κ α η → Option α × (κ → List α)
  | .record key item => (none, Function.update q key (q key ++ [item]))
  | .consume key l =>
    match read label l (q key) with
    | none => (none, q)
    | some (item, rest) => (some item, Function.update q key rest)
  | .clear key => (none, Function.update q key [])

def after (label : α → η) (calls : List (Call κ α η)) : κ → List α :=
  calls.foldl (fun q c => (step label q c).2) fun _ => []

/-- The item that the call at a position returns. -/
def returned (label : α → η) (calls : List (Call κ α η)) (k : Nat) : Option α :=
  calls[k]?.bind fun c => (step label (after label (calls.take k)) c).1

/-- The calls with every recorded item numbered by its position. -/
def number (calls : List (Call κ α η)) : List (Call κ (Nat × α) η) :=
  calls.mapIdx fun i c => c.map fun item => (i, item)

/-- The position at which the item that a call returns was recorded. -/
def origin (label : α → η) (calls : List (Call κ α η)) (k : Nat) : Option Nat :=
  (returned (label ∘ Prod.snd) (number calls) k).map Prod.fst

/-! ### Numbers do not matter -/

theorem step_map (label : α → η) (f : β → α) (q : κ → List β) (c : Call κ β η) :
    step label (fun key => (q key).map f) (c.map f)
      = ((step (label ∘ f) q c).1.map f, fun key => ((step (label ∘ f) q c).2 key).map f) := by
  have hupdate : ∀ (key : κ) (l : List β), Function.update (fun key => (q key).map f) key (l.map f)
      = fun k => (Function.update q key l k).map f := by
    intro key l
    funext k
    by_cases hk : k = key
    · subst hk
      simp
    · simp [Function.update_of_ne hk]
  cases c with
  | record key item =>
    simp only [Call.map, step, Option.map_none, Prod.mk.injEq, true_and]
    rw [← hupdate, List.map_append, List.map_cons, List.map_nil]
  | clear key =>
    simp only [Call.map, step, Option.map_none, Prod.mk.injEq, true_and]
    rw [← hupdate, List.map_nil]
  | consume key l =>
    simp only [Call.map, step, read_map]
    cases read (label ∘ f) l (q key) with
    | none => rfl
    | some r => exact Prod.ext rfl (hupdate key r.2)

theorem after_snoc (calls : List (Call κ α η)) (c : Call κ α η) :
    after label (calls ++ [c]) = (step label (after label calls) c).2 := by
  rw [after, List.foldl_append]
  rfl

theorem after_map (f : β → α) (calls : List (Call κ β η)) :
    after label (calls.map (Call.map f)) = fun key => (after (label ∘ f) calls key).map f := by
  induction calls using List.reverseRecOn with
  | nil => rfl
  | append_singleton calls c ih =>
    rw [List.map_append, List.map_cons, List.map_nil, after_snoc, after_snoc, ih, step_map]

omit [DecidableEq κ] [DecidableEq η] in
theorem number_erase (calls : List (Call κ α η)) :
    (number calls).map (Call.map Prod.snd) = calls := by
  apply List.ext_getElem?
  intro i
  rw [number, List.getElem?_map, List.getElem?_mapIdx]
  cases calls[i]? with
  | none => rfl
  | some c => cases c <;> rfl

omit [DecidableEq κ] [DecidableEq η] in
theorem take_erase (calls : List (Call κ α η)) (k : Nat) :
    ((number calls).take k).map (Call.map Prod.snd) = calls.take k := by
  rw [List.map_take, number_erase]

theorem returned_eq (calls : List (Call κ α η)) (k : Nat) :
    returned label calls k = (returned (label ∘ Prod.snd) (number calls) k).map Prod.snd := by
  unfold returned
  conv_lhs => rw [← take_erase calls k, after_map]
  rw [number, List.getElem?_mapIdx]
  cases calls[k]? with
  | none => rfl
  | some c =>
    have hmap : (c.map fun item => (k, item)).map Prod.snd = c := by cases c <;> rfl
    have hstep := step_map label Prod.snd (after (label ∘ Prod.snd) ((number calls).take k))
      (c.map fun item => (k, item))
    rw [hmap] at hstep
    exact congrArg Prod.fst hstep

/-! ### Queues and histories -/

/-- The item recorded at a position is neither returned, nor skipped, nor cleared by the calls
before `k`. -/
structure Open (label : α → η) (calls : List (Call κ α η)) (k : Nat) (key : κ) (i : Nat) : Prop where
  before : i < k
  kept : ∀ j, i < j → j < k → calls[j]? ≠ some (.clear key)
  unread : ∀ j i' l, i < j → j < k → calls[j]? = some (.consume key l) →
    origin label calls j = some i' → i' < i

/-- A numbered queue holds what is open, in order. -/
structure Holds (label : α → η) (calls : List (Call κ α η)) (k : Nat) (q : κ → List (Nat × α)) :
    Prop where
  sorted : ∀ key, (q key).Pairwise fun a b => a.1 < b.1
  mem : ∀ key i item, (i, item) ∈ q key ↔
    Open label calls k key i ∧ calls[i]? = some (.record key item)

theorem open_succ {calls : List (Call κ α η)} {k : Nat} {key : κ} {i : Nat} :
    Open label calls (k + 1) key i ↔ i = k ∨ Open label calls k key i ∧
      calls[k]? ≠ some (.clear key) ∧ ∀ i' l, calls[k]? = some (.consume key l) →
        origin label calls k = some i' → i' < i := by
  constructor
  · intro h
    by_cases hi : i = k
    · exact .inl hi
    · have hlt : i < k := by have := h.before; omega
      refine .inr ⟨⟨hlt, fun j h1 h2 => h.kept j h1 (by omega),
        fun j i' l h1 h2 => h.unread j i' l h1 (by omega)⟩, h.kept k hlt (by omega),
        fun i' l => h.unread k i' l hlt (by omega)⟩
  · rintro (rfl | ⟨h, hclear, hread⟩)
    · exact ⟨by omega, fun j h1 h2 => by omega, fun j i' l h1 h2 => by omega⟩
    · refine ⟨by have := h.before; omega, fun j h1 h2 => ?_, fun j i' l h1 h2 => ?_⟩
      · by_cases hj : j = k
        · exact hj ▸ hclear
        · exact h.kept j h1 (by omega)
      · by_cases hj : j = k
        · exact hj ▸ hread i' l
        · exact h.unread j i' l h1 (by omega)

theorem take_succ_after {calls : List (Call κ α η)} {k : Nat} {c : Call κ α η}
    (h : calls[k]? = some c) : after label (calls.take (k + 1))
      = (step label (after label (calls.take k)) c).2 := by
  rw [List.take_add_one, h, Option.toList_some, after_snoc]

omit [DecidableEq κ] [DecidableEq η] in
theorem number_get {calls : List (Call κ α η)} {k : Nat} {c : Call κ α η} (h : calls[k]? = some c) :
    (number calls)[k]? = some (c.map fun item => (k, item)) := by
  rw [number, List.getElem?_mapIdx, h]
  rfl

section Steps
variable {calls : List (Call κ α η)} {k : Nat} {q : κ → List (Nat × α)}

theorem Holds.record {key : κ} {item : α} (h : Holds label calls k q)
    (hc : calls[k]? = some (.record key item)) :
    Holds label calls (k + 1) (Function.update q key (q key ++ [(k, item)])) where
  sorted key' := by
    by_cases hkey : key' = key
    · subst hkey
      rw [Function.update_self, List.pairwise_append]
      refine ⟨h.sorted key', List.pairwise_singleton _ _, fun a ha b hb => ?_⟩
      rw [List.mem_singleton.mp hb]
      exact ((h.mem key' a.1 a.2).mp ha).1.before
    · rw [Function.update_of_ne hkey]
      exact h.sorted key'
  mem key' i item' := by
    have hold : (i, item') ∈ q key' ↔ i ≠ k ∧ Open label calls (k + 1) key' i ∧
        calls[i]? = some (.record key' item') := by
      rw [h.mem, open_succ]
      constructor
      · rintro ⟨hopen, hrec⟩
        have hi : i ≠ k := by have := hopen.before; omega
        exact ⟨hi, .inr ⟨hopen, by simp [hc], by simp [hc]⟩, hrec⟩
      · rintro ⟨hi, hopen | hopen, hrec⟩
        · exact absurd hopen hi
        · exact ⟨hopen.1, hrec⟩
    by_cases hkey : key' = key
    · subst hkey
      rw [Function.update_self, List.mem_append, List.mem_singleton, hold]
      constructor
      · rintro (⟨-, hopen, hrec⟩ | he)
        · exact ⟨hopen, hrec⟩
        · cases he
          exact ⟨open_succ.mpr (.inl rfl), hc⟩
      · rintro ⟨hopen, hrec⟩
        by_cases hi : i = k
        · subst hi
          rw [hc] at hrec
          cases hrec
          exact .inr rfl
        · exact .inl ⟨hi, hopen, hrec⟩
    · rw [Function.update_of_ne hkey, hold]
      constructor
      · exact And.right
      · rintro ⟨hopen, hrec⟩
        refine ⟨?_, hopen, hrec⟩
        rintro rfl
        rw [hc] at hrec
        cases hrec
        exact hkey rfl

theorem Holds.clear {key : κ} (h : Holds label calls k q) (hc : calls[k]? = some (.clear key)) :
    Holds label calls (k + 1) (Function.update q key []) where
  sorted key' := by
    by_cases hkey : key' = key
    · subst hkey
      rw [Function.update_self]
      exact List.Pairwise.nil
    · rw [Function.update_of_ne hkey]
      exact h.sorted key'
  mem key' i item := by
    have hnew : calls[i]? = some (.record key' item) → i ≠ k := by
      rintro hrec rfl
      rw [hc] at hrec
      cases hrec
    by_cases hkey : key' = key
    · subst hkey
      rw [Function.update_self]
      constructor
      · intro hmem
        cases hmem
      · rintro ⟨hopen, hrec⟩
        rcases open_succ.mp hopen with hi | ⟨-, hclear, -⟩
        · exact absurd hi (hnew hrec)
        · exact absurd hc hclear
    · rw [Function.update_of_ne hkey, h.mem, open_succ]
      constructor
      · rintro ⟨hopen, hrec⟩
        refine ⟨.inr ⟨hopen, ?_, by simp [hc]⟩, hrec⟩
        rw [hc]
        rintro he
        cases he
        exact hkey rfl
      · rintro ⟨hi | hopen, hrec⟩
        · exact absurd hi (hnew hrec)
        · exact ⟨hopen.1, hrec⟩

theorem Holds.failed {key : κ} {l : η} (h : Holds label calls k q)
    (hc : calls[k]? = some (.consume key l)) (ho : origin label calls k = none) :
    Holds label calls (k + 1) q where
  sorted := h.sorted
  mem key' i item := by
    rw [h.mem, open_succ]
    constructor
    · rintro ⟨hopen, hrec⟩
      exact ⟨.inr ⟨hopen, by simp [hc], by simp [ho]⟩, hrec⟩
    · rintro ⟨hi | hopen, hrec⟩
      · subst hi
        rw [hc] at hrec
        cases hrec
      · exact ⟨hopen.1, hrec⟩

/-- A consume that returns an item closes it and what stood before it. -/
theorem Holds.consumed {key : κ} {l : η} {i₀ : Nat} {item₀ : α} {skipped rest : List (Nat × α)}
    (h : Holds label calls k q) (hc : calls[k]? = some (.consume key l))
    (ho : origin label calls k = some i₀) (hq : q key = skipped ++ (i₀, item₀) :: rest) :
    Holds label calls (k + 1) (Function.update q key rest) := by
  have hsorted := h.sorted key
  rw [hq, List.pairwise_append, List.pairwise_cons] at hsorted
  obtain ⟨-, ⟨hafter, hrest⟩, hbefore⟩ := hsorted
  have hrest_iff : ∀ i item, (i, item) ∈ rest ↔ (i, item) ∈ q key ∧ i₀ < i := by
    intro i item
    rw [hq, List.mem_append, List.mem_cons]
    constructor
    · exact fun hmem => ⟨.inr (.inr hmem), hafter _ hmem⟩
    · rintro ⟨hmem | he | hmem, hlt⟩
      · have hless := hbefore _ hmem _ List.mem_cons_self
        simp only at hless
        omega
      · cases he
        omega
      · exact hmem
  have hnew : ∀ key' i item, calls[i]? = some (.record key' item) → i ≠ k := by
    rintro key' i item hrec rfl
    rw [hc] at hrec
    cases hrec
  refine ⟨fun key' => ?_, fun key' i item => ?_⟩
  · by_cases hkey : key' = key
    · subst hkey
      rwa [Function.update_self]
    · rw [Function.update_of_ne hkey]
      exact h.sorted key'
  · by_cases hkey : key' = key
    · subst hkey
      rw [Function.update_self, hrest_iff, h.mem, open_succ]
      constructor
      · rintro ⟨⟨hopen, hrec⟩, hlt⟩
        refine ⟨.inr ⟨hopen, by simp [hc], fun i' l' _ ho' => ?_⟩, hrec⟩
        rw [ho] at ho'
        cases ho'
        exact hlt
      · rintro ⟨hi | ⟨hopen, -, hread⟩, hrec⟩
        · exact absurd hi (hnew _ _ _ hrec)
        · exact ⟨⟨hopen, hrec⟩, hread i₀ l hc ho⟩
    · rw [Function.update_of_ne hkey, h.mem, open_succ]
      constructor
      · rintro ⟨hopen, hrec⟩
        refine ⟨.inr ⟨hopen, by simp [hc], fun i' l' he => ?_⟩, hrec⟩
        rw [hc] at he
        cases he
        exact absurd rfl hkey
      · rintro ⟨hi | hopen, hrec⟩
        · exact absurd hi (hnew _ _ _ hrec)
        · exact ⟨hopen.1, hrec⟩

end Steps

theorem origin_eq {calls : List (Call κ α η)} {k : Nat} {c : Call κ α η} (hc : calls[k]? = some c) :
    origin label calls k = (step (label ∘ Prod.snd) (after (label ∘ Prod.snd) ((number calls).take k))
      (c.map fun item => (k, item))).1.map Prod.fst := by
  rw [origin, returned, number_get hc]
  rfl

theorem after_holds (label : α → η) (calls : List (Call κ α η)) {k : Nat} (hk : k ≤ calls.length) :
    Holds label calls k (after (label ∘ Prod.snd) ((number calls).take k)) := by
  induction k with
  | zero =>
    refine ⟨fun key => List.Pairwise.nil, fun key i item => ⟨fun h => ?_, fun h => ?_⟩⟩
    · cases h
    · exact absurd h.1.before (by omega)
  | succ k ih =>
    have hprev := ih (by omega)
    obtain ⟨c, hc⟩ : ∃ c, calls[k]? = some c := ⟨_, List.getElem?_eq_getElem (by omega)⟩
    have horigin : origin label calls k = _ := origin_eq hc
    rw [take_succ_after (number_get hc)]
    generalize after (label ∘ Prod.snd) ((number calls).take k) = q at *
    cases c with
    | record key item => exact hprev.record hc
    | clear key => exact hprev.clear hc
    | consume key l =>
      simp only [Call.map, step] at horigin ⊢
      cases hread : read (label ∘ Prod.snd) l (q key) with
      | none =>
        rw [hread] at horigin
        exact hprev.failed hc horigin
      | some r =>
        obtain ⟨⟨i₀, item₀⟩, rest⟩ := r
        rw [hread] at horigin
        obtain ⟨-, skipped, hq⟩ := read_some hread
        exact hprev.consumed hc horigin hq

/-! ### What a history returns -/

section History
variable {calls : List (Call κ α η)} {k : Nat} {key : κ} {l : η}

/-- What a consume returns was open, and has the label. -/
theorem origin_consume (hc : calls[k]? = some (.consume key l)) {i : Nat}
    (ho : origin label calls k = some i) :
    Open label calls k key i ∧ ∃ item, calls[i]? = some (.record key item) ∧ label item = l ∧
      returned label calls k = some item := by
  have hk : k < calls.length := (List.getElem?_eq_some_iff.mp hc).1
  have hholds := after_holds label calls (Nat.le_of_lt hk)
  have hret : returned label calls k = _ := returned_eq calls k
  have hreturned : returned (label ∘ Prod.snd) (number calls) k
      = (step (label ∘ Prod.snd) (after (label ∘ Prod.snd) ((number calls).take k))
          (.consume key l)).1 := by
    rw [returned, number_get hc]
    rfl
  rw [origin, hreturned] at ho
  rw [hreturned] at hret
  simp only [step] at ho hret
  cases hread : read (label ∘ Prod.snd) l (after (label ∘ Prod.snd) ((number calls).take k) key) with
  | none =>
    rw [hread] at ho
    cases ho
  | some r =>
    obtain ⟨⟨i₀, item₀⟩, rest⟩ := r
    rw [hread] at ho hret
    cases ho
    obtain ⟨hlabel, skipped, hq⟩ := read_some hread
    have hmem : (i₀, item₀) ∈ after (label ∘ Prod.snd) ((number calls).take k) key := by
      rw [hq]
      simp
    obtain ⟨hopen, hrec⟩ := (hholds.mem key i₀ item₀).mp hmem
    exact ⟨hopen, item₀, hrec, hlabel, hret⟩

theorem origin_none (hc : calls[k]? = some (.consume key l)) :
    origin label calls k = none ↔ ¬ ∃ i item, Open label calls k key i ∧
      calls[i]? = some (.record key item) ∧ label item = l := by
  have hk : k < calls.length := (List.getElem?_eq_some_iff.mp hc).1
  have hholds := after_holds label calls (Nat.le_of_lt hk)
  have hnone : origin label calls k = none ↔
      read (label ∘ Prod.snd) l (after (label ∘ Prod.snd) ((number calls).take k) key) = none := by
    rw [origin_eq hc]
    simp only [Call.map, step]
    cases read (label ∘ Prod.snd) l (after (label ∘ Prod.snd) ((number calls).take k) key) <;> simp
  rw [hnone, read_none]
  constructor
  · rintro h ⟨i, item, hopen, hrec, hlabel⟩
    exact h (i, item) ((hholds.mem key i item).mpr ⟨hopen, hrec⟩) hlabel
  · rintro h ⟨i, item⟩ hmem hlabel
    obtain ⟨hopen, hrec⟩ := (hholds.mem key i item).mp hmem
    exact h ⟨i, item, hopen, hrec, hlabel⟩

theorem origin_isConsume {i : Nat} (ho : origin label calls k = some i) :
    ∃ key l, calls[k]? = some (.consume key l) := by
  cases hc : calls[k]? with
  | none =>
    rw [origin, returned, number, List.getElem?_mapIdx, hc] at ho
    cases ho
  | some c =>
    rw [origin_eq hc] at ho
    cases c with
    | record key item => cases ho
    | clear key => cases ho
    | consume key l => exact ⟨key, l, rfl⟩

/-- Under one key the items come out in the order in which they were recorded. -/
theorem origin_increasing {k' i i' : Nat} {l' : η} (hc : calls[k]? = some (.consume key l))
    (hc' : calls[k']? = some (.consume key l')) (ho : origin label calls k = some i)
    (ho' : origin label calls k' = some i') (hlt : k < k') : i < i' := by
  obtain ⟨hopen, -, hrec, -⟩ := origin_consume hc ho
  obtain ⟨hopen', -, hrec', -⟩ := origin_consume hc' ho'
  by_cases hle : k ≤ i'
  · exact lt_of_lt_of_le hopen.before hle
  · exact hopen'.unread k i l (by omega) hlt hc ho

theorem origin_injective {k' i : Nat} (ho : origin label calls k = some i)
    (ho' : origin label calls k' = some i) : k = k' := by
  obtain ⟨key, l, hc⟩ := origin_isConsume ho
  obtain ⟨key', l', hc'⟩ := origin_isConsume ho'
  obtain ⟨-, item, hrec, -⟩ := origin_consume hc ho
  obtain ⟨-, item', hrec', -⟩ := origin_consume hc' ho'
  rw [hrec] at hrec'
  cases hrec'
  rcases Nat.lt_trichotomy k k' with hlt | he | hlt
  · exact absurd (origin_increasing hc hc' ho ho' hlt) (Nat.lt_irrefl _)
  · exact he
  · exact absurd (origin_increasing hc' hc ho' ho hlt) (Nat.lt_irrefl _)

end History

end Runs

end SkipQueue
