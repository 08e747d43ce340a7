import Mathlib.Data.List.Nodup

/-!
# Indexing the items of a list by a key

One pass keeps the first item of each known key and sets the keys aside that are unknown or were
there before. Nothing is set aside exactly when the keys are known and pairwise different; then the
index is the list.
-/

structure FirstIndex (α κ : Type) where
  indexed : List α
  duplicates : List κ
  unknown : List κ

namespace FirstIndex
variable {α κ : Type} [DecidableEq κ] {key : α → κ} {known : κ → Bool}

def empty : FirstIndex α κ := ⟨[], [], []⟩

def get (key : α → κ) (s : FirstIndex α κ) (k : κ) : Option α := s.indexed.find? fun x => key x = k

def add (key : α → κ) (known : κ → Bool) (s : FirstIndex α κ) (x : α) : FirstIndex α κ :=
  if known (key x) = false then { s with unknown := s.unknown ++ [key x] }
  else if (s.get key (key x)).isSome then { s with duplicates := s.duplicates ++ [key x] }
  else { s with indexed := s.indexed ++ [x] }

def index (key : α → κ) (known : κ → Bool) (l : List α) : FirstIndex α κ :=
  l.foldl (add key known) empty

/-- No key was set aside. -/
def Clean (s : FirstIndex α κ) : Prop := s.duplicates = [] ∧ s.unknown = []

theorem get_isSome {s : FirstIndex α κ} {k : κ} :
    (s.get key k).isSome ↔ k ∈ s.indexed.map key := by
  simp [get, List.find?_isSome]

theorem add_clean {s : FirstIndex α κ} {x : α} : (s.add key known x).Clean ↔
    s.Clean ∧ known (key x) = true ∧ key x ∉ s.indexed.map key := by
  rw [add]
  split
  · rename_i hunknown
    simp [Clean, hunknown]
  · rename_i hknown
    have htrue : known (key x) = true := by simpa using hknown
    split
    · rename_i hseen
      rw [get_isSome] at hseen
      simp [Clean, hseen]
    · rename_i hnew
      rw [get_isSome] at hnew
      simp [Clean, htrue, hnew]

theorem add_indexed {s : FirstIndex α κ} {x : α} (h : (s.add key known x).Clean) :
    (s.add key known x).indexed = s.indexed ++ [x] := by
  obtain ⟨-, hknown, hnew⟩ := add_clean.mp h
  rw [← get_isSome] at hnew
  rw [add, if_neg (by simp [hknown]), if_neg hnew]

theorem foldl_clean (l : List α) (s : FirstIndex α κ) : (l.foldl (add key known) s).Clean ↔
    s.Clean ∧ (∀ x ∈ l, known (key x) = true) ∧ (l.map key).Nodup ∧
      ∀ x ∈ l, key x ∉ s.indexed.map key := by
  induction l generalizing s with
  | nil => simp
  | cons x l ih =>
    rw [List.foldl_cons, ih]
    constructor
    · rintro ⟨hadd, hknown, hnodup, hnew⟩
      obtain ⟨hs, hx, hfresh⟩ := add_clean.mp hadd
      rw [add_indexed hadd] at hnew
      refine ⟨hs, ?_, ?_, ?_⟩
      · rintro y (_ | ⟨_, hy⟩)
        · exact hx
        · exact hknown y hy
      · rw [List.map_cons, List.nodup_cons]
        refine ⟨fun hmem => ?_, hnodup⟩
        obtain ⟨y, hy, heq⟩ := List.mem_map.mp hmem
        exact hnew y hy (by simp [heq])
      · rintro y (_ | ⟨_, hy⟩)
        · exact hfresh
        · exact fun hmem => hnew y hy (by rw [List.map_append]; exact List.mem_append_left _ hmem)
    · rintro ⟨hs, hknown, hnodup, hnew⟩
      have hadd : (s.add key known x).Clean :=
        add_clean.mpr ⟨hs, hknown x List.mem_cons_self, hnew x List.mem_cons_self⟩
      rw [List.map_cons, List.nodup_cons] at hnodup
      refine ⟨hadd, fun y hy => hknown y (List.mem_cons_of_mem _ hy), hnodup.2, fun y hy hmem => ?_⟩
      rw [add_indexed hadd, List.map_append, List.mem_append] at hmem
      rcases hmem with hmem | hmem
      · exact hnew y (List.mem_cons_of_mem _ hy) hmem
      · have heq : key y = key x := by simpa using hmem
        exact hnodup.1 (List.mem_map.mpr ⟨y, hy, heq⟩)

theorem foldl_indexed (l : List α) (s : FirstIndex α κ) (h : (l.foldl (add key known) s).Clean) :
    (l.foldl (add key known) s).indexed = s.indexed ++ l := by
  induction l generalizing s with
  | nil => simp
  | cons x l ih =>
    have hadd : (s.add key known x).Clean := ((foldl_clean l _).mp h).1
    rw [List.foldl_cons] at h ⊢
    rw [ih _ h, add_indexed hadd, List.append_assoc, List.singleton_append]

theorem foldl_mem (l : List α) (s : FirstIndex α κ) {x : α}
    (h : x ∈ (l.foldl (add key known) s).indexed) : x ∈ s.indexed ∨ x ∈ l := by
  induction l generalizing s with
  | nil => exact .inl h
  | cons y l ih =>
    rcases ih _ h with hadd | hl
    · rw [add] at hadd
      split at hadd
      · exact .inl hadd
      · split at hadd
        · exact .inl hadd
        · rcases List.mem_append.mp hadd with hs | hy
          · exact .inl hs
          · exact .inr (List.mem_singleton.mp hy ▸ List.mem_cons_self)
    · exact .inr (List.mem_cons_of_mem _ hl)

theorem get_mem {l : List α} {k : κ} {x : α} (h : (index key known l).get key k = some x) : x ∈ l := by
  rcases foldl_mem l empty (List.mem_of_find?_eq_some h) with hempty | hl
  · cases hempty
  · exact hl

theorem index_clean {l : List α} : (index key known l).Clean ↔
    (∀ x ∈ l, known (key x) = true) ∧ (l.map key).Nodup := by
  rw [index, foldl_clean]
  simp [empty, Clean]

theorem index_get {l : List α} (h : (index key known l).Clean) (k : κ) :
    (index key known l).get key k = l.find? fun x => key x = k := by
  rw [get, index, foldl_indexed l empty h]
  rfl

end FirstIndex
