import SibylMemory.Library.PyValue

/-!
# Keys at any depth of a value

`KeyIn P v`: some mapping inside `v`, however deep, has a key with `P`. What is
read back after `json.dumps` has the same keys, since tuples come back as lists
and sorting only reorders a mapping.
-/

namespace PyValue

inductive KeyIn (P : String → Prop) : PyValue → Prop
  | key {es k v} : (k, v) ∈ es → P k → KeyIn P (.dict es)
  | entry {es k v} : (k, v) ∈ es → KeyIn P v → KeyIn P (.dict es)
  | item {xs x} : x ∈ xs → KeyIn P x → KeyIn P (.list xs)
  | component {xs x} : x ∈ xs → KeyIn P x → KeyIn P (.tuple xs)

/-- Such a key with a tuple on the way to it. -/
inductive KeyBelowTuple (P : String → Prop) : PyValue → Prop
  | entry {es k v} : (k, v) ∈ es → KeyBelowTuple P v → KeyBelowTuple P (.dict es)
  | item {xs x} : x ∈ xs → KeyBelowTuple P x → KeyBelowTuple P (.list xs)
  | component {xs x} : x ∈ xs → KeyIn P x → KeyBelowTuple P (.tuple xs)

section Keys
variable {P : String → Prop}

theorem keyIn_list {xs : List PyValue} : KeyIn P (.list xs) ↔ ∃ x ∈ xs, KeyIn P x := by
  constructor
  · rintro ⟨⟩
    exact ⟨_, ‹_›, ‹_›⟩
  · rintro ⟨x, hx, h⟩
    exact .item hx h

theorem keyIn_tuple {xs : List PyValue} : KeyIn P (.tuple xs) ↔ ∃ x ∈ xs, KeyIn P x := by
  constructor
  · rintro ⟨⟩
    exact ⟨_, ‹_›, ‹_›⟩
  · rintro ⟨x, hx, h⟩
    exact .component hx h

theorem keyIn_dict {es : List (String × PyValue)} :
    KeyIn P (.dict es) ↔ ∃ e ∈ es, P e.1 ∨ KeyIn P e.2 := by
  constructor
  · intro h
    cases h with
    | key he hk => exact ⟨_, he, .inl hk⟩
    | entry he hv => exact ⟨_, he, .inr hv⟩
  · rintro ⟨⟨k, v⟩, he, h | h⟩
    · exact .key he h
    · exact .entry he h

theorem KeyBelowTuple.keyIn {v : PyValue} (h : KeyBelowTuple P v) : KeyIn P v := by
  induction h with
  | entry he _ ih => exact .entry he ih
  | item hx _ ih => exact .item hx ih
  | component hx hk => exact .component hx hk

mutual
theorem keyIn_canonical : ∀ (v : PyValue) {w : PyValue}, canonical v = some w →
    (KeyIn P w ↔ KeyIn P v)
  | .none, _, h => by cases h; rfl
  | .bool _, _, h => by cases h; rfl
  | .int _, _, h => by cases h; rfl
  | .float (.finite _), _, h => by cases h; rfl
  | .float .nan, _, h => by cases h
  | .float .inf, _, h => by cases h
  | .float .negInf, _, h => by cases h
  | .str _, _, h => by cases h; rfl
  | .list xs, _, h => by
    obtain ⟨ys, hys, rfl⟩ := Option.map_eq_some_iff.mp h
    rw [keyIn_list, keyIn_list]
    exact keyIn_canonicalList xs hys
  | .tuple xs, _, h => by
    obtain ⟨ys, hys, rfl⟩ := Option.map_eq_some_iff.mp h
    rw [keyIn_list, keyIn_tuple]
    exact keyIn_canonicalList xs hys
  | .dict es, _, h => by
    obtain ⟨es', hes, rfl⟩ := Option.map_eq_some_iff.mp h
    rw [keyIn_dict, keyIn_dict]
    simp only [mem_sortEntries]
    exact keyIn_canonicalEntries es hes

theorem keyIn_canonicalList : ∀ (xs : List PyValue) {ys : List PyValue},
    canonicalList xs = some ys → ((∃ y ∈ ys, KeyIn P y) ↔ ∃ x ∈ xs, KeyIn P x)
  | [], _, h => by cases h; rfl
  | x :: xs, _, h => by
    simp only [canonicalList, Option.bind_eq_bind, Option.bind_eq_some_iff, Option.some.injEq] at h
    obtain ⟨y, hy, ys, hys, rfl⟩ := h
    simp only [List.exists_mem_cons_iff, keyIn_canonical x hy, keyIn_canonicalList xs hys]

theorem keyIn_canonicalEntries : ∀ (es : List (String × PyValue)) {es' : List (String × PyValue)},
    canonicalEntries es = some es' →
    ((∃ e ∈ es', P e.1 ∨ KeyIn P e.2) ↔ ∃ e ∈ es, P e.1 ∨ KeyIn P e.2)
  | [], _, h => by cases h; rfl
  | (k, x) :: es, _, h => by
    simp only [canonicalEntries, Option.bind_eq_bind, Option.bind_eq_some_iff, Option.some.injEq] at h
    obtain ⟨y, hy, es', hes, rfl⟩ := h
    simp only [List.exists_mem_cons_iff, keyIn_canonical x hy, keyIn_canonicalEntries es hes]
end

end Keys

end PyValue
