import Mathlib.Data.List.Nodup
import Mathlib.Data.List.Perm.Basic

/-!
# Tables with a primary key

A table is a list of rows, in insertion order, in which no two rows share a
key: the constraint a database enforces is a field, so a table that breaks it
cannot be built. The operations are the statements that act on one table
(insert, update, delete, select by key), and every lemma says what a statement
does to the partial map `find` from keys to rows.
-/

/-- Rows in insertion order, with pairwise different keys. -/
structure KeyedTable {ρ κ : Type} (key : ρ → κ) where
  rows : List ρ
  nodup : (rows.map key).Nodup

namespace KeyedTable
variable {ρ κ : Type} {key : ρ → κ}

@[ext] theorem ext {t u : KeyedTable key} (h : t.rows = u.rows) : t = u := by
  cases t
  cases u
  simp_all

def empty : KeyedTable key := ⟨[], List.nodup_nil⟩

instance : Inhabited (KeyedTable key) := ⟨empty⟩

theorem key_inj (t : KeyedTable key) {r r' : ρ} (hr : r ∈ t.rows) (hr' : r' ∈ t.rows)
    (h : key r = key r') : r = r' :=
  List.inj_on_of_nodup_map t.nodup hr hr' h

/-- `UPDATE … SET … WHERE p`, for an assignment that leaves the key alone. -/
def update (t : KeyedTable key) (p : ρ → Bool) (f : ρ → ρ) (hf : ∀ r, key (f r) = key r) :
    KeyedTable key :=
  ⟨t.rows.map fun r => if p r then f r else r, by
    have h : (t.rows.map fun r => if p r then f r else r).map key = t.rows.map key := by
      simp only [List.map_map]
      apply List.map_congr_left
      intro r _
      simp only [Function.comp]
      split <;> simp [hf]
    rw [h]
    exact t.nodup⟩

theorem update_of_none (t : KeyedTable key) {p : ρ → Bool} (f : ρ → ρ)
    (hf : ∀ r, key (f r) = key r) (h : ∀ r ∈ t.rows, p r = false) : t.update p f hf = t := by
  have hm : (t.rows.map fun r => if p r then f r else r) = t.rows.map id :=
    List.map_congr_left fun r hr => by simp [h r hr]
  exact ext (hm.trans (List.map_id _))

def deleteWhere (t : KeyedTable key) (p : ρ → Bool) : KeyedTable key :=
  ⟨t.rows.filter fun r => !p r, t.nodup.sublist (List.Sublist.map _ List.filter_sublist)⟩

section Lookup
variable [DecidableEq κ]

def find (t : KeyedTable key) (k : κ) : Option ρ := t.rows.find? fun r => key r = k

/-- `INSERT`: fails on a key that is taken. -/
def insert (t : KeyedTable key) (r : ρ) : Option (KeyedTable key) :=
  if h : key r ∈ t.rows.map key then none
  else some ⟨t.rows ++ [r], by
    rw [List.map_append, List.map_cons, List.map_nil]
    exact List.nodup_append.mpr ⟨t.nodup, List.nodup_singleton _, by
      intro a ha b hb
      rw [List.mem_singleton] at hb
      subst hb
      exact fun he => h (he ▸ ha)⟩⟩

@[simp] theorem find_empty (k : κ) : (empty : KeyedTable key).find k = none := rfl

theorem find_eq_some_iff (t : KeyedTable key) (k : κ) (r : ρ) :
    t.find k = some r ↔ r ∈ t.rows ∧ key r = k := by
  constructor
  · intro h
    exact ⟨List.mem_of_find?_eq_some h, by simpa using List.find?_some h⟩
  · rintro ⟨hr, rfl⟩
    cases hf : t.find (key r) with
    | none =>
      have hne := List.find?_eq_none.mp hf r hr
      simp at hne
    | some r' =>
      have hk : key r' = key r := by simpa using List.find?_some hf
      rw [t.key_inj (List.mem_of_find?_eq_some hf) hr hk]

theorem find_eq_none_iff (t : KeyedTable key) (k : κ) :
    t.find k = none ↔ ∀ r ∈ t.rows, key r ≠ k := by
  simp [find, List.find?_eq_none]

theorem find_key {t : KeyedTable key} {k : κ} {r : ρ} (h : t.find k = some r) : key r = k :=
  ((t.find_eq_some_iff k r).mp h).2

theorem find_mem {t : KeyedTable key} {k : κ} {r : ρ} (h : t.find k = some r) : r ∈ t.rows :=
  ((t.find_eq_some_iff k r).mp h).1

theorem find_of_mem {t : KeyedTable key} {r : ρ} (h : r ∈ t.rows) : t.find (key r) = some r :=
  (t.find_eq_some_iff _ _).mpr ⟨h, rfl⟩

theorem filter_eq_singleton {t : KeyedTable key} {k : κ} {r : ρ} (h : t.find k = some r)
    {p : ρ → Bool} (hp : p r = true) (hkey : ∀ x, p x = true → key x = k) :
    t.rows.filter p = [r] := by
  have hnodup : (t.rows.filter p).Nodup := (List.Nodup.of_map key t.nodup).filter p
  refine List.perm_singleton.mp ((List.perm_ext_iff_of_nodup hnodup (List.nodup_singleton r)).mpr ?_)
  intro x
  rw [List.mem_filter, List.mem_singleton]
  constructor
  · rintro ⟨hx, hpx⟩
    exact t.key_inj hx (find_mem h) ((hkey x hpx).trans (find_key h).symm)
  · rintro rfl
    exact ⟨find_mem h, hp⟩

theorem insert_eq_some_iff (t t' : KeyedTable key) (r : ρ) :
    t.insert r = some t' ↔ t.find (key r) = none ∧ t'.rows = t.rows ++ [r] := by
  have hmem : key r ∈ t.rows.map key ↔ t.find (key r) ≠ none := by
    rw [ne_eq, find_eq_none_iff]
    simp [List.mem_map]
  unfold insert
  split
  · rename_i h
    simp [hmem.mp h]
  · rename_i h
    have hn : t.find (key r) = none := by simpa using fun hc => h (hmem.mpr hc)
    constructor
    · intro he
      cases he
      exact ⟨hn, rfl⟩
    · rintro ⟨-, hr⟩
      exact congrArg some (ext hr.symm)

theorem insert_isSome (t : KeyedTable key) (r : ρ) (h : t.find (key r) = none) :
    ∃ t', t.insert r = some t' ∧ t'.rows = t.rows ++ [r] := by
  cases hi : t.insert r with
  | some t' => exact ⟨t', rfl, ((insert_eq_some_iff t t' r).mp hi).2⟩
  | none =>
    exfalso
    unfold insert at hi
    split at hi
    · rename_i hk
      obtain ⟨r', hr', he⟩ := List.mem_map.mp hk
      exact (find_eq_none_iff t _).mp h r' hr' he
    · cases hi

theorem find_insert {t t' : KeyedTable key} {r : ρ} (h : t.insert r = some t') (k : κ) :
    t'.find k = if k = key r then some r else t.find k := by
  obtain ⟨hn, hr⟩ := (insert_eq_some_iff t t' r).mp h
  have hrows : t'.find k = (t.rows ++ [r]).find? fun r => key r = k := by rw [find, hr]
  rw [hrows, List.find?_append]
  by_cases hk : k = key r
  · subst hk
    rw [if_pos rfl]
    have : t.rows.find? (fun r_1 => key r_1 = key r) = none := hn
    rw [this]
    simp
  · rw [if_neg hk]
    have hk' : key r ≠ k := fun he => hk he.symm
    simp [find, hk']

theorem find_insert_cases {t t' : KeyedTable key} {r x : ρ} {k : κ} (h : t.insert r = some t')
    (hx : t'.find k = some x) : k = key r ∧ x = r ∨ t.find k = some x := by
  rw [find_insert h] at hx
  split at hx
  · rename_i hk
    exact .inl ⟨hk, (Option.some.inj hx).symm⟩
  · exact .inr hx

theorem find_insert_kept {t t' : KeyedTable key} {r x : ρ} {k : κ} (h : t.insert r = some t')
    (hx : t.find k = some x) : t'.find k = some x := by
  have hne : k ≠ key r := by
    rintro rfl
    rw [((insert_eq_some_iff t t' r).mp h).1] at hx
    cases hx
  rw [find_insert h, if_neg hne, hx]

theorem find_update (t : KeyedTable key) (p : ρ → Bool) (f : ρ → ρ)
    (hf : ∀ r, key (f r) = key r) (k : κ) :
    (t.update p f hf).find k = (t.find k).map fun r => if p r then f r else r := by
  have hkey : ∀ r, key (if p r then f r else r) = key r := by
    intro r
    split <;> simp [hf]
  simp only [find, update, List.find?_map]
  congr 1
  apply congrArg (List.find? · t.rows)
  funext r
  simp [hkey]

theorem find_deleteWhere (t : KeyedTable key) (p : ρ → Bool) (k : κ) :
    (t.deleteWhere p).find k = (t.find k).filter fun r => !p r := by
  cases hf : t.find k with
  | none =>
    rw [Option.filter_none, find_eq_none_iff]
    intro r hr
    exact (find_eq_none_iff t k).mp hf r (List.mem_filter.mp hr).1
  | some r =>
    obtain ⟨hr, hk⟩ := (find_eq_some_iff t k r).mp hf
    cases hp : p r with
    | false =>
      rw [Option.filter_some, if_pos (by simp [hp])]
      exact (find_eq_some_iff _ _ _).mpr ⟨List.mem_filter.mpr ⟨hr, by simp [hp]⟩, hk⟩
    | true =>
      rw [Option.filter_some, if_neg (by simp [hp]), find_eq_none_iff]
      intro r' hr' hk'
      obtain ⟨hm, hnp⟩ := List.mem_filter.mp hr'
      have he : r' = r := t.key_inj hm hr (hk'.trans hk.symm)
      subst he
      simp [hp] at hnp

def delete (t : KeyedTable key) (k : κ) : KeyedTable key := t.deleteWhere fun r => key r = k

theorem find_delete (t : KeyedTable key) (k k' : κ) :
    (t.delete k).find k' = if k' = k then none else t.find k' := by
  rw [delete, find_deleteWhere]
  cases hf : t.find k' with
  | none => simp
  | some r =>
    have hk := find_key hf
    by_cases h : k' = k
    · subst h
      simp [hk]
    · simp [hk, h]

end Lookup

theorem mem_update (t : KeyedTable key) (p : ρ → Bool) (f : ρ → ρ)
    (hf : ∀ r, key (f r) = key r) (x : ρ) :
    x ∈ (t.update p f hf).rows ↔ ∃ r ∈ t.rows, (if p r then f r else r) = x := by
  simp [update]

end KeyedTable
