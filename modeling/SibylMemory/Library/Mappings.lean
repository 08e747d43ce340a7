import SibylMemory.Library.PyValue

/-!
# Mappings as functions of their keys

Two mappings with different keys and the same lookups differ only in the order of
their items, and are read back as the same value.
-/

namespace PyValue

def Distinct (es : List (String × PyValue)) : Prop := (es.map Prod.fst).Nodup

theorem lookup_mem {es : List (String × PyValue)} {k : String} {v : PyValue}
    (h : lookup k es = some v) : (k, v) ∈ es := by
  induction es with
  | nil => cases h
  | cons e es ih =>
    obtain ⟨k', v'⟩ := e
    rw [lookup] at h
    split at h
    · rename_i hk
      cases h
      rw [hk]
      exact List.mem_cons_self
    · exact List.mem_cons_of_mem _ (ih h)

theorem lookup_of_mem {es : List (String × PyValue)} (hd : Distinct es) {k : String} {v : PyValue}
    (h : (k, v) ∈ es) : lookup k es = some v := by
  induction es with
  | nil => cases h
  | cons e es ih =>
    obtain ⟨k', v'⟩ := e
    obtain ⟨hk', hes⟩ := List.nodup_cons.mp hd
    rw [lookup]
    rcases List.mem_cons.mp h with he | hmem
    · cases he
      exact if_pos rfl
    · have hne : k' ≠ k := by
        rintro rfl
        exact hk' (List.mem_map.mpr ⟨_, hmem, rfl⟩)
      rw [if_neg hne]
      exact ih hes hmem

theorem mem_iff_lookup {es : List (String × PyValue)} (hd : Distinct es) (e : String × PyValue) :
    e ∈ es ↔ lookup e.1 es = some e.2 := ⟨lookup_of_mem hd, lookup_mem⟩

theorem lookup_perm {es es' : List (String × PyValue)} (hd : Distinct es) (h : es.Perm es')
    (k : String) : lookup k es = lookup k es' := by
  have hd' : Distinct es' := (h.map Prod.fst).nodup_iff.mp hd
  apply Option.ext
  intro v
  rw [← mem_iff_lookup hd (k, v), ← mem_iff_lookup hd' (k, v), h.mem_iff]

theorem perm_of_lookup {es es' : List (String × PyValue)} (hd : Distinct es) (hd' : Distinct es')
    (h : ∀ k, lookup k es = lookup k es') : es.Perm es' := by
  rw [List.perm_ext_iff_of_nodup (List.Nodup.of_map _ hd) (List.Nodup.of_map _ hd')]
  intro e
  rw [mem_iff_lookup hd, mem_iff_lookup hd', h]

theorem canonicalEntries_keys {es es' : List (String × PyValue)}
    (h : canonicalEntries es = some es') : es'.map Prod.fst = es.map Prod.fst := by
  induction es generalizing es' with
  | nil =>
    cases h
    rfl
  | cons e es ih =>
    obtain ⟨k, x⟩ := e
    simp only [canonicalEntries, Option.bind_eq_bind, Option.bind_eq_some_iff, Option.some.injEq] at h
    obtain ⟨y, -, es', hes, rfl⟩ := h
    rw [List.map_cons, List.map_cons, ih hes]

theorem distinct_canonical {es es' : List (String × PyValue)} (hd : Distinct es)
    (h : (PyValue.dict es).canonical = some (.dict es')) : Distinct es' := by
  obtain ⟨ces, hces, he⟩ := Option.map_eq_some_iff.mp h
  cases he
  have hperm : ((sortEntries ces).map Prod.fst).Perm (ces.map Prod.fst) :=
    (List.perm_insertionSort _ ces).map _
  rw [Distinct, hperm.nodup_iff, canonicalEntries_keys hces]
  exact hd

theorem distinct_assign {es : List (String × PyValue)} (hd : Distinct es) (key : String)
    (value : PyValue) : Distinct (assign key value es) := by
  have hkeys : ∀ es : List (String × PyValue), ∀ k ∈ (assign key value es).map Prod.fst,
      k = key ∨ k ∈ es.map Prod.fst := by
    intro es
    induction es with
    | nil => simp [assign]
    | cons e es ih =>
      obtain ⟨k', v'⟩ := e
      intro k hk
      rw [assign] at hk
      split at hk
      · exact .inr hk
      · rcases List.mem_cons.mp hk with rfl | hk
        · exact .inr List.mem_cons_self
        · exact (ih k hk).imp_right (List.mem_cons_of_mem _)
  induction es with
  | nil => simp [assign, Distinct]
  | cons e es ih =>
    obtain ⟨k', v'⟩ := e
    obtain ⟨hk', hes⟩ := List.nodup_cons.mp hd
    rw [assign]
    split
    · exact List.nodup_cons.mpr ⟨hk', hes⟩
    · rename_i hne
      refine List.nodup_cons.mpr ⟨fun hmem => ?_, ih hes⟩
      rcases hkeys es _ hmem with he | hmem
      · exact hne he
      · exact hk' hmem

theorem sortEntries_perm {es es' : List (String × PyValue)} (hd : Distinct es) (h : es.Perm es') :
    sortEntries es = sortEntries es' := by
  have : Std.Total fun a b : String × PyValue => keyLe a b = true := ⟨keyLe_total⟩
  have : IsTrans (String × PyValue) fun a b => keyLe a b = true := ⟨keyLe_trans⟩
  refine List.Perm.eq_of_pairwise (fun a b ha hb hab hba => ?_) (List.pairwise_insertionSort _ es)
    (List.pairwise_insertionSort _ es')
    (((List.perm_insertionSort _ es).trans h).trans (List.perm_insertionSort _ es').symm)
  -- items with the same key are the same item
  have hkey : a.1 = b.1 := String.le_antisymm (by simpa [keyLe] using hab) (by simpa [keyLe] using hba)
  have hb' : b ∈ es := h.mem_iff.mpr (mem_sortEntries.mp hb)
  exact List.inj_on_of_nodup_map hd (mem_sortEntries.mp ha) hb' hkey

theorem canonical_of_lookup {es es' : List (String × PyValue)} {w : PyValue} (hd : Distinct es)
    (hd' : Distinct es') (hw : (PyValue.dict es').canonical = some w)
    (h : ∀ k, (lookup k es).map canonical = (lookup k es').map canonical) :
    (PyValue.dict es).canonical = some w := by
  obtain ⟨ws, rfl⟩ := canonical_dict_shape hw
  have hvalues : ∀ e ∈ es, e.2.canonical.isSome := by
    intro e he
    have hk := h e.1
    rw [lookup_of_mem hd he, Option.map_some, eq_comm, Option.map_eq_some_iff] at hk
    obtain ⟨v, hv, hcanonical⟩ := hk
    obtain ⟨y, hy, -⟩ := canonical_dict_some hw hv
    rw [← hcanonical, hy]
    rfl
  obtain ⟨ces, hces⟩ := Option.isSome_iff_exists.mp (canonicalEntries_isSome hvalues)
  have hes : (PyValue.dict es).canonical = some (.dict (sortEntries ces)) := by
    rw [canonical, hces, Option.map_some]
  have hlookup : ∀ k, lookup k (sortEntries ces) = lookup k ws := by
    intro k
    rw [canonical_dict hes, canonical_dict hw]
    have hk := h k
    cases hl : lookup k es with
    | none =>
      rw [hl, Option.map_none, eq_comm, Option.map_eq_none_iff] at hk
      rw [hk]
    | some v =>
      rw [hl, Option.map_some, eq_comm, Option.map_eq_some_iff] at hk
      obtain ⟨v', hv', hcanonical⟩ := hk
      rw [hv']
      exact hcanonical.symm
  -- both are sorted, and have the same items
  have hdistinct := distinct_canonical hd hes
  have hsorted : sortEntries (sortEntries ces) = sortEntries ws :=
    sortEntries_perm hdistinct (perm_of_lookup hdistinct (distinct_canonical hd' hw) hlookup)
  obtain ⟨vs, -, hvs⟩ := Option.map_eq_some_iff.mp hw
  cases hvs
  rw [sortEntries_idem, sortEntries_idem] at hsorted
  rw [hes, hsorted]

end PyValue
