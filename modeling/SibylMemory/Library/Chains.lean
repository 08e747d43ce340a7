import Mathlib.Logic.Relation

/-!
# Chains of a successor function that climbs

Every element has at most one successor. Where a rank grows along successors and stays below a
bound while there is one, a chain does not come back and ends in exactly one element.
-/

namespace Chain
variable {ι : Type} {next : ι → Option ι} {i j e e' : ι}

def Step (next : ι → Option ι) (i j : ι) : Prop := next i = some j

abbrev Reaches (next : ι → Option ι) : ι → ι → Prop := Relation.ReflTransGen (Step next)

/-- The chain from `i` ends in `e`. -/
def Ends (next : ι → Option ι) (i e : ι) : Prop := Reaches next i e ∧ next e = none

theorem Ends.unique (h : Ends next i e) (h' : Ends next i e') : e = e' := by
  obtain ⟨hreach, hlast⟩ := h
  induction hreach using Relation.ReflTransGen.head_induction_on with
  | refl =>
    rcases h'.1.cases_head with rfl | ⟨k, hstep, -⟩
    · rfl
    · have hsome : next e = some k := hstep
      rw [hlast] at hsome
      cases hsome
  | @head a c hstep hrest ih =>
    have hac : next a = some c := hstep
    rcases h'.1.cases_head with rfl | ⟨k, hstep', hrest'⟩
    · have hnone := h'.2
      rw [hac] at hnone
      cases hnone
    · have hak : next a = some k := hstep'
      rw [hac] at hak
      cases hak
      exact ih ⟨hrest', h'.2⟩

theorem Reaches.lift {r : ι → ι → Prop} (h : Reaches next i j) (trans : ∀ a b c, r a b → r b c → r a c)
    (link : ∀ a b, next a = some b → r a b) : i = j ∨ r i j := by
  induction h with
  | refl => exact .inl rfl
  | @tail b c hrest hstep ih =>
    rcases ih with rfl | ih
    · exact .inr (link _ _ hstep)
    · exact .inr (trans _ _ _ ih (link _ _ hstep))

section Rank
variable {rank : ι → Nat} {bound : Nat}

theorem rank_lt_of_transGen (climbs : ∀ i j, next i = some j → rank i < rank j)
    (h : Relation.TransGen (Step next) i j) : rank i < rank j := by
  induction h with
  | single hstep => exact climbs _ _ hstep
  | tail _ hstep ih =>
    have hlast := climbs _ _ hstep
    omega

theorem acyclic (climbs : ∀ i j, next i = some j → rank i < rank j) (i : ι) :
    ¬ Relation.TransGen (Step next) i i := by
  intro h
  have hlt := rank_lt_of_transGen climbs h
  omega

theorem exists_end (climbs : ∀ i j, next i = some j → rank i < rank j)
    (bounded : ∀ i j, next i = some j → rank i < bound) (i : ι) : ∃ e, Ends next i e := by
  -- by induction on how far the rank is from the bound
  induction hn : bound - rank i using Nat.strongRecOn generalizing i with
  | ind n ih =>
    cases hi : next i with
    | none => exact ⟨i, .refl, hi⟩
    | some j =>
      have hclimb := climbs i j hi
      have hbound := bounded i j hi
      obtain ⟨e, hreach, hlast⟩ := ih (bound - rank j) (by omega) j rfl
      exact ⟨e, .head hi hreach, hlast⟩

end Rank

end Chain
