import Mathlib.Data.List.Count
import Mathlib.Logic.Function.Basic

/-!
# What exceeds a budget

Items are taken in order against a budget that says how many of each key are
covered. The surplus is what the budget does not cover: of every key, all items
but the first so many (`surplus_filter`).
-/

def counter {κ : Type} [DecidableEq κ] (keys : List κ) : κ → Nat := fun k => keys.count k

section Surplus
variable {α κ : Type} [DecidableEq κ] (key : α → κ)

def surplus (budget : κ → Nat) : List α → List α
  | [] => []
  | x :: xs =>
    if 0 < budget (key x) then
      surplus (Function.update budget (key x) (budget (key x) - 1)) xs
    else x :: surplus budget xs

/-- The surplus by counting what was seen of each key: an item is in it once the count exceeds
the budget. -/
theorem surplus_counted (counts seen : κ → Nat) (x : α) (xs : List α) :
    surplus key (fun k => counts k - seen k) (x :: xs) =
      if counts (key x) < seen (key x) + 1 then
        x :: surplus key (fun k => counts k - Function.update seen (key x) (seen (key x) + 1) k) xs
      else surplus key (fun k => counts k - Function.update seen (key x) (seen (key x) + 1) k) xs := by
  have hbudget : (fun k => counts k - Function.update seen (key x) (seen (key x) + 1) k)
      = Function.update (fun k => counts k - seen k) (key x) (counts (key x) - seen (key x) - 1) := by
    funext k
    by_cases hk : k = key x
    · subst hk
      simp only [Function.update_self]
      omega
    · simp only [Function.update_of_ne hk]
  rw [hbudget, surplus]
  by_cases hover : counts (key x) < seen (key x) + 1
  · -- the budget of the key was spent before
    have hspent : Function.update (fun k => counts k - seen k) (key x)
        (counts (key x) - seen (key x) - 1) = fun k => counts k - seen k := by
      refine Function.update_eq_self_iff.mpr ?_
      omega
    rw [if_neg (by omega), if_pos hover, hspent]
  · rw [if_pos (by omega), if_neg hover]

theorem surplus_sublist (budget : κ → Nat) (xs : List α) : (surplus key budget xs).Sublist xs := by
  induction xs generalizing budget with
  | nil => exact List.Sublist.slnil
  | cons x xs ih =>
    rw [surplus]
    split
    · exact (ih _).cons x
    · exact (ih _).cons_cons x

/-- Of each key, the surplus holds all items but the first ones that the budget covers. -/
theorem surplus_filter (budget : κ → Nat) (xs : List α) (k : κ) :
    (surplus key budget xs).filter (fun x => key x = k)
      = (xs.filter fun x => key x = k).drop (budget k) := by
  induction xs generalizing budget with
  | nil => simp [surplus]
  | cons x xs ih =>
    rw [surplus]
    by_cases hb : 0 < budget (key x)
    · rw [if_pos hb, ih]
      by_cases hk : key x = k
      · subst hk
        obtain ⟨n, hn⟩ : ∃ n, budget (key x) = n + 1 := ⟨budget (key x) - 1, by omega⟩
        simp [hn]
      · rw [Function.update_of_ne (fun h => hk h.symm), List.filter_cons_of_neg (by simpa using hk)]
    · rw [if_neg hb]
      by_cases hk : key x = k
      · subst hk
        have h0 : budget (key x) = 0 := by omega
        have hrest := ih budget
        rw [h0, List.drop_zero] at hrest ⊢
        rw [List.filter_cons_of_pos (by simp), List.filter_cons_of_pos (by simp), hrest]
      · rw [List.filter_cons_of_neg (by simpa using hk), List.filter_cons_of_neg (by simpa using hk),
          ih]

theorem mem_surplus_iff (budget : κ → Nat) (xs : List α) (x : α) :
    x ∈ surplus key budget xs ↔ x ∈ (xs.filter fun y => key y = key x).drop (budget (key x)) := by
  rw [← surplus_filter, List.mem_filter]
  simp

/-- Of each key, what the budget covers comes before what it does not. -/
theorem covered_before_surplus {r : α → α → Prop} {budget : κ → Nat} {xs : List α}
    (hs : xs.Pairwise r) {x y : α} (hx : x ∈ surplus key budget xs) (hy : y ∈ xs)
    (hk : key y = key x) (hn : y ∉ surplus key budget xs) : r y x := by
  rw [mem_surplus_iff] at hx hn
  rw [hk] at hn
  have hmem : y ∈ xs.filter fun z => key z = key x := by simpa [hk] using hy
  have hl := hs.filter fun z => decide (key z = key x)
  rw [← List.take_append_drop (budget (key x)) (xs.filter fun z => decide (key z = key x))] at hl hmem
  rcases List.mem_append.mp hmem with hcovered | hsurplus
  · exact (List.pairwise_append.mp hl).2.2 y hcovered x hx
  · exact absurd hsurplus hn

theorem mem_surplus_of_zero {b : κ → Nat} {xs : List α} {x : α} (hx : x ∈ xs)
    (h : b (key x) = 0) : x ∈ surplus key b xs := by
  rw [mem_surplus_iff, h, List.drop_zero, List.mem_filter]
  simpa using hx

theorem surplus_append (budget : κ → Nat) (xs ys : List α) :
    surplus key budget (xs ++ ys) = surplus key budget xs
      ++ surplus key (fun k => budget k - (xs.map key).count k) ys := by
  induction xs generalizing budget with
  | nil => simp [surplus]
  | cons x xs ih =>
    rw [List.cons_append, surplus, surplus, List.map_cons]
    by_cases hb : 0 < budget (key x)
    · rw [if_pos hb, if_pos hb, ih]
      congr 2
      funext k
      by_cases hk : key x = k
      · subst hk
        rw [Function.update_self, List.count_cons_self]
        omega
      · rw [Function.update_of_ne (fun h => hk h.symm), List.count_cons_of_ne (by simpa using hk)]
    · rw [if_neg hb, if_neg hb, ih, List.cons_append]
      congr 3
      funext k
      by_cases hk : key x = k
      · subst hk
        rw [List.count_cons_self]
        omega
      · rw [List.count_cons_of_ne (by simpa using hk)]

theorem surplus_count (budget : κ → Nat) (xs : List α) (k : κ) :
    ((surplus key budget xs).map key).count k = (xs.map key).count k - budget k := by
  have hcount : ∀ l : List α, (l.map key).count k = (l.filter fun x => key x = k).length := by
    intro l
    rw [← List.countP_eq_length_filter, List.count, List.countP_map]
    rfl
  rw [hcount, hcount, surplus_filter, List.length_drop]

theorem surplus_map {β : Type} (f : β → α) (budget : κ → Nat) (xs : List β) :
    surplus key budget (xs.map f) = (surplus (fun x => key (f x)) budget xs).map f := by
  induction xs generalizing budget with
  | nil => rfl
  | cons x xs ih =>
    rw [List.map_cons, surplus, surplus]
    split
    · exact ih _
    · rw [ih, List.map_cons]

/-- The items of one key outside the surplus are the first ones, as many as the budget covers. -/
theorem countP_covered [DecidableEq α] (budget : κ → Nat) {xs : List α} (hnd : xs.Nodup)
    (p : α → Bool) (k : κ) :
    (xs.filter fun x => key x = k).countP (fun x => !(p x || decide (x ∈ surplus key budget xs)))
      = ((xs.filter fun x => key x = k).take (budget k)).countP (fun x => !p x) := by
  have hmem : ∀ x ∈ xs.filter fun x => key x = k,
      (x ∈ surplus key budget xs ↔ x ∈ (xs.filter fun x => key x = k).drop (budget k)) := by
    intro x hx
    have hk : key x = k := by simpa using (List.mem_filter.mp hx).2
    rw [mem_surplus_iff, hk]
  have hl := hnd.filter fun x => decide (key x = k)
  generalize xs.filter (fun x => decide (key x = k)) = l at hl hmem ⊢
  rw [← List.take_append_drop (budget k) l] at hl
  have hdisj := (List.nodup_append.mp hl).2.2
  conv_lhs => rw [← List.take_append_drop (budget k) l]
  rw [List.countP_append]
  have htake : (l.take (budget k)).countP
      (fun x => !(p x || decide (x ∈ surplus key budget xs)))
      = (l.take (budget k)).countP (fun x => !p x) := by
    refine List.countP_congr fun x hx => ?_
    have hn : x ∉ surplus key budget xs := fun h =>
      hdisj x hx x ((hmem x (List.mem_of_mem_take hx)).mp h) rfl
    simp [hn]
  have hdrop : (l.drop (budget k)).countP
      (fun x => !(p x || decide (x ∈ surplus key budget xs))) = 0 := by
    refine List.countP_eq_zero.mpr fun x hx => ?_
    have hs := (hmem x (List.mem_of_mem_drop hx)).mpr hx
    simp [hs]
  rw [htake, hdrop, Nat.add_zero]

end Surplus
