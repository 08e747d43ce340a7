import Mathlib.Data.Nat.Notation

/-!
# Counting through consecutive blocks

Blocks of given lengths stand one behind the other. A place is a block and an offset in it; places
count upwards in lexicographic order, and every count below the end is of one place.
-/

namespace Blocks
variable (len : Nat → Nat) {i j r s n : Nat}

/-- What stands in front of block `i`. -/
def before (len : Nat → Nat) : Nat → Nat
  | 0 => 0
  | i + 1 => before len i + len i

variable {len} in
theorem before_mono (h : i ≤ j) : before len i ≤ before len j := by
  induction j with
  | zero => exact Nat.le_zero.mp h ▸ Nat.le_refl _
  | succ j ih =>
    rcases Nat.lt_or_ge j i with hlt | hge
    · exact Nat.le_antisymm h hlt ▸ Nat.le_refl _
    · exact Nat.le_trans (ih hge) (Nat.le_add_right _ _)

theorem before_succ_le (h : i < j) : before len i + len i ≤ before len j := before_mono h

theorem place_lt (hr : r < len i) (hs : s < len j) :
    before len i + r < before len j + s ↔ i < j ∨ i = j ∧ r < s := by
  rcases Nat.lt_trichotomy i j with hlt | rfl | hgt
  · have hblock := before_succ_le len hlt
    constructor
    · exact fun _ => .inl hlt
    · intro _
      omega
  · constructor
    · intro h
      exact .inr ⟨rfl, by omega⟩
    · rintro (h | ⟨-, h⟩)
      · exact absurd h (Nat.lt_irrefl i)
      · omega
  · have hblock := before_succ_le len hgt
    constructor
    · intro h
      omega
    · rintro (h | ⟨h, -⟩) <;> omega

theorem place_inj (hr : r < len i) (hs : s < len j) (h : before len i + r = before len j + s) :
    i = j ∧ r = s := by
  have hij : ¬(i < j ∨ i = j ∧ r < s) := by
    intro hlt
    have := (place_lt len hr hs).mpr hlt
    omega
  have hji : ¬(j < i ∨ j = i ∧ s < r) := by
    intro hlt
    have := (place_lt len hs hr).mpr hlt
    omega
  omega

/-- The place that is `n` behind the beginning of block `i`, among so many blocks. -/
def locate (len : Nat → Nat) : Nat → Nat → Nat → Option (Nat × Nat)
  | 0, _, _ => none
  | blocks + 1, i, n => if n < len i then some (i, n) else locate len blocks (i + 1) (n - len i)

variable {len} in
theorem locate_some {blocks : Nat} (h : locate len blocks i n = some (j, r)) :
    r < len j ∧ before len j + r = before len i + n ∧ i ≤ j ∧ j < i + blocks := by
  induction blocks generalizing i n with
  | zero => cases h
  | succ blocks ih =>
    rw [locate] at h
    split at h
    · rename_i hn
      cases h
      exact ⟨hn, rfl, Nat.le_refl _, by omega⟩
    · rename_i hn
      obtain ⟨hr, hplace, hle, hlt⟩ := ih h
      rw [before] at hplace
      exact ⟨hr, by omega, by omega, by omega⟩

variable {len} in
theorem locate_isSome {blocks : Nat} (h : before len i + n < before len (i + blocks)) :
    (locate len blocks i n).isSome := by
  induction blocks generalizing i n with
  | zero =>
    rw [Nat.add_zero] at h
    omega
  | succ blocks ih =>
    rw [locate]
    split
    · rfl
    · rename_i hn
      apply ih
      rw [before, Nat.add_right_comm i 1 blocks]
      rw [← Nat.add_assoc] at h
      omega

theorem locate_place (blocks : Nat) (hr : r < len j) (hj : j < blocks) :
    locate len blocks 0 (before len j + r) = some (j, r) := by
  have hblock := before_succ_le len hj
  have hsome : (locate len blocks 0 (before len j + r)).isSome := by
    apply locate_isSome
    rw [Nat.zero_add, before, Nat.zero_add]
    omega
  obtain ⟨⟨k, s⟩, hks⟩ := Option.isSome_iff_exists.mp hsome
  obtain ⟨hs, hplace, -, -⟩ := locate_some hks
  rw [before, Nat.zero_add] at hplace
  obtain ⟨rfl, rfl⟩ := place_inj len hs hr hplace
  exact hks

end Blocks
