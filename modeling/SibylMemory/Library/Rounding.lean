import Mathlib.Data.Nat.Log
import Mathlib.Algebra.Order.Ring.Nat
import Mathlib.Tactic.Ring

/-!
# Rounding natural numbers to a binary precision

A number is rounded to the nearest one with so many significant binary digits, a tie to the one
whose last digit is even. It reaches a power of two from half a last place below it on
(`toPrecision_reaches`).
-/

namespace Rounding

/-- The quotient rounded to the nearest number, a tie to the even one. -/
def halfEven (n d : Nat) : Nat :=
  if 2 * (n % d) < d ∨ (2 * (n % d) = d ∧ n / d % 2 = 0) then n / d else n / d + 1

/-- The nearest number with `p` significant digits. -/
def toPrecision (p n : Nat) : Nat :=
  halfEven n (2 ^ (Nat.log2 n + 1 - p)) * 2 ^ (Nat.log2 n + 1 - p)

theorem le_halfEven (n d : Nat) : n / d ≤ halfEven n d := by
  unfold halfEven
  split <;> omega

theorem halfEven_le (n d : Nat) : halfEven n d ≤ n / d + 1 := by
  unfold halfEven
  split <;> omega

theorem halfEven_one (n : Nat) : halfEven n 1 = n := by
  rw [halfEven, if_pos (.inl (by rw [Nat.mod_one]; decide)), Nat.div_one]

section Precision
variable {p k n : Nat}

theorem toPrecision_le (hn : n < 2 ^ k) : toPrecision p n ≤ 2 ^ k := by
  by_cases hzero : n = 0
  · subst hzero
    simp [toPrecision, halfEven]
  have hlog : Nat.log2 n < k := (Nat.log2_lt hzero).mpr hn
  have hself := Nat.lt_log2_self (n := n)
  by_cases hshort : Nat.log2 n + 1 ≤ p
  · rw [toPrecision, Nat.sub_eq_zero_of_le hshort, pow_zero, halfEven_one, mul_one]
    exact hn.le
  · have hsplit : 2 ^ (Nat.log2 n + 1) = 2 ^ p * 2 ^ (Nat.log2 n + 1 - p) := by
      rw [← pow_add]
      congr 1
      omega
    have hq : n / 2 ^ (Nat.log2 n + 1 - p) < 2 ^ p := by
      rw [Nat.div_lt_iff_lt_mul (Nat.two_pow_pos _), ← hsplit]
      exact hself
    have hround := halfEven_le n (2 ^ (Nat.log2 n + 1 - p))
    calc toPrecision p n ≤ 2 ^ p * 2 ^ (Nat.log2 n + 1 - p) :=
          Nat.mul_le_mul_right _ (by omega)
      _ = 2 ^ (Nat.log2 n + 1) := hsplit.symm
      _ ≤ 2 ^ k := Nat.pow_le_pow_right (by decide) hlog

theorem le_toPrecision (hp : 0 < p) (hn : 2 ^ k ≤ n) : 2 ^ k ≤ toPrecision p n := by
  have hzero : n ≠ 0 := by
    rintro rfl
    exact absurd hn (not_le.mpr (Nat.two_pow_pos k))
  have hlog : k ≤ Nat.log2 n := (Nat.le_log2 hzero).mpr hn
  have hself := Nat.log2_self_le hzero
  by_cases hshort : Nat.log2 n + 1 ≤ p
  · rw [toPrecision, Nat.sub_eq_zero_of_le hshort, pow_zero, halfEven_one, mul_one]
    exact hn
  · have hsplit : 2 ^ Nat.log2 n = 2 ^ (p - 1) * 2 ^ (Nat.log2 n + 1 - p) := by
      rw [← pow_add]
      congr 1
      omega
    have hq : 2 ^ (p - 1) ≤ n / 2 ^ (Nat.log2 n + 1 - p) := by
      rw [Nat.le_div_iff_mul_le (Nat.two_pow_pos _), ← hsplit]
      exact hself
    calc 2 ^ k ≤ 2 ^ Nat.log2 n := Nat.pow_le_pow_right (by decide) hlog
      _ = 2 ^ (p - 1) * 2 ^ (Nat.log2 n + 1 - p) := hsplit
      _ ≤ toPrecision p n := Nat.mul_le_mul_right _ (le_trans hq (le_halfEven n _))

/-- The top half of the last place before a power of two is rounded up to it. -/
theorem halfEven_reaches {d : Nat} (hd : 0 < d) (hp : 0 < p) (hn : n < 2 ^ p * (2 * d)) :
    2 ^ p ≤ halfEven n (2 * d) ↔ 2 ^ p * (2 * d) - d ≤ n := by
  have hdiv := Nat.div_add_mod n (2 * d)
  have hmod := Nat.mod_lt n (show 0 < 2 * d by omega)
  have hq : n / (2 * d) < 2 ^ p := (Nat.div_lt_iff_lt_mul (by omega)).mpr hn
  have heven : 2 ^ p % 2 = 0 := by
    obtain ⟨m, rfl⟩ : ∃ m, p = m + 1 := ⟨p - 1, by omega⟩
    rw [pow_succ]
    exact Nat.mul_mod_left _ _
  by_cases hlast : n / (2 * d) + 1 = 2 ^ p
  · rw [← hlast] at heven ⊢
    rw [← hlast] at hn
    have hexpand : (n / (2 * d) + 1) * (2 * d) = 2 * d * (n / (2 * d)) + 2 * d := by ring
    rw [hexpand] at hn ⊢
    unfold halfEven
    split <;> omega
  · have hmul : (n / (2 * d) + 2) * (2 * d) ≤ 2 ^ p * (2 * d) :=
      Nat.mul_le_mul_right _ (by omega)
    have hexpand : (n / (2 * d) + 2) * (2 * d) = 2 * d * (n / (2 * d)) + 4 * d := by ring
    have hround := halfEven_le n (2 * d)
    constructor <;> intro h <;> omega

/-- A number is rounded to a power of two or above exactly from half a last place below it on. -/
theorem toPrecision_reaches (hp : 0 < p) (hk : p < k) :
    2 ^ k ≤ toPrecision p n ↔ 2 ^ k - 2 ^ (k - p - 1) ≤ n := by
  by_cases habove : 2 ^ k ≤ n
  · exact ⟨fun _ => le_trans (Nat.sub_le _ _) habove, fun _ => le_toPrecision hp habove⟩
  have hhalf : 2 ^ k = 2 * 2 ^ (k - 1) := by
    rw [← pow_succ']
    congr 1
    omega
  have hplace : 2 ^ (k - p - 1) ≤ 2 ^ (k - 1) := Nat.pow_le_pow_right (by decide) (by omega)
  by_cases hbelow : n < 2 ^ (k - 1)
  · have hround := toPrecision_le (p := p) hbelow
    have hpos := Nat.two_pow_pos (k - 1)
    constructor <;> intro h <;> omega
  · have hzero : n ≠ 0 := by
      rintro rfl
      exact hbelow (Nat.two_pow_pos _)
    have hlog : Nat.log2 n + 1 = k := by
      have hlt := (Nat.log2_lt hzero).mpr (not_le.mp habove)
      have hle := (Nat.le_log2 hzero).mpr (not_lt.mp hbelow)
      omega
    have hlast : 2 ^ (k - p) = 2 * 2 ^ (k - p - 1) := by
      rw [← pow_succ']
      congr 1
      omega
    have hsplit : 2 ^ k = 2 ^ p * (2 * 2 ^ (k - p - 1)) := by
      rw [← hlast, ← pow_add]
      congr 1
      omega
    have hn : n < 2 ^ p * (2 * 2 ^ (k - p - 1)) := by
      rw [← hsplit]
      exact not_le.mp habove
    rw [toPrecision, hlog, hlast, hsplit,
      Nat.mul_le_mul_right_iff (Nat.mul_pos (by decide) (Nat.two_pow_pos _))]
    exact halfEven_reaches (Nat.two_pow_pos _) hp hn

end Precision

/-! ### Binary64 -/

/-- `float(n)` by the integer that it is; an integer out of range has none. -/
def binary64 (n : Int) : Option Int :=
  let m := toPrecision 53 n.natAbs
  if m < 2 ^ 1024 then some (if n < 0 then -(m : Int) else m) else none

theorem binary64_none_iff (n : Int) : binary64 n = none ↔ 2 ^ 1024 - 2 ^ 970 ≤ n.natAbs := by
  rw [← toPrecision_reaches (p := 53) (k := 1024) (by decide) (by decide), binary64]
  split
  · rename_i h
    exact iff_of_false (by simp) (not_le.mpr h)
  · rename_i h
    exact iff_of_true rfl (not_lt.mp h)

end Rounding
