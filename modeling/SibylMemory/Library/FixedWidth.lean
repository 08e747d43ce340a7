import Mathlib.Algebra.Order.Ring.Nat
import Mathlib.Data.List.Basic

/-!
# Numbers written in a fixed width

Digits with the highest place first, as many as the width says. Texts of one width are in the order
of the numbers, and fields of fixed widths one behind the other are compared from the left.
-/

namespace FixedWidth
variable {α : Type}

/-- The last digits of a number, with `digit` for the sign of each. -/
def digits (base : Nat) (digit : Nat → α) : Nat → Nat → List α
  | 0, _ => []
  | width + 1, n => digits base digit width (n / base) ++ [digit (n % base)]

@[simp] theorem digits_length (base : Nat) (digit : Nat → α) (width n : Nat) :
    (digits base digit width n).length = width := by
  induction width generalizing n with
  | zero => rfl
  | succ width ih => rw [digits, List.length_append, ih, List.length_singleton]

theorem digits_flatMap {β : Type} {base : Nat} (hbase : 0 < base) {digit : Nat → α}
    {other : Nat → β} {f : α → List β} (h : ∀ i < base, f (digit i) = [other i]) (width n : Nat) :
    (digits base digit width n).flatMap f = digits base other width n := by
  induction width generalizing n with
  | zero => rfl
  | succ width ih =>
    rw [digits, digits, List.flatMap_append, ih, List.flatMap_singleton, h _ (Nat.mod_lt _ hbase)]

/-! ### Order -/

theorem append_lt [LT α] {a a' b b' : List α} (h : a.length = a'.length) :
    a ++ b < a' ++ b' ↔ a < a' ∨ a = a' ∧ b < b' := by
  induction a generalizing a' with
  | nil =>
    rw [List.length_nil] at h
    rw [List.eq_nil_of_length_eq_zero h.symm]
    simp
  | cons x a ih =>
    cases a' with
    | nil => cases h
    | cons y a' =>
      have htail : a.length = a'.length := Nat.succ.inj h
      rw [List.cons_append, List.cons_append, List.cons_lt_cons_iff, List.cons_lt_cons_iff,
        List.cons.injEq, ih htail]
      tauto

/-- The signs of the digits have the order of the digits. -/
structure Ascending [LT α] (base : Nat) (digit : Nat → α) : Prop where
  lt : ∀ i < base, ∀ j < base, (digit i < digit j ↔ i < j)
  inj : ∀ i < base, ∀ j < base, digit i = digit j → i = j

section Order
variable [LT α] {base : Nat} {digit : Nat → α}

theorem div_mod_lt (hbase : 0 < base) (n m : Nat) :
    n < m ↔ n / base < m / base ∨ n / base = m / base ∧ n % base < m % base := by
  have hn := Nat.div_add_mod n base
  have hm := Nat.div_add_mod m base
  have hrn := Nat.mod_lt n hbase
  have hrm := Nat.mod_lt m hbase
  rcases Nat.lt_trichotomy (n / base) (m / base) with hlt | heq | hgt
  · have hblock := Nat.mul_le_mul_left base (Nat.succ_le_of_lt hlt)
    rw [Nat.mul_succ] at hblock
    exact ⟨fun _ => .inl hlt, fun _ => by omega⟩
  · rw [heq] at hn ⊢
    exact ⟨fun h => .inr ⟨rfl, by omega⟩, fun h => by omega⟩
  · have hblock := Nat.mul_le_mul_left base (Nat.succ_le_of_lt hgt)
    rw [Nat.mul_succ] at hblock
    exact ⟨fun h => by omega, fun h => by omega⟩

theorem digits_inj (hbase : 0 < base) (hd : Ascending base digit) {width n m : Nat}
    (hn : n < base ^ width) (hm : m < base ^ width)
    (h : digits base digit width n = digits base digit width m) : n = m := by
  induction width generalizing n m with
  | zero =>
    rw [Nat.pow_zero] at hn hm
    omega
  | succ width ih =>
    rw [Nat.pow_succ, Nat.mul_comm] at hn hm
    obtain ⟨hfront, hlast⟩ := List.append_inj h (by simp)
    have hquotient := ih (Nat.div_lt_of_lt_mul hn) (Nat.div_lt_of_lt_mul hm) hfront
    have hremainder := hd.inj _ (Nat.mod_lt n hbase) _ (Nat.mod_lt m hbase) (List.cons.inj hlast).1
    rw [← Nat.div_add_mod n base, ← Nat.div_add_mod m base, hquotient, hremainder]

theorem digits_lt (hbase : 0 < base) (hd : Ascending base digit) {width n m : Nat}
    (hn : n < base ^ width) (hm : m < base ^ width) :
    digits base digit width n < digits base digit width m ↔ n < m := by
  induction width generalizing n m with
  | zero =>
    rw [Nat.pow_zero] at hn hm
    have hnm : n = m := by omega
    simp [hnm, digits]
  | succ width ih =>
    rw [Nat.pow_succ, Nat.mul_comm] at hn hm
    have hqn := Nat.div_lt_of_lt_mul hn
    have hqm := Nat.div_lt_of_lt_mul hm
    have hfront : digits base digit width (n / base) = digits base digit width (m / base) ↔
        n / base = m / base := ⟨digits_inj hbase hd hqn hqm, fun h => by rw [h]⟩
    have hlast : [digit (n % base)] < [digit (m % base)] ↔ n % base < m % base := by
      rw [List.cons_lt_cons_iff, hd.lt _ (Nat.mod_lt n hbase) _ (Nat.mod_lt m hbase)]
      simp
    rw [digits, digits, append_lt (by simp), ih hqn hqm, hfront, hlast]
    exact (div_mod_lt hbase n m).symm

theorem field_lt (hbase : 0 < base) (hd : Ascending base digit) {width n m : Nat}
    (hn : n < base ^ width) (hm : m < base ^ width) {b b' : List α} :
    digits base digit width n ++ b < digits base digit width m ++ b' ↔ n < m ∨ n = m ∧ b < b' := by
  have heq : digits base digit width n = digits base digit width m ↔ n = m :=
    ⟨digits_inj hbase hd hn hm, fun h => by rw [h]⟩
  rw [append_lt (by simp), digits_lt hbase hd hn hm, heq]

end Order

/-! ### Reading -/

/-- The number that a text of digits writes. -/
def readDigits (base : Nat) (value : α → Option Nat) : Nat → List α → Option Nat
  | n, [] => some n
  | n, c :: cs => (value c).bind fun d => readDigits base value (n * base + d) cs

section Reading
variable {base : Nat} {digit : Nat → α} {value : α → Option Nat}

theorem readDigits_append {n m : Nat} {cs cs' : List α} (h : readDigits base value n cs = some m) :
    readDigits base value n (cs ++ cs') = readDigits base value m cs' := by
  induction cs generalizing n with
  | nil =>
    cases h
    rfl
  | cons c cs ih =>
    obtain ⟨d, hd, h⟩ := Option.bind_eq_some_iff.mp h
    rw [List.cons_append, readDigits, hd, Option.bind_some, ih h]

theorem readDigits_digits (hbase : 0 < base) (hv : ∀ i < base, value (digit i) = some i)
    {width n : Nat} (hn : n < base ^ width) :
    readDigits base value 0 (digits base digit width n) = some n := by
  induction width generalizing n with
  | zero =>
    rw [Nat.pow_zero] at hn
    rw [Nat.lt_one_iff.mp hn]
    rfl
  | succ width ih =>
    rw [Nat.pow_succ, Nat.mul_comm] at hn
    rw [digits, readDigits_append (ih (Nat.div_lt_of_lt_mul hn)), readDigits,
      hv _ (Nat.mod_lt n hbase), Option.bind_some, readDigits, Nat.mul_comm, Nat.div_add_mod]

end Reading

end FixedWidth
