import Mathlib.Logic.Relation

/-!
# A ledger of accepted items

What a durable queue with an archive is for, in general terms: an item is
accepted once with its payload, is either live or closed with a verdict, and a
closed item stays as it was closed. An item that is both live and closed cannot
be built.
-/

/-- Items by identity: the live ones with their payload, the closed ones with payload and verdict. -/
@[ext] structure Ledger (ι μ ω : Type) where
  live : ι → Option μ
  closed : ι → Option (μ × ω)
  exclusive : ∀ i, live i = none ∨ closed i = none

namespace Ledger
variable {ι μ ω : Type} [DecidableEq ι]

def payload (l : Ledger ι μ ω) (i : ι) : Option μ := (l.live i).or ((l.closed i).map Prod.fst)

/-- One change: a new item is accepted, or a live one is closed with its own payload. -/
inductive Step (l l' : Ledger ι μ ω) : Prop where
  | accept (i : ι) (m : μ) (fresh : l.payload i = none)
      (live : ∀ j, l'.live j = if j = i then some m else l.live j)
      (closed : ∀ j, l'.closed j = l.closed j)
  | close (i : ι) (m : μ) (v : ω) (held : l.live i = some m)
      (live : ∀ j, l'.live j = if j = i then none else l.live j)
      (closed : ∀ j, l'.closed j = if j = i then some (m, v) else l.closed j)

abbrev Steps : Ledger ι μ ω → Ledger ι μ ω → Prop := Relation.ReflTransGen Step

theorem step_closed {l l' : Ledger ι μ ω} (h : Step l l') {i : ι} {x : μ × ω}
    (hx : l.closed i = some x) : l'.closed i = some x := by
  cases h with
  | accept j m _ _ closed => rw [closed, hx]
  | close j m v held _ closed =>
    have hne : i ≠ j := by
      rintro rfl
      rcases l.exclusive i with hl | hc
      · rw [hl] at held
        cases held
      · rw [hc] at hx
        cases hx
    rw [closed, if_neg hne, hx]

theorem step_payload {l l' : Ledger ι μ ω} (h : Step l l') {i : ι} {m : μ}
    (hm : l.payload i = some m) : l'.payload i = some m := by
  cases h with
  | accept j n fresh live closed =>
    have hne : i ≠ j := by
      rintro rfl
      rw [fresh] at hm
      cases hm
    rw [← hm, payload, payload, live, closed, if_neg hne]
  | close j n v held live closed =>
    by_cases hij : i = j
    · subst hij
      have hn : n = m := by simpa [payload, held] using hm
      simp [payload, live, closed, hn]
    · rw [← hm, payload, payload, live, closed, if_neg hij, if_neg hij]

theorem closed_persists {l l' : Ledger ι μ ω} (h : Steps l l') {i : ι} {x : μ × ω}
    (hx : l.closed i = some x) : l'.closed i = some x := by
  induction h with
  | refl => exact hx
  | tail _ step ih => exact step_closed step ih

theorem payload_persists {l l' : Ledger ι μ ω} (h : Steps l l') {i : ι} {m : μ}
    (hm : l.payload i = some m) : l'.payload i = some m := by
  induction h with
  | refl => exact hm
  | tail _ step ih => exact step_payload step ih

end Ledger
