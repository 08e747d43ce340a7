import Mathlib.Logic.Relation

/-!
# Leases with fencing tokens

A board says, for each item, which token is current and until when, and what
the holder of each token was last told. Tokens are granted fresh, and only over
an item that is free or whose deadline has passed; the rules below follow from
that, whatever the items are and whoever the holders.
-/

structure Board (ι τ : Type) where
  /-- the token in force, with its deadline -/
  current : ι → Option (τ × Int)
  /-- the deadline that the holder of a token was last told, until it gives the token back -/
  lease : ι → τ → Option Int
  issued : ι → τ → Prop
  clock : Int

namespace Board
variable {ι τ : Type} [DecidableEq τ] [DecidableEq ι]

/-- One change of the board. The clock does not go back. -/
inductive Step (b b' : Board ι τ) : Prop where
  | keep (clock : b.clock ≤ b'.clock) (current : ∀ i, b'.current i = b.current i)
      (lease : ∀ i t, b'.lease i t = b.lease i t) (issued : ∀ i t, b'.issued i t ↔ b.issued i t)
  /-- several items at once, decided by a clock reading `now` that may be old -/
  | grant (g : ι → Option (τ × Int)) (now : Int) (clock : b.clock ≤ b'.clock)
      (reading : now ≤ b'.clock)
      (free : ∀ i, g i ≠ none → ∀ t e, b.current i = some (t, e) → e ≤ now)
      (fresh : ∀ i t e, g i = some (t, e) → ∀ j, ¬ b.issued j t)
      (current : ∀ i, b'.current i = (g i).or (b.current i))
      (lease : ∀ i t, b'.lease i t =
        match g i with
        | some (t', e) => if t = t' then some e else b.lease i t
        | none => b.lease i t)
      (issued : ∀ i t, b'.issued i t ↔ b.issued i t ∨ ∃ e, g i = some (t, e))
  | renew (i : ι) (t : τ) (e : Int) (clock : b.clock ≤ b'.clock)
      (held : ∃ e', b.current i = some (t, e'))
      (current : ∀ j, b'.current j = if j = i then some (t, e) else b.current j)
      (lease : ∀ j u, b'.lease j u = if j = i ∧ u = t then some e else b.lease j u)
      (issued : ∀ i t, b'.issued i t ↔ b.issued i t)
  /-- the tokens in `p` are given back; those in force leave their items free -/
  | free (p : ι → τ → Bool) (clock : b.clock ≤ b'.clock)
      (current : ∀ i, b'.current i = (b.current i).filter fun c => !p i c.1)
      (lease : ∀ i t, b'.lease i t = if p i t then none else b.lease i t)
      (issued : ∀ i t, b'.issued i t ↔ b.issued i t)

structure Inv (b : Board ι τ) : Prop where
  told : ∀ i t e, b.current i = some (t, e) → b.lease i t = some e
  lapsed : ∀ i t e, b.lease i t = some e → b.current i = some (t, e) ∨ e ≤ b.clock
  granted : ∀ i t e, b.lease i t = some e → b.issued i t

theorem step_clock {b b' : Board ι τ} (h : Step b b') : b.clock ≤ b'.clock := by
  cases h <;> assumption

theorem step_issued {b b' : Board ι τ} (h : Step b b') {i : ι} {t : τ} (ht : b.issued i t) :
    b'.issued i t := by
  cases h with
  | grant _ _ _ _ _ _ _ _ issued => exact (issued i t).mpr (.inl ht)
  | keep _ _ _ issued => exact (issued i t).mpr ht
  | renew _ _ _ _ _ _ _ issued => exact (issued i t).mpr ht
  | free _ _ _ _ issued => exact (issued i t).mpr ht

theorem inv_step {b b' : Board ι τ} (hb : Inv b) (h : Step b b') : Inv b' := by
  have hclock := step_clock h
  cases h with
  | keep clock current lease issued =>
    refine ⟨fun i t e hc => ?_, fun i t e hl => ?_, fun i t e hl => ?_⟩
    · rw [lease]
      exact hb.told i t e (current i ▸ hc)
    · rw [current]
      exact (hb.lapsed i t e (lease i t ▸ hl)).imp_right fun h => Int.le_trans h hclock
    · exact (issued i t).mpr (hb.granted i t e (lease i t ▸ hl))
  | grant g now clock reading free fresh current lease issued =>
    refine ⟨fun i t e hc => ?_, fun i t e hl => ?_, fun i t e hl => ?_⟩
    · rw [current] at hc
      rw [lease]
      cases hg : g i with
      | none => exact hb.told i t e (by simpa [hg] using hc)
      | some c =>
        simp only [hg, Option.some_or, Option.some.injEq] at hc
        simp [hc]
    · rw [lease] at hl
      rw [current]
      cases hg : g i with
      | none =>
        simp only [hg] at hl
        exact (hb.lapsed i t e hl).imp (fun h => by simpa using h) fun h => Int.le_trans h hclock
      | some c =>
        simp only [hg] at hl
        split at hl
        · rename_i ht
          cases hl
          exact .inl (by simp [ht])
        · rcases hb.lapsed i t e hl with hc | hc
          · exact .inr (Int.le_trans (free i (by simp [hg]) t e hc) reading)
          · exact .inr (Int.le_trans hc hclock)
    · rw [issued]
      rw [lease] at hl
      cases hg : g i with
      | none =>
        simp only [hg] at hl
        exact .inl (hb.granted i t e hl)
      | some c =>
        simp only [hg] at hl
        split at hl
        · rename_i ht
          exact .inr ⟨c.2, by simp [ht]⟩
        · exact .inl (hb.granted i t e hl)
  | renew j u d clock held current lease issued =>
    obtain ⟨d', hheld⟩ := held
    refine ⟨fun i t e hc => ?_, fun i t e hl => ?_, fun i t e hl => ?_⟩
    · rw [current] at hc
      rw [lease]
      split at hc
      · rename_i hi
        cases hc
        rw [if_pos ⟨hi, rfl⟩]
      · rename_i hi
        rw [if_neg (fun h => hi h.1)]
        exact hb.told i t e hc
    · rw [lease] at hl
      rw [current]
      split at hl
      · rename_i hi
        cases hl
        rw [if_pos hi.1, hi.2]
        exact .inl rfl
      · rename_i hi
        rcases hb.lapsed i t e hl with hc | hc
        · by_cases hij : i = j
          · subst hij
            rw [hheld] at hc
            cases hc
            exact absurd ⟨rfl, rfl⟩ hi
          · rw [if_neg hij]
            exact .inl hc
        · exact .inr (Int.le_trans hc hclock)
    · rw [issued]
      rw [lease] at hl
      split at hl
      · rename_i hi
        obtain ⟨rfl, rfl⟩ := hi
        exact hb.granted i t d' (hb.told i t d' hheld)
      · exact hb.granted i t e hl
  | free p clock current lease issued =>
    refine ⟨fun i t e hc => ?_, fun i t e hl => ?_, fun i t e hl => ?_⟩
    · rw [current, Option.filter_eq_some_iff] at hc
      rw [lease, if_neg (by simpa using hc.2)]
      exact hb.told i t e hc.1
    · rw [lease] at hl
      split at hl
      · cases hl
      · rename_i hp
        rw [current]
        refine (hb.lapsed i t e hl).imp (fun hc => ?_) fun h => Int.le_trans h hclock
        rw [hc]
        simp [hp]
    · rw [issued]
      rw [lease] at hl
      split at hl
      · cases hl
      · exact hb.granted i t e hl

omit [DecidableEq τ] [DecidableEq ι] in
/-- At no instant from the clock's on are two tokens of one item within their deadlines. -/
theorem exclusive {b : Board ι τ} (hb : Inv b) {i : ι} {t t' : τ} {e e' x : Int}
    (hx : b.clock ≤ x) (ht : b.lease i t = some e) (he : x < e) (ht' : b.lease i t' = some e')
    (he' : x < e') : t = t' := by
  rcases hb.lapsed i t e ht with hc | hc
  · rcases hb.lapsed i t' e' ht' with hc' | hc'
    · rw [hc] at hc'
      cases hc'
      rfl
    · omega
  · omega

/-- A token that was issued and is not in force. -/
def Spent (b : Board ι τ) (i : ι) (t : τ) : Prop :=
  b.issued i t ∧ ∀ e, b.current i ≠ some (t, e)

theorem spent_step {b b' : Board ι τ} (h : Step b b') {i : ι} {t : τ} (hs : b.Spent i t) :
    b'.Spent i t := by
  refine ⟨step_issued h hs.1, fun e hc => ?_⟩
  cases h with
  | keep _ current _ _ => exact hs.2 e (current i ▸ hc)
  | grant g now _ _ _ fresh current _ _ =>
    rw [current] at hc
    cases hg : g i with
    | none =>
      rw [hg] at hc
      exact hs.2 e hc
    | some c =>
      rw [hg, Option.some_or] at hc
      cases hc
      exact fresh i t e hg i hs.1
  | renew j u d _ held current _ _ =>
    rw [current] at hc
    split at hc
    · rename_i hi
      cases hc
      obtain ⟨e', he'⟩ := held
      exact hs.2 e' (hi ▸ he')
    · exact hs.2 e hc
  | free p _ current _ _ =>
    rw [current, Option.filter_eq_some_iff] at hc
    exact hs.2 e hc.1

end Board
