import SibylMemory.Library.Runs
import Mathlib.Data.List.Basic
import Mathlib.Data.List.Nodup

/-!
# A server that applies a key once

The log holds one effect a key. A request under a new key takes effect, or is refused;
afterwards the same payload is answered with the receipt of the effect, and another one is a
mismatch. A client that sends one payload a key never meets a mismatch (`serve_ne_mismatch`).
-/

namespace Idempotency

structure Effect (κ π ρ : Type) where
  key : κ
  payload : π
  receipt : ρ

inductive Answer (ρ : Type) where
  | receipt (r : ρ)
  | mismatch
  | refused

variable {κ π ρ : Type} [DecidableEq κ]

def find (log : List (Effect κ π ρ)) (k : κ) : Option (Effect κ π ρ) := log.find? fun e => e.key = k

def effects (log : List (Effect κ π ρ)) (k : κ) : Nat := log.countP fun e => e.key = k

/-! ### The log -/

variable {log : List (Effect κ π ρ)} {k : κ} {p : π} {choice : Option ρ}

theorem find_some {e : Effect κ π ρ} (h : find log k = some e) : e ∈ log ∧ e.key = k :=
  ⟨List.mem_of_find?_eq_some h, by simpa using List.find?_some h⟩

theorem find_none (h : find log k = none) : ∀ e ∈ log, e.key ≠ k := by
  intro e he
  simpa using List.find?_eq_none.mp h e he

theorem find_append {e e' : Effect κ π ρ} (h : find log k = some e) :
    find (log ++ [e']) k = some e := by
  rw [find, List.find?_append, ← find, h]
  rfl

theorem effects_le_one (h : (log.map Effect.key).Nodup) (k : κ) : effects log k ≤ 1 := by
  have hc := List.nodup_iff_count_le_one.mp h k
  rw [List.count, List.countP_map] at hc
  unfold effects
  convert hc using 2
  funext e
  simp [beq_eq_decide]

/-! ### Serving -/

variable [DecidableEq π]

/-- Serving a request: the server refuses it, or it has a receipt ready for a new effect. -/
def serve (log : List (Effect κ π ρ)) (k : κ) (p : π) : Option ρ → Answer ρ × List (Effect κ π ρ)
  | none => (.refused, log)
  | some r =>
    match find log k with
    | none => (.receipt r, log ++ [⟨k, p, r⟩])
    | some e => if e.payload = p then (.receipt e.receipt, log) else (.mismatch, log)

theorem serve_log (log : List (Effect κ π ρ)) (k : κ) (p : π) (choice : Option ρ) :
    (serve log k p choice).2 = log ∨
    ∃ r, find log k = none ∧ (serve log k p choice).2 = log ++ [⟨k, p, r⟩] := by
  cases choice with
  | none => exact .inl rfl
  | some r =>
    unfold serve
    cases hf : find log k with
    | none => exact .inr ⟨r, rfl, rfl⟩
    | some e =>
      dsimp only
      split <;> exact .inl rfl

theorem serve_find {k' : κ} {e : Effect κ π ρ} (h : find log k' = some e) :
    find (serve log k p choice).2 k' = some e := by
  rcases serve_log log k p choice with hl | ⟨r, -, hl⟩ <;> rw [hl]
  · exact h
  · exact find_append h

theorem serve_nodup (h : (log.map Effect.key).Nodup) :
    ((serve log k p choice).2.map Effect.key).Nodup := by
  rcases serve_log log k p choice with hl | ⟨r, hn, hl⟩ <;> rw [hl]
  · exact h
  · rw [List.map_append, List.nodup_append]
    refine ⟨h, List.nodup_singleton _, ?_⟩
    intro a ha b hb hab
    obtain ⟨e, he, rfl⟩ := List.mem_map.mp ha
    rw [List.map_singleton, List.mem_singleton] at hb
    exact find_none hn e he (hab.trans hb)

theorem serve_receipt {r : ρ} (h : (serve log k p choice).1 = .receipt r) :
    find (serve log k p choice).2 k = some ⟨k, p, r⟩ := by
  cases choice with
  | none => cases h
  | some r' =>
    unfold serve at h ⊢
    cases hf : find log k with
    | none =>
      rw [hf] at h
      cases h
      have hnone : log.find? (fun e => decide (e.key = k)) = none := hf
      simp [find, List.find?_append, hnone]
    | some e =>
      rw [hf] at h
      dsimp only at h ⊢
      split at h
      · rename_i hp
        rw [if_pos hp]
        cases h
        rw [hf]
        obtain ⟨-, hk⟩ := find_some hf
        subst hk hp
        rfl
      · cases h

theorem serve_mismatch (h : (serve log k p choice).1 = .mismatch) :
    ∃ e, find log k = some e ∧ e.payload ≠ p := by
  cases choice with
  | none => cases h
  | some r =>
    unfold serve at h
    cases hf : find log k with
    | none => rw [hf] at h; cases h
    | some e =>
      rw [hf] at h
      dsimp only at h
      split at h
      · cases h
      · rename_i hp
        exact ⟨e, rfl, hp⟩

theorem serve_ne_mismatch (h : ∀ e, find log k = some e → e.payload = p) :
    (serve log k p choice).1 ≠ .mismatch := by
  intro hm
  obtain ⟨e, hf, hp⟩ := serve_mismatch hm
  exact hp (h e hf)

/-! ### What comes before what -/

/-- Every effect under `k'` has one under `k` before it. -/
def Follows (log : List (Effect κ π ρ)) (k' k : κ) : Prop :=
  ∀ before e after, log = before ++ e :: after → e.key = k' → ∃ e' ∈ before, e'.key = k

omit [DecidableEq π] in
theorem follows_absent {k' : κ} (h : find log k' = none) : Follows log k' k := by
  intro before e after hlog hkey
  exact absurd hkey (find_none h e (by rw [hlog]; simp))

theorem serve_follows {k' k₀ : κ} (h : Follows log k' k₀) (hk : k = k' → ∃ e, find log k₀ = some e) :
    Follows (serve log k p choice).2 k' k₀ := by
  rcases serve_log log k p choice with hl | ⟨r, -, hl⟩ <;> rw [hl]
  · exact h
  · intro before e after hcut hkey
    rcases Run.cut_snoc hcut with ⟨rfl, rfl, -⟩ | ⟨rest, -, hlog⟩
    · obtain ⟨e', he'⟩ := hk hkey
      obtain ⟨hmem, hkey'⟩ := find_some he'
      exact ⟨e', hmem, hkey'⟩
    · exact h before e rest hlog hkey

end Idempotency
