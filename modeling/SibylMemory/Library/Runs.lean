import Mathlib.Data.List.Basic
import Mathlib.Data.List.Induction

/-!
# Runs of a step function

A run is a list of actions folded over a state. `Always` states a property of
every step of a run (the state before it and the action), and the rules here
turn what one step preserves into what a whole run preserves. Where a step may
not be enabled, a run is a fold into `Option`.
-/

namespace Run
variable {σ α : Type}

/-- The state after the actions of `l`. -/
def exec (step : σ → α → σ) (s : σ) (l : List α) : σ := l.foldl step s

@[simp] theorem exec_nil (step : σ → α → σ) (s : σ) : exec step s [] = s := rfl

@[simp] theorem exec_cons (step : σ → α → σ) (s : σ) (a : α) (l : List α) :
    exec step s (a :: l) = exec step (step s a) l := rfl

theorem exec_append (step : σ → α → σ) (s : σ) (l l' : List α) :
    exec step s (l ++ l') = exec step (exec step s l) l' := by
  simp [exec, List.foldl_append]

/-- Every step of the run satisfies `P`, read in the state before the step. -/
def Always (step : σ → α → σ) (P : σ → α → Prop) : σ → List α → Prop
  | _, [] => True
  | s, a :: l => P s a ∧ Always step P (step s a) l

instance decidableAlways {step : σ → α → σ} {P : σ → α → Prop} [∀ s a, Decidable (P s a)] :
    (s : σ) → (l : List α) → Decidable (Always step P s l)
  | _, [] => .isTrue trivial
  | s, a :: l =>
    have : Decidable (Always step P (step s a) l) := decidableAlways (step s a) l
    inferInstanceAs (Decidable (P s a ∧ Always step P (step s a) l))

theorem always_append {step : σ → α → σ} {P : σ → α → Prop} (s : σ) (l l' : List α) :
    Always step P s (l ++ l') ↔ Always step P s l ∧ Always step P (exec step s l) l' := by
  induction l generalizing s with
  | nil => simp [Always]
  | cons a l ih => simp [Always, ih, and_assoc]

/-- A step property read off the run: it holds at every cut of the action list. -/
theorem always_iff_forall {step : σ → α → σ} {P : σ → α → Prop} (s : σ) (l : List α) :
    Always step P s l ↔ ∀ l₁ a l₂, l = l₁ ++ a :: l₂ → P (exec step s l₁) a := by
  constructor
  · rintro h l₁ a l₂ rfl
    exact ((always_append s l₁ (a :: l₂)).mp h).2.1
  · induction l generalizing s with
    | nil => exact fun _ => trivial
    | cons b l ih =>
      intro h
      refine ⟨h [] b l rfl, ih (step s b) ?_⟩
      rintro l₁ a l₂ rfl
      exact h (b :: l₁) a l₂ rfl

theorem always_of_forall {step : σ → α → σ} {P : σ → α → Prop} (h : ∀ s a, P s a) (s : σ)
    (l : List α) : Always step P s l := by
  induction l generalizing s with
  | nil => trivial
  | cons a l ih => exact ⟨h s a, ih _⟩

/-- Invariant rule for guarded runs. -/
theorem exec_invariant {step : σ → α → σ} {A : σ → α → Prop} {I : σ → Prop}
    (hstep : ∀ s a, I s → A s a → I (step s a)) {s : σ} {l : List α}
    (hs : I s) (hl : Always step A s l) : I (exec step s l) := by
  induction l generalizing s with
  | nil => exact hs
  | cons a l ih => exact ih (hstep s a hs hl.1) hl.2

/-- Invariant rule for runs of a step that always keeps the invariant. -/
theorem exec_invariant_of_step {step : σ → α → σ} {I : σ → Prop}
    (hstep : ∀ s a, I s → I (step s a)) {s : σ} {l : List α} (hs : I s) :
    I (exec step s l) := by
  induction l generalizing s with
  | nil => exact hs
  | cons a l ih => exact ih (hstep s a hs)

theorem always_of_invariant {step : σ → α → σ} {A P : σ → α → Prop} {I : σ → Prop}
    (hstep : ∀ s a, I s → A s a → I (step s a))
    (hP : ∀ s a, I s → A s a → P s a) {s : σ} {l : List α}
    (hs : I s) (hl : Always step A s l) : Always step P s l := by
  induction l generalizing s with
  | nil => trivial
  | cons a l ih => exact ⟨hP s a hs hl.1, ih (hstep s a hs hl.1) hl.2⟩

/-- Under an invariant of all runs, a step property and its exact condition agree on runs. -/
theorem always_congr_of_invariant {step : σ → α → σ} {A P Q : σ → α → Prop} {I : σ → Prop}
    (hstep : ∀ s a, I s → A s a → I (step s a))
    (hPQ : ∀ s a, I s → A s a → (P s a ↔ Q s a)) {s : σ} {l : List α}
    (hs : I s) (hl : Always step A s l) : Always step P s l ↔ Always step Q s l := by
  induction l generalizing s with
  | nil => exact Iff.rfl
  | cons a l ih => exact and_congr (hPQ s a hs hl.1) (ih (hstep s a hs hl.1) hl.2)

/-- A step property and its exact condition agree on runs when the property keeps what the condition
needs. -/
theorem always_iff_of_kept {step : σ → α → σ} {P Q : σ → α → Prop} {I : σ → Prop}
    (hPQ : ∀ s a, I s → (P s a ↔ Q s a)) (hkept : ∀ s a, I s → P s a → I (step s a)) {s : σ}
    {l : List α} (hs : I s) : Always step P s l ↔ Always step Q s l := by
  induction l generalizing s with
  | nil => exact Iff.rfl
  | cons a l ih =>
    rw [Always, Always, ← hPQ s a hs]
    exact and_congr_right fun ha => ih (hkept s a hs ha)

/-! ### Steps that may not be enabled -/

theorem foldlM_snoc {step : σ → α → Option σ} {s s' : σ} {l : List α} {a : α}
    (h : (l ++ [a]).foldlM step s = some s') :
    ∃ s₀, l.foldlM step s = some s₀ ∧ step s₀ a = some s' := by
  rw [List.foldlM_append, Option.bind_eq_bind, Option.bind_eq_some_iff] at h
  obtain ⟨s₀, hs₀, hstep⟩ := h
  rw [List.foldlM_cons, Option.bind_eq_bind, Option.bind_eq_some_iff] at hstep
  obtain ⟨s₁, hstep, hs₁⟩ := hstep
  cases hs₁
  exact ⟨s₀, hs₀, hstep⟩

/-- Invariant rule for a property of the actions so far and the state they lead to. -/
theorem foldlM_invariant {step : σ → α → Option σ} {I : List α → σ → Prop} {s : σ}
    (hstart : I [] s)
    (hstep : ∀ l s₀ a s', l.foldlM step s = some s₀ → I l s₀ → step s₀ a = some s' →
      I (l ++ [a]) s') {l : List α} {s' : σ} (h : l.foldlM step s = some s') : I l s' := by
  induction l using List.reverseRecOn generalizing s' with
  | nil =>
    cases h
    exact hstart
  | append_singleton l a ih =>
    obtain ⟨s₀, hs₀, ha⟩ := foldlM_snoc h
    exact hstep l s₀ a s' hs₀ (ih hs₀) ha

/-- A cut before an item of a list with one item more is before the last item, or is a cut of the
list. -/
theorem cut_snoc {l before after : List α} {x a : α} (h : l ++ [x] = before ++ a :: after) :
    (before = l ∧ a = x ∧ after = []) ∨
      ∃ after', after = after' ++ [x] ∧ l = before ++ a :: after' := by
  rcases List.eq_nil_or_concat after with rfl | ⟨after', last, rfl⟩
  · obtain ⟨rfl, hlast⟩ := List.append_inj' h rfl
    exact .inl ⟨rfl, (List.cons.inj hlast).1.symm, rfl⟩
  · rw [List.concat_eq_append, ← List.cons_append, ← List.append_assoc] at h
    obtain ⟨rfl, hlast⟩ := List.append_inj' h rfl
    obtain rfl := (List.cons.inj hlast).1
    exact .inr ⟨after', List.concat_eq_append, rfl⟩

end Run
