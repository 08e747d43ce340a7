import Mathlib.Data.Prod.Basic

/-!
# Computations that may fail

How a bind and a guarded `throw` come out.
-/

namespace Fallible

variable {ε α β : Type} {e : ε}

theorem bind_ok {x : Except ε α} {f : α → Except ε β} {b : β} :
    (x >>= f) = .ok b ↔ ∃ a, x = .ok a ∧ f a = .ok b := by
  cases x <;> simp [bind, Except.bind]

theorem guard_ok {p : Prop} [Decidable p] {f : α → Except ε β} {g : Except ε β} {b : β} :
    (if p then throw e >>= f else g) = .ok b ↔ ¬p ∧ g = .ok b := by
  by_cases hp : p <;> simp [hp, bind, Except.bind, throw, throwThe, MonadExceptOf.throw]

theorem throw_error {e' : ε} {p : Prop} [Decidable p] {f : α → Except ε β} {g : Except ε β} :
    (if p then throw e >>= f else g) = .error e' ↔ p ∧ e = e' ∨ ¬p ∧ g = .error e' := by
  by_cases hp : p <;> simp [hp, bind, Except.bind, throw, throwThe, MonadExceptOf.throw]

theorem bind_error {x : Except ε α} {f : α → Except ε β} :
    (x >>= f) = .error e ↔ x = .error e ∨ ∃ a, x = .ok a ∧ f a = .error e := by
  cases x <;> simp [bind, Except.bind]

end Fallible
