import Mathlib.Data.List.Sort

/-!
# Chains of refusals

Validating code is a sequence of guards, each with its own way out. These are
the rules that peel such a sequence apart: a chain accepts when every guard on
the way is off, and a computation that succeeded did so through each of its
steps.
-/

namespace ScratchBird.Lib

variable {ε α β : Type} {p : Prop} {reason : ε} {f : α → Except ε β} {x : Except ε α} {r : β}

theorem guard_eq_none_iff [Decidable p] {rest : Option ε} :
    (if p then some reason else rest) = none ↔ ¬p ∧ rest = none := by
  by_cases hp : p <;> simp [hp]

theorem guard_eq_ok_iff [Decidable p] {r : α} {rest : Except ε α} :
    (if p then .error reason else rest) = .ok r ↔ ¬p ∧ rest = .ok r := by
  by_cases hp : p <;> simp [hp]

theorem ok_bind {a : α} : ((.ok a : Except ε α) >>= f) = f a := rfl

theorem error_bind : ((.error reason : Except ε α) >>= f) = .error reason := rfl

theorem bind_eq_ok_iff : (x >>= f) = .ok r ↔ ∃ a, x = .ok a ∧ f a = .ok r := by
  cases x with
  | error d => simp [bind, Except.bind]
  | ok a => simp [bind, Except.bind]

theorem map_eq_ok_iff {f : α → β} : f <$> x = .ok r ↔ ∃ a, x = .ok a ∧ f a = r := by
  cases x with
  | error d => simp [Functor.map, Except.map]
  | ok a => simp [Functor.map, Except.map]

/-- What a computation gave can be looked at. -/
instance decidableExistsOk {q : α → Prop} [DecidablePred q] : Decidable (∃ a, x = .ok a ∧ q a) :=
  match x with
  | .ok a => decidable_of_iff (q a) (by simp)
  | .error _ => isFalse (by simp)

instance decidableForallOk {q : α → Prop} [DecidablePred q] : Decidable (∀ a, x = .ok a → q a) :=
  match x with
  | .ok a => decidable_of_iff (q a) (by simp)
  | .error _ => isTrue (by simp)

end ScratchBird.Lib
