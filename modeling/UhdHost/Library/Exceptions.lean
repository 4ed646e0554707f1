import Mathlib.Tactic.Common

/-!
# Computations that may throw

Rules for taking apart a computation in `Except` that ends normally.
-/

namespace UhdHost
namespace Exceptions

variable {ε α β : Type}

/-- A computation goes on where its first part ended normally. -/
theorem ok_bind (a : α) (f : α → Except ε β) : (Except.ok a >>= f) = f a := rfl

/-- **A computation that ends normally** does so in both parts. -/
theorem bind_eq_ok {x : Except ε α} {f : α → Except ε β} {b : β} :
    (x >>= f) = .ok b ↔ ∃ a, x = .ok a ∧ f a = .ok b := by
  cases x with
  | ok a => exact ⟨fun h => ⟨a, rfl, h⟩, fun ⟨_, ha, h⟩ => Except.ok.inj ha ▸ h⟩
  | error e => exact iff_of_false (fun h => nomatch h) fun ⟨_, ha, _⟩ => nomatch ha

theorem ok_ne_error {a : α} {e : ε} : (Except.ok a : Except ε α) ≠ .error e := fun h => nomatch h

end Exceptions
end UhdHost
