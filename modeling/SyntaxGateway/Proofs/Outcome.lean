import Mathlib

/-!
# Outcomes in a row

When a computation that may fail succeeds, each of its parts did; and a fault that is put into other
words remains a fault.
-/

namespace SyntaxGateway

variable {ε ε' α β : Type} {x : Except ε α} {a : α} {b : β}

theorem bind_eq_ok_iff {f : α → Except ε β} :
    (x >>= f) = .ok b ↔ ∃ a, x = .ok a ∧ f a = .ok b := by
  cases x <;> simp [bind, Except.bind]

theorem map_eq_ok_iff {f : α → β} : x.map f = .ok b ↔ ∃ a, x = .ok a ∧ f a = b := by
  cases x <;> simp [Except.map]

theorem mapError_eq_ok_iff {f : ε → ε'} : x.mapError f = .ok a ↔ x = .ok a := by
  cases x <;> simp [Except.mapError]

theorem mapError_eq_error_iff {f : ε → ε'} {fault' : ε'} :
    x.mapError f = .error fault' ↔ ∃ fault, x = .error fault ∧ f fault = fault' := by
  cases x <;> simp [Except.mapError]

end SyntaxGateway
