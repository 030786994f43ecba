import Mathlib.Tactic.Basic

/-!
# Sequences of checks

A function that raises is a value of `Except`, and its checks are made one after
another. What such a sequence returns was returned by its last check, after all the
others had been passed; what it raises was raised by one of them.
-/

namespace MailboxService.Foundation.Checks

variable {ε α β : Type} {x : Except ε α} {f : α → Except ε β}

theorem bind_eq_ok {b : β} : (x >>= f) = .ok b ↔ ∃ a, x = .ok a ∧ f a = .ok b := by
  cases x with
  | error e => simp [bind, Except.bind]
  | ok a => simp [bind, Except.bind]

/-- A sequence of checks fails where one of them does. -/
theorem bind_eq_error {e : ε} :
    (x >>= f) = .error e ↔ x = .error e ∨ ∃ a, x = .ok a ∧ f a = .error e := by
  cases x with
  | error e' => simp [bind, Except.bind]
  | ok a => simp [bind, Except.bind]

/-- A sequence of checks succeeds when each of them does. -/
theorem exists_bind_ok :
    (∃ b, (x >>= f) = .ok b) ↔ ∃ a, x = .ok a ∧ ∃ b, f a = .ok b := by
  cases x with
  | error e => simp [bind, Except.bind]
  | ok a => simp [bind, Except.bind]

/-- A value that is changed is returned when the value is. -/
theorem exists_map_ok (g : α → β) : (∃ b, x.map g = .ok b) ↔ ∃ a, x = .ok a := by
  cases x with
  | error e => simp [Except.map]
  | ok a => simp [Except.map]

end MailboxService.Foundation.Checks
