import Mathlib.Data.Nat.Notation

/-!
# Retried transactions

A transaction that fails with a retryable error is run again, as often as the
number of attempts allows. A transaction that fails leaves no trace, so what a
retried one leaves is what one of its attempts leaves.
-/

namespace MailboxService.Foundation

variable {δ ε α : Type*}

/-- Run the attempts from one on, until one of them returns, fails for good, or
is the last. -/
def retryFrom (retryable : ε → Bool) (exhausted : ε → ℕ → ε)
    (operation : ℕ → δ → Except ε α × δ) : (attemptIndex remaining : ℕ) → δ → Except ε α × δ
  | attemptIndex, 0, db =>
      match operation attemptIndex db with
      | (.ok a, db) => (.ok a, db)
      | (.error e, db) =>
          (.error (if retryable e then exhausted e attemptIndex else e), db)
  | attemptIndex, remaining + 1, db =>
      match operation attemptIndex db with
      | (.ok a, db) => (.ok a, db)
      | (.error e, db) =>
          if retryable e then
            retryFrom retryable exhausted operation (attemptIndex + 1) remaining db
          else (.error e, db)

def RollsBack (operation : ℕ → δ → Except ε α × δ) : Prop :=
  ∀ i db e db', operation i db = (.error e, db') → db' = db

variable {retryable : ε → Bool} {exhausted : ε → ℕ → ε} {operation : ℕ → δ → Except ε α × δ}
  {attemptIndex remaining : ℕ} {db db' : δ}

/-- **What a retried transaction returns** is what one of its attempts returns
where the first one started. -/
theorem retryFrom_ok (hrollback : RollsBack operation) {a : α}
    (h : retryFrom retryable exhausted operation attemptIndex remaining db = (.ok a, db')) :
    ∃ i, operation i db = (.ok a, db') := by
  induction remaining generalizing attemptIndex with
  | zero =>
      unfold retryFrom at h
      rcases hrun : operation attemptIndex db with ⟨e | b, d⟩
      · rw [hrun] at h
        cases h
      · rw [hrun] at h
        exact ⟨attemptIndex, hrun.trans h⟩
  | succ remaining ih =>
      unfold retryFrom at h
      rcases hrun : operation attemptIndex db with ⟨e | b, d⟩
      · obtain rfl := hrollback _ _ _ _ hrun
        rw [hrun] at h
        dsimp only at h
        split at h
        · exact ih h
        · cases h
      · rw [hrun] at h
        exact ⟨attemptIndex, hrun.trans h⟩

/-- **A retried transaction that raises leaves no trace.** -/
theorem retryFrom_error (hrollback : RollsBack operation) {e : ε}
    (h : retryFrom retryable exhausted operation attemptIndex remaining db = (.error e, db')) :
    db' = db := by
  induction remaining generalizing attemptIndex with
  | zero =>
      unfold retryFrom at h
      rcases hrun : operation attemptIndex db with ⟨e' | b, d⟩
      · rw [hrun] at h
        cases h
        exact hrollback _ _ _ _ hrun
      · rw [hrun] at h
        cases h
  | succ remaining ih =>
      unfold retryFrom at h
      rcases hrun : operation attemptIndex db with ⟨e' | b, d⟩
      · obtain rfl := hrollback _ _ _ _ hrun
        rw [hrun] at h
        dsimp only at h
        split at h
        · exact ih h
        · cases h
          rfl
      · rw [hrun] at h
        cases h

end MailboxService.Foundation
