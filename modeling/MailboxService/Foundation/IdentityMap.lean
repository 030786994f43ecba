import MailboxService.Foundation.Dict

/-!
# Loaded instances

An object-relational session keeps one instance per primary key. A later query
that returns the same row hands out the instance as it was loaded, even when it
locks the row (`load`), and a flush writes back only the columns whose value
differs from the loaded one (`flushColumn`). Between a load and the flush the
row may have changed; what the flush leaves is a mix of both.
-/

namespace MailboxService.Foundation

variable {κ ρ α : Type*}

/-- The instance a query hands out for a row: the loaded one if there is one. -/
def load [DecidableEq κ] (instances : Dict κ ρ) (k : κ) (row : ρ) : ρ × Dict κ ρ :=
  match instances.lookup k with
  | some instance_ => (instance_, instances)
  | none => (row, instances.set k row)

@[simp] theorem load_fresh [DecidableEq κ] (k : κ) (row : ρ) :
    load (∅ : Dict κ ρ) k row = (row, (∅ : Dict κ ρ).set k row) := rfl

theorem load_loaded [DecidableEq κ] (instances : Dict κ ρ) (k : κ) (first second : ρ) :
    load (instances.set k first) k second = (first, instances.set k first) := by
  unfold load
  rw [Dict.lookup_set, if_pos rfl]

/-- What a flush leaves in one column: the assigned value if it differs from
the loaded one, the current value otherwise. -/
def flushColumn [DecidableEq α] (loaded assigned current : α) : α :=
  if assigned = loaded then current else assigned

/-- Without a change in between the column gets the assigned value. -/
@[simp] theorem flushColumn_current [DecidableEq α] (loaded assigned : α) :
    flushColumn loaded assigned loaded = assigned := by
  unfold flushColumn
  split
  · rename_i h
    exact h.symm
  · rfl

/-- A column that was not assigned keeps its current value. -/
@[simp] theorem flushColumn_unassigned [DecidableEq α] (loaded current : α) :
    flushColumn loaded loaded current = current := by
  unfold flushColumn
  rw [if_pos rfl]

theorem flushColumn_of_ne [DecidableEq α] {loaded assigned : α} (h : assigned ≠ loaded)
    (current : α) : flushColumn loaded assigned current = assigned := by
  unfold flushColumn
  rw [if_neg h]

theorem flushColumn_eq [DecidableEq α] (loaded assigned current : α) :
    flushColumn loaded assigned current = current ∨
      flushColumn loaded assigned current = assigned := by
  unfold flushColumn
  split
  · exact Or.inl rfl
  · exact Or.inr rfl

end MailboxService.Foundation
