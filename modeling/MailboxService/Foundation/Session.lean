import Mathlib.Data.List.Basic

/-!
# Database sessions

A unit of work runs on a session inside a transaction. It returns or raises,
and an exception leaves the session as it stands: what was flushed before it
stays in the transaction until somebody rolls back. A flush that breaks a
constraint rolls the transaction back at once and leaves the session unusable:
until `rollback` every further statement raises.

The state before the transaction is a parameter of a unit of work, so no work
can change it; `transact` commits what a unit of work leaves when it returns
and drops it when it raises.
-/

namespace MailboxService.Foundation

/-- An open session: what the transaction sees, and whether it takes
statements. -/
structure Session (δ : Type) where
  db : δ
  usable : Bool

/-- The two errors that the session itself raises. -/
class SessionErrors (ε : Type) where
  integrityError : ε
  pendingRollback : ε

/-- A unit of work, given the database its transaction started from. -/
def Work (δ ε α : Type) := (committed : δ) → Session δ → Except ε α × Session δ

namespace Work

variable {δ ε α β : Type}

instance : Monad (Work δ ε) where
  pure a := fun _ s => (.ok a, s)
  bind x f := fun committed s =>
    match x committed s with
    | (.ok a, s) => f a committed s
    | (.error e, s) => (.error e, s)

def raise (e : ε) : Work δ ε α := fun _ s => (.error e, s)

def ofExcept (r : Except ε α) : Work δ ε α := fun _ s => (r, s)

/-- Run the handler of the first exception that has one. -/
def handle (x : Work δ ε α) (h : ε → Option (Work δ ε α)) : Work δ ε α :=
  fun committed s =>
    match x committed s with
    | (.ok a, s) => (.ok a, s)
    | (.error e, s) =>
        match h e with
        | some y => y committed s
        | none => (.error e, s)

/-- Drop the transaction and start a new one. -/
def rollback : Work δ ε Unit := fun committed _ => (.ok (), ⟨committed, true⟩)

section Statements

variable [SessionErrors ε]

def read (f : δ → α) : Work δ ε α := fun _ s =>
  if s.usable then (.ok (f s.db), s) else (.error SessionErrors.pendingRollback, s)

/-- A flush or a bulk statement that may break a constraint. -/
def flush (f : δ → Option δ) : Work δ ε Unit := fun committed s =>
  if s.usable then
    match f s.db with
    | some db => (.ok (), ⟨db, true⟩)
    | none => (.error SessionErrors.integrityError, ⟨committed, false⟩)
  else (.error SessionErrors.pendingRollback, s)

/-- A statement that cannot break a constraint. -/
def write (f : δ → δ) : Work δ ε Unit := flush fun db => some (f db)

/-- The request around a unit of work: commit if it returns, roll back if it
raises. -/
def transact (x : Work δ ε α) (db : δ) : Except ε α × δ :=
  match x db ⟨db, true⟩ with
  | (.ok a, s) => if s.usable then (.ok a, s.db) else (.error SessionErrors.pendingRollback, db)
  | (.error e, _) => (.error e, db)

end Statements

variable {committed : δ} {s s' : Session δ} {a : α} {b : β} {e : ε}

@[simp] theorem pure_apply : (pure a : Work δ ε α) committed s = (.ok a, s) := rfl

@[simp] theorem raise_apply : (raise e : Work δ ε α) committed s = (.error e, s) := rfl

@[simp] theorem rollback_apply :
    (rollback : Work δ ε Unit) committed s = (.ok (), ⟨committed, true⟩) := rfl

@[simp] theorem ofExcept_apply {r : Except ε α} :
    (ofExcept r : Work δ ε α) committed s = (r, s) := rfl

theorem bind_of_ok {x : Work δ ε α} {f : α → Work δ ε β}
    (h : x committed s = (.ok a, s')) : (x >>= f) committed s = f a committed s' := by
  show (match x committed s with
        | (.ok a, s) => f a committed s
        | (.error e, s) => (.error e, s)) = _
  rw [h]

theorem bind_of_error {x : Work δ ε α} {f : α → Work δ ε β}
    (h : x committed s = (.error e, s')) : (x >>= f) committed s = (.error e, s') := by
  show (match x committed s with
        | (.ok a, s) => f a committed s
        | (.error e, s) => (.error e, s)) = _
  rw [h]

/-- A sequence returns exactly if both parts do. -/
theorem bind_eq_ok {x : Work δ ε α} {f : α → Work δ ε β} :
    (x >>= f) committed s = (.ok b, s') ↔
      ∃ a s₁, x committed s = (.ok a, s₁) ∧ f a committed s₁ = (.ok b, s') := by
  rcases hx : x committed s with ⟨e | a, s₁⟩
  · rw [bind_of_error hx]
    simp
  · rw [bind_of_ok hx]
    simp

/-- A sequence raises exactly if one of its parts does. -/
theorem bind_eq_error {x : Work δ ε α} {f : α → Work δ ε β} :
    (x >>= f) committed s = (.error e, s') ↔
      x committed s = (.error e, s') ∨
        ∃ a s₁, x committed s = (.ok a, s₁) ∧ f a committed s₁ = (.error e, s') := by
  rcases hx : x committed s with ⟨e' | a, s₁⟩
  · rw [bind_of_error hx]
    simp
  · rw [bind_of_ok hx]
    simp

theorem handle_of_ok {x : Work δ ε α} {h : ε → Option (Work δ ε α)}
    (hx : x committed s = (.ok a, s')) : handle x h committed s = (.ok a, s') := by
  unfold handle
  rw [hx]

theorem handle_of_none {x : Work δ ε α} {h : ε → Option (Work δ ε α)}
    (hx : x committed s = (.error e, s')) (he : h e = none) :
    handle x h committed s = (.error e, s') := by
  unfold handle
  rw [hx]
  simp only [he]

/-- The handler runs in the session as the exception left it. -/
theorem handle_of_some {x y : Work δ ε α} {h : ε → Option (Work δ ε α)}
    (hx : x committed s = (.error e, s')) (he : h e = some y) :
    handle x h committed s = y committed s' := by
  unfold handle
  rw [hx]
  simp only [he]

section Statements

variable [SessionErrors ε]

theorem read_of_usable {f : δ → α} (h : s.usable = true) :
    (read f : Work δ ε α) committed s = (.ok (f s.db), s) := by
  unfold read
  rw [if_pos h]

theorem read_eq_ok {f : δ → α} :
    (read f : Work δ ε α) committed s = (.ok a, s') ↔
      s.usable = true ∧ a = f s.db ∧ s' = s := by
  unfold read
  by_cases h : s.usable = true
  · simp [h, eq_comm]
  · simp [h]

theorem flush_eq_ok {f : δ → Option δ} {u : Unit} :
    (flush f : Work δ ε Unit) committed s = (.ok u, s') ↔
      s.usable = true ∧ ∃ db, f s.db = some db ∧ s' = ⟨db, true⟩ := by
  unfold flush
  by_cases h : s.usable = true
  · cases hf : f s.db with
    | none => simp [h]
    | some db => simp [h, eq_comm]
  · simp [h]

theorem write_eq_ok {f : δ → δ} {u : Unit} :
    (write f : Work δ ε Unit) committed s = (.ok u, s') ↔
      s.usable = true ∧ s' = ⟨f s.db, true⟩ := by
  unfold write
  rw [flush_eq_ok]
  simp

theorem flush_of_some {f : δ → Option δ} {d : δ} (hs : s.usable = true)
    (hf : f s.db = some d) : (flush f : Work δ ε Unit) committed s = (.ok (), ⟨d, true⟩) :=
  flush_eq_ok.mpr ⟨hs, d, hf, rfl⟩

/-- A broken constraint rolls back and leaves the session unusable. -/
theorem flush_of_none {f : δ → Option δ} (hs : s.usable = true) (hf : f s.db = none) :
    (flush f : Work δ ε Unit) committed s =
      (.error SessionErrors.integrityError, ⟨committed, false⟩) := by
  unfold flush
  rw [if_pos hs, hf]

theorem write_of_usable {f : δ → δ} (hs : s.usable = true) :
    (write f : Work δ ε Unit) committed s = (.ok (), ⟨f s.db, true⟩) :=
  write_eq_ok.mpr ⟨hs, rfl⟩

theorem read_of_unusable {f : δ → α} (hs : s.usable = false) :
    (read f : Work δ ε α) committed s = (.error SessionErrors.pendingRollback, s) := by
  unfold read
  rw [hs]
  rfl

theorem flush_of_unusable {f : δ → Option δ} (hs : s.usable = false) :
    (flush f : Work δ ε Unit) committed s = (.error SessionErrors.pendingRollback, s) := by
  unfold flush
  rw [hs]
  rfl

/-- A request is committed exactly if its work returns on a session that still
takes statements. -/
theorem transact_eq_ok {x : Work δ ε α} {db db' : δ} :
    transact x db = (.ok a, db') ↔ x db ⟨db, true⟩ = (.ok a, ⟨db', true⟩) := by
  unfold transact
  rcases hx : x db ⟨db, true⟩ with ⟨e | b, d, u⟩
  · simp
  · cases u <;> simp

theorem transact_of_error {x : Work δ ε α} {db : δ} (h : x db ⟨db, true⟩ = (.error e, s')) :
    transact x db = (.error e, db) := by
  unfold transact
  rw [h]

theorem transact_error {x : Work δ ε α} {db db' : δ}
    (h : transact x db = (.error e, db')) : db' = db := by
  unfold transact at h
  rcases hx : x db ⟨db, true⟩ with ⟨e' | b, d, u⟩
  · rw [hx] at h
    cases h
    rfl
  · rw [hx] at h
    cases u
    · cases h
      rfl
    · cases h

end Statements

end Work

end MailboxService.Foundation
