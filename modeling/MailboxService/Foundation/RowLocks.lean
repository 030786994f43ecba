import MailboxService.Foundation.Fallback
import MailboxService.Foundation.Table

/-!
# Row locks

A transaction locks the rows that a locking read returns and the rows that its
flushes change, and keeps them until it is committed or rolled back; a flush
that breaks a constraint rolls it back. A traced unit of work is a unit of work
together with what it does to a log: the rows that the transaction holds, and,
for every call to the outside, the rows that it held at the time.

The unit of work is a component of the traced one, so that what a traced unit
does to the session is what the unit does. A `Steady` unit makes no call and
rolls nothing back itself: as long as the session takes statements it only
gathers locks.
-/

namespace MailboxService.Foundation

/-! ## The log -/

/-- The rows that are held, and those that were held at each call. -/
structure LockLog (κ : Type) where
  held : List κ := []
  /-- The last call first. -/
  calls : List (List κ) := []
  deriving DecidableEq, Repr

namespace LockLog

variable {κ : Type}

def hold (l : LockLog κ) (rows : List κ) : LockLog κ := { l with held := l.held ++ rows }

/-- Commit or roll back. -/
def release (l : LockLog κ) : LockLog κ := { l with held := [] }

/-- Make `n` calls to the outside. -/
def call (l : LockLog κ) (n : ℕ) : LockLog κ :=
  { l with calls := List.replicate n l.held ++ l.calls }

/-- No call was made with a row held. -/
def Unlocked (l : LockLog κ) : Prop := ∀ rows ∈ l.calls, rows = []

instance [DecidableEq κ] (l : LockLog κ) : Decidable l.Unlocked :=
  inferInstanceAs (Decidable (∀ rows ∈ l.calls, rows = []))

@[simp] theorem hold_held (l : LockLog κ) (rows : List κ) :
    (l.hold rows).held = l.held ++ rows := rfl

@[simp] theorem hold_calls (l : LockLog κ) (rows : List κ) : (l.hold rows).calls = l.calls := rfl

@[simp] theorem release_held (l : LockLog κ) : l.release.held = [] := rfl

@[simp] theorem release_calls (l : LockLog κ) : l.release.calls = l.calls := rfl

@[simp] theorem call_held (l : LockLog κ) (n : ℕ) : (l.call n).held = l.held := rfl

theorem unlocked_call_iff {l : LockLog κ} {n : ℕ} :
    (l.call n).Unlocked ↔ l.Unlocked ∧ (n ≠ 0 → l.held = []) := by
  show (∀ rows ∈ List.replicate n l.held ++ l.calls, rows = []) ↔ _
  simp only [List.forall_mem_append, List.mem_replicate, and_imp]
  constructor
  · rintro ⟨hheld, hcalls⟩
    exact ⟨hcalls, fun hn => hheld _ hn rfl⟩
  · rintro ⟨hcalls, hheld⟩
    exact ⟨fun rows hn hrows => hrows.trans (hheld hn), hcalls⟩

theorem unlocked_congr {l l' : LockLog κ} (h : l'.calls = l.calls) :
    l'.Unlocked ↔ l.Unlocked := by
  unfold Unlocked
  rw [h]

end LockLog

/-! ## Traced units of work -/

/-- A unit of work and its effect on the log of its session. -/
structure Traced (δ ε κ α : Type) where
  work : Work δ ε α
  log : (committed : δ) → Session δ → LockLog κ → LockLog κ

class RowChanges (δ κ : Type) where
  changed : δ → δ → List κ

def Table.changedKeys {ρ κ : Type} [DecidableEq ρ] [DecidableEq κ] {S : Schema ρ κ}
    (t u : Table S) : List κ :=
  ((t.rows ++ u.rows).map S.key).filter fun k => t.get? k ≠ u.get? k

namespace Traced

variable {δ ε κ α β : Type}

instance : Monad (Traced δ ε κ) where
  pure a := ⟨pure a, fun _ _ l => l⟩
  bind x f :=
    { work := x.work >>= fun a => (f a).work
      log := fun committed s l =>
        match x.work committed s with
        | (.ok a, s') => (f a).log committed s' (x.log committed s l)
        | (.error _, _) => x.log committed s l }

def raise (e : ε) : Traced δ ε κ α := ⟨Work.raise e, fun _ _ l => l⟩

def ofExcept (r : Except ε α) : Traced δ ε κ α := ⟨Work.ofExcept r, fun _ _ l => l⟩

/-- Run the handler of the first exception that has one. -/
def handle (x : Traced δ ε κ α) (h : ε → Option (Traced δ ε κ α)) : Traced δ ε κ α where
  work := x.work.handle fun e => (h e).map work
  log := fun committed s l =>
    match x.work committed s with
    | (.ok _, _) => x.log committed s l
    | (.error e, s') =>
        match h e with
        | some y => y.log committed s' (x.log committed s l)
        | none => x.log committed s l

def rollback : Traced δ ε κ Unit := ⟨Work.rollback, fun _ _ l => l.release⟩

/-- `n` calls to the outside, and what comes of them. -/
def call (n : ℕ) (r : Except ε α) : Traced δ ε κ α := ⟨Work.ofExcept r, fun _ _ l => l.call n⟩

/-- A unit of work on rows that are not followed, which rolls nothing back
itself: a broken constraint releases the locks. -/
def ofWork (x : Work δ ε α) : Traced δ ε κ α where
  work := x
  log := fun committed s l =>
    if s.usable && !(x committed s).2.usable then l.release else l

section Statements

variable [SessionErrors ε]

def read (f : δ → α) : Traced δ ε κ α := ⟨Work.read f, fun _ _ l => l⟩

/-- `SELECT ... FOR UPDATE`, with the rows that it returns. -/
def lockingRead (rows : δ → List κ) (f : δ → α) : Traced δ ε κ α where
  work := Work.read f
  log := fun _ s l => if s.usable then l.hold (rows s.db) else l

variable [RowChanges δ κ]

/-- A flush or a bulk statement that may break a constraint. -/
def flush (f : δ → Option δ) : Traced δ ε κ Unit where
  work := Work.flush f
  log := fun _ s l =>
    if s.usable then
      match f s.db with
      | some db => l.hold (RowChanges.changed s.db db)
      | none => l.release
    else l

/-- A statement that cannot break a constraint. -/
def write (f : δ → δ) : Traced δ ε κ Unit := flush fun db => some (f db)

end Statements

/-- The log after the unit has run in a session of its own. -/
def inOwnSession (x : Traced δ ε κ α) (db : δ) (l : LockLog κ) : LockLog κ :=
  (x.log db ⟨db, true⟩ l).release

/-! ## Work and log -/

@[simp] theorem pure_work (a : α) : (pure a : Traced δ ε κ α).work = pure a := rfl

@[simp] theorem bind_work (x : Traced δ ε κ α) (f : α → Traced δ ε κ β) :
    (x >>= f).work = x.work >>= fun a => (f a).work := rfl

@[simp] theorem raise_work (e : ε) : (raise e : Traced δ ε κ α).work = Work.raise e := rfl

@[simp] theorem ofExcept_work (r : Except ε α) :
    (ofExcept r : Traced δ ε κ α).work = Work.ofExcept r := rfl

@[simp] theorem call_work (n : ℕ) (r : Except ε α) :
    (call n r : Traced δ ε κ α).work = Work.ofExcept r := rfl

@[simp] theorem call_log (n : ℕ) (r : Except ε α) (committed : δ) (s : Session δ)
    (l : LockLog κ) : (call n r : Traced δ ε κ α).log committed s l = l.call n := rfl

@[simp] theorem ofWork_work (x : Work δ ε α) : (ofWork x : Traced δ ε κ α).work = x := rfl

@[simp] theorem rollback_work : (rollback : Traced δ ε κ Unit).work = Work.rollback := rfl

theorem handle_work {h : ε → Option (Traced δ ε κ α)} {k : ε → Option (Work δ ε α)}
    (x : Traced δ ε κ α) (hk : ∀ e, (h e).map work = k e) :
    (handle x h).work = x.work.handle k := by
  show x.work.handle (fun e => (h e).map work) = x.work.handle k
  rw [funext hk]

theorem ite_work {p : Prop} [Decidable p] (x y : Traced δ ε κ α) :
    (if p then x else y).work = if p then x.work else y.work :=
  apply_ite work p x y

variable {x : Traced δ ε κ α} {f : α → Traced δ ε κ β} {h : ε → Option (Traced δ ε κ α)}
  {committed : δ} {s s' : Session δ} {l : LockLog κ} {a : α} {e : ε}

theorem bind_log_of_ok (hx : x.work committed s = (.ok a, s')) :
    (x >>= f).log committed s l = (f a).log committed s' (x.log committed s l) := by
  show (match x.work committed s with
        | (.ok a, s') => (f a).log committed s' (x.log committed s l)
        | (.error _, _) => x.log committed s l) = _
  rw [hx]

theorem bind_log_of_error (hx : x.work committed s = (.error e, s')) :
    (x >>= f).log committed s l = x.log committed s l := by
  show (match x.work committed s with
        | (.ok a, s') => (f a).log committed s' (x.log committed s l)
        | (.error _, _) => x.log committed s l) = _
  rw [hx]

theorem handle_log_of_ok (hx : x.work committed s = (.ok a, s')) :
    (handle x h).log committed s l = x.log committed s l := by
  show (match x.work committed s with | (.ok _, _) => _ | (.error e, s') => _) = _
  rw [hx]

theorem handle_log_of_none (hx : x.work committed s = (.error e, s')) (he : h e = none) :
    (handle x h).log committed s l = x.log committed s l := by
  show (match x.work committed s with | (.ok _, _) => _ | (.error e, s') => _) = _
  rw [hx]
  simp only [he]

/-- The handler goes on with the log as the exception left it. -/
theorem handle_log_of_some {y : Traced δ ε κ α} (hx : x.work committed s = (.error e, s'))
    (he : h e = some y) :
    (handle x h).log committed s l = y.log committed s' (x.log committed s l) := by
  show (match x.work committed s with | (.ok _, _) => _ | (.error e, s') => _) = _
  rw [hx]
  simp only [he]

/-- Other work that leaves the session as it is. -/
theorem ofWork_log {x : Work δ ε α} (h : (x committed s).2 = s) :
    (ofWork x : Traced δ ε κ α).log committed s l = l := by
  show (if s.usable && !(x committed s).2.usable then l.release else l) = l
  rw [h, Bool.and_not_self]
  rfl

section Statements

variable [SessionErrors ε]

@[simp] theorem read_work (f : δ → α) : (read f : Traced δ ε κ α).work = Work.read f := rfl

@[simp] theorem lockingRead_work (rows : δ → List κ) (f : δ → α) :
    (lockingRead rows f : Traced δ ε κ α).work = Work.read f := rfl

theorem lockingRead_log (rows : δ → List κ) (f : δ → α) (hs : s.usable = true) :
    (lockingRead rows f : Traced δ ε κ α).log committed s l = l.hold (rows s.db) :=
  if_pos hs

variable [RowChanges δ κ]

@[simp] theorem flush_work (f : δ → Option δ) :
    (flush f : Traced δ ε κ Unit).work = Work.flush f := rfl

@[simp] theorem write_work (f : δ → δ) :
    (write f : Traced δ ε κ Unit).work = Work.write f := rfl

end Statements

/-! ## Steady units -/

/-- From one point of a transaction to a later one: no call has been made, locks
have been gathered while the session takes statements, and there are none left
when a broken constraint has rolled it back. -/
structure Gathers (s : Session δ) (l : LockLog κ) (s' : Session δ) (l' : LockLog κ) :
    Prop where
  calls : l'.calls = l.calls
  stuck : s.usable = false → s' = s ∧ l' = l
  grows : s'.usable = true → l.held ⊆ l'.held
  drops : s.usable = true → s'.usable = false → l'.held = []

theorem Gathers.refl (s : Session δ) (l : LockLog κ) : Gathers s l s l where
  calls := rfl
  stuck _ := ⟨rfl, rfl⟩
  grows _ := List.Subset.refl _
  drops hs hs' := by
    rw [hs] at hs'
    cases hs'

theorem Gathers.trans {s₁ : Session δ} {l₁ l' : LockLog κ} (h : Gathers s l s₁ l₁)
    (h' : Gathers s₁ l₁ s' l') : Gathers s l s' l' where
  calls := h'.calls.trans h.calls
  stuck hs := by
    obtain ⟨rfl, rfl⟩ := h.stuck hs
    exact h'.stuck hs
  grows hs' := by
    have hs₁ : s₁.usable = true := by
      by_contra hstuck
      rw [Bool.not_eq_true] at hstuck
      rw [(h'.stuck hstuck).1, hstuck] at hs'
      cases hs'
    exact List.Subset.trans (h.grows hs₁) (h'.grows hs')
  drops hs hs' := by
    cases hs₁ : s₁.usable with
    | true => exact h'.drops hs₁ hs'
    | false =>
        rw [(h'.stuck hs₁).2]
        exact h.drops hs hs₁

/-- Rows that are returned or changed are held. -/
theorem Gathers.hold {rows : List κ} (hs : s.usable = true) (hs' : s'.usable = true) :
    Gathers s l s' (l.hold rows) where
  calls := rfl
  stuck hstuck := by
    rw [hs] at hstuck
    cases hstuck
  grows _ := List.subset_append_left _ _
  drops _ hstuck := by
    rw [hs'] at hstuck
    cases hstuck

/-- The unit makes no call and rolls nothing back itself. -/
def Steady (x : Traced δ ε κ α) : Prop :=
  ∀ committed s l, Gathers s l (x.work committed s).2 (x.log committed s l)

theorem steady_pure (a : α) : Steady (pure a : Traced δ ε κ α) :=
  fun _ s l => Gathers.refl s l

theorem steady_raise (e : ε) : Steady (raise e : Traced δ ε κ α) :=
  fun _ s l => Gathers.refl s l

theorem steady_ofExcept (r : Except ε α) : Steady (ofExcept r : Traced δ ε κ α) :=
  fun _ s l => Gathers.refl s l

/-- Work on other rows, if it does nothing on a session that takes no
statements. -/
theorem steady_ofWork {x : Work δ ε α}
    (h : ∀ committed s, s.usable = false → (x committed s).2 = s) :
    Steady (ofWork x : Traced δ ε κ α) := by
  intro committed s l
  show Gathers s l (x committed s).2
    (if s.usable && !(x committed s).2.usable then l.release else l)
  by_cases hs : s.usable = true
  · cases hs' : (x committed s).2.usable with
    | true =>
        rw [if_neg (by simp)]
        refine ⟨rfl, fun hstuck => ?_, fun _ => List.Subset.refl _, fun _ hstuck => ?_⟩
        · rw [hs] at hstuck
          cases hstuck
        · rw [hs'] at hstuck
          cases hstuck
    | false =>
        rw [if_pos (by simp [hs])]
        refine ⟨rfl, fun hstuck => ?_, fun husable => ?_, fun _ _ => rfl⟩
        · rw [hs] at hstuck
          cases hstuck
        · rw [hs'] at husable
          cases husable
  · rw [Bool.not_eq_true] at hs
    rw [if_neg (by simp [hs]), h committed s hs]
    exact Gathers.refl s l

/-- Nothing is held in the end exactly if nothing was and the locking read
returned nothing, where what follows such a read leaves the log alone. -/
theorem Steady.held_eq_nil_iff [SessionErrors ε] {k : α → Traced δ ε κ β}
    (hk : ∀ a, Steady (k a)) (rows : δ → List κ) (g : δ → α) (hs : s.usable = true)
    (hnone : rows s.db = [] → ∀ l₁, (k (g s.db)).log committed s l₁ = l₁)
    (hs' : ((lockingRead rows g >>= k).work committed s).2.usable = true) :
    ((lockingRead rows g >>= k).log committed s l).held = [] ↔
      l.held = [] ∧ rows s.db = [] := by
  have hread : (lockingRead rows g : Traced δ ε κ α).work committed s = (.ok (g s.db), s) := by
    rw [lockingRead_work]
    exact Work.read_of_usable hs
  rw [bind_work, Work.bind_of_ok hread] at hs'
  rw [bind_log_of_ok hread, lockingRead_log rows g hs]
  constructor
  · intro hheld
    have hgrows := (hk _ committed s (l.hold (rows s.db))).grows hs'
    rw [hheld, List.subset_nil] at hgrows
    exact List.append_eq_nil_iff.mp hgrows
  · rintro ⟨hheld, hrows⟩
    rw [hnone hrows, LockLog.hold_held, hheld, hrows]
    rfl

/-- **Sequence.** -/
theorem Steady.bind (hx : Steady x) (hf : ∀ a, Steady (f a)) : Steady (x >>= f) := by
  intro committed s l
  have hfirst := hx committed s l
  rcases h : x.work committed s with ⟨e | a, s₁⟩
  · rw [bind_work, Work.bind_of_error h, bind_log_of_error h]
    rw [h] at hfirst
    exact hfirst
  · rw [bind_work, Work.bind_of_ok h, bind_log_of_ok h]
    rw [h] at hfirst
    exact hfirst.trans (hf a committed s₁ _)

/-- **Handler.** -/
theorem Steady.handle (hx : Steady x) (hh : ∀ e y, h e = some y → Steady y) :
    Steady (handle x h) := by
  intro committed s l
  have hfirst := hx committed s l
  show Gathers s l (Work.handle x.work (fun e => (h e).map work) committed s).2 _
  rcases hxs : x.work committed s with ⟨e | a, s₁⟩
  · rw [hxs] at hfirst
    cases he : h e with
    | none =>
        rw [Work.handle_of_none hxs (by rw [he]; rfl), handle_log_of_none hxs he]
        exact hfirst
    | some y =>
        rw [Work.handle_of_some hxs (by rw [he]; rfl), handle_log_of_some hxs he]
        exact hfirst.trans (hh e y he committed s₁ _)
  · rw [Work.handle_of_ok hxs, handle_log_of_ok hxs]
    rw [hxs] at hfirst
    exact hfirst

section Statements

variable [SessionErrors ε]

theorem steady_read (f : δ → α) : Steady (read f : Traced δ ε κ α) := by
  intro committed s l
  by_cases hs : s.usable = true
  · rw [read_work, Work.read_of_usable hs]
    exact Gathers.refl s l
  · rw [read_work, Work.read_of_unusable (Bool.not_eq_true _ ▸ hs)]
    exact Gathers.refl s l

theorem steady_lockingRead (rows : δ → List κ) (f : δ → α) :
    Steady (lockingRead rows f : Traced δ ε κ α) := by
  intro committed s l
  by_cases hs : s.usable = true
  · rw [lockingRead_work, Work.read_of_usable hs, lockingRead_log rows f hs]
    exact Gathers.hold hs hs
  · have hlog : (lockingRead rows f : Traced δ ε κ α).log committed s l = l := if_neg hs
    rw [lockingRead_work, Work.read_of_unusable (Bool.not_eq_true _ ▸ hs), hlog]
    exact Gathers.refl s l

variable [RowChanges δ κ]

theorem steady_flush (f : δ → Option δ) : Steady (flush f : Traced δ ε κ Unit) := by
  intro committed s l
  show Gathers s l _ (if s.usable then _ else l)
  by_cases hs : s.usable = true
  · rw [if_pos hs, flush_work]
    cases hf : f s.db with
    | none =>
        rw [Work.flush_of_none hs hf]
        refine ⟨rfl, fun hstuck => ?_, fun hs' => (by cases hs'), fun _ _ => rfl⟩
        rw [hs] at hstuck
        cases hstuck
    | some db =>
        rw [Work.flush_of_some hs hf]
        exact Gathers.hold hs rfl
  · rw [if_neg hs, flush_work, Work.flush_of_unusable (Bool.not_eq_true _ ▸ hs)]
    exact Gathers.refl s l

theorem steady_write (f : δ → δ) : Steady (write f : Traced δ ε κ Unit) := steady_flush _

end Statements

/-! ## Silent units -/

def Silent (x : Traced δ ε κ α) : Prop :=
  ∀ committed s l, (x.log committed s l).calls = l.calls

theorem Steady.silent (hx : Steady x) : Silent x :=
  fun committed s l => (hx committed s l).calls

theorem silent_rollback : Silent (rollback : Traced δ ε κ Unit) := fun _ _ _ => rfl

theorem Silent.bind (hx : Silent x) (hf : ∀ a, Silent (f a)) : Silent (x >>= f) := by
  intro committed s l
  rcases h : x.work committed s with ⟨e | a, s₁⟩
  · rw [bind_log_of_error h, hx]
  · rw [bind_log_of_ok h, hf, hx]

theorem Silent.handle (hx : Silent x) (hh : ∀ e y, h e = some y → Silent y) :
    Silent (handle x h) := by
  intro committed s l
  rcases hxs : x.work committed s with ⟨e | a, s₁⟩
  · cases he : h e with
    | none => rw [handle_log_of_none hxs he, hx]
    | some y => rw [handle_log_of_some hxs he, hh e y he, hx]
  · rw [handle_log_of_ok hxs, hx]

theorem Silent.unlocked_iff (hx : Silent x) : (x.log committed s l).Unlocked ↔ l.Unlocked :=
  LockLog.unlocked_congr (hx committed s l)

/-- **A call** goes out with what is held when it is made. -/
theorem unlocked_call_bind_iff {r : Except ε α} {n : ℕ} (hf : ∀ a, Silent (f a)) :
    ((call n r >>= f).log committed s l).Unlocked ↔ (l.call n).Unlocked := by
  cases r with
  | error e =>
      have hcall : (call n (.error e) : Traced δ ε κ α).work committed s = (.error e, s) := rfl
      rw [bind_log_of_error hcall, call_log]
  | ok a =>
      have hcall : (call n (.ok a) : Traced δ ε κ α).work committed s = (.ok a, s) := rfl
      rw [bind_log_of_ok hcall, call_log, (hf a).unlocked_iff]

theorem inOwnSession_unlocked (x : Traced δ ε κ α) (db : δ) (l : LockLog κ) :
    (x.inOwnSession db l).Unlocked ↔ (x.log db ⟨db, true⟩ l).Unlocked := Iff.rfl

end Traced

end MailboxService.Foundation
