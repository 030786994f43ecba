import MailboxService.LeaseService.UpdateRefreshToken
import MailboxService.LeaseService.LeaseRuns
import MailboxService.Foundation.Interleaving

/-!
# Peeking before locking

Request handlers that write a refresh token back or release a lease, each in
three steps: the lease is peeked at without a lock, the row of its mailbox or
resource is locked, then the lease is locked, re-validated and acted upon.
Other handlers and the administrator come in between.

The session hands out the lease as the peek loaded it, so the re-validation
looks at what the row was before the wait for the lock. It is right exactly as
long as the lease is not released during that wait.
-/

namespace MailboxService

open Foundation

inductive LockedRow where
  | mailbox (mailboxId : String)
  | resource (resourceId : String)
  deriving DecidableEq, Repr

/-- The row that the lock order puts before the lease. -/
def Lease.lockedRow (l : Lease) : Option LockedRow :=
  match l.mailboxId, l.providerResourceId with
  | some m, _ => some (.mailbox m)
  | none, some r => some (.resource r)
  | none, none => none

inductive LeaseWrite where
  | updateRefreshToken (expectedTokenVersion : ℕ) (refreshToken : String)
  | release (operationId : String)
  deriving DecidableEq, Repr

structure LeaseRequest where
  principal : ClientPrincipal
  leaseId : String
  write : LeaseWrite
  deriving DecidableEq, Repr

inductive LeaseWriteResult where
  | updated (result : RefreshTokenUpdateResult)
  | released (result : LeaseReleaseResult)
  deriving DecidableEq, Repr

def LeaseWrite.requiredScope : LeaseWrite → String
  | .updateRefreshToken _ _ => "tokens:refresh:write"
  | .release _ => "leases:release"

/-- Only a release takes an inactive lease. -/
def LeaseWrite.requiresActive : LeaseWrite → Bool
  | .updateRefreshToken _ _ => true
  | .release _ => false

/-- A handler: waiting for the lock, or holding it. With the lock come the
lease's row and the time as they were when it was granted; the code looks at
neither. -/
inductive LeaseHandler where
  | idle
  | peeked (request : LeaseRequest) (preview : Lease)
  | locked (request : LeaseRequest) (preview : Lease) (row : Option Lease) (lockedAt : ℕ)
  deriving DecidableEq, Repr

/-- What a handler, the administrator or the clock does next. -/
inductive LeaseAction where
  | peek (request : LeaseRequest)
  | lock
  | finish
  | forceRelease (mailboxId : String)
  | advance (microseconds : ℕ)

section

variable [Platform]

/-- The database, the time, and the locked mailbox and resource rows. -/
structure LeaseShared where
  db : Database
  now : ℕ
  locked : LockedRow → Bool

/-! ## Handlers -/

def LeaseRequest.finish (settings : CredentialSettings) (now : ℕ) (request : LeaseRequest)
    (preview : Lease) : LeaseWork LeaseWriteResult := do
  let locked ← Work.read fun db =>
    lockOwnedLease db request.principal now request.leaseId preview
      request.write.requiresActive
  let lease ← Work.ofExcept locked
  match request.write with
  | .updateRefreshToken expectedTokenVersion refreshToken => do
      let result ← writeRefreshToken settings now lease expectedTokenVersion refreshToken
      pure (.updated result)
  | .release operationId => do
      let result ← releaseLoadedLease now operationId lease
      pure (.released result)

def LeaseRequest.peek (request : LeaseRequest) (db : Database) : LeaseHandler :=
  if request.write.requiredScope ∈ request.principal.scopes then
    match peekOwnedLease db request.principal request.leaseId with
    | .error _ => .idle
    | .ok preview => .peeked request preview
  else .idle

/-- Take the lock of the mailbox or resource, or keep waiting. -/
def lockTarget (s : LeaseShared) (request : LeaseRequest) (preview : Lease) :
    LeaseHandler × LeaseShared :=
  match preview.lockedRow with
  | none => (.idle, s)
  | some row =>
      if s.locked row then (.peeked request preview, s)
      else
        match lockLeaseTarget s.db preview with
        | .error _ => (.idle, s)
        | .ok () =>
            (.locked request preview (s.db.leases.get? request.leaseId) s.now,
              { s with locked := Function.update s.locked row true })

/-- The lock is given up with the end of the transaction. -/
def LeaseShared.unlock (s : LeaseShared) (preview : Lease) : LockedRow → Bool :=
  match preview.lockedRow with
  | none => s.locked
  | some row => Function.update s.locked row false

def leaseAct (settings : CredentialSettings) (s : LeaseShared) (x : LeaseHandler) :
    LeaseAction → LeaseHandler × LeaseShared
  | .peek request =>
      match x with
      | .idle => (request.peek s.db, s)
      | busy => (busy, s)
  | .lock =>
      match x with
      | .peeked request preview => lockTarget s request preview
      | other => (other, s)
  | .finish =>
      match x with
      | .locked request preview _ _ =>
          (.idle, { s with
            db := ((request.finish settings s.now preview).transact s.db).2
            locked := s.unlock preview })
      | other => (other, s)
  | .forceRelease mailboxId =>
      (x, { s with db := forceReleaseClaimsAndLeases s.db s.now mailboxId })
  | .advance microseconds => (x, { s with now := s.now + microseconds })

/-! ## Released leases -/

/-- A write-back commits a new refresh token only if the lease was active when
the lock was granted, and a release of a lease that was released by then leaves
everything as it is. -/
structure LeaseWriteSafe (settings : CredentialSettings) (s : LeaseShared)
    (x : LeaseHandler) (a : LeaseAction) : Prop where
  update : ∀ request preview row lockedAt result db',
    x = .locked request preview row lockedAt → a = .finish →
    (request.finish settings s.now preview).transact s.db = (.ok (.updated result), db') →
    result.updated = true → ∃ l, row = some l ∧ l.activeAt lockedAt = true
  release : ∀ request preview row lockedAt operationId,
    x = .locked request preview row lockedAt → a = .finish →
    request.write = .release operationId →
    (∃ l, row = some l ∧ l.releasedAt.isSome = true) →
    (leaseAct settings s x a).2.db = s.db

/-- The request gets past everything but the release of its lease: every release
does, and so does a write-back with an unexpired lease of the right mode on an
active mailbox of the expected version, with a new token. -/
def LeaseRequest.goesThrough (settings : CredentialSettings) (s : LeaseShared)
    (request : LeaseRequest) (preview : Lease) : Prop :=
  match request.write with
  | .release _ => True
  | .updateRefreshToken expectedTokenVersion refreshToken =>
      isExpired preview.expiresAt s.now = false ∧
        ∃ mailbox, checkRefreshToken settings s.db preview expectedTokenVersion refreshToken =
          .ok (mailbox, false)

/-- No request that goes through, and whose peek found the lease unreleased, gets
its lock after the lease was released. -/
def NotReleasedInWait (settings : CredentialSettings) (s : LeaseShared)
    (x : LeaseHandler) (a : LeaseAction) : Prop :=
  ∀ request preview row lockedAt, x = .locked request preview row lockedAt →
    a = .finish → request.goesThrough settings s preview →
    preview.releasedAt = none → ∀ l, row = some l → l.releasedAt = none

/-- The row that came with the lock is unreleased. -/
def LeaseHandler.lockedUnreleased : LeaseHandler → Bool
  | .locked _ _ row _ => row.all fun l => l.releasedAt.isNone
  | _ => true

theorem notReleasedInWait_of_unreleased {settings : CredentialSettings} {s : LeaseShared}
    {x : LeaseHandler} {a : LeaseAction} (h : x.lockedUnreleased = true) :
    NotReleasedInWait settings s x a := by
  rintro request preview row lockedAt rfl - - - l rfl
  simpa [LeaseHandler.lockedUnreleased] using h

/-! ## What the steps keep -/

def KeepsExpiry (db db' : Database) : Prop :=
  ∀ k l, db.leases.get? k = some l →
    ∃ l', db'.leases.get? k = some l' ∧ l'.expiresAt = l.expiresAt

theorem keepsExpiry_of_leases {db db' : Database} (h : db'.leases = db.leases) :
    KeepsExpiry db db' := by
  intro k l hl
  exact ⟨l, by rw [h]; exact hl, rfl⟩

theorem keepsExpiry_of_update {db db' : Database} {p : Lease → Bool} {f : Lease → Lease}
    (hf : leaseSchema.Keeps f) (h : db'.leases = db.leases.updateWhere p f hf)
    (hexpiry : ∀ l, (f l).expiresAt = l.expiresAt) : KeepsExpiry db db' := by
  intro k l hl
  refine ⟨if p l then f l else l, ?_, ?_⟩
  · rw [h, Table.get?_updateWhere, hl]
    rfl
  · split
    · exact hexpiry l
    · rfl

theorem forceRelease_keepsExpiry (db : Database) (now : ℕ) (mailboxId : String) :
    KeepsExpiry db (forceReleaseClaimsAndLeases db now mailboxId) := by
  have hkeeps : leaseSchema.Keeps fun l => { l with releasedAt := some now } :=
    lease_keeps fun _ => rfl
  exact keepsExpiry_of_update hkeeps rfl fun _ => rfl

/-- What the transaction of a handler that returns has done. -/
theorem LeaseRequest.finish_ok {settings : CredentialSettings} {db db' : Database} {now : ℕ}
    {request : LeaseRequest} {preview : Lease} {result : LeaseWriteResult}
    (hid : preview.id = request.leaseId)
    (h : (request.finish settings now preview).transact db = (.ok result, db')) :
    (∃ expectedTokenVersion refreshToken updated,
      request.write = .updateRefreshToken expectedTokenVersion refreshToken ∧
      result = .updated updated ∧ preview.releasedAt = none ∧
      isExpired preview.expiresAt now = false ∧
      writeRefreshToken settings now preview expectedTokenVersion refreshToken db
        ⟨db, true⟩ = (.ok updated, ⟨db', true⟩)) ∨
    ∃ operationId released, request.write = .release operationId ∧
      result = .released released ∧
      releaseLoadedLease now operationId preview db ⟨db, true⟩ =
        (.ok released, ⟨db', true⟩) := by
  rw [Work.transact_eq_ok] at h
  unfold LeaseRequest.finish at h
  rw [Work.bind_of_ok (Work.read_of_usable rfl), Work.bind_eq_ok] at h
  obtain ⟨lease, s₁, hlock, h⟩ := h
  obtain ⟨hlease, rfl⟩ := Prod.mk.inj hlock
  obtain ⟨rfl, -, hactive⟩ := lockOwnedLease_ok hid hlease
  cases hwrite : request.write with
  | updateRefreshToken expectedTokenVersion refreshToken =>
      simp only [hwrite, Work.bind_eq_ok] at h
      obtain ⟨updated, s₂, hupdate, h⟩ := h
      obtain ⟨hresult, rfl⟩ := Prod.mk.inj h
      obtain ⟨hreleased, hexpired⟩ := hactive (by rw [hwrite]; rfl)
      exact Or.inl ⟨expectedTokenVersion, refreshToken, updated, rfl,
        (Except.ok.inj hresult).symm, hreleased, hexpired, hupdate⟩
  | release operationId =>
      simp only [hwrite, Work.bind_eq_ok] at h
      obtain ⟨released, s₂, hrelease, h⟩ := h
      obtain ⟨hresult, rfl⟩ := Prod.mk.inj h
      exact Or.inr ⟨operationId, released, rfl, (Except.ok.inj hresult).symm, hrelease⟩

theorem LeaseRequest.finish_keepsExpiry {settings : CredentialSettings} {db : Database}
    {now : ℕ} {request : LeaseRequest} {preview : Lease}
    (hid : preview.id = request.leaseId) :
    KeepsExpiry db ((request.finish settings now preview).transact db).2 := by
  rcases hrun : (request.finish settings now preview).transact db with ⟨e | result, db'⟩
  · rw [Work.transact_error hrun]
    exact keepsExpiry_of_leases rfl
  · rcases LeaseRequest.finish_ok hid hrun with
      ⟨expected, token, updated, -, -, -, -, hupdate⟩ | ⟨operationId, released, -, -, hrelease⟩
    · rcases writeRefreshToken_ok hupdate with ⟨-, hsame⟩ | ⟨-, mailbox, -, -, hwritten⟩
      · have hsame' : db' = db := hsame
        exact keepsExpiry_of_leases (congrArg Database.leases hsame')
      · have hwritten' : db' = (db.updateRefreshToken settings now mailbox.id expected
          token).db := hwritten
        have hleases : db'.leases = db.leases := by
          rw [hwritten']
          rfl
        exact keepsExpiry_of_leases hleases
    · rcases releaseLoadedLease_ok hrelease with ⟨-, hsame⟩ | ⟨-, heffects⟩
      · have hsame' : db' = db := hsame
        exact keepsExpiry_of_leases (congrArg Database.leases hsame')
      · have hkeeps : leaseSchema.Keeps fun l => { l with releasedAt := some now } :=
          lease_keeps fun _ => rfl
        exact keepsExpiry_of_update hkeeps heffects.leases fun _ => rfl

/-! ## What a handler knows -/

def LeaseLink (x : LeaseHandler) (s : LeaseShared) : Prop :=
  match x with
  | .idle => True
  | .peeked request preview =>
      preview.id = request.leaseId ∧
        ∃ l, s.db.leases.get? request.leaseId = some l ∧ l.expiresAt = preview.expiresAt
  | .locked request preview row lockedAt =>
      preview.id = request.leaseId ∧ lockedAt ≤ s.now ∧
        ∃ l, row = some l ∧ l.expiresAt = preview.expiresAt

/-- A step that keeps the leases and does not turn the clock back keeps every
tie. -/
theorem LeaseLink.mono {x : LeaseHandler} {s s' : LeaseShared} (h : LeaseLink x s)
    (hdb : KeepsExpiry s.db s'.db) (hnow : s.now ≤ s'.now) : LeaseLink x s' := by
  cases x with
  | idle => trivial
  | peeked request preview =>
      obtain ⟨hid, l, hl, hexpiry⟩ := h
      obtain ⟨l', hl', hkept⟩ := hdb _ l hl
      exact ⟨hid, l', hl', hkept.trans hexpiry⟩
  | locked request preview row lockedAt =>
      obtain ⟨hid, hle, hrow⟩ := h
      exact ⟨hid, hle.trans hnow, hrow⟩

theorem leaseLink_peek {request : LeaseRequest} {s : LeaseShared} :
    LeaseLink (request.peek s.db) s := by
  unfold LeaseRequest.peek
  split
  · split
    · trivial
    · rename_i preview hpeek
      have hrow := (ownedLease?_eq_some (peekOwnedLease_ok hpeek)).1
      exact ⟨Table.key_of_get? hrow, preview, hrow, rfl⟩
  · trivial

/-- The lock changes neither the database nor the time. -/
theorem lockTarget_shared {s : LeaseShared} {request : LeaseRequest} {preview : Lease} :
    (lockTarget s request preview).2.db = s.db ∧
      (lockTarget s request preview).2.now = s.now := by
  unfold lockTarget
  split
  · exact ⟨rfl, rfl⟩
  · split
    · exact ⟨rfl, rfl⟩
    · split <;> exact ⟨rfl, rfl⟩

theorem leaseLink_lock {request : LeaseRequest} {preview : Lease} {s : LeaseShared}
    (h : LeaseLink (.peeked request preview) s) :
    LeaseLink (lockTarget s request preview).1 (lockTarget s request preview).2 := by
  unfold lockTarget
  split
  · trivial
  · split
    · exact h
    · split
      · trivial
      · exact ⟨h.1, le_rfl, h.2⟩

/-- What one step does to the database and the clock. -/
theorem leaseAct_shared (settings : CredentialSettings) {s : LeaseShared}
    {x : LeaseHandler} (a : LeaseAction) (h : LeaseLink x s) :
    KeepsExpiry s.db (leaseAct settings s x a).2.db ∧
      s.now ≤ (leaseAct settings s x a).2.now := by
  have hsame : ∀ {s' : LeaseShared}, s'.db = s.db → s'.now = s.now →
      KeepsExpiry s.db s'.db ∧ s.now ≤ s'.now := by
    intro s' hdb hnow
    exact ⟨keepsExpiry_of_leases (congrArg Database.leases hdb), hnow.ge⟩
  cases a with
  | peek request => cases x <;> exact hsame rfl rfl
  | lock =>
      cases x with
      | peeked request preview => exact hsame lockTarget_shared.1 lockTarget_shared.2
      | idle | locked => exact hsame rfl rfl
  | finish =>
      cases x with
      | locked request preview row lockedAt => exact ⟨LeaseRequest.finish_keepsExpiry h.1, le_rfl⟩
      | idle | peeked => exact hsame rfl rfl
  | forceRelease mailboxId => exact ⟨forceRelease_keepsExpiry s.db s.now mailboxId, le_rfl⟩
  | advance microseconds =>
      exact ⟨keepsExpiry_of_leases rfl, Nat.le_add_right s.now microseconds⟩

theorem leaseLink_own {settings : CredentialSettings} (s : LeaseShared) (x : LeaseHandler)
    (a : LeaseAction) (h : LeaseLink x s) :
    LeaseLink (leaseAct settings s x a).1 (leaseAct settings s x a).2 := by
  cases a with
  | peek request =>
      cases x with
      | idle => exact leaseLink_peek
      | peeked | locked => exact h
  | lock =>
      cases x with
      | peeked request preview => exact leaseLink_lock h
      | idle | locked => exact h
  | finish =>
      cases x with
      | locked => trivial
      | idle | peeked => exact h
  | forceRelease mailboxId =>
      obtain ⟨hdb, hnow⟩ := leaseAct_shared settings (.forceRelease mailboxId) h
      exact h.mono hdb hnow
  | advance microseconds =>
      obtain ⟨hdb, hnow⟩ := leaseAct_shared settings (.advance microseconds) h
      exact h.mono hdb hnow

theorem leaseLink_other {settings : CredentialSettings} (s : LeaseShared)
    (x y : LeaseHandler) (a : LeaseAction) (h : LeaseLink x s) (hy : LeaseLink y s) :
    LeaseLink x (leaseAct settings s y a).2 := by
  obtain ⟨hdb, hnow⟩ := leaseAct_shared settings a hy
  exact h.mono hdb hnow

/-! ## Every step and every run -/

/-- **Step lemma**: a handler whose lease was not released during its wait
writes to active leases only, and releases no lease twice. -/
theorem leaseWriteSafe_of_notReleased {settings : CredentialSettings} (s : LeaseShared)
    (x : LeaseHandler) (a : LeaseAction) (h : LeaseLink x s)
    (hok : NotReleasedInWait settings s x a) : LeaseWriteSafe settings s x a := by
  constructor
  · rintro request preview row lockedAt result db' rfl rfl hrun hupdated
    obtain ⟨hid, hle, l, hrow, hexpiry⟩ := h
    rcases LeaseRequest.finish_ok hid hrun with
      ⟨expected, token, updated, hwrite, hresult, hunreleased, hexpired, hupdate⟩ |
      ⟨_, _, _, hresult, -⟩
    · cases hresult
      rcases writeRefreshToken_ok hupdate with ⟨hsame, -⟩ | ⟨-, mailbox, -, hcheck, -⟩
      · rw [hsame] at hupdated
        cases hupdated
      · have hthrough : request.goesThrough settings s preview := by
          unfold LeaseRequest.goesThrough
          rw [hwrite]
          exact ⟨hexpired, mailbox, hcheck⟩
        have hreleased : l.releasedAt = none :=
          hok request preview row lockedAt rfl rfl hthrough hunreleased l hrow
        refine ⟨l, hrow, ?_⟩
        unfold Lease.activeAt
        unfold isExpired at hexpired
        rw [decide_eq_false_iff_not, not_le] at hexpired
        rw [hreleased, hexpiry, Option.isNone_none, Bool.true_and, decide_eq_true_eq]
        exact hle.trans_lt hexpired
    · cases hresult
  · rintro request preview row lockedAt operationId rfl rfl hwrite ⟨l, hrow, hreleased⟩
    have hthrough : request.goesThrough settings s preview := by
      unfold LeaseRequest.goesThrough
      rw [hwrite]
      trivial
    -- the peek had found the release that the lock was granted after
    have hpreview : preview.releasedAt ≠ none := by
      intro hnone
      rw [hok request preview row lockedAt rfl rfl hthrough hnone l hrow] at hreleased
      cases hreleased
    show ((request.finish settings s.now preview).transact s.db).2 = s.db
    rcases hrun : (request.finish settings s.now preview).transact s.db with ⟨e | result, db'⟩
    · exact Work.transact_error hrun
    · rcases LeaseRequest.finish_ok h.1 hrun with
        ⟨_, _, _, hwrite', -⟩ | ⟨operationId', released, -, -, hrelease⟩
      · rw [hwrite] at hwrite'
        cases hwrite'
      · rcases releaseLoadedLease_ok hrelease with ⟨-, hsame⟩ | ⟨hnone, -⟩
        · exact hsame
        · exact absurd hnone hpreview

/-- **Released leases write nothing**: in every run of handlers whose requests
are not overtaken by a release of their lease while they wait, a refresh token
is written under active leases only, and no lease is released twice. -/
theorem released_leases_write_nothing {ι : Type*} [DecidableEq ι]
    (settings : CredentialSettings) (db : Database) (now : ℕ)
    (events : List (ι × LeaseAction))
    (hok : Meets (Threads.step (leaseAct settings)) (Threads.At (NotReleasedInWait settings))
      (Threads.start ⟨db, now, fun _ => false⟩ .idle) events) :
    Meets (Threads.step (leaseAct settings)) (Threads.At (LeaseWriteSafe settings))
      (Threads.start ⟨db, now, fun _ => false⟩ .idle) events := by
  apply Threads.meets_imp leaseLink_own leaseLink_other leaseWriteSafe_of_notReleased ?_ hok
  intro i
  trivial

end

/-! ## A lease released during the wait -/

section Sample

attribute [local instance] asciiPlatform

def tokenHolder : ClientPrincipal where
  clientKeyId := "key"
  name := "client"
  scopes := ["tokens:refresh:write", "leases:release"]

def plainSettings : CredentialSettings where
  decrypt := .ok
  encrypt := id
  refreshTokenLifetimeDays := 90

def sampleLease : Lease where
  id := "lease"
  mailboxId := some "mailbox"
  providerResourceId := none
  clientKeyId := some "key"
  allocatedEmail := none
  mode := .refreshToken
  expiresAt := 60000000

def leasedDatabase : Database where
  mailboxes := sampleDatabase.mailboxes
  leases := ⟨[sampleLease], List.pairwise_singleton _ _⟩

def leasedStart : Threads Bool LeaseHandler LeaseShared :=
  .start ⟨leasedDatabase, 0, fun _ => false⟩ .idle

def updateRequest : LeaseRequest :=
  ⟨tokenHolder, "lease", .updateRefreshToken 1 "new"⟩

def releaseRequest (operationId : String) : LeaseRequest :=
  ⟨tokenHolder, "lease", .release operationId⟩

/-- The write-back comes before the release, which waits for it. -/
def orderlyRun : List (Bool × LeaseAction) :=
  [(false, .peek updateRequest), (true, .peek (releaseRequest "operation")), (false, .lock),
   (true, .lock), (false, .finish), (true, .advance 1000000), (true, .lock),
   (true, .finish)]

theorem released_leases_write_nothing_sample :
    Meets (Threads.step (leaseAct plainSettings)) (Threads.At (LeaseWriteSafe plainSettings))
      leasedStart orderlyRun := by
  refine released_leases_write_nothing plainSettings leasedDatabase 0 orderlyRun
    ⟨?_, ?_, ?_, ?_, ?_, ?_, ?_, ?_, trivial⟩
  all_goals
    apply notReleasedInWait_of_unreleased
    decide +kernel

/-- The lease is released while its write-back waits. -/
def staleUpdateRun : List (Bool × LeaseAction) :=
  [(false, .peek updateRequest), (true, .peek (releaseRequest "operation")), (true, .lock),
   (true, .finish), (false, .lock), (false, .finish)]

def staleReleaseRun : List (Bool × LeaseAction) :=
  [(false, .peek (releaseRequest "second")), (true, .peek (releaseRequest "first")),
   (true, .lock), (true, .finish), (true, .advance 1000000), (false, .lock),
   (false, .finish)]

/-- The write-back installs the new token under a lease that was released when
its lock was granted, and the second release overwrites the time of the
first. -/
theorem stale_peek_writes :
    ¬ Meets (Threads.step (leaseAct plainSettings))
        (Threads.At (LeaseWriteSafe plainSettings)) leasedStart staleUpdateRun ∧
      ¬ Meets (Threads.step (leaseAct plainSettings))
        (Threads.At (LeaseWriteSafe plainSettings)) leasedStart staleReleaseRun := by
  constructor
  · rintro ⟨-, -, -, -, -, hlast, -⟩
    -- the write-back holds the lock on a lease that is released by now
    have hheld : (exec (Threads.step (leaseAct plainSettings)) leasedStart
        (staleUpdateRun.take 5)).held false =
          .locked updateRequest sampleLease (some { sampleLease with releasedAt := some 0 })
            0 := by
      decide +kernel
    have hresult : ((updateRequest.finish plainSettings 0 sampleLease).transact
        (exec (Threads.step (leaseAct plainSettings)) leasedStart
          (staleUpdateRun.take 5)).shared.db).1.toOption =
            some (.updated ⟨"lease", "mailbox", true, 2⟩) := by
      decide +kernel
    rcases hrun : (updateRequest.finish plainSettings 0 sampleLease).transact
      (exec (Threads.step (leaseAct plainSettings)) leasedStart
        (staleUpdateRun.take 5)).shared.db with ⟨e | result, db'⟩
    · rw [hrun] at hresult
      cases hresult
    · rw [hrun] at hresult
      cases hresult
      obtain ⟨l, hl, hactive⟩ := hlast.update _ _ _ _ _ _ hheld rfl hrun rfl
      cases hl
      cases hactive
  · rintro ⟨-, -, -, -, -, -, hlast, -⟩
    have hheld : (exec (Threads.step (leaseAct plainSettings)) leasedStart
        (staleReleaseRun.take 6)).held false =
          .locked (releaseRequest "second") sampleLease
            (some { sampleLease with releasedAt := some 0 }) 1000000 := by
      decide +kernel
    -- the second release would leave the database alone, and moves the time
    have hsame := hlast.release _ _ _ _ _ hheld rfl rfl ⟨_, rfl, rfl⟩
    have hbefore : ((exec (Threads.step (leaseAct plainSettings)) leasedStart
        (staleReleaseRun.take 6)).shared.db.leases.get? "lease").map Lease.releasedAt =
          some (some 0) := by
      decide +kernel
    have hafter : ((exec (Threads.step (leaseAct plainSettings)) leasedStart
        staleReleaseRun).shared.db.leases.get? "lease").map Lease.releasedAt =
          some (some 1000000) := by
      decide +kernel
    have hdb : (exec (Threads.step (leaseAct plainSettings)) leasedStart
        staleReleaseRun).shared.db = (exec (Threads.step (leaseAct plainSettings)) leasedStart
        (staleReleaseRun.take 6)).shared.db := hsame
    rw [hdb, hbefore] at hafter
    cases hafter

end Sample

end MailboxService
