import MailboxService.Foundation.Retry
import MailboxService.LeaseService.Acquire
import MailboxService.LeaseService.Release
import MailboxService.TokenService.TokenRuns

/-!
# Leases with an access token

`acquire_lease` in access-token mode: the lease is reserved, the access token is
obtained without the locks of the reserve, and the lease is released again if
that fails. With a session factory these are transactions of their own, and the
reserve is retried after lock errors. Without one all of it happens on the
session of the caller, who commits it if it returns and rolls it back if it
raises.
-/

namespace MailboxService

open Foundation

/-! ## Obtaining the token -/

structure MailboxAccessTokenResult where
  mailboxId : String
  primaryEmail : String
  accessToken : String
  expiresAt : ℕ
  tokenVersion : ℕ
  refreshed : Bool
  refreshTokenRotated : Bool
  deriving DecidableEq, Repr

/-- `LeaseAcquireResult`, as an acquire in access-token mode fills it. -/
structure AccessTokenLease where
  leaseId : String
  mailboxId : Option String
  primaryEmail : String
  mode : LeaseMode := .accessToken
  expiresAt : ℕ
  createdAt : ℕ
  accessToken : String
  accessTokenExpiresAt : ℕ
  accessTokenRefreshed : Bool
  tokenVersion : ℕ
  deriving DecidableEq, Repr

/-- The result of a reserve, with the token that was obtained for it. -/
def LeaseAcquireResult.withToken (reserved : LeaseAcquireResult)
    (token : MailboxAccessTokenResult) : AccessTokenLease where
  leaseId := reserved.leaseId
  mailboxId := reserved.mailboxId
  primaryEmail := reserved.primaryEmail
  expiresAt := reserved.expiresAt
  createdAt := reserved.createdAt
  accessToken := token.accessToken
  accessTokenExpiresAt := token.expiresAt
  accessTokenRefreshed := token.refreshed
  tokenVersion := token.tokenVersion

/-- What an acquire raises: an error of the lease service, of the database with
its code, of the retries, or whatever the token service raises. -/
inductive AccessTokenLeaseError (ε : Type) where
  | lease (error : LeaseError)
  | operational (mysqlErrorCode : ℕ)
  | retryExhausted (operation : String) (mysqlErrorCode : Option ℕ) (attempts : ℕ)
  | token (error : ε)
  deriving DecidableEq, Repr

instance {ε : Type} : SessionErrors (AccessTokenLeaseError ε) where
  integrityError := .lease .integrity
  pendingRollback := .lease .pendingRollback

def retryableMysqlErrorCodes : List ℕ := [1205, 1213]

/-- `extract_mysql_error_code`. -/
def AccessTokenLeaseError.mysqlErrorCode {ε : Type} : AccessTokenLeaseError ε → Option ℕ
  | .operational mysqlErrorCode => some mysqlErrorCode
  | _ => none

/-- `is_retryable_mysql_lock_error`. -/
def AccessTokenLeaseError.isRetryable {ε : Type} (e : AccessTokenLeaseError ε) : Bool :=
  e.mysqlErrorCode.any (· ∈ retryableMysqlErrorCodes)

def defaultMaxAttempts : ℕ := 3

def runWithMysqlLockRetry {ε α δ : Type} (operationName : String)
    (operation : ℕ → δ → Except (AccessTokenLeaseError ε) α × δ) :
    δ → Except (AccessTokenLeaseError ε) α × δ :=
  retryFrom AccessTokenLeaseError.isRetryable
    (fun e attempts => .retryExhausted operationName e.mysqlErrorCode attempts) operation 1
    (defaultMaxAttempts - 1)

section

variable [Platform]

/-- Leases, claims, resources, operations and sites are the same, and so are the
mailboxes up to their columns. -/
structure MailboxColumnsOnly (db db' : Database) : Prop where
  leases : db'.leases = db.leases
  leaseClaims : db'.leaseClaims = db.leaseClaims
  mailboxes : ∀ k, (db'.mailboxes.get? k).isSome = (db.mailboxes.get? k).isSome

theorem MailboxColumnsOnly.refl (db : Database) : MailboxColumnsOnly db db :=
  ⟨rfl, rfl, fun _ => rfl⟩

theorem MailboxColumnsOnly.trans {a b c : Database} (hab : MailboxColumnsOnly a b)
    (hbc : MailboxColumnsOnly b c) : MailboxColumnsOnly a c :=
  ⟨hbc.leases.trans hab.leases, hbc.leaseClaims.trans hab.leaseClaims,
    fun k => (hbc.mailboxes k).trans (hab.mailboxes k)⟩

/-- A call of `ensure_access_token`, as an acquire sees it: what it returns or
raises, and what it writes to mailboxes. On a caller's session it may also end
with a failed flush. -/
structure EnsureCall (ε : Type) where
  run : (mailboxId : String) → Database → Except ε MailboxAccessTokenResult × Database
  frame : ∀ mailboxId db, MailboxColumnsOnly db (run mailboxId db).2
  breaksSession : Bool := false

/-- One run of the reserve: the error that the database interrupts it with, or
its clock and draws. An interrupted statement may leave anything on a session. -/
structure ReserveAttempt where
  interruptedBy : Option ℕ := none
  leaves : Session Database → Session Database := id
  now : ℕ
  draws : Draws

/-- A call of `acquire_lease` in access-token mode, with all it draws. -/
structure AccessTokenCall (ε : Type) where
  principal : ClientPrincipal
  decrypt : String → Except String String
  request : AcquireRequest
  attempts : ℕ → ReserveAttempt
  ensure : EnsureCall ε
  compensatedAt : ℕ
  operationId : String
  returnedAt : ℕ

def liftLease {ε α : Type} (x : LeaseWork α) : Work Database (AccessTokenLeaseError ε) α :=
  fun committed s => ((x committed s).1.mapError .lease, (x committed s).2)

def EnsureCall.onSession {ε : Type} (call : EnsureCall ε) (mailboxId : String) :
    Work Database (AccessTokenLeaseError ε) MailboxAccessTokenResult := do
  Work.flush fun db => if call.breaksSession then none else some db
  let result ← Work.read fun db => (call.run mailboxId db).1
  Work.write fun db => (call.run mailboxId db).2
  Work.ofExcept (result.mapError .token)

namespace AccessTokenCall

variable {ε : Type} (call : AccessTokenCall ε)

def body : AcquireRequest :=
  { call.request with
    mode := .accessToken
    usePlusAlias := false
    preferredAliasSuffix := none
    usageSite := none }

/-- `_acquire_lease_body`, with the token deferred. -/
def reserve (attempt : ReserveAttempt) :
    Work Database (AccessTokenLeaseError ε) LeaseAcquireResult :=
  match attempt.interruptedBy with
  | some mysqlErrorCode => fun _ s => (.error (.operational mysqlErrorCode), attempt.leaves s)
  | none =>
      liftLease (acquireMailboxLease call.principal attempt.now call.decrypt attempt.draws
        call.body false none defaultProviderType)

/-- `_reserve_access_token_lease_committed`. -/
def reserveCommitted (db : Database) :
    Except (AccessTokenLeaseError ε) LeaseAcquireResult × Database :=
  runWithMysqlLockRetry "lease.acquire.access_token.reserve"
    (fun i db => (call.reserve (call.attempts i)).transact db) db

def compensate (leaseId : String) :
    Work Database (AccessTokenLeaseError ε) LeaseReleaseResult :=
  liftLease (releaseLeaseInternal call.principal call.compensatedAt call.operationId leaseId)

/-- The checks of `acquire_lease`. -/
def check : Work Database (AccessTokenLeaseError ε) Unit :=
  liftLease (checkCredentialRequest call.principal { call.request with mode := .accessToken })

def obtainCommitted (reserved : LeaseAcquireResult) (db : Database) :
    Except (AccessTokenLeaseError ε) AccessTokenLease × Database :=
  match call.ensure.run (reserved.mailboxId.getD "") db with
  | (.ok token, db) => (.ok (reserved.withToken token), db)
  | (.error e, db) =>
      match (call.compensate reserved.leaseId).transact db with
      | (.ok _, db) => (.error (.token e), db)
      | (.error e', db) => (.error e', db)

/-- `acquire_lease` with a session factory. -/
def acquireCommitted (db : Database) :
    Except (AccessTokenLeaseError ε) AccessTokenLease × Database :=
  match call.check.transact db with
  | (.error e, db) => (.error e, db)
  | (.ok (), db) =>
      match call.reserveCommitted db with
      | (.error e, db) => (.error e, db)
      | (.ok reserved, db) => call.obtainCommitted reserved db

def takeBackAndRaise (leaseId : String) (e : AccessTokenLeaseError ε) :
    Work Database (AccessTokenLeaseError ε) MailboxAccessTokenResult := do
  let _ ← call.compensate leaseId
  Work.raise e

def obtainOnSession (reserved : LeaseAcquireResult) :
    Work Database (AccessTokenLeaseError ε) AccessTokenLease := do
  let token ← (call.ensure.onSession (reserved.mailboxId.getD "")).handle fun e =>
    some (call.takeBackAndRaise reserved.leaseId e)
  pure (reserved.withToken token)

/-- `acquire_lease` on the session of the caller. -/
def acquireOnSession : Work Database (AccessTokenLeaseError ε) AccessTokenLease := do
  call.check
  let reserved ← call.reserve (call.attempts 1)
  call.obtainOnSession reserved

end AccessTokenCall

/-! ## Calls of the token service -/

theorem columnsOnly_updateMailbox {db : Database} {mailboxId : String} {q : Mailbox → Bool}
    {f : MailboxAssignment} : MailboxColumnsOnly db (db.updateMailbox mailboxId q f).db := by
  refine ⟨rfl, rfl, ?_⟩
  intro k
  show ((db.mailboxes.updateWhere _ f.set f.keeps).get? k).isSome = _
  rw [Table.get?_updateWhere, Option.isSome_map]

variable {settings : TokenSettings} {s : TokenShared}

theorem columnsOnly_claimStep {request : EnsureRequest} {claimId : String} :
    MailboxColumnsOnly s.db (claimStep settings s request claimId).2.db := by
  unfold claimStep
  split
  · exact .refl _
  · split
    · exact .refl _
    · dsimp only
      split
      · exact .refl _
      · exact .refl _
      · split
        · exact .refl _
        · rename_i claim db hclaim
          obtain ⟨-, -, -, -, -, -, -, -, rfl⟩ := claimTokenRefresh_ok hclaim
          exact columnsOnly_updateMailbox

theorem columnsOnly_exchangeStep {request : EnsureRequest} {target : Option MailAccessChannel}
    {claim : TokenRefreshClaim} {startedAt nonce : ℕ}
    {answer : Except ExchangeFailure MicrosoftTokenResponse} :
    MailboxColumnsOnly s.db
      (exchangeStep settings s request target claim startedAt nonce answer).2.db := by
  unfold exchangeStep
  split
  · exact columnsOnly_updateMailbox
  · exact columnsOnly_updateMailbox
  · dsimp only
    split
    · exact .refl _
    · rename_i version db hcomplete
      rcases completeTokenRefresh_ok hcomplete with ⟨-, -, -, _, -, rfl⟩ | ⟨-, rfl⟩
      · exact columnsOnly_updateMailbox
      · exact columnsOnly_updateMailbox

theorem columnsOnly_probeStep {nonce : ℕ} {loaded assigned : Mailbox}
    {result : CapabilityProbeResult} :
    MailboxColumnsOnly s.db (probeStep settings s nonce loaded assigned result).db := by
  unfold probeStep
  split
  · exact .refl _
  · exact columnsOnly_updateMailbox

/-- A step of the token service, or time that passes. -/
def TokenAction.ofCall : TokenAction → Bool
  | .advance _ => true
  | a => a.byService

/-- **A step of the token service** writes nothing but columns of mailboxes. -/
theorem columnsOnly_tokenAct {x : TokenWorker} {a : TokenAction} (h : a.ofCall = true) :
    MailboxColumnsOnly s.db (tokenAct settings s x a).2.db := by
  unfold tokenAct
  cases a with
  | claim request claimId =>
      dsimp only
      split
      · exact columnsOnly_claimStep
      · exact .refl _
  | exchange answer nonce =>
      dsimp only
      split
      · exact columnsOnly_exchangeStep
      · exact .refl _
  | readForProbe =>
      dsimp only
      split
      · exact .refl _
      · exact .refl _
  | finishProbe result nonce =>
      dsimp only
      split
      · exact columnsOnly_probeStep
      · exact .refl _
  | probeCached request result nonce =>
      dsimp only
      split
      · dsimp only
        unfold probeCachedStep
        split
        · exact .refl _
        · dsimp only
          split
          · exact .refl _
          · split
            · exact .refl _
            · exact .refl _
            · exact columnsOnly_probeStep
      · exact .refl _
  | abandon => exact .refl _
  | advance microseconds => exact .refl _
  | _ => cases h

def ensureRun (settings : TokenSettings) (now : ℕ) (actions : List TokenAction)
    (db : Database) : Database :=
  (exec (fun (p : TokenWorker × TokenShared) a => tokenAct settings p.2 p.1 a)
    (.idle, ⟨db, now, fun _ => none, fun _ => 0, []⟩) (actions.filter (·.ofCall))).2.db

theorem columnsOnly_ensureRun (settings : TokenSettings) (now : ℕ)
    (actions : List TokenAction) (db : Database) :
    MailboxColumnsOnly db (ensureRun settings now actions db) := by
  have hservice : ∀ a ∈ actions.filter (·.ofCall), a.ofCall = true := by
    intro a ha
    exact (List.mem_filter.mp ha).2
  unfold ensureRun
  refine exec_invariant_of_meets
    (P := fun p : TokenWorker × TokenShared => MailboxColumnsOnly db p.2.db) ?_ (.refl db)
    (meets_of_forall_mem hservice)
  intro p a hp ha
  exact hp.trans (columnsOnly_tokenAct ha)

/-- **A call of the token service** as an acquire sees it, whatever it returns or
raises. -/
def EnsureCall.ofService {ε : Type} (settings : TokenSettings) (now : ℕ)
    (actions : List TokenAction) (outcome : Except ε MailboxAccessTokenResult) :
    EnsureCall ε where
  run _ db := (outcome, ensureRun settings now actions db)
  frame _ db := columnsOnly_ensureRun settings now actions db

end

end MailboxService
