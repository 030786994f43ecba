import MailboxService.Foundation.Table

/-!
# Persisted models

The rows the service keeps and the constraints of their tables. Datetimes are
microseconds since `datetime.min`, with the precision of a `DATETIME(6)` column: the
aware and the naive form of an instant are one value here. An enumeration
column is an inductive type. Foreign keys are the deletions of
`MailboxAdminService`; audit rows and bound proxies are not modelled.

SQL compares text by collation: `Collation.key` is the sort key, two strings
being equal for `=` and for a unique index when their keys are.
-/

namespace MailboxService

open Foundation

def seconds (n : ℕ) : ℕ := n * 1000000

class Collation where
  key : String → String

/-- SQL text equality. -/
def sqlEq [Collation] (a b : String) : Bool := Collation.key a = Collation.key b

/-- SQL text equality on nullable columns: a null equals nothing. -/
def sqlEqNullable [Collation] : Option String → Option String → Bool
  | some a, some b => sqlEq a b
  | _, _ => false

theorem sqlEq_comm [Collation] (a b : String) : sqlEq a b = sqlEq b a := by
  unfold sqlEq
  rw [decide_eq_decide]
  exact eq_comm

theorem sqlEqNullable_comm [Collation] (a b : Option String) :
    sqlEqNullable a b = sqlEqNullable b a := by
  cases a <;> cases b <;> simp only [sqlEqNullable, sqlEq_comm]

/-- `is_expired`: at or before the current time. -/
def isExpired (expiresAt currentTime : ℕ) : Bool := expiresAt ≤ currentTime

/-- A nullable text column that Python's `not` takes for missing. -/
def missing : Option String → Bool
  | none => true
  | some s => s = ""

/-! ## Enumerations -/

inductive MailboxStatus where
  | active
  | disabled
  | invalid
  | cooldown
  deriving DecidableEq, Repr

inductive LeaseMode where
  | refreshToken
  | accessToken
  | mailRead
  deriving DecidableEq, Repr

inductive MailboxCapability where
  | imap
  | graph
  | unusable
  | unknown
  deriving DecidableEq, Repr

inductive ProviderResourceLifecycle where
  | available
  | claimed
  | releasing
  | cooldown
  | releaseUnknown
  | retired
  deriving DecidableEq, Repr

inductive ProviderResourceReadiness where
  | ready
  | notReady
  | unknown
  deriving DecidableEq, Repr

inductive ProviderOperationType where
  | replenish
  | release
  | reconcile
  deriving DecidableEq, Repr

inductive ProviderOperationStatus where
  | pending
  | running
  | succeeded
  | failed
  | unknown
  deriving DecidableEq, Repr

/-! ## Rows -/

structure Mailbox where
  id : String
  providerType : String := "microsoft"
  primaryEmail : String
  status : MailboxStatus := .active
  clientId : Option String := none
  mailPasswordCiphertext : Option String := none
  refreshTokenCiphertext : Option String := none
  refreshTokenUpdatedAt : Option ℕ := none
  refreshTokenExpiresAt : Option ℕ := none
  accessTokenCiphertext : Option String := none
  accessTokenExpiresAt : Option ℕ := none
  accessTokenRefreshedAt : Option ℕ := none
  accessTokenSourceVersion : Option ℕ := none
  scope : Option String := none
  capability : Option MailboxCapability := none
  tokenVersion : ℕ := 1
  tokenRefreshClaimId : Option String := none
  tokenRefreshClaimExpiresAt : Option ℕ := none
  createdAt : ℕ := 0
  updatedAt : ℕ := 0
  deriving DecidableEq, Repr

structure Lease where
  id : String
  mailboxId : Option String
  providerResourceId : Option String
  clientKeyId : Option String
  clientTag : Option String := none
  purpose : Option String := none
  allocatedEmail : Option String
  mode : LeaseMode
  providerType : String := "microsoft"
  providerInstanceId : Option String := none
  providerConfigRevision : Option String := none
  expiresAt : ℕ
  releasedAt : Option ℕ := none
  createdAt : ℕ := 0
  deriving DecidableEq, Repr

structure MailboxLeaseClaim where
  leaseId : String
  mailboxId : Option String
  providerResourceId : Option String
  clientKeyId : Option String
  mode : LeaseMode
  allocatedEmail : Option String
  expiresAt : ℕ
  createdAt : ℕ := 0
  deriving DecidableEq, Repr

structure MailboxProviderResource where
  id : String
  providerType : String
  providerInstanceId : String
  externalResourceId : String
  primaryEmail : String
  lifecycleState : ProviderResourceLifecycle
  readiness : ProviderResourceReadiness
  stateVersion : ℕ := 0
  resourceGeneration : ℕ := 0
  encryptedSecret : Option String := none
  createdAt : ℕ := 0
  updatedAt : ℕ := 0
  deriving DecidableEq, Repr

/-- What a replenishment reports; its cost, a float, is left out. -/
structure ReplenishSummary where
  providerResourceId : String
  externalResourceId : String
  deduplicated : Bool
  deriving DecidableEq, Repr

structure MailboxProviderOperation where
  id : String
  operationType : ProviderOperationType
  providerType : String
  providerInstanceId : String
  providerResourceId : Option String
  leaseId : Option String
  externalResourceId : Option String
  resourceGeneration : Option ℕ
  expectedStateVersion : Option ℕ
  status : ProviderOperationStatus
  idempotencyKey : String
  attemptCount : ℕ := 0
  lastErrorClass : Option String := none
  resultSummary : Option ReplenishSummary := none
  createdAt : ℕ := 0
  updatedAt : ℕ := 0
  deriving DecidableEq, Repr

structure UsageSite where
  code : String
  displayName : String
  enabled : Bool := true
  createdAt : ℕ := 0
  deriving DecidableEq, Repr

structure EmailSiteUsage where
  id : String
  allocatedEmail : String
  usageSiteCode : String
  mailboxId : Option String
  leaseId : Option String
  clientKeyId : Option String
  createdAt : ℕ := 0
  revokedAt : Option ℕ := none
  updatedAt : ℕ := 0
  deriving DecidableEq, Repr

/-! ## Tables -/

section Tables

variable [Collation]

/-- `mailboxes`: `primary_email` is unique. -/
def mailboxSchema : Schema Mailbox String where
  key := Mailbox.id
  clash a b := sqlEq a.primaryEmail b.primaryEmail
  clash_comm _ _ := sqlEq_comm _ _

/-- `leases`. -/
def leaseSchema : Schema Lease String := .keyed Lease.id

/-- `mailbox_lease_claims`: keyed by the lease, `allocated_email` unique. -/
def leaseClaimSchema : Schema MailboxLeaseClaim String where
  key := MailboxLeaseClaim.leaseId
  clash a b := sqlEqNullable a.allocatedEmail b.allocatedEmail
  clash_comm _ _ := sqlEqNullable_comm _ _

/-- `mailbox_provider_resources`: unique by instance and external id. -/
def providerResourceSchema : Schema MailboxProviderResource String where
  key := MailboxProviderResource.id
  clash a b := sqlEq a.providerInstanceId b.providerInstanceId &&
    sqlEq a.externalResourceId b.externalResourceId
  clash_comm _ _ := by rw [sqlEq_comm, sqlEq_comm (MailboxProviderResource.externalResourceId _)]

/-- `mailbox_provider_operations`: `idempotency_key` is unique. -/
def providerOperationSchema : Schema MailboxProviderOperation String where
  key := MailboxProviderOperation.id
  clash a b := sqlEq a.idempotencyKey b.idempotencyKey
  clash_comm _ _ := sqlEq_comm _ _

/-- `usage_sites`: keyed by its code, a text the collation compares. -/
def usageSiteSchema : Schema UsageSite String where
  key := UsageSite.code
  clash a b := sqlEq a.code b.code
  clash_comm _ _ := sqlEq_comm _ _

/-- `email_site_usages`: one row for an address and a site. -/
def emailSiteUsageSchema : Schema EmailSiteUsage String where
  key := EmailSiteUsage.id
  clash a b := sqlEq a.allocatedEmail b.allocatedEmail &&
    sqlEq a.usageSiteCode b.usageSiteCode
  clash_comm _ _ := by rw [sqlEq_comm, sqlEq_comm (EmailSiteUsage.usageSiteCode _)]

structure Database where
  mailboxes : Table mailboxSchema := ∅
  leases : Table leaseSchema := ∅
  leaseClaims : Table leaseClaimSchema := ∅
  providerResources : Table providerResourceSchema := ∅
  providerOperations : Table providerOperationSchema := ∅
  usageSites : Table usageSiteSchema := ∅
  emailSiteUsages : Table emailSiteUsageSchema := ∅

end Tables

end MailboxService
