import MailboxService.LeaseService.Claims
import MailboxService.ProviderOperations
import MailboxService.Providers.Catalog

/-!
# Releasing a lease

`_load_owned_lease_mailbox_first` and `_release_lease_internal`. The lease is
peeked at without a lock, then its mailbox or resource is locked, then the
lease itself; the instance the session hands out at the end is the one the
peek loaded.
-/

namespace MailboxService

open Foundation

structure LeaseReleaseResult where
  leaseId : String
  releasedAt : ℕ
  deriving DecidableEq, Repr

section

variable [Platform]

def Database.ownedLease? (db : Database) (principal : ClientPrincipal) (leaseId : String) :
    Option Lease :=
  (db.leases.get? leaseId).filter fun l => l.clientKeyId = some principal.clientKeyId

def peekOwnedLease (db : Database) (principal : ClientPrincipal) (leaseId : String) :
    Except LeaseError Lease :=
  match db.ownedLease? principal leaseId with
  | none => .error (.leaseNotFound "租约不存在")
  | some preview => .ok preview

def Database.targetExists (db : Database) (lease : Lease) : Bool :=
  match lease.mailboxId, lease.providerResourceId with
  | some m, _ => (db.mailboxes.get? m).isSome
  | none, some r => (db.providerResources.get? r).isSome
  | none, none => false

/-- Lock the mailbox or resource row that the peek names. -/
def lockLeaseTarget (db : Database) (preview : Lease) : Except LeaseError Unit :=
  if db.targetExists preview then .ok () else .error (.leaseNotFound "租约不存在")

/-- Lock the lease and re-validate it. `preview` is the instance loaded by the
peek; the locking query finds the row again but hands out `preview`
(`load_loaded`). -/
def lockOwnedLease (db : Database) (principal : ClientPrincipal) (now : ℕ)
    (leaseId : String) (preview : Lease) (requireActive : Bool) :
    Except LeaseError Lease :=
  match db.ownedLease? principal leaseId with
  | none => .error (.leaseNotFound "租约不存在")
  | some row =>
      let lease := (load ((∅ : Dict String Lease).set preview.id preview) row.id row).1
      if !missing preview.mailboxId ∧ lease.mailboxId ≠ preview.mailboxId then
        .error (.leaseNotFound "租约不存在")
      else if !missing preview.providerResourceId ∧
          lease.providerResourceId ≠ preview.providerResourceId then
        .error (.leaseNotFound "租约不存在")
      else if requireActive ∧ (lease.releasedAt.isSome ∨ isExpired lease.expiresAt now) then
        .error (.leaseInactive "租约已释放或已过期")
      else .ok lease

/-- `_load_owned_lease_mailbox_first` with nothing between the peek and the
locks. -/
def loadOwnedLeaseMailboxFirst (principal : ClientPrincipal) (now : ℕ) (leaseId : String)
    (requireActive : Bool) : LeaseWork Lease := do
  let peeked ← Work.read fun db => peekOwnedLease db principal leaseId
  let preview ← Work.ofExcept peeked
  let target ← Work.read fun db => lockLeaseTarget db preview
  Work.ofExcept target
  let locked ← Work.read fun db =>
    lockOwnedLease db principal now leaseId preview requireActive
  Work.ofExcept locked

def MailboxProviderResource.retire (r : MailboxProviderResource) (now : ℕ) :
    MailboxProviderResource :=
  { r with
    lifecycleState := .retired
    readiness := .notReady
    stateVersion := r.stateVersion + 1
    encryptedSecret := none
    updatedAt := now }

theorem MailboxProviderResource.retire_keeps (now : ℕ) :
    providerResourceSchema.Keeps fun r => r.retire now :=
  fun _ => ⟨rfl, fun _ => rfl⟩

/-- Begin the release of an SMSBower resource that is claimed or available. -/
def releaseSmsbowerResource (now : ℕ) (operationId : String) (lease : Lease)
    (resource : MailboxProviderResource) : LeaseWork Unit :=
  if resource.lifecycleState = .claimed ∨ resource.lifecycleState = .available then do
    let _ ← beginReleaseOperation now operationId lease.id resource.id lease.providerType
      (if missing lease.providerInstanceId then resource.providerInstanceId
        else lease.providerInstanceId.getD "")
      resource.externalResourceId resource.resourceGeneration resource.stateVersion
  else pure ()

def releaseResource (now : ℕ) (operationId : String) (lease : Lease) : LeaseWork Unit :=
  match lease.providerResourceId with
  | none => pure ()
  | some resourceId =>
      if lease.providerType = "smsbower_gmail" then do
        match ← Work.read fun db => db.providerResources.get? resourceId with
        | none => pure ()
        | some resource => releaseSmsbowerResource now operationId lease resource
      else if lease.providerType ∈ onDemandProviderTypes then
        Work.write fun db => db.updateResource resourceId (fun r => r.retire now)
          (MailboxProviderResource.retire_keeps now)
      else pure ()

/-- The effects of a release on an instance that is not released yet. -/
def releaseEffects (now : ℕ) (operationId : String) (lease : Lease) : LeaseWork Unit := do
  Work.write fun db => db.updateLease lease.id (fun l => { l with releasedAt := some now })
    (lease_keeps_releasedAt now)
  deleteLeaseClaimForLease lease
  releaseResource now operationId lease

/-- Release an instance the session has loaded and locked. -/
def releaseLoadedLease (now : ℕ) (operationId : String) (lease : Lease) :
    LeaseWork LeaseReleaseResult :=
  match lease.releasedAt with
  | some releasedAt => pure ⟨lease.id, releasedAt⟩
  | none => do
      releaseEffects now operationId lease
      pure ⟨lease.id, now⟩

def releaseLeaseInternal (principal : ClientPrincipal) (now : ℕ) (operationId : String)
    (leaseId : String) : LeaseWork LeaseReleaseResult := do
  let lease ← loadOwnedLeaseMailboxFirst principal now leaseId false
  releaseLoadedLease now operationId lease

def releaseLease (principal : ClientPrincipal) (now : ℕ) (operationId : String)
    (leaseId : String) : LeaseWork LeaseReleaseResult := do
  principal.requireScope "leases:release"
  releaseLeaseInternal principal now operationId leaseId

end

end MailboxService
