import MailboxService.LeaseService.Store
import MailboxService.Foundation.IdentityMap

/-!
# Provider operations

`provider_operation_service.py`: the durable operations behind replenishing
and releasing an SMSBower resource. A release is begun in the transaction that
releases the lease and finalised later, after the remote call, by a
compare-and-swap on the resource's generation. The finalisation is given in the
two steps the code takes, an unlocked read and a write by primary key.
-/

namespace MailboxService

open Foundation

/-- What the callers keep of an operation outside its transaction. -/
structure ProviderOperationSnapshot where
  operationId : String
  operationType : ProviderOperationType
  providerType : String
  providerInstanceId : String
  status : ProviderOperationStatus
  providerResourceId : Option String
  leaseId : Option String
  externalResourceId : Option String
  resourceGeneration : Option ℕ
  expectedStateVersion : Option ℕ
  idempotencyKey : String
  deriving DecidableEq, Repr

def MailboxProviderOperation.toSnapshot (o : MailboxProviderOperation) :
    ProviderOperationSnapshot where
  operationId := o.id
  operationType := o.operationType
  providerType := o.providerType
  providerInstanceId := o.providerInstanceId
  status := o.status
  providerResourceId := o.providerResourceId
  leaseId := o.leaseId
  externalResourceId := o.externalResourceId
  resourceGeneration := o.resourceGeneration
  expectedStateVersion := o.expectedStateVersion
  idempotencyKey := o.idempotencyKey

section

variable [Platform]

def Database.operationByKey? (db : Database) (idempotencyKey : String) :
    Option MailboxProviderOperation :=
  db.providerOperations.rows.find? fun o => sqlEq o.idempotencyKey idempotencyKey

/-- Insert a pending operation, or return the one that has its key. -/
def createPendingOperation (operation : MailboxProviderOperation) :
    LeaseWork ProviderOperationSnapshot := do
  match ← Work.read fun db => db.operationByKey? operation.idempotencyKey with
  | some existing => pure existing.toSnapshot
  | none =>
      Work.flush fun db => db.insertProviderOperation? operation
      pure operation.toSnapshot

/-! ## Replenishing -/

def MailboxProviderOperation.replenished (o : MailboxProviderOperation) (now : ℕ)
    (resourceId : Option String) (summary : ReplenishSummary) : MailboxProviderOperation :=
  match resourceId with
  | none => { o with
      status := .succeeded
      lastErrorClass := none
      resultSummary := some summary
      updatedAt := now }
  | some r => { o with
      status := .succeeded
      providerResourceId := some r
      externalResourceId := some summary.externalResourceId
      resultSummary := some summary
      updatedAt := now }

theorem replenished_keeps (now : ℕ) (resourceId : Option String)
    (summary : ReplenishSummary) :
    providerOperationSchema.Keeps fun o => o.replenished now resourceId summary := by
  intro o
  cases resourceId <;> exact ⟨rfl, fun _ => rfl⟩

/-- `finalize_smsbower_replenish_success`: insert the bought resource once. -/
def finalizeSmsbowerReplenishSuccess (now : ℕ) (resourceId operationId instanceId
    externalResourceId primaryEmail : String) (encryptedSecret : Option String) :
    LeaseWork String := do
  match ← Work.read fun db => db.providerResources.rows.find? fun r =>
      sqlEq r.providerInstanceId instanceId && sqlEq r.externalResourceId externalResourceId with
  | some existing =>
      Work.write fun db => db.updateOperation operationId
        (fun o => o.replenished now none ⟨existing.id, externalResourceId, true⟩)
        (replenished_keeps _ _ _)
      pure existing.id
  | none =>
      Work.flush fun db =>
        (db.updateOperation operationId
          (fun o => o.replenished now (some resourceId) ⟨resourceId, externalResourceId, false⟩)
          (replenished_keeps _ _ _)).insertProviderResource?
          { id := resourceId, providerType := "smsbower_gmail"
            providerInstanceId := instanceId, externalResourceId
            primaryEmail := Text.normalize primaryEmail
            lifecycleState := .available, readiness := .ready
            encryptedSecret, createdAt := now, updatedAt := now }
      pure resourceId

/-! ## Releasing -/

def releaseKey (leaseId : String) (resourceGeneration : ℕ) : String :=
  "release:" ++ leaseId ++ ":" ++ toString resourceGeneration

def MailboxProviderResource.beginRelease (r : MailboxProviderResource) (now : ℕ) :
    MailboxProviderResource :=
  { r with
    lifecycleState := .releasing
    stateVersion := r.stateVersion + 1
    updatedAt := now }

/-- `begin_release_operation`: mark the resource and record the operation, once
per lease and generation. -/
def beginReleaseOperation (now : ℕ) (operationId leaseId : String)
    (resourceId providerType instanceId externalResourceId : String)
    (resourceGeneration expectedStateVersion : ℕ) : LeaseWork ProviderOperationSnapshot := do
  let idempotencyKey := releaseKey leaseId resourceGeneration
  match ← Work.read fun db => db.operationByKey? idempotencyKey with
  | some existing => pure existing.toSnapshot
  | none =>
      match ← Work.read fun db => db.providerResources.get? resourceId with
      | none => Work.raise (.runtime "provider resource missing for release")
      | some _ =>
          Work.write fun db =>
            db.updateResource resourceId (fun r => r.beginRelease now)
              (fun _ => ⟨rfl, fun _ => rfl⟩)
          createPendingOperation
            { id := operationId, operationType := .release, providerType
              providerInstanceId := instanceId, providerResourceId := some resourceId
              leaseId := some leaseId, externalResourceId := some externalResourceId
              resourceGeneration := some resourceGeneration
              expectedStateVersion := some expectedStateVersion
              status := .pending, idempotencyKey, createdAt := now, updatedAt := now }

/-! ## Finalising a release -/

inductive ReleaseOutcome where
  | succeeded
  | failed
  | unknown
  deriving DecidableEq, Repr

/-- The lifecycle, readiness, generation, state version and secret that a
finalisation assigns, computed from the instance it read. -/
def MailboxProviderResource.finalize (r : MailboxProviderResource) (now : ℕ)
    (outcome : ReleaseOutcome) (clearSecret : Bool) : MailboxProviderResource :=
  match outcome with
  | .succeeded =>
      { r with
        lifecycleState := .available
        readiness := .ready
        resourceGeneration := r.resourceGeneration + 1
        stateVersion := r.stateVersion + 1
        encryptedSecret := if clearSecret then none else r.encryptedSecret
        updatedAt := now }
  | .failed =>
      { r with
        lifecycleState := .cooldown
        readiness := .notReady
        stateVersion := r.stateVersion + 1
        updatedAt := now }
  | .unknown =>
      { r with
        lifecycleState := .releaseUnknown
        readiness := .notReady
        stateVersion := r.stateVersion + 1
        updatedAt := now }

def MailboxProviderOperation.finalize (o : MailboxProviderOperation) (now : ℕ)
    (outcome : ReleaseOutcome) : MailboxProviderOperation :=
  match outcome with
  | .succeeded => { o with status := .succeeded, updatedAt := now }
  | .failed =>
      { o with status := .failed, lastErrorClass := some "remote_failed", updatedAt := now }
  | .unknown =>
      { o with status := .unknown, lastErrorClass := some "remote_unknown", updatedAt := now }

/-- What the first half of a finalisation decides from the rows it loads. -/
inductive FinalizeRead where
  /-- Not applied. -/
  | refused
  /-- Already finalised by another call. -/
  | alreadyDone
  /-- The instances to write back. -/
  | proceed (resource : MailboxProviderResource) (operation : MailboxProviderOperation)
  deriving DecidableEq, Repr

/-- The checks of `finalize_release_cas`, on the rows as loaded. -/
def finalizeReleaseRead (db : Database) (operationId resourceId : String)
    (expectedGeneration : ℕ) : FinalizeRead :=
  match db.providerResources.get? resourceId, db.providerOperations.get? operationId with
  | some resource, some operation =>
      if resource.resourceGeneration ≠ expectedGeneration then .refused
      else if resource.lifecycleState = .releasing ∨
          resource.lifecycleState = .releaseUnknown then
        .proceed resource operation
      else if operation.status = .succeeded ∨ operation.status = .failed then .alreadyDone
      else .refused
  | _, _ => .refused

/-- The flush of a resource that was loaded, changed and written back by
primary key: only the assigned columns are written. -/
def MailboxProviderResource.flush (loaded assigned current : MailboxProviderResource) :
    MailboxProviderResource :=
  { current with
    lifecycleState :=
      flushColumn loaded.lifecycleState assigned.lifecycleState current.lifecycleState
    readiness := flushColumn loaded.readiness assigned.readiness current.readiness
    stateVersion := flushColumn loaded.stateVersion assigned.stateVersion current.stateVersion
    resourceGeneration := flushColumn loaded.resourceGeneration assigned.resourceGeneration
      current.resourceGeneration
    encryptedSecret := flushColumn loaded.encryptedSecret assigned.encryptedSecret
      current.encryptedSecret
    updatedAt := flushColumn loaded.updatedAt assigned.updatedAt current.updatedAt }

def MailboxProviderOperation.flush (loaded assigned current : MailboxProviderOperation) :
    MailboxProviderOperation :=
  { current with
    status := flushColumn loaded.status assigned.status current.status
    lastErrorClass := flushColumn loaded.lastErrorClass assigned.lastErrorClass
      current.lastErrorClass
    updatedAt := flushColumn loaded.updatedAt assigned.updatedAt current.updatedAt }

/-- The second half of a finalisation: write the loaded instances back. The
UPDATE names the primary key and nothing else. -/
def finalizeReleaseWrite (db : Database) (now : ℕ) (outcome : ReleaseOutcome)
    (clearSecret : Bool) (resource : MailboxProviderResource)
    (operation : MailboxProviderOperation) : Database :=
  (db.updateResource resource.id
    (fun current => resource.flush (resource.finalize now outcome clearSecret) current)
    (fun _ => ⟨rfl, fun _ => rfl⟩)).updateOperation operation.id
    (fun current => operation.flush (operation.finalize now outcome) current)
    (fun _ => ⟨rfl, fun _ => rfl⟩)

/-- `finalize_release_cas` with nothing in between: whether it applied. -/
def finalizeReleaseCas (db : Database) (now : ℕ) (operationId resourceId : String)
    (expectedGeneration : ℕ) (outcome : ReleaseOutcome) (clearSecret : Bool) :
    Bool × Database :=
  match finalizeReleaseRead db operationId resourceId expectedGeneration with
  | .refused => (false, db)
  | .alreadyDone => (true, db)
  | .proceed resource operation =>
      (true, finalizeReleaseWrite db now outcome clearSecret resource operation)

end

end MailboxService
