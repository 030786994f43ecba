import MailboxService.LeaseService.Acquire
import MailboxService.LeaseService.Release

/-!
# Operator sessions

`operator_session_service.py`: debug leases on on-demand mailboxes that an
administrator creates and releases. They write the tables of the client leases
but no claim.
-/

namespace MailboxService

open Foundation

inductive OperatorSessionError where
  | notFound (message : String)
  | limit (message : String)
  | provider (message : String)
  | integrity
  | pendingRollback
  deriving DecidableEq, Repr

instance : SessionErrors OperatorSessionError where
  integrityError := .integrity
  pendingRollback := .pendingRollback

def operatorDebugPurpose : String := "operator_debug"

def maxActiveOperatorSessions : ℕ := 20

/-- The arguments of `create_session`, and what it draws from outside. -/
structure OperatorSessionRequest where
  providerType : String
  providerInstanceId : Option String := none
  ttlSeconds : ℕ := 1800
  leaseId : String
  resourceId : String
  provision : Except String OnDemandProvisionResult

section

variable [Platform]

abbrev OperatorWork (α : Type) := Work Database OperatorSessionError α

/-- `_count_active_sessions`. -/
def Database.activeOperatorSessions (db : Database) (now : ℕ) : ℕ :=
  ((db.leases.select fun l => sqlEqNullable l.purpose (some operatorDebugPurpose) &&
    l.releasedAt.isNone).filter fun l => !isExpired l.expiresAt now).length

/-- The instance of a session, `default` where none is given. -/
def operatorInstanceId (providerInstanceId : Option String) : String :=
  if missing (Text.stripOrNone providerInstanceId) then "default"
  else (Text.stripOrNone providerInstanceId).getD ""

def operatorAddress (provision : Except String OnDemandProvisionResult) :
    Except OperatorSessionError (OnDemandProvisionResult × String) :=
  match provision with
  | .error message => .error (.provider message)
  | .ok result =>
      let address := Text.normalize (result.address.getD "")
      if address = "" || !Text.containsChar address '@' then
        .error (.provider "on-demand provider returned invalid address")
      else .ok (result, address)

/-- The resource of a session; its instance is the one asked for. -/
def operatorResource (providerType resourceId instanceId : String) (now : ℕ)
    (result : OnDemandProvisionResult) (address : String) : MailboxProviderResource :=
  { onDemandResource providerType resourceId now result address with
    providerInstanceId := instanceId }

/-- The lease of a session: nobody's, and for at least a minute. -/
def operatorLease (request : OperatorSessionRequest) (now : ℕ) (providerType instanceId : String)
    (address : String) : Lease where
  id := request.leaseId
  mailboxId := none
  providerResourceId := some request.resourceId
  clientKeyId := none
  clientTag := some "operator"
  purpose := some operatorDebugPurpose
  allocatedEmail := some address
  mode := .mailRead
  providerType := providerType
  providerInstanceId := some instanceId
  expiresAt := now + seconds (max request.ttlSeconds 60)
  createdAt := now

/-- `create_session`. -/
def createOperatorSession (now : ℕ) (request : OperatorSessionRequest) :
    OperatorWork String := do
  let normalizedType := Text.normalize request.providerType
  if normalizedType ∉ onDemandProviderTypes then
    Work.raise (.provider "联调会话目前仅支持 on-demand Provider")
  else do
    let activeCount ← Work.read fun db => db.activeOperatorSessions now
    if activeCount ≥ maxActiveOperatorSessions then
      Work.raise (.limit ("活跃联调会话已达上限（" ++ toString maxActiveOperatorSessions ++
        "），请先释放旧会话"))
    else do
      let instanceId := operatorInstanceId request.providerInstanceId
      let (result, address) ← Work.ofExcept (operatorAddress request.provision)
      Work.flush fun db => db.insertProviderResource?
        (operatorResource normalizedType request.resourceId instanceId now result address)
      Work.flush fun db => db.insertLease?
        (operatorLease request now normalizedType instanceId address)
      pure request.leaseId

/-- `_load_operator_lease`, for a release. -/
def loadOperatorLease (db : Database) (leaseId : String) : Except OperatorSessionError Lease :=
  match db.leases.get? leaseId with
  | none => .error (.notFound "联调会话不存在")
  | some lease =>
      if lease.purpose = some operatorDebugPurpose then .ok lease
      else .error (.notFound "联调会话不存在")

def Database.retireResourceOf (db : Database) (now : ℕ) (lease : Lease) : Database :=
  if missing lease.providerResourceId then db
  else db.updateResource (lease.providerResourceId.getD "") (fun r => r.retire now)
    (MailboxProviderResource.retire_keeps now)

/-- `release_session`. -/
def releaseOperatorSession (now : ℕ) (leaseId : String) : OperatorWork Unit := do
  let loaded ← Work.read fun db => loadOperatorLease db leaseId
  let lease ← Work.ofExcept loaded
  if lease.releasedAt.isSome then pure ()
  else do
    Work.write fun db => db.updateLease lease.id (fun l => { l with releasedAt := some now })
      (lease_keeps_releasedAt now)
    Work.write fun db => db.retireResourceOf now lease
    Work.write fun db => db.deleteLeaseClaims fun c => c.leaseId = lease.id

end

end MailboxService
