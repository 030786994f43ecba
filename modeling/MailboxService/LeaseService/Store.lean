import MailboxService.Models
import MailboxService.PythonText
import MailboxService.Foundation.Session

/-!
# The lease service's session

The exceptions of the service with their messages, the caller's principal,
and the statements the service issues, each as one change of the database:
inserts may break a constraint, updates leave the constrained columns alone.
-/

namespace MailboxService

open Foundation

/-- The exceptions of the lease service, each with its message, and the two
that a session raises by itself. -/
inductive LeaseError where
  | clientKeyScope (message : String)
  | leaseMode (message : String)
  | providerUnsupported (message : String)
  | providerNotConfigured (message : String)
  | leaseUnavailable (message : String)
  | leaseUsageSite (message : String)
  | leaseEmailSiteConflict (message : String)
  | leaseNotFound (message : String)
  | leaseInactive (message : String)
  | leaseEmailNotFound (message : String)
  | leaseMailboxBusy (message : String)
  | tokenVersionConflict (message : String)
  | value (message : String)
  | runtime (message : String)
  | integrity
  | pendingRollback
  deriving DecidableEq, Repr

instance : SessionErrors LeaseError where
  integrityError := .integrity
  pendingRollback := .pendingRollback

structure ClientPrincipal where
  clientKeyId : String
  name : String
  scopes : List String
  deriving DecidableEq, Repr

theorem lease_keeps {f : Lease → Lease} (h : ∀ l, (f l).id = l.id) :
    leaseSchema.Keeps f :=
  Schema.keyed_keeps h

theorem lease_keeps_releasedAt (now : ℕ) :
    leaseSchema.Keeps fun l => { l with releasedAt := some now } :=
  lease_keeps fun _ => rfl

/-- What the service runs on: the database's collation, which is case
insensitive, and Python's text tables. -/
class Platform extends Collation, PythonText where
  key_lower : ∀ s, key (Text.lower s) = key s

section

variable [Platform]

abbrev LeaseWork (α : Type) := Work Database LeaseError α

def ClientPrincipal.requireScope (principal : ClientPrincipal) (requiredScope : String) :
    LeaseWork Unit :=
  if requiredScope ∈ principal.scopes then pure ()
  else Work.raise (.clientKeyScope ("Client Key 缺少权限：" ++ requiredScope))

/-! ## Inserts -/

def Database.insertLease? (db : Database) (lease : Lease) : Option Database :=
  (db.leases.insert? lease).map fun leases => { db with leases }

def Database.insertLeaseClaim? (db : Database) (claim : MailboxLeaseClaim) :
    Option Database :=
  (db.leaseClaims.insert? claim).map fun leaseClaims => { db with leaseClaims }

def Database.insertProviderResource? (db : Database) (resource : MailboxProviderResource) :
    Option Database :=
  (db.providerResources.insert? resource).map fun providerResources =>
    { db with providerResources }

def Database.insertProviderOperation? (db : Database)
    (operation : MailboxProviderOperation) : Option Database :=
  (db.providerOperations.insert? operation).map fun providerOperations =>
    { db with providerOperations }

def Database.insertEmailSiteUsage? (db : Database) (usage : EmailSiteUsage) :
    Option Database :=
  (db.emailSiteUsages.insert? usage).map fun emailSiteUsages => { db with emailSiteUsages }

/-! ## Updates and deletes -/

/-- `UPDATE leases SET f WHERE id = leaseId`. -/
def Database.updateLease (db : Database) (leaseId : String) (f : Lease → Lease)
    (hf : leaseSchema.Keeps f) : Database :=
  { db with
    leases := db.leases.updateWhere (Table.whereKey leaseSchema leaseId fun _ => true) f hf }

theorem mem_updateLease {db : Database} {old : Lease} {f : Lease → Lease}
    {hf : leaseSchema.Keeps f} (hold : old ∈ db.leases) (l : Lease) :
    l ∈ (db.updateLease old.id f hf).leases ↔
      (l ∈ db.leases ∧ l.id ≠ old.id) ∨ l = f old :=
  Table.mem_updateWhere_key hf hold l

def Mailbox.touch (m : Mailbox) (now : ℕ) : Mailbox := { m with updatedAt := now }

theorem Mailbox.touch_keeps (now : ℕ) : mailboxSchema.Keeps fun m => m.touch now :=
  fun _ => ⟨rfl, fun _ => rfl⟩

/-- `UPDATE mailboxes SET updated_at WHERE id = mailboxId`. -/
def Database.touchMailbox (db : Database) (mailboxId : String) (now : ℕ) : Database :=
  { db with
    mailboxes := db.mailboxes.updateWhere
      (Table.whereKey mailboxSchema mailboxId fun _ => true) (fun m => m.touch now)
      (Mailbox.touch_keeps now) }

theorem mem_touchMailbox {db : Database} {mailboxId : String} {now : ℕ} {q : Mailbox} :
    q ∈ (db.touchMailbox mailboxId now).mailboxes ↔
      ∃ m ∈ db.mailboxes, q = if m.id = mailboxId then m.touch now else m :=
  Table.mem_updateWhere_whereKey (Mailbox.touch_keeps now)

/-- `UPDATE mailbox_provider_resources SET f WHERE id = resourceId`. -/
def Database.updateResource (db : Database) (resourceId : String)
    (f : MailboxProviderResource → MailboxProviderResource)
    (hf : providerResourceSchema.Keeps f) : Database :=
  { db with
    providerResources := db.providerResources.updateWhere
      (Table.whereKey providerResourceSchema resourceId fun _ => true) f hf }

theorem mem_updateResource {db : Database} {resourceId : String}
    {f : MailboxProviderResource → MailboxProviderResource}
    (hf : providerResourceSchema.Keeps f) {q : MailboxProviderResource} :
    q ∈ (db.updateResource resourceId f hf).providerResources ↔
      ∃ r ∈ db.providerResources, q = if r.id = resourceId then f r else r :=
  Table.mem_updateWhere_whereKey hf

/-- `UPDATE mailbox_provider_operations SET f WHERE id = operationId`. -/
def Database.updateOperation (db : Database) (operationId : String)
    (f : MailboxProviderOperation → MailboxProviderOperation)
    (hf : providerOperationSchema.Keeps f) : Database :=
  { db with
    providerOperations := db.providerOperations.updateWhere
      (Table.whereKey providerOperationSchema operationId fun _ => true) f hf }

/-- `DELETE FROM mailbox_lease_claims WHERE p`. -/
def Database.deleteLeaseClaims (db : Database) (p : MailboxLeaseClaim → Bool) : Database :=
  { db with leaseClaims := db.leaseClaims.deleteWhere p }

/-! ## Active leases and live claims -/

def Lease.activeAt (now : ℕ) (l : Lease) : Bool :=
  l.releasedAt.isNone && decide (now < l.expiresAt)

def MailboxLeaseClaim.liveAt (now : ℕ) (c : MailboxLeaseClaim) : Bool :=
  decide (now < c.expiresAt)

/-- The claim occupies what the lease is on: its mailbox, or its provider
resource where it has no mailbox. -/
def MailboxLeaseClaim.onTargetOf (lease : Lease) (c : MailboxLeaseClaim) : Bool :=
  match lease.mailboxId, lease.providerResourceId with
  | some m, _ => c.mailboxId = some m
  | none, some r => c.providerResourceId = some r
  | none, none => false

end

end MailboxService
