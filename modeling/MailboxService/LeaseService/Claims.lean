import MailboxService.LeaseService.Store

/-!
# Lease claims

`_upsert_lease_claim` and `_delete_lease_claim_for_lease`. A claim row is the
occupancy of an active lease. Plus-alias claims share a mailbox; any other
claim is refused while another live claim is on the same mailbox or resource.
-/

namespace MailboxService

open Foundation

section

variable [Platform]

def Database.primaryEmailOf (db : Database) (lease : Lease) : String :=
  match lease.mailboxId, lease.providerResourceId with
  | some m, _ => ((db.mailboxes.get? m).map Mailbox.primaryEmail).getD ""
  | none, some r =>
      ((db.providerResources.get? r).map MailboxProviderResource.primaryEmail).getD ""
  | none, none => ""

def isPlusAllocation (mode : LeaseMode) (allocatedEmail : Option String)
    (primaryEmail : String) : Bool :=
  match mode, allocatedEmail with
  | .mailRead, some a => decide (Text.normalize a ≠ Text.normalize primaryEmail)
  | _, _ => false

def claimOf (lease : Lease) (allocatedEmail : Option String) : MailboxLeaseClaim where
  leaseId := lease.id
  mailboxId := lease.mailboxId
  providerResourceId := lease.providerResourceId
  clientKeyId := lease.clientKeyId
  mode := lease.mode
  allocatedEmail := allocatedEmail
  expiresAt := lease.expiresAt
  createdAt := lease.createdAt

def Database.purgeExpiredClaims (db : Database) (now : ℕ) (lease : Lease) : Database :=
  db.deleteLeaseClaims fun c => c.onTargetOf lease && isExpired c.expiresAt now

def Database.conflictingClaim (db : Database) (now : ℕ) (lease : Lease) : Bool :=
  db.leaseClaims.any fun c => c.onTargetOf lease && decide (c.leaseId ≠ lease.id) &&
    c.liveAt now

/-- Unless the claim is for a plus alias, raise the conflict that a unique key
on the mailbox would raise. -/
def rejectConflictingClaim (now : ℕ) (lease : Lease) (isPlus : Bool) : LeaseWork Unit :=
  if isPlus then pure ()
  else do
    let conflict ← Work.read fun db => db.conflictingClaim now lease
    if conflict then Work.raise .integrity else pure ()

/-- Insert or replace the claim row of a lease. -/
def upsertLeaseClaim (now : ℕ) (lease : Lease) (allocatedEmail : Option String) :
    LeaseWork Unit := do
  Work.write fun db => db.purgeExpiredClaims now lease
  let primaryEmail ← Work.read fun db => db.primaryEmailOf lease
  Work.write fun db => db.deleteLeaseClaims fun c => c.leaseId = lease.id
  rejectConflictingClaim now lease (isPlusAllocation lease.mode allocatedEmail primaryEmail)
  Work.flush fun db => db.insertLeaseClaim? (claimOf lease allocatedEmail)

def deleteLeaseClaimForLease (lease : Lease) : LeaseWork Unit :=
  Work.write fun db => db.deleteLeaseClaims fun c => c.leaseId = lease.id

end

end MailboxService
