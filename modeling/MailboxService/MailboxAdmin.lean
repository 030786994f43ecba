import Mathlib.Data.List.Sort
import MailboxService.LeaseService.Store

/-!
# Administrator operations on mailboxes

`mailbox_admin_service.py`: forced release of everything on a mailbox, and the
deletion of mailboxes by id with their leases and claims.
-/

namespace MailboxService

open Foundation

/-- `ActiveLeaseClaimConflictError`. -/
structure ActiveLeaseClaimConflict where
  mailboxIds : List String
  deriving DecidableEq, Repr

structure AdminDeleteResult where
  deletedMailboxIds : List String
  missingMailboxIds : List String
  deriving DecidableEq, Repr

section

variable [Platform]

/-- The mailboxes among the given ones that hold a live claim, once for each
claim. -/
def Database.activeClaimMailboxIds (db : Database) (now : ℕ) (mailboxIds : List String) :
    List String :=
  (db.leaseClaims.select fun c =>
    c.mailboxId.any (mailboxIds.contains ·) && c.liveAt now).filterMap
      MailboxLeaseClaim.mailboxId

def forceReleaseClaimsAndLeases (db : Database) (now : ℕ) (mailboxId : String) : Database :=
  { db with
    leases := db.leases.updateWhere
      (fun l => l.mailboxId = some mailboxId && l.activeAt now)
      (fun l => { l with releasedAt := some now }) (lease_keeps_releasedAt now)
    leaseClaims := db.leaseClaims.deleteWhere fun c => c.mailboxId = some mailboxId }

/-- Delete mailboxes with their claims and leases. Rows that refer to a deleted
mailbox or lease by a nullable key lose the reference. -/
def Database.deleteMailboxes (db : Database) (mailboxIds : List String) : Database :=
  let gone (l : Option String) : Bool :=
    l.any fun id => (db.leases.get? id).any fun l => l.mailboxId.any (mailboxIds.contains ·)
  { db with
    leaseClaims := db.leaseClaims.deleteWhere fun c =>
      c.mailboxId.any (mailboxIds.contains ·)
    leases := db.leases.deleteWhere fun l => l.mailboxId.any (mailboxIds.contains ·)
    mailboxes := db.mailboxes.deleteWhere fun m => mailboxIds.contains m.id
    emailSiteUsages := db.emailSiteUsages.updateWhere (fun _ => true)
      (fun u => { u with
        mailboxId := u.mailboxId.filter fun id => !mailboxIds.contains id
        leaseId := if gone u.leaseId then none else u.leaseId })
      (fun _ => ⟨rfl, fun _ => rfl⟩) }

def deleteMailboxesByIds (db : Database) (now : ℕ) (mailboxIds : List String)
    (forceReleaseActiveLeases : Bool) :
    Except ActiveLeaseClaimConflict (AdminDeleteResult × Database) :=
  let uniqueIds := mailboxIds.eraseDups
  let foundIds := (uniqueIds.filter fun id => (db.mailboxes.get? id).isSome).insertionSort
    (· ≤ ·)
  let blocked := db.activeClaimMailboxIds now foundIds
  if blocked ≠ [] ∧ forceReleaseActiveLeases = false then .error ⟨blocked⟩
  else
    let released :=
      if forceReleaseActiveLeases then
        foundIds.foldl (fun db id => forceReleaseClaimsAndLeases db now id) db
      else db
    .ok (⟨foundIds, uniqueIds.filter fun id => (db.mailboxes.get? id).isNone⟩,
      released.deleteMailboxes foundIds)

end

end MailboxService
