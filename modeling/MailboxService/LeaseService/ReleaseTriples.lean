import MailboxService.LeaseService.AcquireTriples
import MailboxService.LeaseService.Release

/-!
# What a release keeps

A release is a sequence of statements of four kinds. A condition on the
database that each kind keeps is kept by the whole, however it ends.
-/

namespace MailboxService

open Foundation

section

variable [Platform]

/-- A condition that every statement of a release keeps. -/
structure ReleaseFrame (P : Database → Prop) (now : ℕ) : Prop where
  leaseReleased : ∀ {d : Database} (leaseId : String), P d →
    P (d.updateLease leaseId (fun l => { l with releasedAt := some now })
      (lease_keeps fun _ => rfl))
  claimsDeleted : ∀ {d : Database} (p : MailboxLeaseClaim → Bool), P d →
    P (d.deleteLeaseClaims p)
  resourceUpdated : ∀ {d : Database} (resourceId : String)
    (f : MailboxProviderResource → MailboxProviderResource) (hf : providerResourceSchema.Keeps f),
    P d → P (d.updateResource resourceId f hf)
  operationInserted : ∀ {d d' : Database} {operation : MailboxProviderOperation}, P d →
    d.insertProviderOperation? operation = some d' → P d'

variable {P : Database → Prop} {now : ℕ} {committed : Database}

theorem ReleaseFrame.createPendingOperation (hP : ReleaseFrame P now)
    (operation : MailboxProviderOperation) :
    Work.Keeps committed P (createPendingOperation operation) := by
  unfold MailboxService.createPendingOperation
  refine triple_query fun found => ?_
  cases found with
  | some existing => exact Work.triple_pure fun _ hd => hd.1
  | none =>
      refine (Work.triple_flush (Q := fun _ => P) ?_).bind fun _ =>
        Work.triple_pure fun _ hd => hd
      intro d d' hd hins
      exact hP.operationInserted hd.1 hins

theorem ReleaseFrame.beginReleaseOperation (hP : ReleaseFrame P now)
    (operationId leaseId resourceId providerType instanceId externalResourceId : String)
    (resourceGeneration expectedStateVersion : ℕ) :
    Work.Keeps committed P (beginReleaseOperation now operationId leaseId resourceId
      providerType instanceId externalResourceId resourceGeneration expectedStateVersion) := by
  unfold MailboxService.beginReleaseOperation
  refine triple_query fun found => ?_
  cases found with
  | some existing => exact Work.triple_pure fun _ hd => hd.1
  | none =>
      refine Work.Triple.mono (P := P) ?_ (fun _ hd => hd.1) (fun _ _ hd => hd) fun _ hd => hd
      refine triple_query fun resource => ?_
      cases resource with
      | none => exact Work.triple_raise fun _ hd => hd.1
      | some resource =>
          refine (Work.triple_write (Q := fun _ => P) ?_).bind fun _ =>
            hP.createPendingOperation _
          intro d hd
          exact hP.resourceUpdated _ _ _ hd.1

theorem ReleaseFrame.releaseResource (hP : ReleaseFrame P now) (operationId : String)
    (lease : Lease) : Work.Keeps committed P (releaseResource now operationId lease) := by
  unfold MailboxService.releaseResource
  cases lease.providerResourceId with
  | none => exact Work.triple_pure fun _ hd => hd
  | some resourceId =>
      simp only
      split
      · refine triple_query fun found => ?_
        cases found with
        | none => exact Work.triple_pure fun _ hd => hd.1
        | some resource =>
            refine Work.Triple.mono (P := P) ?_ (fun _ hd => hd.1) (fun _ _ hd => hd)
              fun _ hd => hd
            simp only [releaseSmsbowerResource]
            split
            · exact Work.Triple.bind (hP.beginReleaseOperation _ _ _ _ _ _ _ _)
                fun _ => Work.triple_pure fun _ hd => hd
            · exact Work.triple_pure fun _ hd => hd
      · split
        · exact Work.triple_write fun _ hd => hP.resourceUpdated _ _ _ hd
        · exact Work.triple_pure fun _ hd => hd

theorem ReleaseFrame.releaseLoadedLease (hP : ReleaseFrame P now) (operationId : String)
    (lease : Lease) : Work.Keeps committed P (releaseLoadedLease now operationId lease) := by
  unfold MailboxService.releaseLoadedLease
  split
  · exact Work.triple_pure fun _ hd => hd
  · refine Work.Triple.bind (M := fun _ => P) ?_ fun _ => Work.triple_pure fun _ hd => hd
    unfold releaseEffects
    refine Work.Triple.bind (M := fun _ => P) ?_ fun _ =>
      Work.Triple.bind (M := fun _ => P) ?_ fun _ => hP.releaseResource _ _
    · exact Work.triple_write fun _ hd => hP.leaseReleased _ hd
    · exact Work.triple_write fun _ hd => hP.claimsDeleted _ hd

/-- **Release**: a condition that its statements keep is kept by a release. -/
theorem ReleaseFrame.releaseLease (hP : ReleaseFrame P now) (principal : ClientPrincipal)
    (operationId leaseId : String) :
    Work.Keeps committed P (releaseLease principal now operationId leaseId) := by
  unfold MailboxService.releaseLease releaseLeaseInternal loadOwnedLeaseMailboxFirst
  refine Work.Triple.bind (requireScope_keeps _ _) fun _ => ?_
  refine Work.Triple.bind (M := fun _ => P) ?_ fun lease => hP.releaseLoadedLease _ _
  refine triple_queryExcept fun preview => ?_
  refine Work.Triple.mono (P := P) ?_ (fun _ hd => hd.1) (fun _ _ hd => hd) fun _ hd => hd
  refine triple_queryExcept fun target => ?_
  refine Work.Triple.mono (P := P) ?_ (fun _ hd => hd.1) (fun _ _ hd => hd) fun _ hd => hd
  exact triple_query fun locked => Work.triple_ofExcept (fun _ _ _ hd => hd.1) fun _ hd => hd.1

end

end MailboxService
