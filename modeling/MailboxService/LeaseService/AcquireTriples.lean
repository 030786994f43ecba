import MailboxService.Foundation.SessionTriple
import MailboxService.LeaseService.Effects
import MailboxService.LeaseService.Reacquire

/-!
# What an acquire keeps

An acquire is a sequence of statements of eight kinds, with handlers and a
rollback around them. A condition on the database that each kind keeps is kept
by the whole, however it ends and whatever the candidates before have left in
the transaction.
-/

namespace MailboxService

open Foundation

section

variable [Platform]

/-- A condition that every statement of an acquire keeps. -/
structure AcquireFrame (P : Database → Prop) (now : ℕ) : Prop where
  touched : ∀ {d : Database} (mailboxId : String), P d → P (d.touchMailbox mailboxId now)
  /-- A lease on a mailbox. -/
  leased : ∀ {d d' : Database} {lease : Lease}, lease.providerResourceId = none →
    lease.releasedAt = none → P d → d.insertLease? lease = some d' → P d'
  /-- A lease on an available resource, which it claims. -/
  claimed : ∀ {d d' : Database} {lease : Lease} {r : MailboxProviderResource},
    r ∈ d.providerResources → r.lifecycleState = .available →
    lease.providerResourceId = some r.id → lease.releasedAt = none → P d →
    (d.updateResource r.id (fun r => r.claim now) (fun _ => ⟨rfl, fun _ => rfl⟩)).insertLease?
      lease = some d' → P d'
  /-- A lease on a resource that was provisioned for it. -/
  provisioned : ∀ {d d₁ d' : Database} {lease : Lease} {r : MailboxProviderResource},
    r.lifecycleState = .claimed → lease.providerResourceId = some r.id →
    lease.releasedAt = none → P d → d.insertProviderResource? r = some d₁ →
    d₁.insertLease? lease = some d' → P d'
  claimsDeleted : ∀ {d : Database} (p : MailboxLeaseClaim → Bool), P d →
    P (d.deleteLeaseClaims p)
  claimInserted : ∀ {d d' : Database} {claim : MailboxLeaseClaim}, P d →
    d.insertLeaseClaim? claim = some d' → P d'
  usageInserted : ∀ {d d' : Database} {usage : EmailSiteUsage}, P d →
    d.insertEmailSiteUsage? usage = some d' → P d'
  usageReactivated : ∀ {d : Database} {u : EmailSiteUsage} (mailboxId : Option String)
    (leaseId clientKeyId : String), u ∈ d.emailSiteUsages → u.revokedAt ≠ none → P d →
    P { d with
      emailSiteUsages := d.emailSiteUsages.updateWhere
        (Table.whereKey emailSiteUsageSchema u.id fun _ => true)
        (fun u => u.reactivate now mailboxId leaseId clientKeyId)
        (fun _ => ⟨rfl, fun _ => rfl⟩) }

variable {P : Database → Prop} {now : ℕ} {committed : Database}

theorem triple_query {α β : Type} {f : Database → α} {k : α → LeaseWork β}
    {Q : β → Database → Prop}
    (h : ∀ a, Work.Triple committed (fun d => P d ∧ a = f d) (k a) Q P) :
    Work.Triple committed P (Work.read f >>= k) Q P :=
  Work.triple_read.bind h

theorem triple_queryExcept {α β : Type} {f : Database → Except LeaseError α}
    {k : α → LeaseWork β} {Q : β → Database → Prop}
    (h : ∀ a, Work.Triple committed (fun d => P d ∧ f d = .ok a) (k a) Q P) :
    Work.Triple committed P (Work.read f >>= fun r => Work.ofExcept r >>= k) Q P := by
  refine triple_query fun r => ?_
  refine (Work.triple_ofExcept (Q := fun a d => P d ∧ f d = .ok a) ?_ fun d hd => hd.1).bind h
  rintro a rfl d ⟨hd, ha⟩
  exact ⟨hd, ha.symm⟩

theorem AcquireFrame.upsertLeaseClaim (hP : AcquireFrame P now) (lease : Lease)
    (a : Option String) : Work.Keeps committed P (upsertLeaseClaim now lease a) := by
  unfold MailboxService.upsertLeaseClaim
  refine (Work.triple_write (Q := fun _ => P) fun d hd => hP.claimsDeleted _ hd).bind
    fun _ => ?_
  refine triple_query fun primaryEmail => ?_
  refine (Work.triple_write (Q := fun _ => P) fun d hd => hP.claimsDeleted _ hd.1).bind
    fun _ => ?_
  refine Work.Triple.bind (M := fun _ => P) ?_ fun _ =>
    Work.triple_flush fun d d' hd hins => hP.claimInserted hd hins
  unfold rejectConflictingClaim
  split
  · exact Work.triple_pure fun _ hd => hd
  · refine triple_query fun conflict => ?_
    split
    · exact Work.triple_raise fun _ hd => hd.1
    · exact Work.triple_pure fun _ hd => hd.1

theorem AcquireFrame.recordEmailSiteUsage (hP : AcquireFrame P now)
    (principal : ClientPrincipal) (usageId allocatedEmail siteCode : String)
    (mailboxId : Option String) (leaseId : String) :
    Work.Keeps committed P (recordEmailSiteUsage principal now usageId allocatedEmail siteCode
      mailboxId leaseId) := by
  unfold MailboxService.recordEmailSiteUsage
  refine triple_query fun found => ?_
  cases found with
  | none => exact Work.triple_flush fun d d' hd hins => hP.usageInserted hd.1 hins
  | some u =>
      simp only
      by_cases hrevoked : u.revokedAt.isNone = true
      · rw [if_pos hrevoked]
        exact Work.triple_raise fun _ hd => hd.1
      · rw [if_neg hrevoked]
        refine Work.triple_write fun d hd => ?_
        refine hP.usageReactivated _ _ _ (List.mem_of_find?_eq_some hd.2.symm) ?_ hd.1
        intro hnone
        rw [hnone] at hrevoked
        exact hrevoked rfl

theorem AcquireFrame.recordRequestedSite (hP : AcquireFrame P now)
    (principal : ClientPrincipal) (draws : Draws) (lease : Lease) (siteCode : Option String) :
    Work.Keeps committed P (recordRequestedSite principal now draws lease siteCode) := by
  unfold MailboxService.recordRequestedSite
  split
  · split
    · exact hP.recordEmailSiteUsage _ _ _ _ _ _
    · exact Work.triple_pure fun _ hd => hd
  · exact Work.triple_pure fun _ hd => hd

theorem AcquireFrame.recordOptionalSite (hP : AcquireFrame P now)
    (principal : ClientPrincipal) (usageId : String) (usageSite : Option String)
    (address leaseId : String) :
    Work.Keeps committed P (recordOptionalSite principal now usageId usageSite address
      leaseId) := by
  unfold MailboxService.recordOptionalSite
  split
  · exact Work.triple_pure fun _ hd => hd
  · refine Work.Triple.handle (E := P) ?_ ?_ fun _ hd => hd
    · unfold recordResolvedSite
      refine triple_queryExcept fun code => ?_
      exact (hP.recordEmailSiteUsage _ _ _ _ _ _).mono (fun _ hd => hd.1) (fun _ _ hd => hd)
        fun _ hd => hd
    · rintro e y ⟨⟩
      exact Work.triple_pure fun _ hd => hd

theorem AcquireFrame.unavailableOnIntegrity {x : LeaseWork Unit}
    (hx : Work.Keeps committed P x) : Work.Keeps committed P (unavailableOnIntegrity x) := by
  refine Work.Triple.handle hx ?_ fun _ hd => hd
  intro e y hy
  cases e <;> cases hy
  exact Work.triple_raise fun _ hd => hd

/-! ## The three paths -/

theorem AcquireFrame.acquireMailboxLease (hP : AcquireFrame P now)
    (principal : ClientPrincipal) (decrypt : String → Except String String) (draws : Draws)
    (request : AcquireRequest) (wantsPlusAlias : Bool) (siteCode : Option String)
    (providerType : String) :
    Work.Keeps committed P (acquireMailboxLease principal now decrypt draws request
      wantsPlusAlias siteCode providerType) := by
  unfold MailboxService.acquireMailboxLease
  refine triple_queryExcept fun ⟨m, a⟩ => ?_
  refine (Work.triple_flush (Q := fun _ => P) fun d d' hd hins =>
    hP.leased rfl rfl (hP.touched _ hd.1) hins).bind fun _ => ?_
  refine Work.Triple.bind (AcquireFrame.unavailableOnIntegrity (hP.upsertLeaseClaim _ _))
    fun _ => ?_
  refine Work.Triple.bind (hP.recordRequestedSite _ _ _ _) fun _ => ?_
  exact Work.triple_ofExcept (fun _ _ _ hd => hd) fun _ hd => hd

theorem AcquireFrame.acquireSmsbowerLease (hP : AcquireFrame P now)
    (principal : ClientPrincipal) (draws : Draws) (request : AcquireRequest)
    (usageSite : Option String) :
    Work.Keeps committed P (acquireSmsbowerLease principal now draws request usageSite) := by
  unfold MailboxService.acquireSmsbowerLease
  refine triple_queryExcept fun r => ?_
  refine (Work.triple_flush (Q := fun _ => P) ?_).bind fun _ => ?_
  · rintro d d' ⟨hd, hpick⟩ hins
    obtain ⟨hr, hselectable⟩ := pickResource_ok hpick
    exact hP.claimed hr (MailboxProviderResource.available_of_selectable hselectable).2 rfl rfl
      hd hins
  refine Work.Triple.bind (AcquireFrame.unavailableOnIntegrity (hP.upsertLeaseClaim _ _))
    fun _ => ?_
  refine Work.Triple.bind (hP.recordOptionalSite _ _ _ _ _) fun _ => ?_
  exact Work.triple_pure fun _ hd => hd

/-- The resource of an on-demand lease is there only together with its lease:
a flush that fails leaves the session unusable. -/
theorem AcquireFrame.insertOnDemandLease (hP : AcquireFrame P now)
    {resource : MailboxProviderResource} {lease : Lease}
    (hclaimed : resource.lifecycleState = .claimed)
    (hlease : lease.providerResourceId = some resource.id) (hopen : lease.releasedAt = none)
    (address : String) :
    Work.Keeps committed P (insertOnDemandLease now resource lease address) := by
  unfold MailboxService.insertOnDemandLease
  refine (Work.triple_flush (Q := fun _ d₁ => ∃ d, P d ∧
    d.insertProviderResource? resource = some d₁) fun d d' hd hins => ⟨d, hd, hins⟩).bind
      fun _ => ?_
  refine (Work.triple_flush (Q := fun _ => P) ?_).bind fun _ => hP.upsertLeaseClaim _ _
  rintro d₁ d' ⟨d, hd, hresource⟩ hins
  exact hP.provisioned hclaimed hlease hopen hd hresource hins

theorem AcquireFrame.acquireOnDemandLease (hP : AcquireFrame P now) (h0 : P committed)
    (principal : ClientPrincipal) (draws : Draws) (request : AcquireRequest)
    (usageSite : Option String) (providerType : String) :
    Work.Keeps committed P (acquireOnDemandLease principal now draws request usageSite
      providerType) := by
  unfold MailboxService.acquireOnDemandLease
  refine (Work.triple_ofExcept (Q := fun _ => P) (fun _ _ _ hd => hd) fun _ hd => hd).bind
    fun ⟨result, address⟩ => ?_
  refine Work.Triple.bind (M := fun _ => P) ?_ fun _ => ?_
  · refine Work.Triple.handle (hP.insertOnDemandLease rfl rfl rfl _) ?_ fun _ hd => hd
    intro e y hy
    cases e <;> cases hy
    exact (Work.triple_rollback (Q := fun _ => P) h0).bind fun _ =>
      Work.triple_raise fun _ hd => hd
  · refine Work.Triple.bind (hP.recordOptionalSite _ _ _ _ _) fun _ => ?_
    exact Work.triple_pure fun _ hd => hd

/-! ## The whole acquire -/

theorem resolveRequestedSite_keeps (request : AcquireRequest) (providerType : String) :
    Work.Keeps committed P (resolveRequestedSite request providerType) := by
  unfold resolveRequestedSite
  split
  · split
    · exact triple_queryExcept fun code => Work.triple_pure fun _ hd => hd.1
    · split
      · exact Work.triple_pure fun _ hd => hd
      · exact Work.triple_raise fun _ hd => hd
  · exact Work.triple_pure fun _ hd => hd

theorem AcquireFrame.acquireSingleProviderLease (hP : AcquireFrame P now) (h0 : P committed)
    (principal : ClientPrincipal) (decrypt : String → Except String String) (draws : Draws)
    (request : AcquireRequest) (providerType : String) :
    Work.Keeps committed P (acquireSingleProviderLease principal now decrypt draws request
      providerType) := by
  unfold MailboxService.acquireSingleProviderLease
  split
  · exact Work.triple_raise fun _ hd => hd
  split
  · exact Work.triple_raise fun _ hd => hd
  refine Work.Triple.bind (resolveRequestedSite_keeps _ _) fun siteCode => ?_
  split
  · exact hP.acquireOnDemandLease h0 _ _ _ _ _
  split
  · split
    · exact Work.triple_raise fun _ hd => hd
    · exact hP.acquireSmsbowerLease _ _ _ _
  · exact hP.acquireMailboxLease _ _ _ _ _ _ _

theorem requireScope_keeps (principal : ClientPrincipal) (requiredScope : String) :
    Work.Keeps committed P (principal.requireScope requiredScope) := by
  unfold ClientPrincipal.requireScope
  split
  · exact Work.triple_pure fun _ hd => hd
  · exact Work.triple_raise fun _ hd => hd

/-- **Acquire**: a condition that its statements keep is kept by an acquire. -/
theorem AcquireFrame.acquireLease (hP : AcquireFrame P now) (h0 : P committed)
    (principal : ClientPrincipal) (decrypt : String → Except String String)
    (draws : String → Draws) (request : AcquireRequest) (shuffled : List String) :
    Work.Keeps committed P (acquireLease principal now decrypt draws request shuffled) := by
  unfold MailboxService.acquireLease
  split
  · refine Work.Triple.bind (requireScope_keeps _ _) fun _ => ?_
    exact Work.triple_tryEach fun p _ => hP.acquireSingleProviderLease h0 _ _ _ _ _
  · refine Work.Triple.bind (M := fun _ => P) ?_ fun _ =>
      hP.acquireSingleProviderLease h0 _ _ _ _ _
    unfold checkCredentialRequest
    refine Work.Triple.bind (requireScope_keeps _ _) fun _ => ?_
    refine Work.Triple.bind (requireScope_keeps _ _) fun _ => ?_
    split
    · exact Work.triple_raise fun _ hd => hd
    · split
      · exact Work.triple_raise fun _ hd => hd
      · exact Work.triple_pure fun _ hd => hd

/-! ## The whole reacquire -/

/-- **Reacquire**: a reacquire adds the renewal of an active lease to the
statements of an acquire. -/
theorem AcquireFrame.reacquireLeaseByEmail (hP : AcquireFrame P now)
    (hrenewed : ∀ {d : Database} {old : Lease} (ttlSeconds : ℕ)
      (clientTag purpose : Option String), old ∈ d.leases → old.releasedAt = none → P d →
      P (d.updateLease old.id (fun l => l.renew now ttlSeconds clientTag purpose)
        (lease_keeps fun _ => rfl)))
    (principal : ClientPrincipal) (leaseId email : String) (ttlSeconds : ℕ)
    (clientTag purpose : Option String) :
    Work.Keeps committed P (reacquireLeaseByEmail principal now leaseId email ttlSeconds
      clientTag purpose) := by
  unfold MailboxService.reacquireLeaseByEmail
  refine Work.Triple.bind (requireScope_keeps _ _) fun _ => ?_
  simp only
  split
  · exact Work.triple_raise fun _ hd => hd
  refine triple_queryExcept fun resolved => ?_
  obtain ⟨mailboxId, addressKind⟩ := resolved
  refine Work.Triple.mono (P := P) ?_ (fun _ hd => hd.1) (fun _ _ hd => hd) fun _ hd => hd
  refine triple_query fun history => ?_
  split
  · exact Work.triple_raise fun _ hd => hd.1
  refine Work.Triple.mono (P := P) ?_ (fun _ hd => hd.1) (fun _ _ hd => hd) fun _ hd => hd
  refine triple_query fun found => ?_
  cases found with
  | none => exact Work.triple_raise fun _ hd => hd.1
  | some m =>
      simp only
      refine (Work.triple_ofExcept (Q := fun _ => P) (fun _ _ _ hd => hd.1)
        fun _ hd => hd.1).bind fun _ => ?_
      refine triple_queryExcept fun owned => ?_
      unfold renewOrInsertLease
      cases owned with
      | none =>
          refine (Work.triple_flush (Q := fun _ => P) fun d d' hd hins =>
            hP.leased rfl rfl hd.1 hins).bind fun _ => ?_
          refine Work.Triple.bind (hP.upsertLeaseClaim _ _) fun _ => ?_
          exact Work.triple_pure fun _ hd => hd
      | some old =>
          refine (Work.triple_write (Q := fun _ => P) ?_).bind fun _ => ?_
          · rintro d ⟨hd, hmatch⟩
            -- the lease that is renewed is one of the active ones
            rcases matchOwnedLease_ok hmatch with hnone | ⟨hold, -⟩
            · cases hnone
            · obtain ⟨hmem, hactive⟩ := Table.mem_select.mp hold
              unfold Lease.activeAt at hactive
              simp only [Bool.and_eq_true, Option.isNone_iff_eq_none] at hactive
              exact hrenewed _ _ _ hmem hactive.2.1 hd
          · refine Work.Triple.bind (hP.upsertLeaseClaim _ _) fun _ => ?_
            exact Work.triple_pure fun _ hd => hd

end

end MailboxService
