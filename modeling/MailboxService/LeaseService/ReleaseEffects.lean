import MailboxService.LeaseService.Release

/-!
# What a release leaves

The inversion lemmas of the releasing paths. A release that returns changes
nothing or sets `released_at` on one row, drops its claim, and begins the
release of the resource behind it or retires that resource.
-/

namespace MailboxService

open Foundation

section

variable [Platform]

/-! ## Resources and operations -/

/-- What may become of a resource when a lease on it is released: nothing, or
its release begins, or it is retired. -/
def ResourceReleased (db db' : Database) (now : ℕ) (lease : Lease) : Prop :=
  db'.providerResources = db.providerResources ∨
    ∃ resourceId f, ∃ hf : providerResourceSchema.Keeps f,
      lease.providerResourceId = some resourceId ∧
      db'.providerResources = (db.updateResource resourceId f hf).providerResources ∧
      (f = (fun r => r.beginRelease now) ∨ f = fun r => r.retire now)

/-- Only resources and operations differ. -/
def ProviderFrame (db db' : Database) : Prop :=
  db' = { db with
    providerResources := db'.providerResources
    providerOperations := db'.providerOperations }

theorem createPendingOperation_ok {db : Database} {s s' : Session Database}
    {operation : MailboxProviderOperation} {snapshot : ProviderOperationSnapshot}
    (hs : s.usable = true)
    (h : createPendingOperation operation db s = (.ok snapshot, s')) :
    ProviderFrame s.db s'.db ∧ s'.db.providerResources = s.db.providerResources := by
  unfold createPendingOperation at h
  rw [Work.bind_of_ok (Work.read_of_usable hs)] at h
  cases hkey : s.db.operationByKey? operation.idempotencyKey with
  | some existing =>
      simp only [hkey] at h
      cases h
      exact ⟨rfl, rfl⟩
  | none =>
      simp only [hkey] at h
      rw [Work.bind_eq_ok] at h
      obtain ⟨_, s₁, hflush, h⟩ := h
      obtain ⟨-, db₁, hins, rfl⟩ := Work.flush_eq_ok.mp hflush
      obtain ⟨-, rfl⟩ := Prod.mk.inj h
      unfold Database.insertProviderOperation? at hins
      rw [Option.map_eq_some_iff] at hins
      obtain ⟨_, -, rfl⟩ := hins
      exact ⟨rfl, rfl⟩

theorem beginReleaseOperation_ok {db : Database} {s s' : Session Database} {now : ℕ}
    {operationId leaseId resourceId providerType instanceId externalResourceId : String}
    {resourceGeneration expectedStateVersion : ℕ} {snapshot : ProviderOperationSnapshot}
    (hs : s.usable = true)
    (h : beginReleaseOperation now operationId leaseId resourceId providerType instanceId
      externalResourceId resourceGeneration expectedStateVersion db s = (.ok snapshot, s')) :
    ProviderFrame s.db s'.db ∧ (s'.db.providerResources = s.db.providerResources ∨
      s'.db.providerResources = (s.db.updateResource resourceId (fun r => r.beginRelease now)
        (fun _ => ⟨rfl, fun _ => rfl⟩)).providerResources) := by
  unfold beginReleaseOperation at h
  rw [Work.bind_of_ok (Work.read_of_usable hs)] at h
  cases hkey : s.db.operationByKey? (releaseKey leaseId resourceGeneration) with
  | some existing =>
      simp only [hkey] at h
      cases h
      exact ⟨rfl, Or.inl rfl⟩
  | none =>
      simp only [hkey] at h
      rw [Work.bind_of_ok (Work.read_of_usable hs)] at h
      cases hres : s.db.providerResources.get? resourceId with
      | none =>
          simp only [hres] at h
          cases h
      | some resource =>
          simp only [hres] at h
          rw [Work.bind_of_ok (Work.write_of_usable hs)] at h
          obtain ⟨hframe, hresources⟩ := createPendingOperation_ok rfl h
          refine ⟨?_, Or.inr hresources⟩
          rw [ProviderFrame, hframe]
          rfl

theorem releaseResource_ok {db : Database} {s s' : Session Database} {now : ℕ}
    {operationId : String} {lease : Lease} {u : Unit} (hs : s.usable = true)
    (h : releaseResource now operationId lease db s = (.ok u, s')) :
    ProviderFrame s.db s'.db ∧ ResourceReleased s.db s'.db now lease := by
  have hdone : ∀ {u s'}, (pure () : LeaseWork Unit) db s = (.ok u, s') →
      ProviderFrame s.db s'.db ∧ ResourceReleased s.db s'.db now lease := by
    intro u s' h
    cases h
    exact ⟨rfl, Or.inl rfl⟩
  unfold releaseResource at h
  cases hrid : lease.providerResourceId with
  | none =>
      simp only [hrid] at h
      exact hdone h
  | some resourceId =>
      simp only [hrid] at h
      split at h
      · rw [Work.bind_of_ok (Work.read_of_usable hs)] at h
        cases hres : s.db.providerResources.get? resourceId with
        | none =>
            simp only [hres] at h
            exact hdone h
        | some resource =>
            simp only [hres] at h
            have hid : resource.id = resourceId := Table.key_of_get? hres
            unfold releaseSmsbowerResource at h
            split at h
            · rw [Work.bind_eq_ok] at h
              obtain ⟨snapshot, s₁, hbegin, h⟩ := h
              obtain ⟨-, rfl⟩ := Prod.mk.inj h
              obtain ⟨hframe, hresources⟩ := beginReleaseOperation_ok hs hbegin
              refine ⟨hframe, hresources.imp id fun heq => ?_⟩
              rw [hid] at heq
              exact ⟨resourceId, _, _, hrid, heq, Or.inl rfl⟩
            · exact hdone h
      · split at h
        · obtain ⟨-, rfl⟩ := Work.write_eq_ok.mp h
          exact ⟨rfl, Or.inr ⟨resourceId, _, _, hrid, rfl, Or.inr rfl⟩⟩
        · exact hdone h

/-! ## Leases -/

/-- The effects of a release, with the lease as the session has loaded it. -/
structure ReleaseEffects (db db' : Database) (now : ℕ) (lease : Lease) : Prop where
  leases : db'.leases = (db.updateLease lease.id (fun l => { l with releasedAt := some now })
    (lease_keeps fun _ => rfl)).leases
  claims : db'.leaseClaims =
    (db.deleteLeaseClaims fun c => c.leaseId = lease.id).leaseClaims
  mailboxes : db'.mailboxes = db.mailboxes
  resource : ResourceReleased db db' now lease

structure LeaseReleased (db db' : Database) (now : ℕ) (lease : Lease) : Prop
    extends ReleaseEffects db db' now lease where
  mem : lease ∈ db.leases
  unreleased : lease.releasedAt = none

theorem LeaseReleased.mem_leases {db db' : Database} {now : ℕ} {lease : Lease}
    (h : LeaseReleased db db' now lease) (l : Lease) :
    l ∈ db'.leases ↔ (l ∈ db.leases ∧ l.id ≠ lease.id) ∨
      l = { lease with releasedAt := some now } := by
  rw [h.leases]
  exact mem_updateLease h.mem l

theorem LeaseReleased.mem_claims {db db' : Database} {now : ℕ} {lease : Lease}
    (h : LeaseReleased db db' now lease) (c : MailboxLeaseClaim) :
    c ∈ db'.leaseClaims ↔ c ∈ db.leaseClaims ∧ c.leaseId ≠ lease.id := by
  rw [h.claims]
  simp [Database.deleteLeaseClaims]

/-- A release with a loaded lease changes nothing if the instance is released,
or has the effects of a release. -/
theorem releaseLoadedLease_ok {db : Database} {s s' : Session Database} {now : ℕ}
    {operationId : String} {lease : Lease} {result : LeaseReleaseResult}
    (h : releaseLoadedLease now operationId lease db s = (.ok result, s')) :
    (lease.releasedAt ≠ none ∧ s'.db = s.db) ∨
      lease.releasedAt = none ∧ ReleaseEffects s.db s'.db now lease := by
  unfold releaseLoadedLease at h
  cases hreleased : lease.releasedAt with
  | some releasedAt =>
      simp only [hreleased] at h
      cases h
      exact Or.inl ⟨by simp, rfl⟩
  | none =>
      simp only [hreleased, releaseEffects, deleteLeaseClaimForLease, Work.bind_eq_ok,
        Work.write_eq_ok] at h
      obtain ⟨_, s₁, ⟨_, s₂, ⟨-, rfl⟩, _, s₃, ⟨-, rfl⟩, hresource⟩, h⟩ := h
      obtain ⟨-, rfl⟩ := Prod.mk.inj h
      obtain ⟨hframe, heffect⟩ := releaseResource_ok rfl hresource
      refine Or.inr ⟨rfl, ?_, ?_, ?_, ?_⟩
      · rw [hframe]
        rfl
      · rw [hframe]
        rfl
      · rw [hframe]
        rfl
      · exact heffect

theorem peekOwnedLease_ok {db : Database} {principal : ClientPrincipal} {leaseId : String}
    {preview : Lease} (h : peekOwnedLease db principal leaseId = .ok preview) :
    db.ownedLease? principal leaseId = some preview := by
  unfold peekOwnedLease at h
  split at h
  · cases h
  · rename_i row howned
    cases h
    exact howned

theorem ownedLease?_eq_some {db : Database} {principal : ClientPrincipal} {leaseId : String}
    {l : Lease} (h : db.ownedLease? principal leaseId = some l) :
    db.leases.get? leaseId = some l ∧ l.clientKeyId = some principal.clientKeyId := by
  unfold Database.ownedLease? at h
  rw [Option.filter_eq_some_iff, decide_eq_true_eq] at h
  exact h

/-- The locked lease is the instance that the peek loaded, whatever the row
has become; only the row's owner and existence are read again. -/
theorem lockOwnedLease_ok {db : Database} {principal : ClientPrincipal} {now : ℕ}
    {leaseId : String} {preview lease : Lease} {requireActive : Bool}
    (hid : preview.id = leaseId)
    (h : lockOwnedLease db principal now leaseId preview requireActive = .ok lease) :
    lease = preview ∧ (∃ row, db.ownedLease? principal leaseId = some row) ∧
      (requireActive = true →
        preview.releasedAt = none ∧ isExpired preview.expiresAt now = false) := by
  unfold lockOwnedLease at h
  cases howned : db.ownedLease? principal leaseId with
  | none =>
      rw [howned] at h
      cases h
  | some row =>
      have hrow : row.id = preview.id :=
        (Table.key_of_get? (ownedLease?_eq_some howned).1).trans hid.symm
      simp only [howned] at h
      rw [hrow, load_loaded] at h
      split at h
      · cases h
      split at h
      · cases h
      split at h
      · cases h
      rename_i hactive
      cases h
      refine ⟨rfl, ⟨row, rfl⟩, ?_⟩
      intro hrequire
      simpa [hrequire] using hactive

/-- When nothing comes in between, the locked lease is the row itself. -/
theorem loadOwnedLeaseMailboxFirst_ok {db : Database} {s s' : Session Database}
    {principal : ClientPrincipal} {now : ℕ} {leaseId : String} {requireActive : Bool}
    {lease : Lease}
    (h : loadOwnedLeaseMailboxFirst principal now leaseId requireActive db s =
      (.ok lease, s')) :
    s' = s ∧ lease ∈ s.db.leases ∧ lease.id = leaseId := by
  unfold loadOwnedLeaseMailboxFirst at h
  simp only [Work.bind_eq_ok] at h
  obtain ⟨peeked, s₁, hread, preview, s₂, hpeek, target, s₃, hread', _, s₄, htarget, locked,
    s₅, hread'', hlock⟩ := h
  obtain ⟨-, rfl, rfl⟩ := Work.read_eq_ok.mp hread
  obtain ⟨hpreview, rfl⟩ := Prod.mk.inj hpeek
  obtain ⟨-, -, rfl⟩ := Work.read_eq_ok.mp hread'
  obtain ⟨-, rfl⟩ := Prod.mk.inj htarget
  obtain ⟨-, rfl, rfl⟩ := Work.read_eq_ok.mp hread''
  obtain ⟨hlease, rfl⟩ := Prod.mk.inj hlock
  have hrow := (ownedLease?_eq_some (peekOwnedLease_ok hpreview)).1
  have hid : preview.id = leaseId := Table.key_of_get? hrow
  obtain ⟨rfl, -, -⟩ := lockOwnedLease_ok hid hlease
  exact ⟨rfl, Table.mem_of_get? hrow, hid⟩

theorem requireScope_ok {db : Database} {s s' : Session Database}
    {principal : ClientPrincipal} {requiredScope : String} {u : Unit}
    (h : principal.requireScope requiredScope db s = (.ok u, s')) : s' = s := by
  unfold ClientPrincipal.requireScope at h
  split at h
  · exact (Prod.mk.inj h).2.symm
  · cases h

theorem mem_scopes_of_requireScope {db : Database} {s s' : Session Database}
    {principal : ClientPrincipal} {requiredScope : String} {u : Unit}
    (h : principal.requireScope requiredScope db s = (.ok u, s')) :
    requiredScope ∈ principal.scopes := by
  unfold ClientPrincipal.requireScope at h
  split at h
  · rename_i hscope
    exact hscope
  · cases h

/-- **Release lemma**: a release that returns finds the lease, and changes
nothing if it is released already. -/
theorem releaseLease_lease {db : Database} {s s' : Session Database}
    {principal : ClientPrincipal} {now : ℕ} {operationId leaseId : String}
    {result : LeaseReleaseResult}
    (h : releaseLease principal now operationId leaseId db s = (.ok result, s')) :
    ∃ lease ∈ s.db.leases, lease.id = leaseId ∧
      ((lease.releasedAt ≠ none ∧ s'.db = s.db) ∨ LeaseReleased s.db s'.db now lease) := by
  simp only [releaseLease, releaseLeaseInternal, Work.bind_eq_ok] at h
  obtain ⟨_, s₁, hscope, lease, s₂, hload, h⟩ := h
  have hs₁ := requireScope_ok hscope
  obtain ⟨hs₂, hmem, hid⟩ := loadOwnedLeaseMailboxFirst_ok hload
  rw [hs₂, hs₁] at h
  rw [hs₁] at hmem
  refine ⟨lease, hmem, hid, ?_⟩
  rcases releaseLoadedLease_ok h with hsame | ⟨hunreleased, heffects⟩
  · exact Or.inl hsame
  · exact Or.inr ⟨heffects, hmem, hunreleased⟩

/-- A release that returns changes nothing, or releases one lease and drops its
claim. -/
theorem releaseLease_ok {db : Database} {s s' : Session Database}
    {principal : ClientPrincipal} {now : ℕ} {operationId leaseId : String}
    {result : LeaseReleaseResult}
    (h : releaseLease principal now operationId leaseId db s = (.ok result, s')) :
    s'.db = s.db ∨ ∃ lease, LeaseReleased s.db s'.db now lease := by
  obtain ⟨lease, -, -, ⟨-, hsame⟩ | hreleased⟩ := releaseLease_lease h
  · exact Or.inl hsame
  · exact Or.inr ⟨lease, hreleased⟩

end

end MailboxService
