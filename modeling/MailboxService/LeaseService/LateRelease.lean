import MailboxService.LeaseService.ReleaseTriples
import MailboxService.LeaseService.LeaseRuns
import MailboxService.ResourceLifecycle

/-!
# Late and repeated releases

Runs of acquires, reacquires, releases, replenishments, finalised releases and
passing time. A released lease is never written again, so a repeated release
finds it released and changes nothing. A successor on the same resource exists
only once the old lease is released: a resource that an unreleased lease holds
is claimed, and only an available or a new resource is handed out.
-/

namespace MailboxService

open Foundation

section

variable [Platform]

/-! ## Runs -/

inductive LifeEvent where
  | acquire (principal : ClientPrincipal) (decrypt : String → Except String String)
      (draws : String → Draws) (request : AcquireRequest) (shuffled : List String)
  | reacquire (principal : ClientPrincipal) (leaseId email : String) (ttlSeconds : ℕ)
      (clientTag purpose : Option String)
  | release (principal : ClientPrincipal) (operationId leaseId : String)
  | replenish (resourceId operationId instanceId externalResourceId primaryEmail : String)
      (encryptedSecret : Option String)
  | finalize (operationId resourceId : String) (expectedGeneration : ℕ)
      (outcome : ReleaseOutcome) (clearSecret : Bool)
  | advance (microseconds : ℕ)

namespace LeaseState

def live (s : LeaseState) : LifeEvent → LeaseState
  | .acquire principal decrypt draws request shuffled =>
      { s with
        db := ((acquireLease principal s.now decrypt draws request shuffled).transact s.db).2 }
  | .reacquire principal leaseId email ttlSeconds clientTag purpose =>
      { s with
        db := ((reacquireLeaseByEmail principal s.now leaseId email ttlSeconds clientTag
          purpose).transact s.db).2 }
  | .release principal operationId leaseId =>
      { s with db := ((releaseLease principal s.now operationId leaseId).transact s.db).2 }
  | .replenish resourceId operationId instanceId externalResourceId primaryEmail
      encryptedSecret =>
      { s with
        db := ((finalizeSmsbowerReplenishSuccess s.now resourceId operationId instanceId
          externalResourceId primaryEmail encryptedSecret).transact s.db).2 }
  | .finalize operationId resourceId expectedGeneration outcome clearSecret =>
      { s with
        db := (finalizeReleaseCas s.db s.now operationId resourceId expectedGeneration outcome
          clearSecret).2 }
  | .advance microseconds => { s with now := s.now + microseconds }

/-- What a release of one lease leaves of another one, with the resource it is
on, and of every operation. -/
structure Untouched (s s' : LeaseState) (next : Lease) : Prop where
  lease : next ∈ s'.db.leases
  claims : ∀ c ∈ s.db.leaseClaims, c.leaseId = next.id → c ∈ s'.db.leaseClaims
  resource : ∀ k, next.providerResourceId = some k →
    s'.db.providerResources.get? k = s.db.providerResources.get? k
  operations : ∀ o ∈ s.db.providerOperations, o ∈ s'.db.providerOperations

structure ReleasesSafe (s₀ : LeaseState) : Prop where
  /-- A lease that is released is never written again. -/
  final : ∀ pre mid, ∀ l ∈ (exec live s₀ pre).db.leases, l.releasedAt ≠ none →
    l ∈ (exec live s₀ (pre ++ mid)).db.leases
  /-- A release after one that returned changes nothing. -/
  repeated : ∀ pre mid principal operationId leaseId result db',
    (releaseLease principal (exec live s₀ pre).now operationId leaseId).transact
      (exec live s₀ pre).db = (.ok result, db') →
    ∀ principal' operationId',
      live (exec live s₀ (pre ++ .release principal operationId leaseId :: mid))
          (.release principal' operationId' leaseId) =
        exec live s₀ (pre ++ .release principal operationId leaseId :: mid)
  /-- A release of a lease leaves every lease alone that came after it. -/
  successor : ∀ pre mid, ∀ old ∈ (exec live s₀ pre).db.leases,
    ∀ next ∈ (exec live s₀ (pre ++ mid)).db.leases,
      (∀ l ∈ (exec live s₀ pre).db.leases, l.id ≠ next.id) → ∀ principal operationId,
      Untouched (exec live s₀ (pre ++ mid))
        (live (exec live s₀ (pre ++ mid)) (.release principal operationId old.id)) next

end LeaseState

/-! ## What an acquire or a reacquire leaves of the leases -/

/-- The leases grow: none is lost, a released one stays as it is, and a new one
is on a resource that no unreleased lease was on. -/
structure LeasesGrow (base d : Database) : Prop where
  inv : ResourceInv d
  released : ∀ l ∈ base.leases, l.releasedAt ≠ none → l ∈ d.leases
  rows : ∀ l ∈ base.leases, ∃ l' ∈ d.leases, l'.id = l.id ∧
    l'.providerResourceId = l.providerResourceId ∧ l'.releasedAt = l.releasedAt
  alone : ∀ l ∈ d.leases, (∀ l₀ ∈ base.leases, l₀.id ≠ l.id) →
    ∀ k, l.providerResourceId = some k → ∀ l₀ ∈ base.leases, ¬ l₀.holds k

theorem LeasesGrow.refl {db : Database} (h : ResourceInv db) : LeasesGrow db db :=
  ⟨h, fun _ hl _ => hl, fun l hl => ⟨l, hl, rfl, rfl, rfl⟩,
    fun l hl hnew => absurd rfl (hnew l hl)⟩

/-- Nothing that concerns leases and resources has changed. -/
theorem LeasesGrow.same {base d d' : Database} (h : LeasesGrow base d)
    (hleases : d'.leases = d.leases) (hresources : d'.providerResources = d.providerResources) :
    LeasesGrow base d' := by
  refine ⟨⟨?_, ?_⟩, ?_, ?_, ?_⟩
  · rw [hleases]
    exact h.inv.single
  · rw [hleases, hresources]
    exact h.inv.held
  · rw [hleases]
    exact h.released
  · rw [hleases]
    exact h.rows
  · rw [hleases]
    exact h.alone

theorem LeasesGrow.not_holds {base d : Database} (h : LeasesGrow base d) {k : String}
    (hfree : ∀ l ∈ d.leases, ¬ l.holds k) : ∀ l ∈ base.leases, ¬ l.holds k := by
  intro l hl hheld
  obtain ⟨l', hl', -, hresource, hreleased⟩ := h.rows l hl
  exact hfree l' hl' ⟨hreleased.trans hheld.1, hresource.trans hheld.2⟩

theorem LeasesGrow.insert {base d d' : Database} {lease : Lease} (h : LeasesGrow base d)
    (hinv : ResourceInv d') (hleases : ∀ l, l ∈ d'.leases ↔ l ∈ d.leases ∨ l = lease)
    (hfree : ∀ k, lease.providerResourceId = some k → ∀ l ∈ d.leases, ¬ l.holds k) :
    LeasesGrow base d' := by
  refine ⟨hinv, ?_, ?_, ?_⟩
  · intro l hl hreleased
    exact (hleases l).mpr (Or.inl (h.released l hl hreleased))
  · intro l hl
    obtain ⟨l', hl', heq⟩ := h.rows l hl
    exact ⟨l', (hleases l').mpr (Or.inl hl'), heq⟩
  · intro l hl hnew k hk
    rcases (hleases l).mp hl with hl | rfl
    · exact h.alone l hl hnew k hk
    · exact h.not_holds (hfree k hk)

/-- **Frame**: an acquire lets the leases grow. -/
theorem leasesGrow_frame (base : Database) (now : ℕ) : AcquireFrame (LeasesGrow base) now where
  touched _ hd := hd.same rfl rfl
  leased := by
    intro d d' lease hresource _ hd hins
    obtain ⟨hmem, -, hframe⟩ := insertLease?_eq_some hins
    refine hd.insert ⟨?_, ?_⟩ hmem ?_
    · intro l hl l' hl' k hheld hheld'
      have hold : ∀ {l}, l ∈ d'.leases → l.holds k → l ∈ d.leases := by
        intro l hl hheld
        rcases (hmem l).mp hl with hl | rfl
        · exact hl
        · rw [Lease.holds, hresource] at hheld
          cases hheld.2
      exact hd.inv.single l (hold hl hheld) l' (hold hl' hheld') k hheld hheld'
    · intro l hl k hheld
      rw [hframe]
      rcases (hmem l).mp hl with hl | rfl
      · exact hd.inv.held l hl k hheld
      · rw [Lease.holds, hresource] at hheld
        cases hheld.2
    · intro k hk
      rw [hresource] at hk
      cases hk
  claimed := by
    intro d d' lease r hr havailable hresource _ hd hins
    have hkeeps : providerResourceSchema.Keeps fun r : MailboxProviderResource => r.claim now :=
      fun _ => ⟨rfl, fun _ => rfl⟩
    obtain ⟨hmem, -, hframe⟩ := insertLease?_eq_some hins
    -- an available resource is held by no lease, so the new one is alone on it
    have hfree : ∀ l ∈ d.leases, ¬ l.holds r.id := by
      apply hd.inv.not_held hr
      rw [havailable]
      decide
    refine hd.insert (hd.inv.put (r := r.claim now) hfree hresource rfl ?_ ?_) hmem ?_
    · intro l hl
      exact ((hmem l).mp hl).symm
    · intro k
      rw [hframe]
      exact updateResource_get?_of_mem hkeeps hr k
    · intro k hk
      rw [hresource] at hk
      cases hk
      exact hfree
  provisioned := by
    intro d d₁ d' lease r hclaimed hresource _ hd hinsResource hins
    obtain ⟨hmem, -, hframe⟩ := insertLease?_eq_some hins
    unfold Database.insertProviderResource? at hinsResource
    rw [Option.map_eq_some_iff] at hinsResource
    obtain ⟨resources, hinsert, rfl⟩ := hinsResource
    -- a lease on it would need its row, which is new
    have hfree : ∀ l ∈ d.leases, ¬ l.holds r.id := by
      intro l hl hheld
      obtain ⟨r', hr', -⟩ := hd.inv.held l hl r.id hheld
      exact ((Table.insert?_eq_some hinsert).1 r' (Table.mem_of_get? hr')).1
        (Table.key_of_get? hr')
    refine hd.insert (hd.inv.put (r := r) hfree hresource hclaimed ?_ ?_) hmem ?_
    · intro l hl
      exact ((hmem l).mp hl).symm
    · intro k
      rw [hframe]
      show resources.get? k = _
      have hkey : providerResourceSchema.key r = k ↔ k = r.id := eq_comm
      rw [Table.get?_insert? hinsert]
      simp only [hkey]
    · intro k hk
      rw [hresource] at hk
      cases hk
      exact hfree
  claimsDeleted _ hd := hd.same rfl rfl
  claimInserted := by
    intro d d' claim hd hins
    obtain ⟨-, hframe⟩ := insertLeaseClaim?_eq_some hins
    exact hd.same (by rw [hframe]) (by rw [hframe])
  usageInserted := by
    intro d d' usage hd hins
    unfold Database.insertEmailSiteUsage? at hins
    rw [Option.map_eq_some_iff] at hins
    obtain ⟨usages, -, rfl⟩ := hins
    exact hd.same rfl rfl
  usageReactivated _ _ _ _ _ hd := hd.same rfl rfl

theorem leasesGrow_renewed {base d : Database} {now : ℕ} {old : Lease} (ttlSeconds : ℕ)
    (clientTag purpose : Option String) (hold : old ∈ d.leases)
    (hopen : old.releasedAt = none) (hd : LeasesGrow base d) :
    LeasesGrow base (d.updateLease old.id (fun l => l.renew now ttlSeconds clientTag purpose)
      (lease_keeps fun _ => rfl)) := by
  have hmem : ∀ l, l ∈ (d.updateLease old.id
      (fun l => l.renew now ttlSeconds clientTag purpose) (lease_keeps fun _ => rfl)).leases ↔
      (l ∈ d.leases ∧ l.id ≠ old.id) ∨ l = old.renew now ttlSeconds clientTag purpose :=
    fun l => mem_updateLease hold l
  -- a row of the new table comes from one that agrees on what matters
  have hback : ∀ {l}, l ∈ (d.updateLease old.id
      (fun l => l.renew now ttlSeconds clientTag purpose) (lease_keeps fun _ => rfl)).leases →
      ∃ l₀ ∈ d.leases, l₀.id = l.id ∧ l₀.providerResourceId = l.providerResourceId ∧
        l₀.releasedAt = l.releasedAt := by
    intro l hl
    rcases (hmem l).mp hl with ⟨hl, -⟩ | rfl
    · exact ⟨l, hl, rfl, rfl, rfl⟩
    · exact ⟨old, hold, rfl, rfl, rfl⟩
  have hforth : ∀ l₀ ∈ d.leases, ∃ l ∈ (d.updateLease old.id
      (fun l => l.renew now ttlSeconds clientTag purpose) (lease_keeps fun _ => rfl)).leases,
      l.id = l₀.id ∧ l.providerResourceId = l₀.providerResourceId ∧
        l.releasedAt = l₀.releasedAt := by
    intro l₀ hl₀
    by_cases hid : l₀.id = old.id
    · obtain rfl := lease_eq_of_id hl₀ hold hid
      exact ⟨_, (hmem _).mpr (Or.inr rfl), rfl, rfl, rfl⟩
    · exact ⟨l₀, (hmem l₀).mpr (Or.inl ⟨hl₀, hid⟩), rfl, rfl, rfl⟩
  refine ⟨⟨?_, ?_⟩, ?_, ?_, ?_⟩
  · intro l hl l' hl' k hheld hheld'
    obtain ⟨l₀, hl₀, hid, hresource, hreleased⟩ := hback hl
    obtain ⟨l₁, hl₁, hid', hresource', hreleased'⟩ := hback hl'
    have heq : l₀ = l₁ := hd.inv.single l₀ hl₀ l₁ hl₁ k
      ⟨hreleased.trans hheld.1, hresource.trans hheld.2⟩
      ⟨hreleased'.trans hheld'.1, hresource'.trans hheld'.2⟩
    exact lease_eq_of_id hl hl' (by rw [← hid, ← hid', heq])
  · intro l hl k hheld
    obtain ⟨l₀, hl₀, -, hresource, hreleased⟩ := hback hl
    exact hd.inv.held l₀ hl₀ k ⟨hreleased.trans hheld.1, hresource.trans hheld.2⟩
  · intro l hl hreleased
    refine (hmem l).mpr (Or.inl ⟨hd.released l hl hreleased, ?_⟩)
    intro hid
    have heq := lease_eq_of_id (hd.released l hl hreleased) hold hid
    rw [heq] at hreleased
    exact hreleased hopen
  · intro l hl
    obtain ⟨l', hl', hid, hresource, hreleased⟩ := hd.rows l hl
    obtain ⟨l'', hl'', hid', hresource', hreleased'⟩ := hforth l' hl'
    exact ⟨l'', hl'', hid'.trans hid, hresource'.trans hresource, hreleased'.trans hreleased⟩
  · intro l hl hnew k hk
    obtain ⟨l₀, hl₀, hid, hresource, -⟩ := hback hl
    exact hd.alone l₀ hl₀ (fun b hb => by rw [hid]; exact hnew b hb) k (hresource.trans hk)

/-! ## What a release leaves -/

/-- Every operation of the first database is in the second one. -/
def Database.KeepsOperations (db d : Database) : Prop :=
  ∀ o ∈ db.providerOperations, o ∈ d.providerOperations

theorem keepsOperations_frame (base : Database) (now : ℕ) :
    ReleaseFrame base.KeepsOperations now where
  leaseReleased _ hd := hd
  claimsDeleted _ hd := hd
  resourceUpdated _ _ _ hd := hd
  operationInserted := by
    intro d d' operation hd hins o ho
    unfold Database.insertProviderOperation? at hins
    rw [Option.map_eq_some_iff] at hins
    obtain ⟨operations, hinsert, rfl⟩ := hins
    exact (Table.mem_insert? hinsert).mpr (Or.inl (hd o ho))

theorem releaseLease_operations {db db' : Database} {principal : ClientPrincipal} {now : ℕ}
    {operationId leaseId : String} {result : LeaseReleaseResult}
    (h : (releaseLease principal now operationId leaseId).transact db = (.ok result, db')) :
    db.KeepsOperations db' :=
  ((keepsOperations_frame db now).releaseLease principal operationId leaseId).transact
    (fun _ ho => ho) h

/-! ## One step -/

/-- What every event leaves of the leases. -/
structure LeasesLive (db db' : Database) : Prop where
  inv : ResourceInv db'
  released : ∀ l ∈ db.leases, l.releasedAt ≠ none → l ∈ db'.leases
  rows : ∀ l ∈ db.leases, ∃ l' ∈ db'.leases, l'.id = l.id ∧
    l'.providerResourceId = l.providerResourceId
  alone : ∀ l ∈ db'.leases, (∀ l₀ ∈ db.leases, l₀.id ≠ l.id) →
    ∀ k, l.providerResourceId = some k → ∀ l₀ ∈ db.leases, ¬ l₀.holds k

theorem LeasesGrow.live {db db' : Database} (h : LeasesGrow db db') : LeasesLive db db' where
  inv := h.inv
  released := h.released
  rows l hl := by
    obtain ⟨l', hl', hid, hresource, -⟩ := h.rows l hl
    exact ⟨l', hl', hid, hresource⟩
  alone := h.alone

/-- An event that leaves the leases as they are. -/
theorem leasesLive_of_leases {db db' : Database} (hinv : ResourceInv db')
    (hleases : db'.leases = db.leases) : LeasesLive db db' := by
  refine ⟨hinv, ?_, ?_, ?_⟩
  · intro l hl _
    rwa [hleases]
  · intro l hl
    exact ⟨l, by rwa [hleases], rfl, rfl⟩
  · intro l hl hnew
    rw [hleases] at hl
    exact absurd rfl (hnew l hl)

theorem LeaseReleased.live {db db' : Database} {now : ℕ} {lease : Lease} (h : ResourceInv db)
    (hreleased : LeaseReleased db db' now lease) : LeasesLive db db' := by
  refine ⟨h.release hreleased, ?_, ?_, ?_⟩
  · intro l hl hnot
    refine (hreleased.mem_leases l).mpr (Or.inl ⟨hl, ?_⟩)
    intro hid
    rw [lease_eq_of_id hl hreleased.mem hid] at hnot
    exact hnot hreleased.unreleased
  · intro l hl
    by_cases hid : l.id = lease.id
    · obtain rfl := lease_eq_of_id hl hreleased.mem hid
      exact ⟨_, (hreleased.mem_leases _).mpr (Or.inr rfl), rfl, rfl⟩
    · exact ⟨l, (hreleased.mem_leases l).mpr (Or.inl ⟨hl, hid⟩), rfl, rfl⟩
  · intro l hl hnew
    rcases (hreleased.mem_leases l).mp hl with ⟨hl, -⟩ | rfl
    · exact absurd rfl (hnew l hl)
    · exact absurd rfl (hnew lease hreleased.mem)

namespace LeaseState

/-- **Step lemma.** -/
theorem live_leases (s : LeaseState) (e : LifeEvent) (h : ResourceInv s.db) :
    LeasesLive s.db (s.live e).db := by
  have hsame : LeasesLive s.db s.db := leasesLive_of_leases h rfl
  cases e with
  | acquire principal decrypt draws request shuffled =>
      simp only [live]
      rcases hx : (acquireLease principal s.now decrypt draws request shuffled).transact s.db
        with ⟨e | result, db'⟩
      · rw [Work.transact_error hx]
        exact hsame
      · exact (((leasesGrow_frame s.db s.now).acquireLease (.refl h) principal decrypt draws
          request shuffled).transact (.refl h) hx).live
  | reacquire principal leaseId email ttlSeconds clientTag purpose =>
      simp only [live]
      rcases hx : (reacquireLeaseByEmail principal s.now leaseId email ttlSeconds clientTag
        purpose).transact s.db with ⟨e | result, db'⟩
      · rw [Work.transact_error hx]
        exact hsame
      · exact (((leasesGrow_frame s.db s.now).reacquireLeaseByEmail
          (fun ttlSeconds clientTag purpose => leasesGrow_renewed ttlSeconds clientTag purpose)
          principal leaseId email ttlSeconds clientTag purpose).transact (.refl h) hx).live
  | release principal operationId leaseId =>
      simp only [live]
      rcases hx : (releaseLease principal s.now operationId leaseId).transact s.db
        with ⟨e | result, db'⟩
      · rw [Work.transact_error hx]
        exact hsame
      · rcases releaseLease_ok (Work.transact_eq_ok.mp hx) with heq | ⟨lease, hreleased⟩
        · rw [show db' = s.db from heq]
          exact hsame
        · exact hreleased.live h
  | replenish resourceId operationId instanceId externalResourceId primaryEmail secret =>
      simp only [live]
      rcases hx : (finalizeSmsbowerReplenishSuccess s.now resourceId operationId instanceId
        externalResourceId primaryEmail secret).transact s.db with ⟨e | id, db'⟩
      · rw [Work.transact_error hx]
        exact hsame
      · obtain ⟨hleases, hkept⟩ := finalizeSmsbowerReplenishSuccess_ok hx
        exact leasesLive_of_leases (h.replenish hleases hkept) hleases
  | finalize operationId resourceId expectedGeneration outcome clearSecret =>
      simp only [live]
      refine leasesLive_of_leases (h.finalize s.now operationId resourceId expectedGeneration
        outcome clearSecret) ?_
      -- a finalize writes no lease
      rcases finalizeReleaseCas_cases s.db s.now operationId resourceId expectedGeneration
        outcome clearSecret with hdb | ⟨-, -, -, -, hleases, -⟩
      · rw [hdb]
      · exact hleases
  | advance microseconds => exact hsame

/-! ## Runs of events -/

theorem start_resourceInv (db : Database) (now : ℕ) : ResourceInv (start db now).db := by
  refine ⟨?_, ?_⟩
  · intro l hl
    exact absurd hl (Table.not_mem_empty l)
  · intro l hl
    exact absurd hl (Table.not_mem_empty l)

/-- In every state of a run the resources are claimed by at most one lease. -/
theorem exec_live_inv (db : Database) (now : ℕ) (events : List LifeEvent) :
    ResourceInv (exec live (start db now) events).db :=
  exec_invariant (P := fun s => ResourceInv s.db) (fun s e h => (live_leases s e h).inv)
    (start_resourceInv db now) events

theorem exec_live_released {s : LeaseState} (h : ResourceInv s.db) (events : List LifeEvent)
    {l : Lease} (hl : l ∈ s.db.leases) (hreleased : l.releasedAt ≠ none) :
    l ∈ (exec live s events).db.leases := by
  have hinv := exec_invariant (P := fun s : LeaseState => ResourceInv s.db ∧ l ∈ s.db.leases)
    (fun t e ht => ⟨(live_leases t e ht.1).inv,
      (live_leases t e ht.1).released l ht.2 hreleased⟩)
    ⟨h, hl⟩ events
  exact hinv.2

theorem live_release_released {s : LeaseState} {principal : ClientPrincipal}
    {operationId leaseId : String} {result : LeaseReleaseResult} {db' : Database}
    (h : (releaseLease principal s.now operationId leaseId).transact s.db = (.ok result, db')) :
    ∃ l ∈ (s.live (.release principal operationId leaseId)).db.leases,
      l.id = leaseId ∧ l.releasedAt ≠ none := by
  simp only [live]
  rw [h]
  obtain ⟨lease, hmem, hid, hcase⟩ := releaseLease_lease (Work.transact_eq_ok.mp h)
  rcases hcase with ⟨hreleased, hsame⟩ | hreleased
  · refine ⟨lease, ?_, hid, hreleased⟩
    rw [show db' = s.db from hsame]
    exact hmem
  · refine ⟨{ lease with releasedAt := some s.now }, ?_, hid, by simp⟩
    exact (hreleased.mem_leases _).mpr (Or.inr rfl)

/-- A release of a lease that is released changes nothing, whether it returns
or raises. -/
theorem live_release_same {s : LeaseState} {l : Lease} (hl : l ∈ s.db.leases)
    (hreleased : l.releasedAt ≠ none) (principal : ClientPrincipal) (operationId : String) :
    s.live (.release principal operationId l.id) = s := by
  simp only [live]
  rcases hx : (releaseLease principal s.now operationId l.id).transact s.db
    with ⟨e | result, db'⟩
  · rw [Work.transact_error hx]
  · obtain ⟨lease, hmem, hid, hcase⟩ := releaseLease_lease (Work.transact_eq_ok.mp hx)
    obtain rfl := lease_eq_of_id hmem hl hid
    rcases hcase with ⟨-, hsame⟩ | hdone
    · rw [show db' = s.db from hsame]
    · exact absurd hdone.unreleased hreleased

/-! ## Successors -/

/-- A lease that came after the base and is on the resource of an old one is
there only once the old one is released. -/
structure Succession (base : Database) (old : Lease) (s : LeaseState) : Prop where
  inv : ResourceInv s.db
  kept : ∃ l ∈ s.db.leases, l.id = old.id ∧ l.providerResourceId = old.providerResourceId
  ended : ∀ next ∈ s.db.leases, (∀ l ∈ base.leases, l.id ≠ next.id) →
    ∀ k, old.providerResourceId = some k → next.providerResourceId = some k →
    ∀ l ∈ s.db.leases, l.id = old.id → l.releasedAt ≠ none

theorem Succession.step {base : Database} {old : Lease} {s : LeaseState}
    (h : Succession base old s) (e : LifeEvent) : Succession base old (s.live e) := by
  have hlive := s.live_leases e h.inv
  obtain ⟨row, hrow, hid, hresource⟩ := h.kept
  refine ⟨hlive.inv, ?_, ?_⟩
  · obtain ⟨row', hrow', hid', hresource'⟩ := hlive.rows row hrow
    exact ⟨row', hrow', hid'.trans hid, hresource'.trans hresource⟩
  · intro next hnext hlater k hold hk l hl hlid
    have hreleased : row.releasedAt ≠ none := by
      by_cases hnew : ∀ l₀ ∈ s.db.leases, l₀.id ≠ next.id
      · -- the event has created it, on a resource that nobody held
        intro hopen
        exact hlive.alone next hnext hnew k hk row hrow ⟨hopen, hresource.trans hold⟩
      · push Not at hnew
        obtain ⟨next₀, hnext₀, hsame⟩ := hnew
        obtain ⟨next', hnext', hid', hresource'⟩ := hlive.rows next₀ hnext₀
        obtain rfl := lease_eq_of_id hnext' hnext (hid'.trans hsame)
        refine h.ended next₀ hnext₀ ?_ k hold (hresource'.symm.trans hk) row hrow hid
        intro b hb
        rw [hsame]
        exact hlater b hb
    rw [lease_eq_of_id hl (hlive.released row hrow hreleased) (hlid.trans hid.symm)]
    exact hreleased

theorem Succession.untouched {base : Database} {old : Lease} {s : LeaseState}
    (h : Succession base old s) (hold : old ∈ base.leases) {next : Lease}
    (hnext : next ∈ s.db.leases) (hlater : ∀ l ∈ base.leases, l.id ≠ next.id)
    (principal : ClientPrincipal) (operationId : String) :
    Untouched s (s.live (.release principal operationId old.id)) next := by
  have hsame : Untouched s s next := ⟨hnext, fun _ hc _ => hc, fun _ _ => rfl, fun _ ho => ho⟩
  have hne : next.id ≠ old.id := (hlater old hold).symm
  simp only [live]
  rcases hx : (releaseLease principal s.now operationId old.id).transact s.db
    with ⟨e | result, db'⟩
  · rw [Work.transact_error hx]
    exact hsame
  · obtain ⟨lease, hmem, hid, hcase⟩ := releaseLease_lease (Work.transact_eq_ok.mp hx)
    rcases hcase with ⟨-, heq⟩ | hreleased
    · rw [show db' = s.db from heq]
      exact hsame
    · refine ⟨?_, ?_, ?_, releaseLease_operations hx⟩
      · refine (hreleased.mem_leases next).mpr (Or.inl ⟨hnext, ?_⟩)
        rw [hid]
        exact hne
      · intro c hc hcnext
        refine (hreleased.mem_claims c).mpr ⟨hc, ?_⟩
        rw [hcnext, hid]
        exact hne
      · intro k hk
        show db'.providerResources.get? k = s.db.providerResources.get? k
        rcases hreleased.resource with heq | ⟨resourceId, f, hf, hresource, heq, -⟩
        · rw [show db'.providerResources = s.db.providerResources from heq]
        · rw [show db'.providerResources = _ from heq]
          apply updateResource_get?_ne
          rintro rfl
          -- on one resource with an unreleased lease, it could not have come after it
          obtain ⟨row, hrow, hrid, hrow_resource⟩ := h.kept
          obtain rfl := lease_eq_of_id hrow hmem (hrid.trans hid.symm)
          exact h.ended next hnext hlater k (hrow_resource.symm.trans hresource) hk row hmem
            hid hreleased.unreleased

/-! ## Every run -/

/-- **Late and repeated releases are safe**, in every run from a database
without leases. -/
theorem releases_safe (db : Database) (now : ℕ) : ReleasesSafe (start db now) := by
  refine ⟨?_, ?_, ?_⟩
  · intro pre mid l hl hreleased
    rw [exec_append]
    exact exec_live_released (exec_live_inv db now pre) mid hl hreleased
  · intro pre mid principal operationId leaseId result db' hfirst principal' operationId'
    obtain ⟨l, hl, rfl, hreleased⟩ := live_release_released hfirst
    rw [exec_append, exec_cons]
    refine live_release_same (exec_live_released ?_ mid hl hreleased) hreleased _ _
    exact (live_leases _ _ (exec_live_inv db now pre)).inv
  · intro pre mid old hold next hnext hlater principal operationId
    rw [exec_append] at hnext ⊢
    have hstart : Succession (exec live (start db now) pre).db old
        (exec live (start db now) pre) := by
      refine ⟨exec_live_inv db now pre, ⟨old, hold, rfl, rfl⟩, ?_⟩
      intro next hnext hlater
      exact absurd rfl (hlater next hnext)
    have hrun := exec_invariant (P := Succession (exec live (start db now) pre).db old)
      (fun _ e h => h.step e) hstart mid
    exact hrun.untouched hold hnext hlater principal operationId

end LeaseState

end

end MailboxService
