import MailboxService.LeaseService.ReleaseEffects
import MailboxService.LeaseService.LeaseRuns
import MailboxService.Foundation.Run

/-!
# The lifecycle of provider resources

Runs of replenishments, SMSBower acquires, releases and finalised releases,
each one committed transaction, with arbitrary outcomes and arbitrary, stale or
repeated, operation ids and generations.

The invariant says that an unreleased lease on a resource is the only one, and
that its resource is claimed. A claim takes an available resource, so there is
no unreleased lease to collide with; a release ends the lease before the
resource leaves its claimed state; a finalisation writes to a resource that is
releasing, so there is no lease on it. Where it writes a success the generation
grows; but it also reports to be applied where an earlier call has ended the
operation.
-/

namespace MailboxService

open Foundation

section

variable [Platform]

/-! ## Runs -/

inductive ResourceEvent where
  | replenish (now : ℕ)
      (resourceId operationId instanceId externalResourceId primaryEmail : String)
      (encryptedSecret : Option String)
  | acquire (principal : ClientPrincipal) (now : ℕ) (draws : Draws) (request : AcquireRequest)
      (usageSite : Option String)
  | release (principal : ClientPrincipal) (now : ℕ) (operationId leaseId : String)
  | finalize (now : ℕ) (operationId resourceId : String) (expectedGeneration : ℕ)
      (outcome : ReleaseOutcome) (clearSecret : Bool)

def resourceStep (db : Database) : ResourceEvent → Database
  | .replenish now resourceId operationId instanceId externalResourceId primaryEmail
      encryptedSecret =>
      ((finalizeSmsbowerReplenishSuccess now resourceId operationId instanceId
        externalResourceId primaryEmail encryptedSecret).transact db).2
  | .acquire principal now draws request usageSite =>
      ((acquireSmsbowerLease principal now draws request usageSite).transact db).2
  | .release principal now operationId leaseId =>
      ((releaseLease principal now operationId leaseId).transact db).2
  | .finalize now operationId resourceId expectedGeneration outcome clearSecret =>
      (finalizeReleaseCas db now operationId resourceId expectedGeneration outcome
        clearSecret).2

def Database.withoutResources (db : Database) : Database :=
  { db with leases := ∅, providerResources := ∅ }

/-! ## What is claimed -/

def Database.generationOf (db : Database) (resourceId : String) : ℕ :=
  ((db.providerResources.get? resourceId).map
    MailboxProviderResource.resourceGeneration).getD 0

def Lease.holds (l : Lease) (resourceId : String) : Prop :=
  l.releasedAt = none ∧ l.providerResourceId = some resourceId

structure ResourceExclusivity (db : Database) : Prop where
  /-- A resource has at most one unreleased lease. -/
  single : ∀ l ∈ db.leases, ∀ l' ∈ db.leases, ∀ resourceId, l.holds resourceId →
    l'.holds resourceId → l = l'
  /-- A resource with an unreleased lease is claimed. -/
  claimed : ∀ r ∈ db.providerResources, ∀ l ∈ db.leases, l.holds r.id →
    r.lifecycleState = .claimed
  /-- An available resource has no unreleased lease. -/
  available : ∀ r ∈ db.providerResources, r.lifecycleState = .available →
    ∀ l ∈ db.leases, ¬ l.holds r.id

/-- How one event may move the generations, and what a finalisation may touch. -/
structure GenerationSafe (db : Database) (e : ResourceEvent) : Prop where
  /-- No generation decreases. -/
  monotone : ∀ resourceId,
    db.generationOf resourceId ≤ (resourceStep db e).generationOf resourceId
  /-- A claim increases the generation of the resource it hands out. -/
  claim : ∀ principal now draws request usageSite result db',
    e = .acquire principal now draws request usageSite →
    (acquireSmsbowerLease principal now draws request usageSite).transact db =
      (.ok result, db') →
    ∃ resourceId, result.providerResourceId = some resourceId ∧
      db.generationOf resourceId < db'.generationOf resourceId
  /-- A success is written to a resource in the generation that the finalisation
  carries and on its way to release, and the generation grows. -/
  success : ∀ now operationId resourceId generation clearSecret r o,
    e = .finalize now operationId resourceId generation .succeeded clearSecret →
    db.providerResources.get? resourceId = some r → r.resourceGeneration = generation →
    (r.lifecycleState = .releasing ∨ r.lifecycleState = .releaseUnknown) →
    db.providerOperations.get? operationId = some o →
    (finalizeReleaseCas db now operationId resourceId generation .succeeded
        clearSecret).1 = true ∧
      db.generationOf resourceId < (resourceStep db e).generationOf resourceId
  /-- A finalisation changes only its own resource, and only while that is
  still in the generation it carries and being released. -/
  fence : ∀ now operationId resourceId generation outcome clearSecret,
    e = .finalize now operationId resourceId generation outcome clearSecret →
    ∀ k, (resourceStep db e).providerResources.get? k ≠ db.providerResources.get? k →
    k = resourceId ∧ ∃ r, db.providerResources.get? resourceId = some r ∧
      r.resourceGeneration = generation ∧
      (r.lifecycleState = .releasing ∨ r.lifecycleState = .releaseUnknown)

/-- A finalisation of a success that reports to be applied increases the
generation. -/
def SuccessGrows (db : Database) (e : ResourceEvent) : Prop :=
  ∀ now operationId resourceId generation clearSecret,
    e = .finalize now operationId resourceId generation .succeeded clearSecret →
    (finalizeReleaseCas db now operationId resourceId generation .succeeded
      clearSecret).1 = true →
    db.generationOf resourceId < (resourceStep db e).generationOf resourceId

/-- A success comes for an operation that has ended, while its resource is still in
the generation of the operation and no longer on its way to release. -/
def FinalizesAgain (db : Database) (e : ResourceEvent) : Prop :=
  ∃ now operationId resourceId generation clearSecret r o,
    e = .finalize now operationId resourceId generation .succeeded clearSecret ∧
    db.providerResources.get? resourceId = some r ∧ r.resourceGeneration = generation ∧
    ¬ (r.lifecycleState = .releasing ∨ r.lifecycleState = .releaseUnknown) ∧
    db.providerOperations.get? operationId = some o ∧
    (o.status = .succeeded ∨ o.status = .failed)

/-! ## The invariant -/

structure ResourceInv (db : Database) : Prop where
  single : ∀ l ∈ db.leases, ∀ l' ∈ db.leases, ∀ resourceId, l.holds resourceId →
    l'.holds resourceId → l = l'
  held : ∀ l ∈ db.leases, ∀ resourceId, l.holds resourceId →
    ∃ r, db.providerResources.get? resourceId = some r ∧ r.lifecycleState = .claimed

theorem get?_resource {db : Database} {r : MailboxProviderResource}
    (h : r ∈ db.providerResources) : db.providerResources.get? r.id = some r :=
  Table.get?_eq_some.mpr ⟨h, rfl⟩

theorem ResourceInv.not_held {db : Database} (h : ResourceInv db)
    {r : MailboxProviderResource} (hr : r ∈ db.providerResources)
    (hstate : r.lifecycleState ≠ .claimed) : ∀ l ∈ db.leases, ¬ l.holds r.id := by
  intro l hl hheld
  obtain ⟨r', hr', hclaimed⟩ := h.held l hl r.id hheld
  rw [get?_resource hr] at hr'
  cases hr'
  exact hstate hclaimed

theorem ResourceInv.exclusivity {db : Database} (h : ResourceInv db) :
    ResourceExclusivity db := by
  refine ⟨h.single, ?_, ?_⟩
  · intro r hr l hl hheld
    by_contra hstate
    exact h.not_held hr hstate l hl hheld
  · intro r hr hstate
    apply h.not_held hr
    rw [hstate]
    decide

/-! ## Resources under updates -/

theorem updateResource_get? {db : Database} {resourceId : String}
    {f : MailboxProviderResource → MailboxProviderResource}
    {hf : providerResourceSchema.Keeps f} :
    (db.updateResource resourceId f hf).providerResources.get? resourceId =
      (db.providerResources.get? resourceId).map f := by
  unfold Database.updateResource
  rw [Table.get?_updateWhere_key]
  rfl

theorem updateResource_get?_ne {db : Database} {resourceId k : String}
    {f : MailboxProviderResource → MailboxProviderResource}
    {hf : providerResourceSchema.Keeps f} (hne : k ≠ resourceId) :
    (db.updateResource resourceId f hf).providerResources.get? k =
      db.providerResources.get? k := by
  unfold Database.updateResource
  rw [Table.get?_updateWhere_ne hne]

theorem updateResource_get?_of_mem {db : Database} {r : MailboxProviderResource}
    {f : MailboxProviderResource → MailboxProviderResource}
    (hf : providerResourceSchema.Keeps f) (hr : r ∈ db.providerResources) (k : String) :
    (db.updateResource r.id f hf).providerResources.get? k =
      if k = r.id then some (f r) else db.providerResources.get? k := by
  by_cases hk : k = r.id
  · rw [if_pos hk, hk, updateResource_get?, get?_resource hr]
    rfl
  · rw [if_neg hk, updateResource_get?_ne hk]

theorem generationOf_congr {db db' : Database} {k : String}
    (h : db'.providerResources.get? k = db.providerResources.get? k) :
    db'.generationOf k = db.generationOf k := by
  unfold Database.generationOf
  rw [h]

theorem generationOf_update {db db' : Database} {resourceId : String}
    {f : MailboxProviderResource → MailboxProviderResource}
    {hf : providerResourceSchema.Keeps f}
    (h : db'.providerResources = (db.updateResource resourceId f hf).providerResources)
    (hgen : ∀ r, r.resourceGeneration ≤ (f r).resourceGeneration) (k : String) :
    db.generationOf k ≤ db'.generationOf k := by
  unfold Database.generationOf
  rw [h]
  by_cases hk : k = resourceId
  · subst hk
    rw [updateResource_get?]
    cases db.providerResources.get? k with
    | none => exact le_rfl
    | some r => exact hgen r
  · rw [updateResource_get?_ne hk]

/-! ## What one event keeps -/

/-- Between two databases, no lease takes a new hold and every claimed resource
that a lease still holds stays claimed. -/
theorem ResourceInv.of_fewer {db db' : Database} (h : ResourceInv db)
    (hleases : ∀ l ∈ db'.leases, ∀ k, l.holds k → l ∈ db.leases)
    (hclaimed : ∀ l ∈ db'.leases, ∀ k, l.holds k → ∀ r,
      db.providerResources.get? k = some r → r.lifecycleState = .claimed →
      ∃ r', db'.providerResources.get? k = some r' ∧ r'.lifecycleState = .claimed) :
    ResourceInv db' := by
  refine ⟨?_, ?_⟩
  · intro l hl l' hl' k hheld hheld'
    exact h.single l (hleases l hl k hheld) l' (hleases l' hl' k hheld') k hheld hheld'
  · intro l hl k hheld
    obtain ⟨r, hr, hstate⟩ := h.held l (hleases l hl k hheld) k hheld
    exact hclaimed l hl k hheld r hr hstate

/-! ### Replenishing -/

theorem finalizeSmsbowerReplenishSuccess_ok {db db' : Database} {now : ℕ}
    {resourceId operationId instanceId externalResourceId primaryEmail id : String}
    {encryptedSecret : Option String}
    (h : (finalizeSmsbowerReplenishSuccess now resourceId operationId instanceId
      externalResourceId primaryEmail encryptedSecret).transact db = (.ok id, db')) :
    db'.leases = db.leases ∧
      ∀ k r, db.providerResources.get? k = some r → db'.providerResources.get? k = some r := by
  rw [Work.transact_eq_ok] at h
  unfold finalizeSmsbowerReplenishSuccess at h
  rw [Work.bind_of_ok (Work.read_of_usable rfl)] at h
  cases hfind : db.providerResources.rows.find? fun r =>
      sqlEq r.providerInstanceId instanceId && sqlEq r.externalResourceId externalResourceId with
  | some existing =>
      simp only [hfind] at h
      rw [Work.bind_of_ok (Work.write_of_usable rfl)] at h
      cases h
      exact ⟨rfl, fun _ _ hk => hk⟩
  | none =>
      simp only [hfind] at h
      rw [Work.bind_eq_ok] at h
      obtain ⟨_, s₁, hflush, h⟩ := h
      obtain ⟨-, db₁, hins, rfl⟩ := Work.flush_eq_ok.mp hflush
      cases h
      unfold Database.insertProviderResource? at hins
      rw [Option.map_eq_some_iff] at hins
      obtain ⟨resources, hins, rfl⟩ := hins
      refine ⟨rfl, ?_⟩
      intro k r hk
      obtain ⟨hr, hkey⟩ := Table.get?_eq_some.mp hk
      exact Table.get?_eq_some.mpr ⟨(Table.mem_insert? hins).mpr (Or.inl hr), hkey⟩

theorem ResourceInv.replenish {db db' : Database} (h : ResourceInv db)
    (hleases : db'.leases = db.leases)
    (hkept : ∀ k r, db.providerResources.get? k = some r →
      db'.providerResources.get? k = some r) : ResourceInv db' := by
  apply h.of_fewer
  · intro l hl _ _
    rwa [hleases] at hl
  · intro _ _ k _ r hr hstate
    exact ⟨r, hkept k r hr, hstate⟩

theorem generationOf_kept {db db' : Database}
    (hkept : ∀ k r, db.providerResources.get? k = some r →
      db'.providerResources.get? k = some r) (k : String) :
    db.generationOf k ≤ db'.generationOf k := by
  cases hk : db.providerResources.get? k with
  | none =>
      have hzero : db.generationOf k = 0 := by
        unfold Database.generationOf
        rw [hk]
        rfl
      rw [hzero]
      exact Nat.zero_le _
  | some r => exact (generationOf_congr ((hkept k r hk).trans hk.symm)).ge

/-! ### Acquiring -/

theorem pickResource_available {db : Database} {preferredEmail : Option String}
    {r : MailboxProviderResource} (h : pickResource db preferredEmail = .ok r) :
    r ∈ db.providerResources ∧ r.lifecycleState = .available :=
  (pickResource_ok h).imp id fun hselectable =>
    (MailboxProviderResource.available_of_selectable hselectable).2

theorem acquireSmsbowerLease_result {db : Database} {s s' : Session Database}
    {principal : ClientPrincipal} {now : ℕ} {draws : Draws} {request : AcquireRequest}
    {usageSite : Option String} {result : LeaseAcquireResult} {r : MailboxProviderResource}
    (hpick : pickResource s.db request.preferredEmail = .ok r)
    (h : acquireSmsbowerLease principal now draws request usageSite db s =
      (.ok result, s')) : result.providerResourceId = some r.id := by
  unfold acquireSmsbowerLease at h
  simp only [Work.bind_eq_ok] at h
  obtain ⟨picked, s₁, hread, r', s₂, htake, _, s₃, -, _, s₄, -, _, s₅, -, h⟩ := h
  obtain ⟨-, rfl, -⟩ := Work.read_eq_ok.mp hread
  obtain ⟨hr', -⟩ := Prod.mk.inj htake
  rw [hpick] at hr'
  cases hr'
  cases h
  rfl

theorem ResourceAcquired.row {db db' : Database} {now : ℕ} {lease : Lease}
    {r : MailboxProviderResource} {address : String} (hr : r ∈ db.providerResources)
    (hgot : ResourceAcquired db db' now lease r address) (k : String) :
    db'.providerResources.get? k =
      if k = r.id then some (r.claim now) else db.providerResources.get? k := by
  have hresources := congrArg (fun t => Table.get? t k) hgot.resources
  exact hresources.trans (updateResource_get?_of_mem _ hr k)

theorem ResourceInv.put {db db' : Database} (h : ResourceInv db) {lease : Lease}
    {r : MailboxProviderResource} (hfree : ∀ l ∈ db.leases, ¬ l.holds r.id)
    (hlease : lease.providerResourceId = some r.id) (hstate : r.lifecycleState = .claimed)
    (hold : ∀ l ∈ db'.leases, l = lease ∨ l ∈ db.leases)
    (hrow : ∀ k, db'.providerResources.get? k =
      if k = r.id then some r else db.providerResources.get? k) : ResourceInv db' := by
  have hnew : ∀ {k}, lease.holds k → k = r.id := by
    intro k hheld
    exact Option.some.inj (hheld.2.symm.trans hlease)
  refine ⟨?_, ?_⟩
  · intro l hl l' hl' k hheld hheld'
    rcases hold l hl with rfl | hl <;> rcases hold l' hl' with rfl | hl'
    · rfl
    · rw [hnew hheld] at hheld'
      exact absurd hheld' (hfree l' hl')
    · rw [hnew hheld'] at hheld
      exact absurd hheld (hfree l hl)
    · exact h.single l hl l' hl' k hheld hheld'
  · intro l hl k hheld
    rw [hrow]
    rcases hold l hl with rfl | hl
    · rw [if_pos (hnew hheld)]
      exact ⟨r, rfl, hstate⟩
    · have hne : k ≠ r.id := by
        rintro rfl
        exact hfree l hl hheld
      rw [if_neg hne]
      exact h.held l hl k hheld

/-- A claimed resource had no lease, and gets exactly one. -/
theorem ResourceInv.acquire {db db' : Database} (h : ResourceInv db) {now : ℕ} {lease : Lease}
    {r : MailboxProviderResource} {address : String} (hr : r ∈ db.providerResources)
    (havailable : r.lifecycleState = .available)
    (hlease : lease.providerResourceId = some r.id)
    (hgot : ResourceAcquired db db' now lease r address) : ResourceInv db' := by
  have hfree : ∀ l ∈ db.leases, ¬ l.holds r.id := by
    apply h.not_held hr
    rw [havailable]
    decide
  refine h.put (r := r.claim now) hfree hlease rfl ?_ (hgot.row hr)
  intro l hl
  rcases (hgot.put.leases l).mp hl with ⟨hl, -⟩ | rfl
  · exact Or.inr hl
  · exact Or.inl rfl

theorem ResourceAcquired.generation {db db' : Database} {now : ℕ} {lease : Lease}
    {r : MailboxProviderResource} {address : String} (hr : r ∈ db.providerResources)
    (hgot : ResourceAcquired db db' now lease r address) :
    db.generationOf r.id < db'.generationOf r.id := by
  unfold Database.generationOf
  rw [hgot.row hr, if_pos rfl, get?_resource hr]
  exact Nat.lt_succ_self _

/-! ### Releasing -/

theorem ResourceInv.release {db db' : Database} (h : ResourceInv db) {now : ℕ} {lease : Lease}
    (hreleased : LeaseReleased db db' now lease) : ResourceInv db' := by
  have hkept : ∀ l ∈ db'.leases, ∀ k, l.holds k → l ∈ db.leases ∧ l.id ≠ lease.id := by
    intro l hl k hheld
    rcases (hreleased.mem_leases l).mp hl with hl | rfl
    · exact hl
    · cases hheld.1
  apply h.of_fewer
  · intro l hl k hheld
    exact (hkept l hl k hheld).1
  · intro l hl k hheld r hr hstate
    rcases hreleased.resource with hsame | ⟨resourceId, f, hf, hlease, hupdate, -⟩
    · rw [hsame]
      exact ⟨r, hr, hstate⟩
    · -- the released lease was the only one on its resource
      have hne : k ≠ resourceId := by
        rintro rfl
        obtain ⟨hl, hid⟩ := hkept l hl k hheld
        have heq : l = lease :=
          h.single l hl lease hreleased.mem k hheld ⟨hreleased.unreleased, hlease⟩
        exact hid (congrArg Lease.id heq)
      rw [hupdate, updateResource_get?_ne hne]
      exact ⟨r, hr, hstate⟩

theorem LeaseReleased.generation {db db' : Database} {now : ℕ} {lease : Lease}
    (hreleased : LeaseReleased db db' now lease) (k : String) :
    db.generationOf k ≤ db'.generationOf k := by
  rcases hreleased.resource with hsame | ⟨resourceId, f, hf, -, hupdate, hchange⟩
  · exact (generationOf_congr (by rw [hsame])).ge
  · apply generationOf_update hupdate
    intro r
    rcases hchange with rfl | rfl <;> exact le_rfl

/-! ### Finalising -/

omit [Platform] in
/-- Nothing comes between the read and the write of an atomic finalisation. -/
theorem flush_finalize (r : MailboxProviderResource) (now : ℕ) (outcome : ReleaseOutcome)
    (clearSecret : Bool) :
    r.flush (r.finalize now outcome clearSecret) r = r.finalize now outcome clearSecret := by
  cases outcome <;>
    simp only [MailboxProviderResource.flush, MailboxProviderResource.finalize,
      flushColumn_current]

/-- **Fencing lemma**: a finalisation changes nothing, or writes to its own
resource in the generation it carries, which is being released. -/
theorem finalizeReleaseCas_cases (db : Database) (now : ℕ) (operationId resourceId : String)
    (expectedGeneration : ℕ) (outcome : ReleaseOutcome) (clearSecret : Bool) :
    (finalizeReleaseCas db now operationId resourceId expectedGeneration outcome
      clearSecret).2 = db ∨
    ∃ r, db.providerResources.get? resourceId = some r ∧
      r.resourceGeneration = expectedGeneration ∧
      (r.lifecycleState = .releasing ∨ r.lifecycleState = .releaseUnknown) ∧
      (finalizeReleaseCas db now operationId resourceId expectedGeneration outcome
        clearSecret).2.leases = db.leases ∧
      ∀ k, (finalizeReleaseCas db now operationId resourceId expectedGeneration outcome
        clearSecret).2.providerResources.get? k =
          if k = resourceId then some (r.finalize now outcome clearSecret)
          else db.providerResources.get? k := by
  unfold finalizeReleaseCas finalizeReleaseRead
  cases hr : db.providerResources.get? resourceId with
  | none => exact Or.inl rfl
  | some r =>
      cases ho : db.providerOperations.get? operationId with
      | none => exact Or.inl rfl
      | some o =>
          simp only
          by_cases hgen : r.resourceGeneration = expectedGeneration
          · rw [if_neg (not_not.mpr hgen)]
            by_cases hstate : r.lifecycleState = .releasing ∨
                r.lifecycleState = .releaseUnknown
            · rw [if_pos hstate]
              refine Or.inr ⟨r, rfl, hgen, hstate, rfl, ?_⟩
              intro k
              have hid : r.id = resourceId := Table.key_of_get? hr
              have hkeeps : providerResourceSchema.Keeps fun current =>
                  r.flush (r.finalize now outcome clearSecret) current :=
                fun _ => ⟨rfl, fun _ => rfl⟩
              refine (updateResource_get?_of_mem hkeeps (Table.mem_of_get? hr) k).trans ?_
              rw [hid, flush_finalize]
            · rw [if_neg hstate]
              split_ifs <;> exact Or.inl rfl
          · rw [if_pos hgen]
            exact Or.inl rfl

theorem finalizeReleaseCas_of_releasing {db : Database} {operationId resourceId : String}
    {r : MailboxProviderResource} {o : MailboxProviderOperation}
    (hr : db.providerResources.get? resourceId = some r)
    (hstate : r.lifecycleState = .releasing ∨ r.lifecycleState = .releaseUnknown)
    (ho : db.providerOperations.get? operationId = some o) (now : ℕ)
    (outcome : ReleaseOutcome) (clearSecret : Bool) :
    finalizeReleaseCas db now operationId resourceId r.resourceGeneration outcome clearSecret =
      (true, finalizeReleaseWrite db now outcome clearSecret r o) := by
  unfold finalizeReleaseCas finalizeReleaseRead
  rw [hr, ho]
  dsimp only
  rw [if_neg (not_not.mpr rfl), if_pos hstate]

/-- A finalisation that reports to be applied has written, or has found an operation
that has ended. -/
theorem finalizeReleaseCas_reported {db : Database} {now : ℕ} {operationId resourceId : String}
    {expectedGeneration : ℕ} {outcome : ReleaseOutcome} {clearSecret : Bool}
    (h : (finalizeReleaseCas db now operationId resourceId expectedGeneration outcome
      clearSecret).1 = true) :
    ∃ r o, db.providerResources.get? resourceId = some r ∧
      r.resourceGeneration = expectedGeneration ∧
      db.providerOperations.get? operationId = some o ∧
      ((r.lifecycleState = .releasing ∨ r.lifecycleState = .releaseUnknown) ∨
        ¬ (r.lifecycleState = .releasing ∨ r.lifecycleState = .releaseUnknown) ∧
          (o.status = .succeeded ∨ o.status = .failed)) := by
  unfold finalizeReleaseCas finalizeReleaseRead at h
  cases hr : db.providerResources.get? resourceId with
  | none =>
      rw [hr] at h
      cases h
  | some r =>
      cases ho : db.providerOperations.get? operationId with
      | none =>
          rw [hr, ho] at h
          cases h
      | some o =>
          rw [hr, ho] at h
          dsimp only at h
          have hgen : r.resourceGeneration = expectedGeneration := by
            by_contra hother
            rw [if_pos hother] at h
            cases h
          refine ⟨r, o, rfl, hgen, rfl, ?_⟩
          rw [if_neg (not_not.mpr hgen)] at h
          by_cases hstate : r.lifecycleState = .releasing ∨ r.lifecycleState = .releaseUnknown
          · exact Or.inl hstate
          · refine Or.inr ⟨hstate, ?_⟩
            by_contra hopen
            rw [if_neg hstate, if_neg hopen] at h
            cases h

/-- An operation that has ended is reported as applied, and nothing is written. -/
theorem finalizeReleaseCas_again {db : Database} {operationId resourceId : String}
    {r : MailboxProviderResource} {o : MailboxProviderOperation}
    (hr : db.providerResources.get? resourceId = some r)
    (hstate : ¬ (r.lifecycleState = .releasing ∨ r.lifecycleState = .releaseUnknown))
    (ho : db.providerOperations.get? operationId = some o)
    (hended : o.status = .succeeded ∨ o.status = .failed) (now : ℕ)
    (outcome : ReleaseOutcome) (clearSecret : Bool) :
    finalizeReleaseCas db now operationId resourceId r.resourceGeneration outcome clearSecret =
      (true, db) := by
  unfold finalizeReleaseCas finalizeReleaseRead
  rw [hr, ho]
  dsimp only
  rw [if_neg (not_not.mpr rfl), if_neg hstate, if_pos hended]

omit [Platform] in
theorem finalize_generation (r : MailboxProviderResource) (now : ℕ) (outcome : ReleaseOutcome)
    (clearSecret : Bool) :
    r.resourceGeneration ≤ (r.finalize now outcome clearSecret).resourceGeneration := by
  cases outcome
  · exact Nat.le_succ _
  · exact le_rfl
  · exact le_rfl

theorem ResourceInv.finalize {db : Database} (h : ResourceInv db) (now : ℕ)
    (operationId resourceId : String) (expectedGeneration : ℕ) (outcome : ReleaseOutcome)
    (clearSecret : Bool) :
    ResourceInv (finalizeReleaseCas db now operationId resourceId expectedGeneration outcome
      clearSecret).2 := by
  rcases finalizeReleaseCas_cases db now operationId resourceId expectedGeneration outcome
    clearSecret with hsame | ⟨r, hr, -, hstate, hleases, hget⟩
  · rw [hsame]
    exact h
  · have hid : r.id = resourceId := Table.key_of_get? hr
    have hfree : ∀ l ∈ db.leases, ¬ l.holds resourceId := by
      rw [← hid]
      apply h.not_held (Table.mem_of_get? hr)
      rcases hstate with hstate | hstate <;> rw [hstate] <;> decide
    apply h.of_fewer
    · intro l hl _ _
      rwa [hleases] at hl
    · intro l hl k hheld r' hr' hclaimed
      rw [hleases] at hl
      have hne : k ≠ resourceId := by
        rintro rfl
        exact hfree l hl hheld
      rw [hget, if_neg hne]
      exact ⟨r', hr', hclaimed⟩

theorem finalizeReleaseCas_generation (db : Database) (now : ℕ)
    (operationId resourceId : String) (expectedGeneration : ℕ) (outcome : ReleaseOutcome)
    (clearSecret : Bool) (k : String) :
    db.generationOf k ≤ (finalizeReleaseCas db now operationId resourceId expectedGeneration
      outcome clearSecret).2.generationOf k := by
  rcases finalizeReleaseCas_cases db now operationId resourceId expectedGeneration outcome
    clearSecret with hsame | ⟨r, hr, -, -, -, hget⟩
  · rw [hsame]
  · unfold Database.generationOf
    rw [hget]
    by_cases hk : k = resourceId
    · rw [if_pos hk, hk, hr]
      exact finalize_generation r now outcome clearSecret
    · rw [if_neg hk]

/-! ## Every event -/

theorem resourceInv_step (db : Database) (e : ResourceEvent) (h : ResourceInv db) :
    ResourceInv (resourceStep db e) := by
  cases e with
  | replenish now resourceId operationId instanceId externalResourceId primaryEmail
      encryptedSecret =>
      show ResourceInv (Work.transact _ db).2
      rcases hrun : Work.transact _ db with ⟨e | id, db'⟩
      · rw [Work.transact_error hrun]
        exact h
      · obtain ⟨hleases, hkept⟩ := finalizeSmsbowerReplenishSuccess_ok hrun
        exact h.replenish hleases hkept
  | acquire principal now draws request usageSite =>
      show ResourceInv (Work.transact _ db).2
      rcases hrun : Work.transact _ db with ⟨e | result, db'⟩
      · rw [Work.transact_error hrun]
        exact h
      · obtain ⟨-, r, hpick, hgot⟩ :=
          acquireSmsbowerLease_ok (Work.transact_eq_ok.mp hrun) rfl
        obtain ⟨hmem, havailable⟩ := pickResource_available hpick
        exact h.acquire hmem havailable rfl hgot
  | release principal now operationId leaseId =>
      show ResourceInv (Work.transact _ db).2
      rcases hrun : Work.transact _ db with ⟨e | result, db'⟩
      · rw [Work.transact_error hrun]
        exact h
      · rcases releaseLease_ok (Work.transact_eq_ok.mp hrun) with hsame | ⟨lease, hreleased⟩
        · have hsame' : db' = db := hsame
          rw [hsame']
          exact h
        · exact h.release hreleased
  | finalize now operationId resourceId expectedGeneration outcome clearSecret =>
      exact h.finalize now operationId resourceId expectedGeneration outcome clearSecret

theorem generationOf_step (db : Database) (e : ResourceEvent) (k : String) :
    db.generationOf k ≤ (resourceStep db e).generationOf k := by
  cases e with
  | replenish now resourceId operationId instanceId externalResourceId primaryEmail
      encryptedSecret =>
      show _ ≤ (Work.transact _ db).2.generationOf k
      rcases hrun : Work.transact _ db with ⟨e | id, db'⟩
      · rw [Work.transact_error hrun]
      · exact generationOf_kept (finalizeSmsbowerReplenishSuccess_ok hrun).2 k
  | acquire principal now draws request usageSite =>
      show _ ≤ (Work.transact _ db).2.generationOf k
      rcases hrun : Work.transact _ db with ⟨e | result, db'⟩
      · rw [Work.transact_error hrun]
      · obtain ⟨-, r, -, hgot⟩ := acquireSmsbowerLease_ok (Work.transact_eq_ok.mp hrun) rfl
        exact generationOf_update hgot.resources (fun r => Nat.le_succ _) k
  | release principal now operationId leaseId =>
      show _ ≤ (Work.transact _ db).2.generationOf k
      rcases hrun : Work.transact _ db with ⟨e | result, db'⟩
      · rw [Work.transact_error hrun]
      · rcases releaseLease_ok (Work.transact_eq_ok.mp hrun) with hsame | ⟨lease, hreleased⟩
        · have hsame' : db' = db := hsame
          rw [hsame']
        · exact hreleased.generation k
  | finalize now operationId resourceId expectedGeneration outcome clearSecret =>
      exact finalizeReleaseCas_generation db now operationId resourceId expectedGeneration
        outcome clearSecret k

theorem generationOf_succeeded {db : Database} {operationId resourceId : String}
    {r : MailboxProviderResource} {o : MailboxProviderOperation}
    (hr : db.providerResources.get? resourceId = some r)
    (hstate : r.lifecycleState = .releasing ∨ r.lifecycleState = .releaseUnknown)
    (ho : db.providerOperations.get? operationId = some o) (now : ℕ) (clearSecret : Bool) :
    db.generationOf resourceId <
      (resourceStep db (.finalize now operationId resourceId r.resourceGeneration .succeeded
        clearSecret)).generationOf resourceId := by
  have hwritten : resourceStep db (.finalize now operationId resourceId r.resourceGeneration
      .succeeded clearSecret) = finalizeReleaseWrite db now .succeeded clearSecret r o :=
    congrArg Prod.snd (finalizeReleaseCas_of_releasing hr hstate ho now .succeeded clearSecret)
  have hid : r.id = resourceId := Table.key_of_get? hr
  have hkeeps : providerResourceSchema.Keeps fun current =>
      r.flush (r.finalize now .succeeded clearSecret) current := fun _ => ⟨rfl, fun _ => rfl⟩
  have hrow : (finalizeReleaseWrite db now .succeeded clearSecret r o).providerResources.get?
      resourceId = some (r.finalize now .succeeded clearSecret) := by
    refine (updateResource_get?_of_mem hkeeps (Table.mem_of_get? hr) resourceId).trans ?_
    rw [if_pos hid.symm, flush_finalize]
  unfold Database.generationOf
  rw [hwritten, hrow, hr]
  exact Nat.lt_succ_self _

/-- **A success that is reported is a success that is written**, unless the operation
had ended before. -/
theorem successGrows_iff (db : Database) (e : ResourceEvent) :
    SuccessGrows db e ↔ ¬ FinalizesAgain db e := by
  constructor
  · rintro hgrows ⟨now, operationId, resourceId, generation, clearSecret, r, o, rfl, hr, rfl,
      hstate, ho, hended⟩
    have hagain := finalizeReleaseCas_again hr hstate ho hended now .succeeded clearSecret
    have hless := hgrows now operationId resourceId r.resourceGeneration clearSecret rfl
      (congrArg Prod.fst hagain)
    have hsame : resourceStep db (.finalize now operationId resourceId r.resourceGeneration
        .succeeded clearSecret) = db := congrArg Prod.snd hagain
    rw [hsame] at hless
    exact lt_irrefl _ hless
  · rintro hnot now operationId resourceId generation clearSecret rfl hreported
    obtain ⟨r, o, hr, rfl, ho, hstate | ⟨hstate, hended⟩⟩ := finalizeReleaseCas_reported hreported
    · exact generationOf_succeeded hr hstate ho now clearSecret
    · exact absurd ⟨now, operationId, resourceId, _, clearSecret, r, o, rfl, hr, rfl, hstate, ho,
        hended⟩ hnot

theorem generationSafe_step (db : Database) (e : ResourceEvent) : GenerationSafe db e := by
  refine ⟨generationOf_step db e, ?_, ?_, ?_⟩
  · rintro principal now draws request usageSite result db' rfl hrun
    have hwork := Work.transact_eq_ok.mp hrun
    obtain ⟨-, r, hpick, hgot⟩ := acquireSmsbowerLease_ok hwork rfl
    exact ⟨r.id, acquireSmsbowerLease_result hpick hwork,
      hgot.generation (pickResource_available hpick).1⟩
  · rintro now operationId resourceId generation clearSecret r o rfl hr rfl hstate ho
    exact ⟨congrArg Prod.fst (finalizeReleaseCas_of_releasing hr hstate ho now .succeeded
      clearSecret), generationOf_succeeded hr hstate ho now clearSecret⟩
  · rintro now operationId resourceId generation outcome clearSecret rfl k hchanged
    rcases finalizeReleaseCas_cases db now operationId resourceId generation outcome
      clearSecret with hsame | ⟨r, hr, hgen, hstate, -, hget⟩
    · exact absurd (congrArg (fun d => d.providerResources.get? k) hsame) hchanged
    · refine ⟨?_, r, hr, hgen, hstate⟩
      by_contra hne
      have hk : (resourceStep db (.finalize now operationId resourceId generation outcome
        clearSecret)).providerResources.get? k = _ := hget k
      rw [if_neg hne] at hk
      exact hchanged hk

/-! ## Every run -/

/-- **Resource safety**: from a database without leases and resources, every
run keeps the leases on a resource exclusive and its lifecycle in step with
them, and every event of the run moves the generations forward only. A success
that is reported is one that moved the generation exactly if it does not come for
an operation that has ended. -/
theorem resources_safe_iff (db : Database) (events : List ResourceEvent) :
    Throughout resourceStep ResourceExclusivity db.withoutResources events ∧
      Meets resourceStep GenerationSafe db.withoutResources events ∧
      (Meets resourceStep SuccessGrows db.withoutResources events ↔
        Meets resourceStep (fun db e => ¬ FinalizesAgain db e) db.withoutResources events) := by
  have hstart : ResourceInv db.withoutResources := by
    refine ⟨?_, ?_⟩
    · intro l hl
      exact absurd hl (Table.not_mem_empty l)
    · intro l hl
      exact absurd hl (Table.not_mem_empty l)
  refine ⟨?_, meets_of_forall generationSafe_step _ _, ?_⟩
  · rw [throughout_iff]
    intro pre _ _
    exact (exec_invariant resourceInv_step hstart pre).exclusivity
  · exact meets_congr (fun db e h _ => resourceInv_step db e h)
      (fun db e _ => successGrows_iff db e) hstart

end

section Sample

attribute [local instance] asciiPlatform

/-- A resource is claimed and released; the first report says that the release has
failed, and the second one, of the same operation, that it has succeeded. -/
def finalizedTwice : List ResourceEvent :=
  [.replenish 1 "resource" "replenishment" "default" "7" "g@y.org" none,
   .acquire samplePrincipal 2 (sampleDraws "1" "smsbower_gmail")
     { mode := .mailRead, ttlSeconds := 60 } none,
   .release samplePrincipal 3 "operation" "smsbower_gmail1",
   .finalize 4 "operation" "resource" 1 .failed true,
   .finalize 5 "operation" "resource" 1 .succeeded true]

/-- **A success is reported and not written.** -/
theorem success_not_written :
    ¬ Meets resourceStep SuccessGrows ({ } : Database).withoutResources finalizedTwice := by
  rintro ⟨-, -, -, -, hlast, -⟩
  have hreported : (finalizeReleaseCas
      (exec resourceStep ({ } : Database).withoutResources (finalizedTwice.take 4))
      5 "operation" "resource" 1 .succeeded true).1 = true := by
    decide +kernel
  have hsame : (exec resourceStep ({ } : Database).withoutResources
      (finalizedTwice.take 4)).generationOf "resource" =
      (exec resourceStep ({ } : Database).withoutResources finalizedTwice).generationOf
        "resource" := by
    decide +kernel
  exact absurd hsame (hlast 5 "operation" "resource" 1 true rfl hreported).ne

end Sample

end MailboxService
