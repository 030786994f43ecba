import MailboxService.Ascii
import MailboxService.Foundation.Run
import MailboxService.LeaseService.AcquireTriples
import MailboxService.LeaseService.ReleaseEffects
import MailboxService.OperatorSessions

/-!
# Paid activations

`replenish_one` buys an activation from SMSBower and stores it as a resource,
in a table that on-demand leases and operator sessions write to as well. A
stored resource is found again by its instance and external id, whatever its
provider type: a bought activation is kept exactly if whatever stands there is
an SMSBower resource of the same address.
-/

namespace MailboxService

open Foundation

structure SmsBowerReplenishOutcome where
  operationId : String
  status : ProviderOperationStatus
  primaryEmail : Option String := none
  externalResourceId : Option String := none
  errorClass : Option String := none
  providerResourceId : Option String := none
  deriving DecidableEq, Repr

/-- What the upstream answers: an activation, or an error class and whether
its outcome is unknown. -/
abbrev ActivationAnswer := Except (String × Bool) (String × String)

section

variable [Platform]

/-! ## Replenishing -/

def replenishOperation (now : ℕ) (operationId instanceId : String) :
    MailboxProviderOperation where
  id := operationId
  operationType := .replenish
  providerType := "smsbower_gmail"
  providerInstanceId := instanceId
  providerResourceId := none
  leaseId := none
  externalResourceId := none
  resourceGeneration := none
  expectedStateVersion := none
  status := .pending
  idempotencyKey := "replenish:" ++ instanceId ++ ":" ++ operationId
  createdAt := now
  updatedAt := now

def markRunning (now : ℕ) (operationId : String) : LeaseWork Unit :=
  Work.write fun db => db.updateOperation operationId
    (fun o => { o with
      status := .running
      attemptCount := o.attemptCount + 1
      updatedAt := now })
    (fun _ => ⟨rfl, fun _ => rfl⟩)

/-- The transaction of `replenish_one` before the remote call. -/
def beginReplenish (now : ℕ) (operationId instanceId : String) : LeaseWork String := do
  let snapshot ← createPendingOperation (replenishOperation now operationId instanceId)
  markRunning now snapshot.operationId
  pure snapshot.operationId

/-- `finalize_operation`, as a failed replenishment calls it; its summary
repeats the error class. -/
def finalizeOperation (now : ℕ) (operationId : String) (status : ProviderOperationStatus)
    (errorClass : String) : LeaseWork Unit :=
  Work.write fun db => db.updateOperation operationId
    (fun o => { o with
      status := status
      lastErrorClass := some errorClass
      resultSummary := none
      updatedAt := now })
    (fun _ => ⟨rfl, fun _ => rfl⟩)

def finalizeReplenishFailure (db : Database) (now : ℕ) (operationId errorClass : String)
    (unknown : Bool) : SmsBowerReplenishOutcome × Database :=
  let status := if unknown then ProviderOperationStatus.unknown else .failed
  ({ operationId, status, errorClass := some errorClass },
    ((finalizeOperation now operationId status errorClass).transact db).2)

/-- `replenish_one` after the remote call. -/
def finishReplenish (db : Database) (now : ℕ) (resourceId operationId instanceId : String)
    (encrypt : String → String → String) (answer : ActivationAnswer) :
    SmsBowerReplenishOutcome × Database :=
  match answer with
  | .error (errorClass, unknown) =>
      finalizeReplenishFailure db now operationId errorClass unknown
  | .ok (externalResourceId, email) =>
      let primaryEmail := Text.normalize email
      match (finalizeSmsbowerReplenishSuccess now resourceId operationId instanceId
          externalResourceId primaryEmail
          (some (encrypt externalResourceId primaryEmail))).transact db with
      | (.ok providerResourceId, db') =>
          ({ operationId, status := .succeeded
             primaryEmail := some primaryEmail
             externalResourceId := some externalResourceId
             providerResourceId := some providerResourceId }, db')
      | (.error _, _) => finalizeReplenishFailure db now operationId "finalize" true

/-! ## Runs -/

/-- One committed transaction of the flows that write provider resources. -/
inductive ProvisioningEvent where
  | replenishBegin (now : ℕ) (operationId instanceId : String)
  | replenishFinish (now : ℕ) (resourceId operationId instanceId : String)
      (encrypt : String → String → String) (answer : ActivationAnswer)
  | acquire (principal : ClientPrincipal) (now : ℕ)
      (decrypt : String → Except String String) (draws : String → Draws)
      (request : AcquireRequest) (shuffled : List String)
  | release (principal : ClientPrincipal) (now : ℕ) (operationId leaseId : String)
  | finalizeRelease (now : ℕ) (operationId resourceId : String) (expectedGeneration : ℕ)
      (outcome : ReleaseOutcome) (clearSecret : Bool)
  | operatorCreate (now : ℕ) (request : OperatorSessionRequest)
  | operatorRelease (now : ℕ) (leaseId : String)

/-- The database, and what the replenishments have reported so far. -/
structure ProvisioningState where
  db : Database
  outcomes : List SmsBowerReplenishOutcome

namespace ProvisioningState

def step (s : ProvisioningState) : ProvisioningEvent → ProvisioningState
  | .replenishBegin now operationId instanceId =>
      { s with db := ((beginReplenish now operationId instanceId).transact s.db).2 }
  | .replenishFinish now resourceId operationId instanceId encrypt answer =>
      let finished := finishReplenish s.db now resourceId operationId instanceId encrypt answer
      ⟨finished.2, finished.1 :: s.outcomes⟩
  | .acquire principal now decrypt draws request shuffled =>
      { s with
        db := ((acquireLease principal now decrypt draws request shuffled).transact s.db).2 }
  | .release principal now operationId leaseId =>
      { s with db := ((releaseLease principal now operationId leaseId).transact s.db).2 }
  | .finalizeRelease now operationId resourceId expectedGeneration outcome clearSecret =>
      { s with
        db := (finalizeReleaseCas s.db now operationId resourceId expectedGeneration outcome
          clearSecret).2 }
  | .operatorCreate now request =>
      { s with db := ((createOperatorSession now request).transact s.db).2 }
  | .operatorRelease now leaseId =>
      { s with db := ((releaseOperatorSession now leaseId).transact s.db).2 }

def Backed (db : Database) (o : SmsBowerReplenishOutcome) : Prop :=
  o.status = .succeeded → ∃ r ∈ db.providerResources,
    o.providerResourceId = some r.id ∧ r.providerType = "smsbower_gmail" ∧
      o.externalResourceId = some r.externalResourceId ∧
      o.primaryEmail = some r.primaryEmail

def AllBacked (s : ProvisioningState) : Prop := ∀ o ∈ s.outcomes, Backed s.db o

/-- Whatever stands under the instance and external id of an activation is an
SMSBower resource of that id and address. -/
def SlotIsOwn (s : ProvisioningState) : ProvisioningEvent → Prop
  | .replenishFinish _ _ _ instanceId _ (.ok (externalResourceId, email)) =>
      ∀ r ∈ s.db.providerResources, sqlEq r.providerInstanceId instanceId = true →
        sqlEq r.externalResourceId externalResourceId = true →
        r.providerType = "smsbower_gmail" ∧ r.externalResourceId = externalResourceId ∧
          r.primaryEmail = Text.normalize email
  | _ => True

end ProvisioningState

/-! ## Resources that are kept -/

structure MailboxProviderResource.Same (r r' : MailboxProviderResource) : Prop where
  id : r'.id = r.id
  providerType : r'.providerType = r.providerType
  externalResourceId : r'.externalResourceId = r.externalResourceId
  primaryEmail : r'.primaryEmail = r.primaryEmail

omit [Platform] in
theorem MailboxProviderResource.Same.refl (r : MailboxProviderResource) : r.Same r :=
  ⟨rfl, rfl, rfl, rfl⟩

omit [Platform] in
theorem MailboxProviderResource.Same.trans {a b c : MailboxProviderResource} (h : a.Same b)
    (h' : b.Same c) : a.Same c :=
  ⟨h'.id.trans h.id, h'.providerType.trans h.providerType,
    h'.externalResourceId.trans h.externalResourceId, h'.primaryEmail.trans h.primaryEmail⟩

def Database.KeepsResources (db d : Database) : Prop :=
  ∀ r ∈ db.providerResources, ∃ r' ∈ d.providerResources, r.Same r'

theorem Database.KeepsResources.refl (db : Database) : db.KeepsResources db :=
  fun r hr => ⟨r, hr, .refl r⟩

theorem Database.KeepsResources.trans {db₁ db₂ db₃ : Database} (h : db₁.KeepsResources db₂)
    (h' : db₂.KeepsResources db₃) : db₁.KeepsResources db₃ := by
  intro r hr
  obtain ⟨r', hr', hsame⟩ := h r hr
  obtain ⟨r'', hr'', hsame'⟩ := h' r' hr'
  exact ⟨r'', hr'', hsame.trans hsame'⟩

theorem Database.KeepsResources.of_eq {db d : Database}
    (h : d.providerResources = db.providerResources) : db.KeepsResources d := by
  intro r hr
  exact ⟨r, by rwa [h], .refl r⟩

theorem keepsResources_update {db : Database} {resourceId : String}
    {f : MailboxProviderResource → MailboxProviderResource}
    (hf : providerResourceSchema.Keeps f) (hsame : ∀ r : MailboxProviderResource, r.Same (f r)) :
    db.KeepsResources (db.updateResource resourceId f hf) := by
  intro r hr
  refine ⟨_, (mem_updateResource hf).mpr ⟨r, hr, rfl⟩, ?_⟩
  split
  · exact hsame r
  · exact .refl r

theorem mem_insertProviderResource? {db db' : Database} {resource : MailboxProviderResource}
    (h : db.insertProviderResource? resource = some db') (r : MailboxProviderResource) :
    r ∈ db'.providerResources ↔ r ∈ db.providerResources ∨ r = resource := by
  unfold Database.insertProviderResource? at h
  rw [Option.map_eq_some_iff] at h
  obtain ⟨resources, hins, rfl⟩ := h
  exact Table.mem_insert? hins

theorem keepsResources_insert {db db' : Database} {resource : MailboxProviderResource}
    (h : db.insertProviderResource? resource = some db') : db.KeepsResources db' :=
  fun r hr => ⟨r, (mem_insertProviderResource? h r).mpr (Or.inl hr), .refl r⟩

/-- An insertion into another table leaves the resources alone. -/
theorem insertLease?_resources {db db' : Database} {lease : Lease}
    (h : db.insertLease? lease = some db') : db'.providerResources = db.providerResources := by
  rw [(insertLease?_eq_some h).2.2]

/-- **Frame**: an acquire keeps the resources. -/
theorem keepsResources_frame (db : Database) (now : ℕ) :
    AcquireFrame db.KeepsResources now where
  touched _ hd := hd
  leased _ _ hd hins := hd.trans (.of_eq (insertLease?_resources hins))
  claimed _ _ _ _ hd hins := by
    refine hd.trans ((keepsResources_update _ fun r => ?_).trans
      (.of_eq (insertLease?_resources hins)))
    exact ⟨rfl, rfl, rfl, rfl⟩
  provisioned _ _ _ hd hresource hins :=
    hd.trans ((keepsResources_insert hresource).trans (.of_eq (insertLease?_resources hins)))
  claimsDeleted _ hd := hd
  claimInserted hd hins := by
    refine hd.trans (.of_eq ?_)
    rw [(insertLeaseClaim?_eq_some hins).2]
  usageInserted hd hins := by
    unfold Database.insertEmailSiteUsage? at hins
    rw [Option.map_eq_some_iff] at hins
    obtain ⟨usages, -, rfl⟩ := hins
    exact hd
  usageReactivated _ _ _ _ _ hd := hd

theorem keepsResources_released {db db' : Database} {now : ℕ} {lease : Lease}
    (h : ResourceReleased db db' now lease) : db.KeepsResources db' := by
  rcases h with h | ⟨resourceId, f, hf, -, hresources, rfl | rfl⟩
  · exact .of_eq h
  · exact (keepsResources_update hf fun r => ⟨rfl, rfl, rfl, rfl⟩).trans (.of_eq hresources)
  · exact (keepsResources_update hf fun r => ⟨rfl, rfl, rfl, rfl⟩).trans (.of_eq hresources)

theorem keepsResources_finalizeReleaseCas {db : Database} {now : ℕ}
    {operationId resourceId : String} {expectedGeneration : ℕ} {outcome : ReleaseOutcome}
    {clearSecret : Bool} :
    db.KeepsResources (finalizeReleaseCas db now operationId resourceId expectedGeneration
      outcome clearSecret).2 := by
  unfold finalizeReleaseCas
  split
  · exact .refl db
  · exact .refl db
  · rename_i resource operation _
    unfold finalizeReleaseWrite
    exact keepsResources_update
      (f := fun current =>
        resource.flush (resource.finalize now outcome clearSecret) current)
      (fun _ => ⟨rfl, fun _ => rfl⟩) fun r => ⟨rfl, rfl, rfl, rfl⟩

/-! ## Storing an activation -/

def MailboxProviderResource.inSlot (r : MailboxProviderResource)
    (instanceId externalResourceId : String) : Bool :=
  sqlEq r.providerInstanceId instanceId && sqlEq r.externalResourceId externalResourceId

theorem resourceSlot_unique {db : Database} {r q : MailboxProviderResource}
    {instanceId externalResourceId : String} (hr : r ∈ db.providerResources)
    (hq : q ∈ db.providerResources) (hrslot : r.inSlot instanceId externalResourceId = true)
    (hqslot : q.inSlot instanceId externalResourceId = true) : q = r := by
  unfold MailboxProviderResource.inSlot sqlEq at hrslot hqslot
  rw [Bool.and_eq_true, decide_eq_true_eq, decide_eq_true_eq] at hrslot hqslot
  refine Table.eq_of_clash hq hr ?_
  simp [providerResourceSchema, sqlEq, hrslot.1, hrslot.2, hqslot.1, hqslot.2]

section Finalize

variable {db : Database} {instanceId externalResourceId : String} (now : ℕ)
  (resourceId operationId primaryEmail : String) (encryptedSecret : Option String)

theorem finalizeReplenish_of_slot {r : MailboxProviderResource} (hr : r ∈ db.providerResources)
    (hslot : r.inSlot instanceId externalResourceId = true) :
    ∃ db', (finalizeSmsbowerReplenishSuccess now resourceId operationId instanceId
        externalResourceId primaryEmail encryptedSecret).transact db = (.ok r.id, db') ∧
      db'.providerResources = db.providerResources := by
  have hfind : db.providerResources.rows.find? (fun q => sqlEq q.providerInstanceId instanceId &&
      sqlEq q.externalResourceId externalResourceId) = some r := by
    cases hfind : db.providerResources.rows.find? fun q =>
        sqlEq q.providerInstanceId instanceId &&
          sqlEq q.externalResourceId externalResourceId with
    | none => exact absurd hslot (List.find?_eq_none.mp hfind r hr)
    | some q =>
        have hq : q.inSlot instanceId externalResourceId = true := by
          simpa [MailboxProviderResource.inSlot] using List.find?_some hfind
        rw [resourceSlot_unique hr (List.mem_of_find?_eq_some hfind) hslot hq]
  unfold finalizeSmsbowerReplenishSuccess Work.transact
  rw [Work.bind_of_ok (Work.read_of_usable rfl)]
  simp only [hfind]
  rw [Work.bind_of_ok (Work.write_of_usable rfl)]
  exact ⟨_, rfl, rfl⟩

/-- Where nothing is there the activation is stored, unless that fails. -/
theorem finalizeReplenish_of_free (hfree : ∀ r ∈ db.providerResources,
      r.inSlot instanceId externalResourceId = false) {id : String} {db' : Database}
    (h : (finalizeSmsbowerReplenishSuccess now resourceId operationId instanceId
      externalResourceId primaryEmail encryptedSecret).transact db = (.ok id, db')) :
    db.KeepsResources db' ∧ ∃ r ∈ db'.providerResources, r.id = id ∧
      r.providerType = "smsbower_gmail" ∧ r.externalResourceId = externalResourceId ∧
      r.primaryEmail = Text.normalize primaryEmail := by
  have hfind : db.providerResources.rows.find? (fun q => sqlEq q.providerInstanceId instanceId &&
      sqlEq q.externalResourceId externalResourceId) = none := by
    rw [List.find?_eq_none]
    intro r hr
    simpa [MailboxProviderResource.inSlot] using hfree r hr
  rw [Work.transact_eq_ok] at h
  unfold finalizeSmsbowerReplenishSuccess at h
  rw [Work.bind_of_ok (Work.read_of_usable rfl)] at h
  simp only [hfind] at h
  rw [Work.bind_eq_ok] at h
  obtain ⟨_, s₁, hflush, h⟩ := h
  obtain ⟨-, db₁, hins, rfl⟩ := Work.flush_eq_ok.mp hflush
  cases h
  refine ⟨fun r hr => ⟨r, (mem_insertProviderResource? hins r).mpr (Or.inl hr), .refl r⟩, ?_⟩
  exact ⟨_, (mem_insertProviderResource? hins _).mpr (Or.inr rfl), rfl, rfl, rfl, rfl⟩

end Finalize

/-! ## One step -/

theorem keepsResources_transact {ε α : Type} [SessionErrors ε] {db : Database}
    {x : Work Database ε α}
    (h : ∀ a db', x.transact db = (.ok a, db') → db.KeepsResources db') :
    db.KeepsResources (x.transact db).2 := by
  rcases hx : x.transact db with ⟨e | a, db'⟩
  · rw [Work.transact_error hx]
    exact .refl db
  · exact h a db' hx

theorem keepsResources_finalizeOperation {db : Database} {now : ℕ} {operationId : String}
    {status : ProviderOperationStatus} {errorClass : String} :
    db.KeepsResources ((finalizeOperation now operationId status errorClass).transact db).2 := by
  apply keepsResources_transact
  intro _ db' h
  obtain ⟨-, heq⟩ := Work.write_eq_ok.mp (Work.transact_eq_ok.mp h)
  cases heq
  exact .of_eq rfl

theorem keepsResources_beginReplenish {db : Database} {now : ℕ}
    {operationId instanceId : String} :
    db.KeepsResources ((beginReplenish now operationId instanceId).transact db).2 := by
  apply keepsResources_transact
  intro _ db' h
  have h := Work.transact_eq_ok.mp h
  simp only [beginReplenish, markRunning, Work.bind_eq_ok] at h
  obtain ⟨snapshot, s₁, hcreate, _, s₂, hrunning, h⟩ := h
  obtain ⟨-, hresources⟩ := createPendingOperation_ok rfl hcreate
  obtain ⟨-, rfl⟩ := Work.write_eq_ok.mp hrunning
  cases h
  exact .of_eq hresources

theorem keepsResources_operatorCreate {db : Database} {now : ℕ}
    {request : OperatorSessionRequest} :
    db.KeepsResources ((createOperatorSession now request).transact db).2 := by
  apply keepsResources_transact
  intro _ db' h
  have h := Work.transact_eq_ok.mp h
  unfold createOperatorSession at h
  split at h
  · cases h
  rw [Work.bind_of_ok (Work.read_of_usable rfl)] at h
  split at h
  · cases h
  simp only [Work.bind_eq_ok] at h
  obtain ⟨⟨result, address⟩, s₁, haddress, _, s₂, hresource, _, s₃, hlease, h⟩ := h
  obtain ⟨-, rfl⟩ := Prod.mk.inj haddress
  obtain ⟨-, db₁, hresourceIn, rfl⟩ := Work.flush_eq_ok.mp hresource
  obtain ⟨-, db₂, hleaseIn, rfl⟩ := Work.flush_eq_ok.mp hlease
  obtain ⟨-, heq⟩ := Prod.mk.inj h
  cases heq
  exact (keepsResources_insert hresourceIn).trans (.of_eq (insertLease?_resources hleaseIn))

theorem keepsResources_operatorRelease {db : Database} {now : ℕ} {leaseId : String} :
    db.KeepsResources ((releaseOperatorSession now leaseId).transact db).2 := by
  apply keepsResources_transact
  intro _ db' h
  have h := Work.transact_eq_ok.mp h
  unfold releaseOperatorSession at h
  rw [Work.bind_of_ok (Work.read_of_usable rfl), Work.bind_eq_ok] at h
  obtain ⟨lease, s₁, hload, h⟩ := h
  obtain ⟨-, rfl⟩ := Prod.mk.inj hload
  split at h
  · cases h
    exact .refl db
  · simp only [Work.bind_eq_ok] at h
    obtain ⟨_, s₂, hrelease, _, s₃, hretire, h⟩ := h
    obtain ⟨-, rfl⟩ := Work.write_eq_ok.mp hrelease
    obtain ⟨-, rfl⟩ := Work.write_eq_ok.mp hretire
    obtain ⟨-, heq⟩ := Work.write_eq_ok.mp h
    cases heq
    show db.KeepsResources (Database.deleteLeaseClaims _ _)
    unfold Database.retireResourceOf
    split
    · exact .of_eq rfl
    · exact keepsResources_update (f := fun r => r.retire now) (fun _ => ⟨rfl, fun _ => rfl⟩)
        fun r => ⟨rfl, rfl, rfl, rfl⟩

theorem ProvisioningState.Backed.mono {db d : Database} {o : SmsBowerReplenishOutcome}
    (h : ProvisioningState.Backed db o) (hkept : db.KeepsResources d) :
    ProvisioningState.Backed d o := by
  intro hsucceeded
  obtain ⟨r, hr, hid, htype, hexternal, hemail⟩ := h hsucceeded
  obtain ⟨r', hr', hsame⟩ := hkept r hr
  exact ⟨r', hr', by rw [hsame.id]; exact hid, by rw [hsame.providerType]; exact htype,
    by rw [hsame.externalResourceId]; exact hexternal, by rw [hsame.primaryEmail]; exact hemail⟩

theorem finalizeReplenishFailure_backed (db d : Database) {now : ℕ}
    {operationId errorClass : String} {unknown : Bool} :
    db.KeepsResources (finalizeReplenishFailure db now operationId errorClass unknown).2 ∧
      ProvisioningState.Backed d
        (finalizeReplenishFailure db now operationId errorClass unknown).1 := by
  refine ⟨keepsResources_finalizeOperation, ?_⟩
  intro hsucceeded
  cases unknown <;> cases hsucceeded

/-- **Finish lemma**: a replenishment keeps the resources, and what it reports
is backed exactly if the activation's slot is its own. -/
theorem finishReplenish_backed (db : Database) (now : ℕ)
    (resourceId operationId instanceId : String) (encrypt : String → String → String)
    (answer : ActivationAnswer) :
    let finished := finishReplenish db now resourceId operationId instanceId encrypt answer
    db.KeepsResources finished.2 ∧
      (ProvisioningState.Backed finished.2 finished.1 ↔
        ProvisioningState.SlotIsOwn ⟨db, []⟩ (.replenishFinish now resourceId operationId
          instanceId encrypt answer)) := by
  rcases answer with ⟨errorClass, unknown⟩ | ⟨externalResourceId, email⟩
  · obtain ⟨hkept, hbacked⟩ := finalizeReplenishFailure_backed _ (
      (finalizeReplenishFailure db now operationId errorClass unknown).2)
    exact ⟨hkept, iff_of_true hbacked trivial⟩
  by_cases hslot : ∃ r ∈ db.providerResources, r.inSlot instanceId externalResourceId = true
  · obtain ⟨r, hr, hrslot⟩ := hslot
    obtain ⟨db', htransact, hresources⟩ := finalizeReplenish_of_slot now resourceId operationId
      (Text.normalize email) (some (encrypt externalResourceId (Text.normalize email))) hr hrslot
    unfold finishReplenish
    simp only [htransact]
    refine ⟨.of_eq hresources, ?_⟩
    unfold ProvisioningState.Backed ProvisioningState.SlotIsOwn
    rw [hresources]
    constructor
    · intro hbacked q hq hinstance hexternal
      have hqr : q = r := resourceSlot_unique hr hq hrslot (by
        unfold MailboxProviderResource.inSlot
        rw [hinstance, hexternal, Bool.and_self])
      obtain ⟨r', hr', hid, htype, hexternal', hemail⟩ := hbacked rfl
      have hr'r : r' = r := Table.eq_of_key hr' hr (Option.some.inj hid).symm
      rw [hqr, ← hr'r]
      exact ⟨htype, (Option.some.inj hexternal').symm, (Option.some.inj hemail).symm⟩
    · intro hown _
      unfold MailboxProviderResource.inSlot at hrslot
      rw [Bool.and_eq_true] at hrslot
      obtain ⟨htype, hexternal, hemail⟩ := hown r hr hrslot.1 hrslot.2
      exact ⟨r, hr, rfl, htype, by rw [hexternal], by rw [hemail]⟩
  · -- the slot is free, so it is nobody else's
    have hfree : ∀ r ∈ db.providerResources, r.inSlot instanceId externalResourceId = false := by
      simpa using hslot
    have hown : ProvisioningState.SlotIsOwn ⟨db, []⟩ (.replenishFinish now resourceId
        operationId instanceId encrypt (.ok (externalResourceId, email))) := by
      intro r hr hinstance hexternal
      have hnot := hfree r hr
      unfold MailboxProviderResource.inSlot at hnot
      rw [hinstance, hexternal] at hnot
      cases hnot
    unfold finishReplenish
    simp only
    rcases htransact : (finalizeSmsbowerReplenishSuccess now resourceId operationId instanceId
      externalResourceId (Text.normalize email)
      (some (encrypt externalResourceId (Text.normalize email)))).transact db with ⟨e | id, db'⟩
    · obtain ⟨hkept, hbacked⟩ := finalizeReplenishFailure_backed db
        (finalizeReplenishFailure db now operationId "finalize" true).2
      exact ⟨hkept, iff_of_true hbacked hown⟩
    · obtain ⟨hkept, r, hr, hid, htype, hexternal, hemail⟩ :=
        finalizeReplenish_of_free now resourceId operationId _ _ hfree htransact
      refine ⟨hkept, iff_of_true ?_ hown⟩
      intro _
      rw [Text.normalize_normalize] at hemail
      exact ⟨r, hr, by rw [hid], htype, by rw [hexternal], by rw [hemail]⟩

namespace ProvisioningState

theorem step_keeps (s : ProvisioningState) (e : ProvisioningEvent) :
    s.db.KeepsResources (s.step e).db := by
  cases e with
  | replenishBegin now operationId instanceId => exact keepsResources_beginReplenish
  | replenishFinish now resourceId operationId instanceId encrypt answer =>
      exact (finishReplenish_backed s.db now resourceId operationId instanceId encrypt answer).1
  | acquire principal now decrypt draws request shuffled =>
      simp only [step]
      apply keepsResources_transact
      intro _ db' h
      exact ((keepsResources_frame s.db now).acquireLease (.refl s.db) principal decrypt draws
        request shuffled).transact (.refl s.db) h
  | release principal now operationId leaseId =>
      simp only [step]
      apply keepsResources_transact
      intro _ db' h
      rcases releaseLease_ok (Work.transact_eq_ok.mp h) with heq | ⟨lease, hreleased⟩
      · rw [show db' = s.db from heq]
        exact .refl s.db
      · exact keepsResources_released hreleased.resource
  | finalizeRelease now operationId resourceId expectedGeneration outcome clearSecret =>
      exact keepsResources_finalizeReleaseCas
  | operatorCreate now request =>
      simp only [step]
      exact keepsResources_operatorCreate
  | operatorRelease now leaseId =>
      simp only [step]
      exact keepsResources_operatorRelease

theorem AllBacked.kept {s : ProvisioningState} {d : Database} (h : s.AllBacked)
    (hkept : s.db.KeepsResources d) : AllBacked { s with db := d } :=
  fun o ho => (h o ho).mono hkept

/-- **Step lemma**: what was backed stays backed exactly if the event finds
its slot its own. -/
theorem step_backed (s : ProvisioningState) (e : ProvisioningEvent) (h : s.AllBacked) :
    (s.step e).AllBacked ↔ s.SlotIsOwn e := by
  have hkept := s.step_keeps e
  cases e with
  | replenishFinish now resourceId operationId instanceId encrypt answer =>
      obtain ⟨-, hnew⟩ := finishReplenish_backed s.db now resourceId operationId instanceId
        encrypt answer
      simp only [step] at hkept ⊢
      generalize finishReplenish s.db now resourceId operationId instanceId encrypt answer =
        finished at hnew hkept ⊢
      refine Iff.trans ?_ hnew
      constructor
      · intro hall
        exact hall finished.1 List.mem_cons_self
      · intro hnew o ho
        rcases List.mem_cons.mp ho with rfl | ho
        · exact hnew
        · exact h.kept hkept o ho
  | _ =>
      simp only [step] at hkept ⊢
      exact iff_of_true (h.kept hkept) trivial

/-- **Paid activations**: in a run of replenishments, leases and operator
sessions every reported success has its resource throughout exactly if every
replenishment that ends finds under its instance and external id nothing but an
SMSBower resource of the same id and address. -/
theorem activations_backed_iff (db : Database) (events : List ProvisioningEvent) :
    Throughout step AllBacked ⟨db, []⟩ events ↔ Meets step SlotIsOwn ⟨db, []⟩ events := by
  refine meets_iff_throughout (I := fun _ => True) (fun _ _ _ => trivial)
    (fun s e _ h => step_backed s e h) trivial ?_
  intro o ho
  cases ho

end ProvisioningState

end

/-! ## An on-demand mailbox with the id of an activation -/

section Sample

attribute [local instance] asciiPlatform

namespace ProvisioningState

def onDemandClient : ClientPrincipal where
  clientKeyId := "key"
  name := "client"
  scopes := ["mailboxes:acquire"]

def onDemandDraws (_ : String) : Draws where
  leaseId := "lease"
  resourceId := "resource"
  usageId := "usage"
  suffixes := []
  provision := .ok ⟨some "a@mo.example", some "42", none, "secret"⟩

def collidingRun : List ProvisioningEvent :=
  [.acquire onDemandClient 0 .ok onDemandDraws { mode := .mailRead, ttlSeconds := 60 }
     ["moemail"],
   .replenishBegin 1 "operation" "default",
   .replenishFinish 1 "bought" "operation" "default" (fun _ email => email)
     (.ok ("42", "user@gmail.com"))]

/-- The paid activation is reported as the mailbox of the lease. -/
theorem activation_lost :
    (∃ o ∈ (exec step ⟨{ }, []⟩ collidingRun).outcomes, o.status = .succeeded ∧
        o.primaryEmail = some "user@gmail.com" ∧ o.providerResourceId = some "resource") ∧
      ¬ Throughout step AllBacked ⟨{ }, []⟩ collidingRun := by
  have hreported : (exec step ⟨{ }, []⟩ collidingRun).outcomes =
      [{ operationId := "operation", status := .succeeded
         primaryEmail := some "user@gmail.com", externalResourceId := some "42"
         providerResourceId := some "resource" }] := by
    decide +kernel
  have hrows : ∀ r ∈ (exec step ⟨{ }, []⟩ collidingRun).db.providerResources.rows,
      r.providerType = "moemail" := by
    decide +kernel
  refine ⟨?_, ?_⟩
  · rw [hreported]
    exact ⟨_, List.mem_singleton_self _, rfl, rfl, rfl⟩
  · intro hbacked
    have hlast := hbacked.last
    unfold AllBacked at hlast
    rw [hreported] at hlast
    obtain ⟨r, hr, -, htype, -⟩ := hlast _ (List.mem_singleton_self _) rfl
    rw [hrows r hr] at htype
    exact absurd htype (by decide)

end ProvisioningState

end Sample

end MailboxService
