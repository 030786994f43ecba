import MailboxService.Foundation.RowLocks
import MailboxService.LeaseService.LeaseRuns

/-!
# Row locks of an acquire

The acquiring paths with the rows they lock and the calls they make. A mailbox
or a resource is picked by a locking read, every flush locks the rows that it
changes, and an on-demand provider is called in the middle of the request's
transaction.

A candidate that is stepped over does not end the transaction. The last section
is about what it leaves locked: the row it has picked, unless its session was
rolled back.
-/

namespace MailboxService

open Foundation

inductive HeldRow where
  | mailbox (id : String)
  | providerResource (id : String)
  | lease (id : String)
  | leaseClaim (leaseId : String)
  deriving DecidableEq, Repr

def Draws.requestsSent (draws : Draws) (requests : ℕ) : ℕ :=
  match draws.provision with
  | .error .noHook => 0
  | _ => requests

def requestsSent (draws : String → Draws) (requests : String → ℕ) (providerType : String) : ℕ :=
  if providerType ∈ onDemandProviderTypes then
    (draws providerType).requestsSent (requests providerType)
  else 0

section

variable [Platform]

/-- An on-demand candidate that gets an address. -/
def provisions (draws : String → Draws) (providerType : String) : Bool :=
  onDemandProviderTypes.contains providerType &&
    (provisionedAddress providerType (draws providerType).provision).toBool

/-- The selection of a Microsoft or an SMSBower candidate returns a row. -/
def Database.findsRow (db : Database) (now : ℕ) (request : AcquireRequest)
    (providerType : String) : Bool :=
  match requestedSite db request providerType with
  | .error _ => false
  | .ok siteCode =>
      if providerType ∈ onDemandProviderTypes then false
      else if providerType = "smsbower_gmail" then
        db.providerResources.any
          (MailboxProviderResource.selectable (normalizedPreferred request.preferredEmail))
      else
        db.mailboxes.any (db.mailboxSelectable now request.mode providerType
          request.wantsPlusAlias siteCode (normalizedPreferred request.preferredEmail))

instance : RowChanges Database HeldRow where
  changed before after :=
    (before.mailboxes.changedKeys after.mailboxes).map .mailbox ++
      (before.providerResources.changedKeys after.providerResources).map .providerResource ++
      (before.leases.changedKeys after.leases).map .lease ++
      (before.leaseClaims.changedKeys after.leaseClaims).map .leaseClaim

namespace Locking

abbrev LeaseWork (α : Type) := Traced Database LeaseError HeldRow α

/-! ## Claims -/

def rejectConflictingClaim (now : ℕ) (lease : Lease) (isPlus : Bool) : LeaseWork Unit :=
  if isPlus then pure ()
  else do
    let conflict ← Traced.read fun db => db.conflictingClaim now lease
    if conflict then Traced.raise .integrity else pure ()

def upsertLeaseClaim (now : ℕ) (lease : Lease) (allocatedEmail : Option String) :
    LeaseWork Unit := do
  Traced.write fun db => db.purgeExpiredClaims now lease
  let primaryEmail ← Traced.read fun db => db.primaryEmailOf lease
  Traced.write fun db => db.deleteLeaseClaims fun c => c.leaseId = lease.id
  rejectConflictingClaim now lease (isPlusAllocation lease.mode allocatedEmail primaryEmail)
  Traced.flush fun db => db.insertLeaseClaim? (claimOf lease allocatedEmail)

def unavailableOnIntegrity (x : LeaseWork Unit) : LeaseWork Unit :=
  x.handle fun
    | .integrity => some (Traced.raise (.leaseUnavailable "没有可用邮箱"))
    | _ => none

/-! ## Mailboxes and resources -/

/-- The mailboxes that the selection returns; the first one is taken. -/
def selectedMailboxes (db : Database) (now : ℕ) (request : AcquireRequest)
    (wantsPlusAlias : Bool) (siteCode : Option String) (providerType : String) :
    List HeldRow :=
  (db.mailboxes.select (db.mailboxSelectable now request.mode providerType wantsPlusAlias
    siteCode (normalizedPreferred request.preferredEmail))).map fun m => .mailbox m.id

/-- From the pick of a mailbox on. -/
def putMailboxLease (principal : ClientPrincipal) (now : ℕ)
    (decrypt : String → Except String String) (draws : Draws) (request : AcquireRequest)
    (siteCode : Option String) (picked : Except LeaseError (Mailbox × Option String)) :
    LeaseWork LeaseAcquireResult := do
  let (m, allocatedEmail) ← Traced.ofExcept picked
  let lease := mailboxLease principal now draws request m allocatedEmail
  Traced.flush fun db => (db.touchMailbox m.id now).insertLease? lease
  unavailableOnIntegrity (upsertLeaseClaim now lease allocatedEmail)
  Traced.ofWork (recordRequestedSite principal now draws lease siteCode)
  Traced.ofExcept (mailboxLeaseResult decrypt lease m siteCode)

def acquireMailboxLease (principal : ClientPrincipal) (now : ℕ)
    (decrypt : String → Except String String) (draws : Draws) (request : AcquireRequest)
    (wantsPlusAlias : Bool) (siteCode : Option String) (providerType : String) :
    LeaseWork LeaseAcquireResult := do
  let picked ← Traced.lockingRead
    (fun db => selectedMailboxes db now request wantsPlusAlias siteCode providerType)
    fun db => pickMailbox db now draws request wantsPlusAlias siteCode providerType
  putMailboxLease principal now decrypt draws request siteCode picked

def selectedResources (db : Database) (preferredEmail : Option String) : List HeldRow :=
  (db.providerResources.select
    (MailboxProviderResource.selectable (normalizedPreferred preferredEmail))).map fun r =>
      .providerResource r.id

/-- From the pick of a resource on. -/
def putResourceLease (principal : ClientPrincipal) (now : ℕ) (draws : Draws)
    (request : AcquireRequest) (usageSite : Option String)
    (picked : Except LeaseError MailboxProviderResource) : LeaseWork LeaseAcquireResult := do
  let resource ← Traced.ofExcept picked
  let address := Text.normalize resource.primaryEmail
  let lease := resourceLease principal now draws.leaseId request.ttlSeconds
    request.clientTag request.purpose "smsbower_gmail" resource.providerInstanceId
    resource.id address
  Traced.flush fun db =>
    (db.updateResource resource.id (fun r => r.claim now)
      (MailboxProviderResource.claim_keeps now)).insertLease? lease
  unavailableOnIntegrity (upsertLeaseClaim now lease (some address))
  Traced.ofWork (recordOptionalSite principal now draws.usageId usageSite address lease.id)
  pure (resourceLeaseResult lease resource.id address usageSite)

def acquireSmsbowerLease (principal : ClientPrincipal) (now : ℕ) (draws : Draws)
    (request : AcquireRequest) (usageSite : Option String) :
    LeaseWork LeaseAcquireResult := do
  let picked ← Traced.lockingRead (fun db => selectedResources db request.preferredEmail)
    fun db => pickResource db request.preferredEmail
  putResourceLease principal now draws request usageSite picked

/-! ## On-demand mailboxes -/

def insertOnDemandLease (now : ℕ) (resource : MailboxProviderResource) (lease : Lease)
    (address : String) : LeaseWork Unit := do
  Traced.flush fun db => db.insertProviderResource? resource
  Traced.flush fun db => db.insertLease? lease
  upsertLeaseClaim now lease (some address)

def rollbackOnIntegrity (x : LeaseWork Unit) : LeaseWork Unit :=
  x.handle fun
    | .integrity => some (do
        Traced.rollback
        Traced.raise (.leaseUnavailable "on-demand mailbox conflict; retry"))
    | _ => none

def putOnDemandLease (principal : ClientPrincipal) (now : ℕ) (draws : Draws)
    (request : AcquireRequest) (usageSite : Option String) (providerType : String)
    (result : OnDemandProvisionResult) (address : String) : LeaseWork LeaseAcquireResult := do
  let resource := onDemandResource providerType draws.resourceId now result address
  let lease := resourceLease principal now draws.leaseId request.ttlSeconds request.clientTag
    request.purpose providerType resource.providerInstanceId resource.id address
  rollbackOnIntegrity (insertOnDemandLease now resource lease address)
  Traced.ofWork (recordOptionalSite principal now draws.usageId usageSite address lease.id)
  pure (resourceLeaseResult lease resource.id address usageSite)

/-- The provider is called in the transaction of the request. -/
def acquireOnDemandLease (principal : ClientPrincipal) (now : ℕ) (draws : Draws)
    (requests : ℕ) (request : AcquireRequest) (usageSite : Option String)
    (providerType : String) : LeaseWork LeaseAcquireResult := do
  let (result, address) ← Traced.call (draws.requestsSent requests)
    (provisionedAddress providerType draws.provision)
  putOnDemandLease principal now draws request usageSite providerType result address

/-! ## One provider -/

def acquireSingleProviderLease (principal : ClientPrincipal) (now : ℕ)
    (decrypt : String → Except String String) (draws : Draws) (requests : ℕ)
    (request : AcquireRequest) (providerType : String) : LeaseWork LeaseAcquireResult := do
  if providerType ∉ allProviderTypes then
    Traced.raise (.providerUnsupported ("不支持的 provider：" ++ providerType))
  else if providerType ≠ defaultProviderType ∧ request.wantsPlusAlias = true then
    Traced.raise (.leaseMode "非 microsoft provider 本轮不支持 plus alias")
  else do
    let siteCode ← Traced.ofWork (resolveRequestedSite request providerType)
    if request.mode = .mailRead ∧ providerType ∈ onDemandProviderTypes then
      acquireOnDemandLease principal now draws requests request
        (if request.namesSite then siteCode else none) providerType
    else if providerType = "smsbower_gmail" then
      if request.mode ≠ .mailRead then
        Traced.raise (.leaseMode "smsbower_gmail 仅支持 mail_read")
      else acquireSmsbowerLease principal now draws request siteCode
    else
      acquireMailboxLease principal now decrypt draws request request.wantsPlusAlias siteCode
        providerType

/-- One candidate; `requests` says how many requests a provider is sent. -/
def attemptProvider (principal : ClientPrincipal) (now : ℕ)
    (decrypt : String → Except String String) (draws : String → Draws)
    (requests : String → ℕ) (request : AcquireRequest) (providerType : String) :
    LeaseWork LeaseAcquireResult :=
  acquireSingleProviderLease principal now decrypt (draws providerType)
    (requests providerType) (request.forProvider providerType) providerType

/-! ## What the traced paths do -/

theorem rejectConflictingClaim_work (now : ℕ) (lease : Lease) (isPlus : Bool) :
    (rejectConflictingClaim now lease isPlus).work =
      MailboxService.rejectConflictingClaim now lease isPlus := by
  unfold rejectConflictingClaim MailboxService.rejectConflictingClaim
  simp only [Traced.ite_work, Traced.bind_work, Traced.pure_work, Traced.read_work,
    Traced.raise_work]

theorem upsertLeaseClaim_work (now : ℕ) (lease : Lease) (a : Option String) :
    (upsertLeaseClaim now lease a).work = MailboxService.upsertLeaseClaim now lease a := by
  unfold upsertLeaseClaim MailboxService.upsertLeaseClaim
  simp only [Traced.bind_work, Traced.write_work, Traced.read_work, Traced.flush_work,
    rejectConflictingClaim_work]

theorem unavailableOnIntegrity_work (x : LeaseWork Unit) :
    (unavailableOnIntegrity x).work = MailboxService.unavailableOnIntegrity x.work := by
  refine Traced.handle_work x ?_
  intro e
  cases e <;> rfl

theorem rollbackOnIntegrity_work (x : LeaseWork Unit) :
    (rollbackOnIntegrity x).work = MailboxService.rollbackOnIntegrity x.work := by
  refine Traced.handle_work x ?_
  intro e
  cases e <;> rfl

theorem acquireMailboxLease_work (principal : ClientPrincipal) (now : ℕ)
    (decrypt : String → Except String String) (draws : Draws) (request : AcquireRequest)
    (wantsPlusAlias : Bool) (siteCode : Option String) (providerType : String) :
    (acquireMailboxLease principal now decrypt draws request wantsPlusAlias siteCode
      providerType).work =
      MailboxService.acquireMailboxLease principal now decrypt draws request wantsPlusAlias
        siteCode providerType := by
  unfold acquireMailboxLease MailboxService.acquireMailboxLease putMailboxLease
  simp only [Traced.bind_work, Traced.lockingRead_work, Traced.ofExcept_work,
    Traced.flush_work, Traced.ofWork_work, unavailableOnIntegrity_work, upsertLeaseClaim_work]

theorem acquireSmsbowerLease_work (principal : ClientPrincipal) (now : ℕ) (draws : Draws)
    (request : AcquireRequest) (usageSite : Option String) :
    (acquireSmsbowerLease principal now draws request usageSite).work =
      MailboxService.acquireSmsbowerLease principal now draws request usageSite := by
  unfold acquireSmsbowerLease MailboxService.acquireSmsbowerLease putResourceLease
  simp only [Traced.bind_work, Traced.lockingRead_work, Traced.ofExcept_work,
    Traced.flush_work, Traced.ofWork_work, Traced.pure_work, unavailableOnIntegrity_work,
    upsertLeaseClaim_work]

theorem acquireOnDemandLease_work (principal : ClientPrincipal) (now : ℕ) (draws : Draws)
    (requests : ℕ) (request : AcquireRequest) (usageSite : Option String)
    (providerType : String) :
    (acquireOnDemandLease principal now draws requests request usageSite providerType).work =
      MailboxService.acquireOnDemandLease principal now draws request usageSite
        providerType := by
  unfold acquireOnDemandLease MailboxService.acquireOnDemandLease putOnDemandLease
    insertOnDemandLease MailboxService.insertOnDemandLease
  simp only [Traced.bind_work, Traced.call_work, Traced.flush_work, Traced.ofWork_work,
    Traced.pure_work, rollbackOnIntegrity_work, upsertLeaseClaim_work]

theorem acquireSingleProviderLease_work (principal : ClientPrincipal) (now : ℕ)
    (decrypt : String → Except String String) (draws : Draws) (requests : ℕ)
    (request : AcquireRequest) (providerType : String) :
    (acquireSingleProviderLease principal now decrypt draws requests request
      providerType).work =
      MailboxService.acquireSingleProviderLease principal now decrypt draws request
        providerType := by
  unfold acquireSingleProviderLease MailboxService.acquireSingleProviderLease
  simp only [Traced.ite_work, Traced.bind_work, Traced.raise_work, Traced.ofWork_work,
    acquireOnDemandLease_work, acquireSmsbowerLease_work, acquireMailboxLease_work]

/-- **The trace is the program's**: what a traced candidate does to the session
is what the candidate does. -/
theorem attemptProvider_work (principal : ClientPrincipal) (now : ℕ)
    (decrypt : String → Except String String) (draws : String → Draws)
    (requests : String → ℕ) (request : AcquireRequest) (providerType : String) :
    (attemptProvider principal now decrypt draws requests request providerType).work =
      MailboxService.attemptProvider principal now decrypt draws request providerType :=
  acquireSingleProviderLease_work principal now decrypt _ _ _ providerType

/-! ## Paths without a call -/

theorem upsertLeaseClaim_steady (now : ℕ) (lease : Lease) (a : Option String) :
    (upsertLeaseClaim now lease a).Steady := by
  have hreject : ∀ isPlus, (rejectConflictingClaim now lease isPlus).Steady := by
    intro isPlus
    unfold rejectConflictingClaim
    split
    · exact Traced.steady_pure ()
    · refine (Traced.steady_read _).bind fun conflict => ?_
      split
      · exact Traced.steady_raise _
      · exact Traced.steady_pure ()
  unfold upsertLeaseClaim
  refine (Traced.steady_write _).bind fun _ => ?_
  refine (Traced.steady_read _).bind fun primaryEmail => ?_
  refine (Traced.steady_write _).bind fun _ => ?_
  exact (hreject _).bind fun _ => Traced.steady_flush _

theorem unavailableOnIntegrity_steady {x : LeaseWork Unit} (hx : x.Steady) :
    (unavailableOnIntegrity x).Steady := by
  refine hx.handle ?_
  intro e y hy
  cases e <;> cases hy
  exact Traced.steady_raise _

/-- The optional and the requested site are left alone where no statement is
taken. -/
theorem recordEmailSiteUsage_stuck {principal : ClientPrincipal} {now : ℕ}
    {usageId email site leaseId : String} {mailboxId : Option String} (db : Database)
    {s : Session Database} (hs : s.usable = false) :
    (recordEmailSiteUsage principal now usageId email site mailboxId leaseId db s).2 = s := by
  unfold recordEmailSiteUsage
  rw [Work.bind_of_error (Work.read_of_unusable hs)]

theorem recordRequestedSite_steady (principal : ClientPrincipal) (now : ℕ) (draws : Draws)
    (lease : Lease) (siteCode : Option String) :
    (Traced.ofWork (recordRequestedSite principal now draws lease siteCode) :
      LeaseWork Unit).Steady := by
  refine Traced.steady_ofWork fun db s hs => ?_
  unfold recordRequestedSite
  cases siteCode with
  | none => rfl
  | some code =>
      cases lease.allocatedEmail with
      | none => rfl
      | some a =>
          dsimp only
          split
          · exact recordEmailSiteUsage_stuck db hs
          · rfl

theorem recordOptionalSite_steady (principal : ClientPrincipal) (now : ℕ) (usageId : String)
    (usageSite : Option String) (address leaseId : String) :
    (Traced.ofWork (recordOptionalSite principal now usageId usageSite address leaseId) :
      LeaseWork Unit).Steady := by
  refine Traced.steady_ofWork fun db s hs => ?_
  unfold recordOptionalSite
  split
  · rfl
  · have hraises : recordResolvedSite principal now usageId (usageSite.getD "") address leaseId
        db s = (.error .pendingRollback, s) := by
      unfold recordResolvedSite
      exact Work.bind_of_error (Work.read_of_unusable hs)
    rw [Work.handle_of_some hraises rfl]
    rfl

theorem putMailboxLease_steady (principal : ClientPrincipal) (now : ℕ)
    (decrypt : String → Except String String) (draws : Draws) (request : AcquireRequest)
    (siteCode : Option String) (picked : Except LeaseError (Mailbox × Option String)) :
    (putMailboxLease principal now decrypt draws request siteCode picked).Steady := by
  unfold putMailboxLease
  refine (Traced.steady_ofExcept picked).bind fun taken => ?_
  refine (Traced.steady_flush _).bind fun _ => ?_
  refine (unavailableOnIntegrity_steady (upsertLeaseClaim_steady _ _ _)).bind fun _ => ?_
  exact (recordRequestedSite_steady _ _ _ _ _).bind fun _ => Traced.steady_ofExcept _

theorem putResourceLease_steady (principal : ClientPrincipal) (now : ℕ) (draws : Draws)
    (request : AcquireRequest) (usageSite : Option String)
    (picked : Except LeaseError MailboxProviderResource) :
    (putResourceLease principal now draws request usageSite picked).Steady := by
  unfold putResourceLease
  refine (Traced.steady_ofExcept picked).bind fun resource => ?_
  refine (Traced.steady_flush _).bind fun _ => ?_
  refine (unavailableOnIntegrity_steady (upsertLeaseClaim_steady _ _ _)).bind fun _ => ?_
  exact (recordOptionalSite_steady _ _ _ _ _ _).bind fun _ => Traced.steady_pure _

theorem insertOnDemandLease_steady (now : ℕ) (resource : MailboxProviderResource)
    (lease : Lease) (address : String) :
    (insertOnDemandLease now resource lease address).Steady := by
  unfold insertOnDemandLease
  refine (Traced.steady_flush _).bind fun _ => ?_
  exact (Traced.steady_flush _).bind fun _ => upsertLeaseClaim_steady _ _ _

theorem putOnDemandLease_silent (principal : ClientPrincipal) (now : ℕ) (draws : Draws)
    (request : AcquireRequest) (usageSite : Option String) (providerType : String)
    (result : OnDemandProvisionResult) (address : String) :
    (putOnDemandLease principal now draws request usageSite providerType result
      address).Silent := by
  have hrollback : ∀ x : LeaseWork Unit, x.Silent → (rollbackOnIntegrity x).Silent := by
    intro x hx
    refine hx.handle ?_
    intro e y hy
    cases e <;> cases hy
    exact Traced.silent_rollback.bind fun _ => (Traced.steady_raise _).silent
  unfold putOnDemandLease
  refine (hrollback _ (insertOnDemandLease_steady _ _ _ _).silent).bind fun _ => ?_
  exact (recordOptionalSite_steady _ _ _ _ _ _).silent.bind fun _ =>
    (Traced.steady_pure _).silent

/-! ## What a candidate does to the log -/

theorem requestedSite_session (request : AcquireRequest) (providerType : String)
    (db : Database) (s : Session Database) :
    (resolveRequestedSite request providerType db s).2 = s := by
  by_cases hs : s.usable = true
  · rw [resolveRequestedSite_of_usable hs]
  · rw [Bool.not_eq_true] at hs
    unfold resolveRequestedSite
    split
    · split
      · rw [Work.bind_of_error (Work.read_of_unusable hs)]
      · split <;> rfl
    · rfl

section Candidate

variable {principal : ClientPrincipal} {now : ℕ} {decrypt : String → Except String String}
  {draws : String → Draws} {requests : String → ℕ} {request : AcquireRequest} {p : String}
  {db : Database} {s s' : Session Database} {l : LockLog HeldRow}

theorem attemptProvider_steady (hp : p ∉ onDemandProviderTypes) :
    (attemptProvider principal now decrypt draws requests request p).Steady := by
  have hsite : (Traced.ofWork (resolveRequestedSite (request.forProvider p) p) :
      LeaseWork (Option String)).Steady :=
    Traced.steady_ofWork fun db s _ => requestedSite_session _ _ db s
  unfold attemptProvider acquireSingleProviderLease
  split
  · exact Traced.steady_raise _
  split
  · exact Traced.steady_raise _
  refine hsite.bind fun siteCode => ?_
  rw [if_neg fun hboth => hp hboth.2]
  split
  · split
    · exact Traced.steady_raise _
    · exact (Traced.steady_lockingRead _ _).bind (putResourceLease_steady _ _ _ _ _)
  · exact (Traced.steady_lockingRead _ _).bind (putMailboxLease_steady _ _ _ _ _ _)

theorem selectedMailboxes_eq_nil {wantsPlusAlias : Bool} {siteCode : Option String}
    {request : AcquireRequest} :
    selectedMailboxes db now request wantsPlusAlias siteCode p = [] ↔
      db.mailboxes.any (db.mailboxSelectable now request.mode p wantsPlusAlias siteCode
        (normalizedPreferred request.preferredEmail)) = false := by
  unfold selectedMailboxes Table.select Table.any
  rw [List.map_eq_nil_iff, List.filter_eq_nil_iff, List.any_eq_false]

theorem selectedResources_eq_nil {preferredEmail : Option String} :
    selectedResources db preferredEmail = [] ↔
      db.providerResources.any
        (MailboxProviderResource.selectable (normalizedPreferred preferredEmail)) = false := by
  unfold selectedResources Table.select Table.any
  rw [List.map_eq_nil_iff, List.filter_eq_nil_iff, List.any_eq_false]

theorem pickMailbox_of_none {draws : Draws} {wantsPlusAlias : Bool} {siteCode : Option String}
    {request : AcquireRequest}
    (h : selectedMailboxes db now request wantsPlusAlias siteCode p = []) :
    ∃ e, pickMailbox db now draws request wantsPlusAlias siteCode p = .error e := by
  cases hpick : pickMailbox db now draws request wantsPlusAlias siteCode p with
  | error e => exact ⟨e, rfl⟩
  | ok picked =>
      obtain ⟨m, a⟩ := picked
      obtain ⟨hmem, hselectable, -⟩ := pickMailbox_ok hpick
      rw [selectedMailboxes_eq_nil, Table.any_eq_false] at h
      rw [h m hmem] at hselectable
      cases hselectable

theorem pickResource_of_none {preferredEmail : Option String}
    (h : selectedResources db preferredEmail = []) :
    ∃ e, pickResource db preferredEmail = .error e := by
  cases hpick : pickResource db preferredEmail with
  | error e => exact ⟨e, rfl⟩
  | ok r =>
      obtain ⟨hmem, hselectable⟩ := pickResource_ok hpick
      rw [selectedResources_eq_nil, Table.any_eq_false] at h
      rw [h r hmem] at hselectable
      cases hselectable

/-- **What a candidate leaves locked**: a Microsoft or an SMSBower candidate
whose session takes statements in the end holds nothing exactly if nothing was
held and its selection returned nothing. -/
theorem attemptProvider_held (hmode : request.mode = .mailRead) (hknown : p ∈ allProviderTypes)
    (hp : p ∉ onDemandProviderTypes) (hs : s.usable = true)
    (hs' : ((attemptProvider principal now decrypt draws requests request p).work db s).2.usable
      = true) :
    ((attemptProvider principal now decrypt draws requests request p).log db s l).held = [] ↔
      l.held = [] ∧ s.db.findsRow now (request.forProvider p) p = false := by
  have hplus : ¬ (p ≠ defaultProviderType ∧ (request.forProvider p).wantsPlusAlias = true) := by
    rintro ⟨hne, hwants⟩
    rw [forProvider_wantsPlusAlias hne] at hwants
    cases hwants
  unfold attemptProvider acquireSingleProviderLease at hs' ⊢
  unfold Database.findsRow
  rw [if_neg (not_not.mpr hknown), if_neg hplus] at hs' ⊢
  have hsite : resolveRequestedSite (request.forProvider p) p db s =
      (requestedSite s.db (request.forProvider p) p, s) := resolveRequestedSite_of_usable hs
  have hlog : (Traced.ofWork (resolveRequestedSite (request.forProvider p) p) :
      LeaseWork (Option String)).log db s l = l :=
    Traced.ofWork_log (requestedSite_session _ _ db s)
  cases hrequested : requestedSite s.db (request.forProvider p) p with
  | error e =>
      rw [hrequested] at hsite
      rw [Traced.bind_log_of_error hsite, hlog]
      simp
  | ok siteCode =>
      rw [hrequested] at hsite
      rw [Traced.bind_work, Traced.ofWork_work, Work.bind_of_ok hsite] at hs'
      rw [Traced.bind_log_of_ok hsite, hlog]
      rw [if_neg fun hboth => hp hboth.2] at hs' ⊢
      simp only [if_neg hp]
      by_cases hsmsbower : p = "smsbower_gmail"
      · have hread : ¬ (request.forProvider p).mode ≠ .mailRead :=
          not_not.mpr (forProvider_mode.trans hmode)
        rw [if_pos hsmsbower, if_neg hread] at hs' ⊢
        rw [if_pos hsmsbower, ← selectedResources_eq_nil]
        refine Traced.Steady.held_eq_nil_iff (putResourceLease_steady _ _ _ _ _) _ _ hs ?_ hs'
        intro hnone l₁
        obtain ⟨e, he⟩ := pickResource_of_none hnone
        rw [he]
        exact Traced.bind_log_of_error rfl
      · rw [if_neg hsmsbower] at hs' ⊢
        rw [if_neg hsmsbower, ← selectedMailboxes_eq_nil]
        refine Traced.Steady.held_eq_nil_iff (putMailboxLease_steady _ _ _ _ _ _) _ _ hs ?_ hs'
        intro hnone l₁
        obtain ⟨e, he⟩ := pickMailbox_of_none hnone
        rw [he]
        exact Traced.bind_log_of_error rfl

/-! ## On-demand candidates -/

theorem insertOnDemandLease_work (now : ℕ) (resource : MailboxProviderResource)
    (lease : Lease) (address : String) :
    (insertOnDemandLease now resource lease address).work =
      MailboxService.insertOnDemandLease now resource lease address := by
  unfold insertOnDemandLease MailboxService.insertOnDemandLease
  simp only [Traced.bind_work, Traced.flush_work, upsertLeaseClaim_work]

theorem rollbackOnIntegrity_of_ok {x : LeaseWork Unit} {u : Unit}
    (hx : x.work db s = (.ok u, s')) :
    (rollbackOnIntegrity x).work db s = (.ok u, s') :=
  Work.handle_of_ok hx

theorem rollbackOnIntegrity_of_integrity {x : LeaseWork Unit}
    (hx : x.work db s = (.error .integrity, s')) :
    ∃ e, (rollbackOnIntegrity x).work db s = (.error e, ⟨db, true⟩) ∧
      ((rollbackOnIntegrity x).log db s l).held = [] := by
  refine ⟨.leaseUnavailable "on-demand mailbox conflict; retry", ?_, ?_⟩
  · rw [rollbackOnIntegrity_work]
    unfold MailboxService.rollbackOnIntegrity
    rw [Work.handle_of_some hx rfl]
    rfl
  · unfold rollbackOnIntegrity
    rw [Traced.handle_log_of_some hx rfl]
    rfl

theorem rollbackOnIntegrity_of_pending {x : LeaseWork Unit}
    (hx : x.work db s = (.error .pendingRollback, s')) :
    (rollbackOnIntegrity x).work db s = (.error .pendingRollback, s') ∧
      (rollbackOnIntegrity x).log db s l = x.log db s l :=
  ⟨Work.handle_of_none hx rfl, Traced.handle_log_of_none hx rfl⟩

theorem putOnDemandLease_eq (principal : ClientPrincipal) (now : ℕ) (draws : Draws)
    (request : AcquireRequest) (usageSite : Option String) (p : String)
    (result : OnDemandProvisionResult) (address : String) :
    ∃ resource lease answer,
      putOnDemandLease principal now draws request usageSite p result address = (do
        rollbackOnIntegrity (insertOnDemandLease now resource lease address)
        Traced.ofWork (recordOptionalSite principal now draws.usageId usageSite address lease.id)
        pure answer) :=
  ⟨_, _, _, rfl⟩

/-- **A conflict is rolled back**: an on-demand candidate that raises after it
got an address has nothing locked. -/
theorem putOnDemandLease_error {draws : Draws} {usageSite : Option String}
    {result : OnDemandProvisionResult} {address : String} {e : LeaseError}
    (hs : s.usable = true)
    (h : (putOnDemandLease principal now draws request usageSite p result address).work db s =
      (.error e, s')) :
    ((putOnDemandLease principal now draws request usageSite p result address).log db s
      l).held = [] := by
  obtain ⟨resource, lease, answer, heq⟩ :=
    putOnDemandLease_eq principal now draws request usageSite p result address
  rw [heq] at h ⊢
  rcases hx : (insertOnDemandLease now resource lease address).work db s with ⟨e' | v, s₁⟩
  · have he' : e' = .integrity := by
      rw [insertOnDemandLease_work] at hx
      exact insertOnDemandLease_error hs hx
    subst he'
    obtain ⟨e', hrolled, hheld⟩ := rollbackOnIntegrity_of_integrity (l := l) hx
    rw [Traced.bind_log_of_error hrolled]
    exact hheld
  · rw [Traced.bind_work, Work.bind_of_ok (rollbackOnIntegrity_of_ok hx),
      Traced.bind_work, Work.bind_eq_error] at h
    rw [insertOnDemandLease_work] at hx
    simp only [MailboxService.insertOnDemandLease, Work.bind_eq_ok] at hx
    obtain ⟨_, s₂, -, _, s₃, -, hclaim⟩ := hx
    obtain ⟨-, husable, -⟩ := upsertLeaseClaim_ok hclaim
    rcases h with hsite | ⟨_, s₄, -, h⟩
    · exact absurd hsite (recordOptionalSite_error husable)
    · cases h

/-- On a session that takes no statements nothing changes. -/
theorem putOnDemandLease_stuck {draws : Draws} {usageSite : Option String}
    {result : OnDemandProvisionResult} {address : String} (hs : s.usable = false) :
    ((putOnDemandLease principal now draws request usageSite p result address).work db s).2 =
        s ∧
      (putOnDemandLease principal now draws request usageSite p result address).log db s l =
        l := by
  obtain ⟨resource, lease, answer, heq⟩ :=
    putOnDemandLease_eq principal now draws request usageSite p result address
  have hraises : (insertOnDemandLease now resource lease address).work db s =
      (.error .pendingRollback, s) := by
    rw [insertOnDemandLease_work]
    exact Work.bind_of_error (Work.flush_of_unusable hs)
  obtain ⟨hwork, hlog⟩ := rollbackOnIntegrity_of_pending (l := l) hraises
  rw [heq, Traced.bind_work, Work.bind_of_error hwork, Traced.bind_log_of_error hwork, hlog]
  exact ⟨rfl, ((insertOnDemandLease_steady _ _ _ _ db s l).stuck hs).2⟩

theorem attemptProvider_onDemand (principal : ClientPrincipal) (now : ℕ)
    (decrypt : String → Except String String) (draws : String → Draws)
    (requests : String → ℕ) (db : Database) (s : Session Database) (l : LockLog HeldRow)
    (hmode : request.mode = .mailRead) (hp : p ∈ onDemandProviderTypes) :
    (attemptProvider principal now decrypt draws requests request p).work db s =
        (acquireOnDemandLease principal now (draws p) (requests p) (request.forProvider p) none
          p).work db s ∧
      (attemptProvider principal now decrypt draws requests request p).log db s l =
        (acquireOnDemandLease principal now (draws p) (requests p) (request.forProvider p) none
          p).log db s l := by
  have hne := onDemand_ne_default p hp
  have hplus : ¬ (p ≠ defaultProviderType ∧ (request.forProvider p).wantsPlusAlias = true) := by
    rintro ⟨-, hwants⟩
    rw [forProvider_wantsPlusAlias hne] at hwants
    cases hwants
  have hsite : (Traced.ofWork (resolveRequestedSite (request.forProvider p) p) :
      LeaseWork (Option String)).work db s = (.ok none, s) := by
    rw [Traced.ofWork_work]
    unfold resolveRequestedSite
    rw [if_neg fun hboth => hne hboth.2]
    rfl
  have hlog : (Traced.ofWork (resolveRequestedSite (request.forProvider p) p) :
      LeaseWork (Option String)).log db s l = l :=
    Traced.ofWork_log (requestedSite_session _ _ db s)
  unfold attemptProvider acquireSingleProviderLease
  rw [if_neg (not_not.mpr (mem_allProviderTypes p hp)), if_neg hplus, Traced.bind_work,
    Work.bind_of_ok hsite, Traced.bind_log_of_ok hsite, hlog,
    if_pos ⟨forProvider_mode.trans hmode, hp⟩, ite_self]
  exact ⟨rfl, rfl⟩

theorem acquireOnDemandLease_cases (principal : ClientPrincipal) (now : ℕ) (draws : Draws)
    (requests : ℕ) (request : AcquireRequest) (usageSite : Option String) (db : Database)
    (s : Session Database) (l : LockLog HeldRow) (p : String) :
    let x := acquireOnDemandLease principal now draws requests request usageSite p
    (∃ e, provisionedAddress p draws.provision = .error e ∧ x.work db s = (.error e, s) ∧
        x.log db s l = l.call (draws.requestsSent requests)) ∨
      ∃ result address, provisionedAddress p draws.provision = .ok (result, address) ∧
        let y := putOnDemandLease principal now draws request usageSite p result address
        x.work db s = y.work db s ∧
          x.log db s l = y.log db s (l.call (draws.requestsSent requests)) := by
  dsimp only
  unfold acquireOnDemandLease
  have hcall : ∀ r : Except LeaseError (OnDemandProvisionResult × String),
      (Traced.call (draws.requestsSent requests) r : LeaseWork _).work db s = (r, s) :=
    fun _ => rfl
  rcases provisionedAddress p draws.provision with e | ⟨result, address⟩
  · refine Or.inl ⟨e, rfl, ?_, ?_⟩
    · rw [Traced.bind_work, Work.bind_of_error (hcall _)]
    · rw [Traced.bind_log_of_error (hcall _), Traced.call_log]
  · refine Or.inr ⟨result, address, rfl, ?_, ?_⟩
    · rw [Traced.bind_work, Work.bind_of_ok (hcall _)]
    · rw [Traced.bind_log_of_ok (hcall _), Traced.call_log]

/-- **Calls of a candidate**: they are made with what the candidates before it
have left locked. -/
theorem attemptProvider_calls (hmode : request.mode = .mailRead) :
    ((attemptProvider principal now decrypt draws requests request p).log db s l).calls =
      (l.call (requestsSent draws requests p)).calls := by
  unfold requestsSent
  by_cases hp : p ∈ onDemandProviderTypes
  · rw [if_pos hp, (attemptProvider_onDemand _ _ _ _ _ _ _ _ hmode hp).2]
    rcases acquireOnDemandLease_cases principal now (draws p) (requests p)
      (request.forProvider p) none db s l p with ⟨e, -, -, hlog⟩ | ⟨result, address, -, -, hlog⟩
    · rw [hlog]
    · rw [hlog]
      exact putOnDemandLease_silent _ _ _ _ _ _ _ _ db s _
  · rw [if_neg hp, (attemptProvider_steady hp).silent db s l]
    rfl

theorem attemptProvider_unknown (hp : p ∉ allProviderTypes) :
    (attemptProvider principal now decrypt draws requests request p).work db s =
      (.error (.providerUnsupported ("不支持的 provider：" ++ p)), s) := by
  unfold attemptProvider acquireSingleProviderLease
  rw [if_pos hp]
  rfl

/-- **What a candidate that is stepped over leaves locked**: nothing exactly if
its session was rolled back, or nothing was locked before and it found no
row. -/
theorem attemptProvider_leaves {e : LeaseError} (hmode : request.mode = .mailRead)
    (hstuck : s.usable = false → l.held = [])
    (h : (attemptProvider principal now decrypt draws requests request p).work db s =
      (.error e, s')) (he : e.tryNext = true) :
    ((attemptProvider principal now decrypt draws requests request p).log db s l).held = [] ↔
      (s'.usable = false ∨ provisions draws p = true) ∨
        l.held = [] ∧ s.db.findsRow now (request.forProvider p) p = false := by
  by_cases hp : p ∈ onDemandProviderTypes
  · have hfinds : s.db.findsRow now (request.forProvider p) p = false := by
      unfold Database.findsRow
      split
      · rfl
      · rw [if_pos hp]
    have hprovisions : provisions draws p =
        (provisionedAddress p (draws p).provision).toBool := by
      unfold provisions
      rw [List.contains_iff_mem.mpr hp, Bool.true_and]
    obtain ⟨hwork, hlog⟩ :=
      attemptProvider_onDemand principal now decrypt draws requests db s l hmode hp
    rw [hwork] at h
    rw [hlog, hfinds, hprovisions]
    rcases acquireOnDemandLease_cases principal now (draws p) (requests p)
      (request.forProvider p) none db s l p with ⟨e', hprov, hx, hl⟩ | ⟨result, address, hprov, hx, hl⟩
    · rw [hx] at h
      obtain rfl : s = s' := (Prod.mk.inj h).2
      rw [hl, hprov]
      cases hs : s.usable with
      | true => simp [Except.toBool]
      | false => exact iff_of_true (hstuck hs) (Or.inl (Or.inl rfl))
    · rw [hx] at h
      rw [hl, hprov]
      refine iff_of_true ?_ (Or.inl (Or.inr rfl))
      cases hs : s.usable with
      | true => exact putOnDemandLease_error hs h
      | false =>
          rw [(putOnDemandLease_stuck hs).2]
          exact hstuck hs
  · have hknown : p ∈ allProviderTypes := by
      by_contra hunknown
      rw [attemptProvider_unknown hunknown] at h
      obtain rfl := Except.error.inj (Prod.mk.inj h).1
      cases he
    have hprovisions : provisions draws p = false := by
      unfold provisions
      rw [Bool.and_eq_false_iff, ← Bool.not_eq_true, List.contains_iff_mem]
      exact Or.inl hp
    -- an attempt on a stored row makes no call, and keeps its locks unless it rolls back
    have hgathers : Traced.Gathers s l s'
        ((attemptProvider principal now decrypt draws requests request p).log db s l) := by
      have hsteady : (attemptProvider principal now decrypt draws requests request p).Steady :=
        attemptProvider_steady hp
      have hrun := hsteady db s l
      rw [h] at hrun
      exact hrun
    rw [hprovisions]
    cases hs : s.usable with
    | false =>
        obtain ⟨rfl, hlog⟩ := hgathers.stuck hs
        rw [hlog]
        exact iff_of_true (hstuck hs) (Or.inl (Or.inl hs))
    | true =>
        cases hs' : s'.usable with
        | false => exact iff_of_true (hgathers.drops hs hs') (Or.inl (Or.inl rfl))
        | true =>
            have hheld := attemptProvider_held (l := l) hmode hknown hp hs (by rw [h]; exact hs')
            rw [hheld]
            simp

end Candidate

end Locking

end

end MailboxService
