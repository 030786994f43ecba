import MailboxService.LeaseService.UsageSites
import MailboxService.LeaseService.ReleaseTriples
import MailboxService.LeaseService.LeaseRuns
import MailboxService.MailboxAdmin

/-!
# Occupied sites

Runs of acquires, reacquires, releases, revocations, changes of the sites and
deletions of mailboxes. An active occupancy stays until it is revoked, whatever
becomes of its lease and its mailbox, and an acquire that declares a site
returns only if its address did not occupy the site before.
-/

namespace MailboxService

open Foundation

section

variable [Platform]

/-! ## Runs -/

inductive SiteEvent where
  | acquire (principal : ClientPrincipal) (decrypt : String → Except String String)
      (draws : String → Draws) (request : AcquireRequest) (shuffled : List String)
  | reacquire (principal : ClientPrincipal) (leaseId email : String) (ttlSeconds : ℕ)
      (clientTag purpose : Option String)
  | release (principal : ClientPrincipal) (operationId leaseId : String)
  | revokeUsage (usageId : String)
  | createSite (code displayName : String) (enabled : Bool)
  | updateSite (code : String) (displayName : Option String) (enabled : Option Bool)
  | deleteSite (code : String)
  | deleteMailboxes (mailboxIds : List String) (forceReleaseActiveLeases : Bool)
  | advance (microseconds : ℕ)

/-- The database after a method that changes it or raises. -/
def committedOr {ε α : Type} (db : Database) : Except ε (α × Database) → Database
  | .ok (_, db') => db'
  | .error _ => db

namespace LeaseState

def occupy (s : LeaseState) : SiteEvent → LeaseState
  | .acquire principal decrypt draws request shuffled =>
      { s with
        db := ((acquireLease principal s.now decrypt draws request shuffled).transact s.db).2 }
  | .reacquire principal leaseId email ttlSeconds clientTag purpose =>
      { s with
        db := ((reacquireLeaseByEmail principal s.now leaseId email ttlSeconds clientTag
          purpose).transact s.db).2 }
  | .release principal operationId leaseId =>
      { s with db := ((releaseLease principal s.now operationId leaseId).transact s.db).2 }
  | .revokeUsage usageId =>
      { s with db := committedOr s.db (revokeEmailSiteUsage s.db s.now usageId) }
  | .createSite code displayName enabled =>
      { s with db := committedOr s.db (createUsageSite s.db s.now code displayName enabled) }
  | .updateSite code displayName enabled =>
      { s with db := committedOr s.db (updateUsageSite s.db code displayName enabled) }
  | .deleteSite code =>
      { s with db := committedOr s.db ((deleteUsageSite s.db code).map fun db => ((), db)) }
  | .deleteMailboxes mailboxIds forceReleaseActiveLeases =>
      { s with
        db := committedOr s.db (deleteMailboxesByIds s.db s.now mailboxIds
          forceReleaseActiveLeases) }
  | .advance microseconds => { s with now := s.now + microseconds }

end LeaseState

def LeaseAcquireResult.HandsOut (result : LeaseAcquireResult) (email siteCode : String) :
    Prop :=
  ∃ a c, result.allocatedEmail = some a ∧ result.usageSite = some c ∧
    sqlEq (Text.normalize a) email = true ∧ sqlEq c siteCode = true

/-! ## What keeps a slot occupied -/

theorem occupied_acquireFrame (email siteCode : String) (now : ℕ) :
    AcquireFrame (fun d => d.Occupied email siteCode) now where
  touched _ hd := hd
  leased := by
    intro d d' lease _ _ hd hins
    rw [(insertLease?_eq_some hins).2.2]
    exact hd
  claimed := by
    intro d d' lease r _ _ _ _ hd hins
    rw [(insertLease?_eq_some hins).2.2]
    exact hd
  provisioned := by
    intro d d₁ d' lease r _ _ _ hd hresource hins
    rw [(insertLease?_eq_some hins).2.2]
    unfold Database.insertProviderResource? at hresource
    rw [Option.map_eq_some_iff] at hresource
    obtain ⟨resources, -, rfl⟩ := hresource
    exact hd
  claimsDeleted _ hd := hd
  claimInserted := by
    intro d d' claim hd hins
    rw [(insertLeaseClaim?_eq_some hins).2]
    exact hd
  usageInserted := by
    rintro d d' usage ⟨u, hu, hactive⟩ hins
    unfold Database.insertEmailSiteUsage? at hins
    rw [Option.map_eq_some_iff] at hins
    obtain ⟨usages, hinsert, rfl⟩ := hins
    exact ⟨u, (Table.mem_insert? hinsert).mpr (Or.inl hu), hactive⟩
  usageReactivated := by
    intro d u mailboxId leaseId clientKeyId _ _ hd
    refine hd.update _ ?_
    intro q _ _ _ hslot
    exact ⟨rfl, hslot⟩

theorem occupied_releaseFrame (email siteCode : String) (now : ℕ) :
    ReleaseFrame (fun d => d.Occupied email siteCode) now where
  leaseReleased _ hd := hd
  claimsDeleted _ hd := hd
  resourceUpdated _ _ _ hd := hd
  operationInserted := by
    intro d d' operation hd hins
    unfold Database.insertProviderOperation? at hins
    rw [Option.map_eq_some_iff] at hins
    obtain ⟨operations, -, rfl⟩ := hins
    exact hd

theorem usageSites_acquireFrame (P : Table usageSiteSchema → Prop) (now : ℕ) :
    AcquireFrame (fun d => P d.usageSites) now where
  touched _ hd := hd
  leased := by
    intro d d' lease _ _ hd hins
    rw [(insertLease?_eq_some hins).2.2]
    exact hd
  claimed := by
    intro d d' lease r _ _ _ _ hd hins
    rw [(insertLease?_eq_some hins).2.2]
    exact hd
  provisioned := by
    intro d d₁ d' lease r _ _ _ hd hresource hins
    rw [(insertLease?_eq_some hins).2.2]
    unfold Database.insertProviderResource? at hresource
    rw [Option.map_eq_some_iff] at hresource
    obtain ⟨resources, -, rfl⟩ := hresource
    exact hd
  claimsDeleted _ hd := hd
  claimInserted := by
    intro d d' claim hd hins
    rw [(insertLeaseClaim?_eq_some hins).2]
    exact hd
  usageInserted := by
    intro d d' usage hd hins
    unfold Database.insertEmailSiteUsage? at hins
    rw [Option.map_eq_some_iff] at hins
    obtain ⟨usages, -, rfl⟩ := hins
    exact hd
  usageReactivated _ _ _ _ _ hd := hd

theorem site_releaseFrame (site : UsageSite) (now : ℕ) :
    ReleaseFrame (fun d => site ∈ d.usageSites) now where
  leaseReleased _ hd := hd
  claimsDeleted _ hd := hd
  resourceUpdated _ _ _ hd := hd
  operationInserted := by
    intro d d' operation hd hins
    unfold Database.insertProviderOperation? at hins
    rw [Option.map_eq_some_iff] at hins
    obtain ⟨operations, -, rfl⟩ := hins
    exact hd

theorem foldl_forceRelease_sites (now : ℕ) (ids : List String) (d : Database) :
    (ids.foldl (fun d id => forceReleaseClaimsAndLeases d now id) d).emailSiteUsages =
        d.emailSiteUsages ∧
      (ids.foldl (fun d id => forceReleaseClaimsAndLeases d now id) d).usageSites =
        d.usageSites := by
  induction ids generalizing d with
  | nil => exact ⟨rfl, rfl⟩
  | cons id ids ih => exact ih (forceReleaseClaimsAndLeases d now id)

theorem deleteMailboxesByIds_sites {db db' : Database} {now : ℕ} {mailboxIds : List String}
    {force : Bool} {result : AdminDeleteResult}
    (h : deleteMailboxesByIds db now mailboxIds force = .ok (result, db')) :
    db'.usageSites = db.usageSites ∧
      ∀ email siteCode, db.Occupied email siteCode → db'.Occupied email siteCode := by
  have hdeleted : ∀ (d : Database) (ids : List String),
      d.emailSiteUsages = db.emailSiteUsages → d.usageSites = db.usageSites →
      (d.deleteMailboxes ids).usageSites = db.usageSites ∧
        ∀ email siteCode, db.Occupied email siteCode →
          (d.deleteMailboxes ids).Occupied email siteCode := by
    intro d ids husages hsites
    refine ⟨hsites, ?_⟩
    intro email siteCode hocc
    have hd : d.Occupied email siteCode := by
      unfold Database.Occupied
      rw [husages]
      exact hocc
    unfold Database.deleteMailboxes
    refine hd.update _ ?_
    intro u _ _ hactive hslot
    exact ⟨hactive, hslot⟩
  unfold deleteMailboxesByIds at h
  simp only at h
  split at h
  · cases h
  · cases h
    split
    · exact hdeleted _ _ (foldl_forceRelease_sites _ _ _).1 (foldl_forceRelease_sites _ _ _).2
    · exact hdeleted _ _ rfl rfl

/-! ## An occupied slot is not handed out -/

theorem mailboxLeaseResult_site {decrypt : String → Except String String} {lease : Lease}
    {m : Mailbox} {siteCode : Option String} {result : LeaseAcquireResult}
    (h : mailboxLeaseResult decrypt lease m siteCode = .ok result) :
    result.allocatedEmail = lease.allocatedEmail ∧ result.usageSite = siteCode := by
  refine ⟨(mailboxLeaseResult_ok h).2.1, ?_⟩
  unfold mailboxLeaseResult at h
  simp only at h
  split at h
  · split at h
    · cases h
    · cases h
      rfl
  · cases h
    rfl

theorem pickMailbox_address {db : Database} {now : ℕ} {draws : Draws}
    {request : AcquireRequest} {wantsPlusAlias : Bool} {siteCode : Option String}
    {providerType : String} {m : Mailbox} {a : Option String}
    (h : pickMailbox db now draws request wantsPlusAlias siteCode providerType = .ok (m, a)) :
    request.mode = .mailRead ↔ a.isSome = true := by
  have hallocate := (pickMailbox_ok h).2.2
  unfold allocateAddress at hallocate
  split at hallocate
  · rename_i hmode
    refine ⟨fun _ => ?_, fun _ => hmode⟩
    split at hallocate
    · cases halias : allocatePlusAlias db now draws.suffixes m.primaryEmail
        request.preferredAliasSuffix siteCode with
      | error e =>
          rw [halias] at hallocate
          cases hallocate
      | ok x =>
          rw [halias] at hallocate
          cases hallocate
          rfl
    · cases hallocate
      rfl
  · rename_i hmode
    cases hallocate
    exact ⟨fun h => absurd h hmode, fun h => by cases h⟩

theorem recordRequestedSite_of_some {principal : ClientPrincipal} {now : ℕ} {draws : Draws}
    {lease : Lease} {a code : String} (ha : lease.allocatedEmail = some a)
    (hmode : lease.mode = .mailRead) :
    recordRequestedSite principal now draws lease (some code) =
      recordEmailSiteUsage principal now draws.usageId a code lease.mailboxId lease.id := by
  unfold recordRequestedSite
  simp only [ha]
  rw [if_pos hmode]

/-- What an acquire on a mailbox that returns has recorded last: the occupancy
of the site by the address it returns, if there are both. -/
theorem acquireMailboxLease_record {db : Database} {s s' : Session Database}
    {principal : ClientPrincipal} {now : ℕ} {decrypt : String → Except String String}
    {draws : Draws} {request : AcquireRequest} {wantsPlusAlias : Bool}
    {site : Option String} {providerType : String} {result : LeaseAcquireResult}
    (h : acquireMailboxLease principal now decrypt draws request wantsPlusAlias site
      providerType db s = (.ok result, s')) :
    s.usable = true ∧ result.usageSite = site ∧
      (request.mode = .mailRead ↔ result.allocatedEmail.isSome = true) ∧
      ∃ m a d s₁, (s.db.touchMailbox m.id now).insertLease?
          (mailboxLease principal now draws request m a) = some d ∧
        unavailableOnIntegrity (upsertLeaseClaim now
          (mailboxLease principal now draws request m a) a) db ⟨d, true⟩ = (.ok (), s₁) ∧
        s₁.usable = true ∧ ∀ x c, result.allocatedEmail = some x → site = some c →
          recordEmailSiteUsage principal now draws.usageId x c (some m.id) draws.leaseId db s₁ =
            (.ok (), s') := by
  unfold acquireMailboxLease at h
  simp only [Work.bind_eq_ok] at h
  obtain ⟨picked, s₁, hread, ⟨m, a⟩, s₂, htake, _, s₃, hflush, _, s₄, hclaim, _, s₅, hrecord,
    h⟩ := h
  obtain ⟨husable, rfl, rfl⟩ := Work.read_eq_ok.mp hread
  obtain ⟨hpick, rfl⟩ := Prod.mk.inj htake
  obtain ⟨-, d, hins, rfl⟩ := Work.flush_eq_ok.mp hflush
  obtain ⟨-, husable₄, -⟩ := upsertLeaseClaim_ok (unavailableOnIntegrity_ok hclaim)
  obtain ⟨hresult, rfl⟩ := Prod.mk.inj h
  obtain ⟨haddress, hsite⟩ := mailboxLeaseResult_site hresult
  have haddress' : result.allocatedEmail = a := haddress
  refine ⟨husable, hsite, ?_, m, a, d, s₄, hins, hclaim, husable₄, ?_⟩
  · rw [haddress']
    exact pickMailbox_address hpick
  · intro x c hx hc
    have ha : a = some x := haddress'.symm.trans hx
    subst ha hc
    rw [recordRequestedSite_of_some rfl ((pickMailbox_address hpick).mpr rfl)] at hrecord
    exact hrecord

section Refusals

variable {email siteCode : String} {now : ℕ} {committed : Database}

theorem recordEmailSiteUsage_refuses (principal : ClientPrincipal) (usageId a code : String)
    (mailboxId : Option String) (leaseId : String) :
    Work.Triple committed (fun d => d.Occupied email siteCode)
      (recordEmailSiteUsage principal now usageId a code mailboxId leaseId)
      (fun _ d => d.Occupied email siteCode ∧
        ¬ (sqlEq (Text.normalize a) email = true ∧ sqlEq code siteCode = true))
      (fun d => d.Occupied email siteCode) := by
  have hkeeps : Work.Keeps committed (fun d => d.Occupied email siteCode)
      (recordEmailSiteUsage principal now usageId a code mailboxId leaseId) :=
    (occupied_acquireFrame email siteCode now).recordEmailSiteUsage _ _ _ _ _ _
  intro s hs
  obtain ⟨hok, herror⟩ := hkeeps s hs
  refine ⟨?_, herror⟩
  intro u s' hx hu
  refine ⟨hok u s' hx hu, ?_⟩
  rintro ⟨hemail, hcode⟩
  obtain ⟨husable, -, q, hrecorded⟩ := recordEmailSiteUsage_ok hx
  obtain ⟨v, hv, hactive, hslot⟩ := hs husable
  refine hrecorded.free v hv ?_ hactive
  simp only [EmailSiteUsage.inSlot, sqlEq, Bool.and_eq_true, decide_eq_true_eq]
    at hslot hemail hcode ⊢
  exact ⟨hslot.1.trans hemail.symm, hslot.2.trans hcode.symm⟩

theorem acquireMailboxLease_refuses (principal : ClientPrincipal)
    (decrypt : String → Except String String) (draws : Draws) (request : AcquireRequest)
    (wantsPlusAlias : Bool) (site : Option String) (providerType : String) :
    Work.Triple committed (fun d => d.Occupied email siteCode)
      (acquireMailboxLease principal now decrypt draws request wantsPlusAlias site
        providerType)
      (fun result _ => ¬ result.HandsOut email siteCode)
      (fun d => d.Occupied email siteCode) := by
  have hP := occupied_acquireFrame email siteCode now
  intro s hs
  refine ⟨?_, (hP.acquireMailboxLease principal decrypt draws request wantsPlusAlias site
    providerType s hs).2⟩
  rintro result s' h hu ⟨x, c, hx, hc, hsame⟩
  obtain ⟨husable, hsite, -, m, a, d, s₁, hins, hclaim, husable₁, hrecord⟩ :=
    acquireMailboxLease_record h
  -- up to the record, the slot stays occupied
  have hocc : Database.Occupied d email siteCode :=
    hP.leased rfl rfl (hP.touched _ (hs husable)) hins
  have hclaimed : Work.Keeps committed (fun d => d.Occupied email siteCode)
      (unavailableOnIntegrity (upsertLeaseClaim now
        (mailboxLease principal now draws request m a) a)) :=
    AcquireFrame.unavailableOnIntegrity (hP.upsertLeaseClaim _ _)
  have hocc₁ := (hclaimed ⟨d, true⟩ fun _ => hocc).1 _ _ hclaim husable₁
  have hrefuses : Work.Triple committed (fun d => d.Occupied email siteCode)
      (recordEmailSiteUsage principal now draws.usageId x c (some m.id) draws.leaseId) _ _ :=
    recordEmailSiteUsage_refuses _ _ _ _ _ _
  exact ((hrefuses s₁ fun _ => hocc₁).1 _ _ (hrecord x c hx (hsite.symm.trans hc)) hu).2 hsame

theorem acquireSmsbowerLease_refuses (principal : ClientPrincipal) (draws : Draws)
    (request : AcquireRequest) :
    Work.Triple committed (fun d => d.Occupied email siteCode)
      (acquireSmsbowerLease principal now draws request none)
      (fun result _ => ¬ result.HandsOut email siteCode)
      (fun d => d.Occupied email siteCode) := by
  intro s hs
  refine ⟨?_, ((occupied_acquireFrame email siteCode now).acquireSmsbowerLease principal draws
    request none s hs).2⟩
  rintro result s' h - ⟨a, c, -, hc, -⟩
  unfold acquireSmsbowerLease at h
  simp only [Work.bind_eq_ok] at h
  obtain ⟨picked, s₁, -, r, s₂, -, _, s₃, -, _, s₄, -, _, s₅, -, h⟩ := h
  cases h
  cases hc

theorem acquireOnDemandLease_refuses (h0 : committed.Occupied email siteCode)
    (principal : ClientPrincipal) (draws : Draws) (request : AcquireRequest)
    (providerType : String) :
    Work.Triple committed (fun d => d.Occupied email siteCode)
      (acquireOnDemandLease principal now draws request none providerType)
      (fun result _ => ¬ result.HandsOut email siteCode)
      (fun d => d.Occupied email siteCode) := by
  intro s hs
  refine ⟨?_, ((occupied_acquireFrame email siteCode now).acquireOnDemandLease h0 principal
    draws request none providerType s hs).2⟩
  rintro result s' h - ⟨a, c, -, hc, -⟩
  unfold acquireOnDemandLease at h
  simp only [Work.bind_eq_ok] at h
  obtain ⟨⟨provisioned, address⟩, s₁, -, _, s₂, -, _, s₃, -, h⟩ := h
  cases h
  cases hc

theorem resolveRequestedSite_other (request : AcquireRequest) {providerType : String}
    (hother : providerType ≠ defaultProviderType) :
    resolveRequestedSite request providerType = pure none := by
  unfold resolveRequestedSite
  rw [if_neg fun hboth => hother hboth.2]

theorem acquireSingleProviderLease_refuses (h0 : committed.Occupied email siteCode)
    (principal : ClientPrincipal) (decrypt : String → Except String String) (draws : Draws)
    (request : AcquireRequest) (providerType : String) :
    Work.Triple committed (fun d => d.Occupied email siteCode)
      (acquireSingleProviderLease principal now decrypt draws request providerType)
      (fun result _ => ¬ result.HandsOut email siteCode)
      (fun d => d.Occupied email siteCode) := by
  unfold acquireSingleProviderLease
  split
  · exact Work.triple_raise fun _ hd => hd
  split
  · exact Work.triple_raise fun _ hd => hd
  by_cases hdefault : providerType = defaultProviderType
  · refine Work.Triple.bind (resolveRequestedSite_keeps _ _) fun site => ?_
    split
    · rename_i hondemand
      exact absurd hdefault (onDemand_ne_default _ hondemand.2)
    split
    · rename_i hsmsbower
      exact absurd (hdefault.symm.trans hsmsbower) (by decide)
    · exact acquireMailboxLease_refuses _ _ _ _ _ _ _
  · have hpure : ∀ f : Option String → LeaseWork LeaseAcquireResult,
        (pure none >>= f) = f none := fun f => rfl
    rw [resolveRequestedSite_other request hdefault, hpure]
    split
    · rw [ite_self]
      exact acquireOnDemandLease_refuses h0 _ _ _ _
    split
    · split
      · exact Work.triple_raise fun _ hd => hd
      · exact acquireSmsbowerLease_refuses _ _ _
    · exact acquireMailboxLease_refuses _ _ _ _ _ _ _

/-- **Refusal**: while the slot is occupied, no acquire hands it out. -/
theorem acquireLease_refuses (h0 : committed.Occupied email siteCode)
    (principal : ClientPrincipal) (decrypt : String → Except String String)
    (draws : String → Draws) (request : AcquireRequest) (shuffled : List String) :
    Work.Triple committed (fun d => d.Occupied email siteCode)
      (acquireLease principal now decrypt draws request shuffled)
      (fun result _ => ¬ result.HandsOut email siteCode)
      (fun d => d.Occupied email siteCode) := by
  unfold acquireLease
  split
  · refine Work.Triple.bind (requireScope_keeps _ _) fun _ => ?_
    exact Work.triple_tryEach fun p _ => acquireSingleProviderLease_refuses h0 _ _ _ _ _
  · refine Work.Triple.bind (M := fun _ d => d.Occupied email siteCode) ?_ fun _ =>
      acquireSingleProviderLease_refuses h0 _ _ _ _ _
    unfold checkCredentialRequest
    refine Work.Triple.bind (requireScope_keeps _ _) fun _ => ?_
    refine Work.Triple.bind (requireScope_keeps _ _) fun _ => ?_
    split
    · exact Work.triple_raise fun _ hd => hd
    · split
      · exact Work.triple_raise fun _ hd => hd
      · exact Work.triple_pure fun _ hd => hd

end Refusals

/-! ## What an acquire that declares a site leaves -/

theorem SiteRecorded.unique {db db' : Database} {email siteCode : String} {u : EmailSiteUsage}
    (h : SiteRecorded db db' email siteCode u) :
    ∃! q, q ∈ db'.emailSiteUsages ∧ q.revokedAt = none ∧ q.inSlot email siteCode = true := by
  have hu : u ∈ db'.emailSiteUsages := (h.usages u).mpr (Or.inr rfl)
  refine ⟨u, ⟨hu, h.active, h.slot⟩, ?_⟩
  rintro q ⟨hq, -, hslot⟩
  exact inSlot_unique hq hu hslot h.slot

theorem resolveRequestedSite_site {db : Database} {s s' : Session Database}
    {request : AcquireRequest} {providerType : String} {site : Option String}
    (h : resolveRequestedSite request providerType db s = (.ok site, s'))
    (hmode : request.mode = .mailRead) (hdefault : providerType = defaultProviderType)
    (hsite : request.namesSite = true) :
    ∃ c, site = some c ∧ sqlEq c (Text.normalize (request.usageSite.getD "")) = true := by
  unfold resolveRequestedSite at h
  rw [if_pos ⟨hmode, hdefault⟩, if_pos hsite] at h
  simp only [Work.bind_eq_ok] at h
  obtain ⟨resolved, s₁, hread, c, s₂, hcode, h⟩ := h
  have hresolved : resolveEnabledUsageSite s.db (request.usageSite.getD "") = .ok c :=
    (Work.read_eq_ok.mp hread).2.1.symm.trans (Prod.mk.inj hcode).1
  refine ⟨c, (Except.ok.inj (Prod.mk.inj h).1).symm, ?_⟩
  unfold resolveEnabledUsageSite at hresolved
  split at hresolved
  · cases hresolved
  · cases hfound : s.db.usageSite? (Text.normalize (request.usageSite.getD "")) with
    | none =>
        rw [hfound] at hresolved
        cases hresolved
    | some usageSite =>
        rw [hfound] at hresolved
        simp only at hresolved
        split at hresolved
        · cases hresolved
          have hfind := List.find?_some hfound
          exact hfind
        · cases hresolved

/-- **Record lemma**: an attempt that returns a site has recorded the occupancy
of its address there, and a Microsoft attempt returns the site it was asked
for. -/
theorem acquireSingleProviderLease_records {db : Database} {s s' : Session Database}
    {principal : ClientPrincipal} {now : ℕ} {decrypt : String → Except String String}
    {draws : Draws} {request : AcquireRequest} {providerType : String}
    {result : LeaseAcquireResult}
    (h : acquireSingleProviderLease principal now decrypt draws request providerType db s =
      (.ok result, s')) :
    (∀ c, result.usageSite = some c → ∃ a d u, result.allocatedEmail = some a ∧
        SiteRecorded d s'.db (Text.normalize a) c u) ∧
      (result.mailboxId ≠ none → request.mode = .mailRead → request.namesSite = true →
        ∃ c, result.usageSite = some c ∧
          sqlEq c (Text.normalize (request.usageSite.getD "")) = true) := by
  unfold acquireSingleProviderLease at h
  split at h
  · cases h
  rename_i hknown
  split at h
  · cases h
  rw [Work.bind_eq_ok] at h
  obtain ⟨site, s₁, hresolve, h⟩ := h
  have hother : providerType ≠ defaultProviderType → site = none := by
    intro hne
    rw [resolveRequestedSite_other request hne] at hresolve
    exact (Except.ok.inj (Prod.mk.inj hresolve).1).symm
  split at h
  · rename_i hondemand
    rw [hother (onDemand_ne_default _ hondemand.2), ite_self] at h
    unfold acquireOnDemandLease at h
    simp only [Work.bind_eq_ok] at h
    obtain ⟨⟨provisioned, address⟩, s₂, -, _, s₃, -, _, s₄, -, h⟩ := h
    cases h
    exact ⟨fun c hc => (by cases hc), fun hne => absurd rfl hne⟩
  rename_i hmailbox
  split at h
  · rename_i hsmsbower
    split at h
    · cases h
    · rw [hother (by rw [hsmsbower]; decide)] at h
      unfold acquireSmsbowerLease at h
      simp only [Work.bind_eq_ok] at h
      obtain ⟨picked, s₂, -, r, s₃, -, _, s₄, -, _, s₅, -, _, s₆, -, h⟩ := h
      cases h
      exact ⟨fun c hc => (by cases hc), fun hne => absurd rfl hne⟩
  · rename_i hsmsbower
    obtain ⟨-, hsite, haddress, m, a, d, s₂, -, -, -, hrecord⟩ := acquireMailboxLease_record h
    constructor
    · intro c hc
      have hsome : site = some c := hsite.symm.trans hc
      subst hsome
      -- a site comes with a mail-read request, which has an address
      have hmode : request.mode = .mailRead := by
        by_contra hmode
        unfold resolveRequestedSite at hresolve
        rw [if_neg fun hboth => hmode hboth.1] at hresolve
        cases hresolve
      obtain ⟨x, hx⟩ := Option.isSome_iff_exists.mp (haddress.mp hmode)
      obtain ⟨-, -, u, hrecorded⟩ := recordEmailSiteUsage_ok (hrecord x c hx rfl)
      exact ⟨x, s₂.db, u, hx, hrecorded⟩
    · intro _ hmode hnames
      have hdefault : providerType = defaultProviderType := by
        have hnot : providerType ∉ onDemandProviderTypes := fun hp => hmailbox ⟨hmode, hp⟩
        exact (eq_of_not_onDemand _ (not_not.mp hknown) hnot).resolve_right hsmsbower
      obtain ⟨c, hc, hcode⟩ := resolveRequestedSite_site hresolve hmode hdefault hnames
      exact ⟨c, hsite.trans hc, hcode⟩

theorem acquireLease_records {db : Database} {s s' : Session Database}
    {principal : ClientPrincipal} {now : ℕ} {decrypt : String → Except String String}
    {draws : String → Draws} {request : AcquireRequest} {shuffled : List String}
    {result : LeaseAcquireResult}
    (h : acquireLease principal now decrypt draws request shuffled db s = (.ok result, s')) :
    (∀ c, result.usageSite = some c → ∃ a d u, result.allocatedEmail = some a ∧
        SiteRecorded d s'.db (Text.normalize a) c u) ∧
      (result.mailboxId ≠ none → request.mode = .mailRead → request.namesSite = true →
        ∃ c, result.usageSite = some c ∧
          sqlEq c (Text.normalize (request.usageSite.getD "")) = true) := by
  unfold acquireLease at h
  split at h
  · rename_i hmode
    rw [Work.bind_eq_ok] at h
    obtain ⟨_, s₁, -, h⟩ := h
    obtain ⟨p, -, s₂, -, hattempt⟩ :=
      Work.tryEach_ok (fun _ _ _ _ _ _ _ _ => trivial) trivial h
    obtain ⟨hrecorded, hsite⟩ := acquireSingleProviderLease_records hattempt
    have hsame : (request.forProvider p).usageSite = request.usageSite := by
      unfold AcquireRequest.forProvider
      split <;> rfl
    have hnames : (request.forProvider p).namesSite = request.namesSite := by
      unfold AcquireRequest.namesSite
      rw [hsame]
    rw [hnames, hsame] at hsite
    exact ⟨hrecorded, fun hne hm hn => hsite hne (forProvider_mode.trans hm) hn⟩
  · rename_i hmode
    rw [Work.bind_eq_ok] at h
    obtain ⟨_, s₁, -, h⟩ := h
    exact ⟨(acquireSingleProviderLease_records h).1, fun _ hm => absurd hm hmode⟩

/-! ## One event -/

namespace LeaseState

/-- **Step lemma**: an occupied slot stays occupied unless the event revokes
the row that occupies it. -/
theorem occupy_occupied {email siteCode : String} (s : LeaseState) (e : SiteEvent)
    (h : s.db.Occupied email siteCode) :
    (s.occupy e).db.Occupied email siteCode ∨
      ∃ usageId, e = .revokeUsage usageId ∧ ∃ u ∈ s.db.emailSiteUsages, u.id = usageId ∧
        u.revokedAt = none ∧ u.inSlot email siteCode = true := by
  cases e with
  | acquire principal decrypt draws request shuffled =>
      left
      simp only [occupy]
      rcases hx : (acquireLease principal s.now decrypt draws request shuffled).transact s.db
        with ⟨e | result, db'⟩
      · rw [Work.transact_error hx]
        exact h
      · exact ((occupied_acquireFrame email siteCode s.now).acquireLease h principal decrypt
          draws request shuffled).transact h hx
  | reacquire principal leaseId address ttlSeconds clientTag purpose =>
      left
      simp only [occupy]
      rcases hx : (reacquireLeaseByEmail principal s.now leaseId address ttlSeconds clientTag
        purpose).transact s.db with ⟨e | result, db'⟩
      · rw [Work.transact_error hx]
        exact h
      · exact ((occupied_acquireFrame email siteCode s.now).reacquireLeaseByEmail
          (fun _ _ _ _ _ hd => hd) principal leaseId address ttlSeconds clientTag
          purpose).transact h hx
  | release principal operationId leaseId =>
      left
      simp only [occupy]
      rcases hx : (releaseLease principal s.now operationId leaseId).transact s.db
        with ⟨e | result, db'⟩
      · rw [Work.transact_error hx]
        exact h
      · exact ((occupied_releaseFrame email siteCode s.now).releaseLease principal operationId
          leaseId).transact h hx
  | revokeUsage usageId =>
      simp only [occupy]
      rcases hx : revokeEmailSiteUsage s.db s.now usageId with e | ⟨u, db'⟩
      · exact Or.inl h
      -- only this call ends an occupancy, and it names the row
      · rcases revokeEmailSiteUsage_ok hx h with hocc | hmine
        · exact Or.inl hocc
        · exact Or.inr ⟨usageId, rfl, hmine⟩
  | createSite code displayName enabled =>
      left
      simp only [occupy]
      rcases hx : createUsageSite s.db s.now code displayName enabled with e | ⟨site, db'⟩
      · exact h
      · exact h.of_usages (createUsageSite_ok hx).1
  | updateSite code displayName enabled =>
      left
      simp only [occupy]
      rcases hx : updateUsageSite s.db code displayName enabled with e | ⟨site, db'⟩
      · exact h
      · exact h.of_usages (updateUsageSite_ok hx).1
  | deleteSite code =>
      left
      simp only [occupy]
      rcases hx : deleteUsageSite s.db code with e | db'
      · exact h
      · obtain ⟨u, hu, hactive, hslot⟩ := h
        exact ⟨u, (deleteUsageSite_ok hx).1 u hu hactive, hactive, hslot⟩
  | deleteMailboxes mailboxIds force =>
      left
      simp only [occupy]
      rcases hx : deleteMailboxesByIds s.db s.now mailboxIds force with e | ⟨result, db'⟩
      · exact h
      · exact (deleteMailboxesByIds_sites hx).2 _ _ h
  | advance microseconds => exact Or.inl h

/-- **Step lemma**: a site with an active occupancy stays. -/
theorem occupy_site {site : UsageSite} {u : EmailSiteUsage} (s : LeaseState) (e : SiteEvent)
    (hsite : site ∈ s.db.usageSites) (hu : u ∈ s.db.emailSiteUsages)
    (hactive : u.revokedAt = none) (hon : sqlEq u.usageSiteCode site.code = true) :
    ∃ site' ∈ (s.occupy e).db.usageSites, site'.code = site.code := by
  have hsame : ∀ {db' : Database}, site ∈ db'.usageSites →
      ∃ site' ∈ db'.usageSites, site'.code = site.code :=
    fun h => ⟨site, h, rfl⟩
  cases e with
  | acquire principal decrypt draws request shuffled =>
      simp only [occupy]
      rcases hx : (acquireLease principal s.now decrypt draws request shuffled).transact s.db
        with ⟨e | result, db'⟩
      · rw [Work.transact_error hx]
        exact hsame hsite
      · exact hsame (((usageSites_acquireFrame (site ∈ ·) s.now).acquireLease hsite principal decrypt
          draws request shuffled).transact hsite hx)
  | reacquire principal leaseId address ttlSeconds clientTag purpose =>
      simp only [occupy]
      rcases hx : (reacquireLeaseByEmail principal s.now leaseId address ttlSeconds clientTag
        purpose).transact s.db with ⟨e | result, db'⟩
      · rw [Work.transact_error hx]
        exact hsame hsite
      · exact hsame (((usageSites_acquireFrame (site ∈ ·) s.now).reacquireLeaseByEmail
          (fun _ _ _ _ _ hd => hd) principal leaseId address ttlSeconds clientTag
          purpose).transact hsite hx)
  | release principal operationId leaseId =>
      simp only [occupy]
      rcases hx : (releaseLease principal s.now operationId leaseId).transact s.db
        with ⟨e | result, db'⟩
      · rw [Work.transact_error hx]
        exact hsame hsite
      · exact hsame (((site_releaseFrame site s.now).releaseLease principal operationId
          leaseId).transact hsite hx)
  | revokeUsage usageId =>
      simp only [occupy]
      rcases hx : revokeEmailSiteUsage s.db s.now usageId with e | ⟨v, db'⟩
      · exact hsame hsite
      · have hkept : site ∈ db'.usageSites := by
          rw [revokeEmailSiteUsage_sites hx]
          exact hsite
        exact hsame hkept
  | createSite code displayName enabled =>
      simp only [occupy]
      rcases hx : createUsageSite s.db s.now code displayName enabled with e | ⟨v, db'⟩
      · exact hsame hsite
      · exact hsame ((createUsageSite_ok hx).2 site hsite)
  | updateSite code displayName enabled =>
      simp only [occupy]
      rcases hx : updateUsageSite s.db code displayName enabled with e | ⟨v, db'⟩
      · exact hsame hsite
      · exact (updateUsageSite_ok hx).2 site hsite
  | deleteSite code =>
      simp only [occupy]
      rcases hx : deleteUsageSite s.db code with e | db'
      · exact hsame hsite
      -- a site with an active occupancy is not deleted
      · exact hsame ((deleteUsageSite_ok hx).2 site hsite u hu hactive hon)
  | deleteMailboxes mailboxIds force =>
      simp only [occupy]
      rcases hx : deleteMailboxesByIds s.db s.now mailboxIds force with e | ⟨result, db'⟩
      · exact hsame hsite
      · have hkept : site ∈ db'.usageSites := by
          rw [(deleteMailboxesByIds_sites hx).1]
          exact hsite
        exact hsame hkept
  | advance microseconds => exact hsame hsite

/-! ## Every run -/

def HandsOut (s : LeaseState) (e : SiteEvent) (email siteCode : String) : Prop :=
  match e with
  | .acquire principal decrypt draws request shuffled =>
      ∃ result db', (acquireLease principal s.now decrypt draws request shuffled).transact s.db =
        (.ok result, db') ∧ result.HandsOut email siteCode
  | _ => False

def Revokes (email siteCode : String) (s : LeaseState) (e : SiteEvent) : Prop :=
  ∃ usageId, e = .revokeUsage usageId ∧ ∃ u ∈ s.db.emailSiteUsages, u.id = usageId ∧
    u.revokedAt = none ∧ u.inSlot email siteCode = true

/-- What the occupancies are worth in the runs from a state. -/
structure OccupancySafe (s₀ : LeaseState) : Prop where
  /-- At most one active row for an address and a site. -/
  unique : ∀ events, ∀ u ∈ (exec occupy s₀ events).db.emailSiteUsages,
    ∀ u' ∈ (exec occupy s₀ events).db.emailSiteUsages, u.revokedAt = none →
    u'.revokedAt = none → Text.lower u.allocatedEmail = Text.lower u'.allocatedEmail →
    u.usageSiteCode = u'.usageSiteCode → u = u'
  /-- A Microsoft acquire (the only one on a mailbox) that declares a site
  leaves exactly one active row for its address there. -/
  recorded : ∀ events principal decrypt draws request shuffled result db',
    (acquireLease principal (exec occupy s₀ events).now decrypt draws request
      shuffled).transact (exec occupy s₀ events).db = (.ok result, db') →
    request.mode = .mailRead → result.mailboxId ≠ none → request.namesSite = true →
    ∃ a c, result.allocatedEmail = some a ∧ result.usageSite = some c ∧
      sqlEq c (Text.normalize (request.usageSite.getD "")) = true ∧
      ∃! u, u ∈ db'.emailSiteUsages ∧ u.revokedAt = none ∧
        u.inSlot (Text.normalize a) c = true
  /-- Nothing is handed out twice for a site unless it was revoked in between. -/
  once : ∀ pre first mid second email siteCode,
    HandsOut (exec occupy s₀ pre) first email siteCode →
    HandsOut (exec occupy s₀ (pre ++ first :: mid)) second email siteCode →
    ∃ mid₁ e mid₂, mid = mid₁ ++ e :: mid₂ ∧
      Revokes email siteCode (exec occupy s₀ (pre ++ first :: mid₁)) e
  /-- A site with an active row is never deleted. -/
  kept : ∀ events e, ∀ site ∈ (exec occupy s₀ events).db.usageSites,
    ∀ u ∈ (exec occupy s₀ events).db.emailSiteUsages, u.revokedAt = none →
    sqlEq u.usageSiteCode site.code = true →
    ∃ site' ∈ (exec occupy s₀ (events ++ [e])).db.usageSites, site'.code = site.code

theorem occupied_of_handsOut {s : LeaseState} {e : SiteEvent} {email siteCode : String}
    (h : HandsOut s e email siteCode) : (s.occupy e).db.Occupied email siteCode := by
  cases e with
  | acquire principal decrypt draws request shuffled =>
      obtain ⟨result, db', hx, a, c, ha, hc, hemail, hsite⟩ := h
      obtain ⟨x, d, u, hx', hrecorded⟩ :=
        (acquireLease_records (Work.transact_eq_ok.mp hx)).1 c hc
      obtain rfl : a = x := Option.some.inj (ha.symm.trans hx')
      simp only [occupy]
      rw [hx]
      refine ⟨u, (hrecorded.usages u).mpr (Or.inr rfl), hrecorded.active, ?_⟩
      have hslot := hrecorded.slot
      simp only [EmailSiteUsage.inSlot, sqlEq, Bool.and_eq_true, decide_eq_true_eq]
        at hslot hemail hsite ⊢
      exact ⟨hslot.1.trans hemail, hslot.2.trans hsite⟩
  | _ => exact h.elim

theorem not_handsOut_of_occupied {s : LeaseState} {e : SiteEvent} {email siteCode : String}
    (h : s.db.Occupied email siteCode) : ¬ HandsOut s e email siteCode := by
  intro hout
  cases e with
  | acquire principal decrypt draws request shuffled =>
      obtain ⟨result, db', hx, hresult⟩ := hout
      exact (acquireLease_refuses h principal decrypt draws request shuffled).transact h hx
        hresult
  | _ => exact hout.elim

/-- **Occupancies are safe**, in every run from every state. -/
theorem occupancy_safe (s₀ : LeaseState) : OccupancySafe s₀ := by
  refine ⟨?_, ?_, ?_, ?_⟩
  · intro events u hu u' hu' _ _ hemail hsite
    apply Table.eq_of_clash hu hu'
    have hkey : Collation.key u.allocatedEmail = Collation.key u'.allocatedEmail := by
      rw [← Platform.key_lower u.allocatedEmail, hemail, Platform.key_lower]
    simp only [emailSiteUsageSchema, sqlEq, Bool.and_eq_true, decide_eq_true_eq]
    exact ⟨hkey, by rw [hsite]⟩
  · intro events principal decrypt draws request shuffled result db' hx hmode hmailbox hnames
    obtain ⟨hrecorded, hdeclared⟩ := acquireLease_records (Work.transact_eq_ok.mp hx)
    obtain ⟨c, hc, hcode⟩ := hdeclared hmailbox hmode hnames
    obtain ⟨a, d, u, ha, hsite⟩ := hrecorded c hc
    exact ⟨a, c, ha, hc, hcode, hsite.unique⟩
  · intro pre first mid second email siteCode hfirst hsecond
    have hocc := occupied_of_handsOut hfirst
    rw [exec_append, exec_cons] at hsecond
    rcases exec_holds_or_breaks (B := Revokes email siteCode)
      (fun s e h => occupy_occupied s e h) hocc mid with hlast | ⟨mid₁, e, mid₂, hmid, hbreaks⟩
    · exact absurd hsecond (not_handsOut_of_occupied hlast)
    · refine ⟨mid₁, e, mid₂, hmid, ?_⟩
      rw [exec_append, exec_cons]
      exact hbreaks
  · intro events e site hsite u hu hactive hon
    rw [exec_append]
    exact occupy_site _ e hsite hu hactive hon

end LeaseState

end

end MailboxService
