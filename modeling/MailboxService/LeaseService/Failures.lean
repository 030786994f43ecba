import MailboxService.LeaseService.Effects

/-!
# What a failed attempt leaves

The inversion lemmas of the acquiring paths for their exceptions. An attempt
whose exception the candidate loop steps over has left the session as it was,
has made it unusable, has rolled it back, or has left a lease row behind whose
claim was refused (`Orphaned`). On a session that takes no statements every
attempt raises and changes nothing.
-/

namespace MailboxService

open Foundation

section

variable [Platform]

/-! ## Refused claims -/

/-- An upsert that raises was refused, or broke the unique key. -/
theorem upsertLeaseClaim_error {db : Database} {s s' : Session Database} {now : ℕ}
    {lease : Lease} {a : Option String} {e : LeaseError} (hs : s.usable = true)
    (h : upsertLeaseClaim now lease a db s = (.error e, s')) :
    e = .integrity ∧ (s' = ⟨db, false⟩ ∨
      s' = ⟨s.db.withdrawClaims now lease, true⟩ ∧ s.db.claimRefused now lease a = true) := by
  rw [upsertLeaseClaim_of_usable hs] at h
  split at h
  · rename_i hrefused
    cases h
    exact ⟨rfl, Or.inr ⟨rfl, hrefused⟩⟩
  · split at h <;> cases h
    exact ⟨rfl, Or.inl rfl⟩

theorem unavailableOnIntegrity_error {db : Database} {s s' : Session Database}
    {x : LeaseWork Unit} {e : LeaseError}
    (h : unavailableOnIntegrity x db s = (.error e, s')) :
    ∃ e', x db s = (.error e', s') := by
  unfold unavailableOnIntegrity at h
  rcases hx : x db s with ⟨e' | v, s₁⟩
  · by_cases he : e' = .integrity
    · subst he
      rw [Work.handle_of_some hx rfl] at h
      obtain ⟨-, rfl⟩ := Prod.mk.inj h
      exact ⟨_, rfl⟩
    · rw [Work.handle_of_none hx (by cases e' <;> simp_all)] at h
      obtain ⟨-, rfl⟩ := Prod.mk.inj h
      exact ⟨_, rfl⟩
  · rw [Work.handle_of_ok hx] at h
    cases h

/-! ## Orphaned leases -/

/-- A lease row left in the session without a claim. -/
structure Orphaned (db db' : Database) (lease : Lease) : Prop where
  leases : ∀ l, l ∈ db'.leases ↔ l ∈ db.leases ∨ l = lease
  fresh : ∀ l ∈ db.leases, l.id ≠ lease.id
  claims : ∀ c ∈ db'.leaseClaims, c ∈ db.leaseClaims
  resources : ∃ p f, ∃ hf : providerResourceSchema.Keeps f,
    db'.providerResources = db.providerResources.updateWhere p f hf
  sites : db'.usageSites = db.usageSites
  usages : db'.emailSiteUsages = db.emailSiteUsages

/-- A claim refused after its lease row was flushed orphans the row. -/
theorem orphaned_of_insert (db : Database) (now : ℕ) {db₁ db₂ : Database} {lease : Lease}
    (hins : db₁.insertLease? lease = some db₂) (hleases : db₁.leases = db.leases)
    (hclaims : db₁.leaseClaims = db.leaseClaims)
    (hresources : ∃ p f, ∃ hf : providerResourceSchema.Keeps f,
      db₁.providerResources = db.providerResources.updateWhere p f hf)
    (hsites : db₁.usageSites = db.usageSites)
    (husages : db₁.emailSiteUsages = db.emailSiteUsages) :
    Orphaned db (db₂.withdrawClaims now lease) lease := by
  obtain ⟨hmem, hfresh, hframe⟩ := insertLease?_eq_some hins
  refine ⟨?_, ?_, ?_, ?_, ?_, ?_⟩
  · intro l
    rw [← hleases]
    exact hmem l
  · rw [← hleases]
    exact hfresh
  · intro c hc
    have hc' := (mem_withdrawClaims.mp hc).1
    rw [hframe] at hc'
    rw [← hclaims]
    exact hc'
  · have hr : (db₂.withdrawClaims now lease).providerResources = db₁.providerResources := by
      show db₂.providerResources = _
      rw [hframe]
    rw [hr]
    exact hresources
  · show db₂.usageSites = _
    rw [hframe, ← hsites]
  · show db₂.emailSiteUsages = _
    rw [hframe, ← husages]

theorem claimRefused_insert (db : Database) {db₁ db₂ : Database} {now : ℕ} {lease : Lease}
    {a : Option String} (hins : db₁.insertLease? lease = some db₂)
    (hclaims : db₁.leaseClaims = db.leaseClaims)
    (hemail : db₁.primaryEmailOf lease = db.primaryEmailOf lease) :
    db₂.claimRefused now lease a = db.claimRefused now lease a := by
  obtain ⟨-, -, hframe⟩ := insertLease?_eq_some hins
  have h₁ : db₂.primaryEmailOf lease = db₁.primaryEmailOf lease := by
    rw [hframe]
    rfl
  have h₂ : db₂.leaseClaims = db₁.leaseClaims := by rw [hframe]
  unfold Database.claimRefused Database.conflictingClaim
  rw [h₁, h₂, hclaims, hemail]

/-! ## Microsoft mailboxes -/

/-- Recording an occupancy raises nothing that is stepped over. -/
theorem recordEmailSiteUsage_error {db : Database} {s s' : Session Database}
    {principal : ClientPrincipal} {now : ℕ} {usageId email site leaseId : String}
    {mailboxId : Option String} {e : LeaseError} (hs : s.usable = true)
    (h : recordEmailSiteUsage principal now usageId email site mailboxId leaseId db s =
      (.error e, s')) : e.tryNext = false := by
  unfold recordEmailSiteUsage at h
  rw [Work.bind_of_ok (Work.read_of_usable hs)] at h
  cases husage : s.db.siteUsage? (Text.normalize email) site with
  | none =>
      simp only [husage] at h
      cases hins : s.db.insertEmailSiteUsage? _ with
      | none =>
          rw [Work.flush_of_none hs hins] at h
          cases h
          rfl
      | some d =>
          rw [Work.flush_of_some hs hins] at h
          cases h
  | some existing =>
      simp only [husage] at h
      by_cases hrevoked : existing.revokedAt.isNone = true
      · rw [if_pos hrevoked] at h
        cases h
        rfl
      · rw [if_neg hrevoked, Work.write_of_usable hs] at h
        cases h

theorem recordRequestedSite_error {db : Database} {s s' : Session Database}
    {principal : ClientPrincipal} {now : ℕ} {draws : Draws} {lease : Lease}
    {siteCode : Option String} {e : LeaseError} (hs : s.usable = true)
    (h : recordRequestedSite principal now draws lease siteCode db s = (.error e, s')) :
    e.tryNext = false := by
  unfold recordRequestedSite at h
  cases siteCode with
  | none => cases h
  | some code =>
      cases ha : lease.allocatedEmail with
      | none =>
          simp only [ha] at h
          cases h
      | some a =>
          simp only [ha] at h
          split at h
          · exact recordEmailSiteUsage_error hs h
          · cases h

theorem recordOptionalSite_error {db : Database} {s s' : Session Database}
    {principal : ClientPrincipal} {now : ℕ} {usageId address leaseId : String}
    {usageSite : Option String} {e : LeaseError} (hs : s.usable = true) :
    recordOptionalSite principal now usageId usageSite address leaseId db s ≠
      (.error e, s') := by
  intro h
  cases (recordOptionalSite_frame hs h).1

theorem primaryEmailOf_touchMailbox {db : Database} {mailboxId : String} {now : ℕ}
    (lease : Lease) :
    (db.touchMailbox mailboxId now).primaryEmailOf lease = db.primaryEmailOf lease := by
  unfold Database.primaryEmailOf
  split
  · rw [touchMailbox_email]
  · rfl
  · rfl

theorem mailboxLeaseResult_error {decrypt : String → Except String String} {lease : Lease}
    {m : Mailbox} {siteCode : Option String} {e : LeaseError}
    (h : mailboxLeaseResult decrypt lease m siteCode = .error e) : e.tryNext = false := by
  unfold mailboxLeaseResult at h
  simp only at h
  split at h
  · split at h
    · cases h
      rfl
    · cases h
  · cases h

/-- **Failed mailbox attempt**: the session is as it was, unusable, or holds an
orphaned lease. -/
theorem acquireMailboxLease_error {db : Database} {s s' : Session Database}
    {principal : ClientPrincipal} {now : ℕ} {decrypt : String → Except String String}
    {draws : Draws} {request : AcquireRequest} {wantsPlusAlias : Bool}
    {siteCode : Option String} {providerType : String} {e : LeaseError}
    (hs : s.usable = true)
    (h : acquireMailboxLease principal now decrypt draws request wantsPlusAlias siteCode
      providerType db s = (.error e, s')) (he : e.tryNext = true) :
    (pickMailbox s.db now draws request wantsPlusAlias siteCode providerType = .error e ∧
      s' = s) ∨ s' = ⟨db, false⟩ ∨ ∃ m a d,
      pickMailbox s.db now draws request wantsPlusAlias siteCode providerType = .ok (m, a) ∧
      s.db.claimRefused now (mailboxLease principal now draws request m a) a = true ∧
      s' = ⟨d, true⟩ ∧ Orphaned s.db d (mailboxLease principal now draws request m a) := by
  unfold acquireMailboxLease at h
  rw [Work.bind_of_ok (Work.read_of_usable hs)] at h
  cases hpick : pickMailbox s.db now draws request wantsPlusAlias siteCode providerType with
  | error e' =>
      rw [hpick, Work.bind_of_error Work.ofExcept_apply] at h
      cases h
      exact Or.inl ⟨rfl, rfl⟩
  | ok picked =>
      obtain ⟨m, a⟩ := picked
      rw [hpick, Work.bind_of_ok Work.ofExcept_apply] at h
      simp only at h
      cases hins : (s.db.touchMailbox m.id now).insertLease?
        (mailboxLease principal now draws request m a) with
      | none =>
          rw [Work.bind_of_error (Work.flush_of_none hs hins)] at h
          cases h
          cases he
      | some db₂ =>
          rw [Work.bind_of_ok (Work.flush_of_some hs hins), Work.bind_eq_error] at h
          rcases h with hclaim | ⟨_, s₃, hclaim, h⟩
          -- a refused claim leaves the lease row that was flushed before it
          · obtain ⟨e', hclaim'⟩ := unavailableOnIntegrity_error hclaim
            obtain ⟨-, hs' | ⟨hs', hrefused⟩⟩ := upsertLeaseClaim_error rfl hclaim'
            · exact Or.inr (Or.inl hs')
            · have hnone : ∃ p f, ∃ hf : providerResourceSchema.Keeps f,
                  s.db.providerResources = s.db.providerResources.updateWhere p f hf :=
                ⟨fun _ => false, id, fun _ => ⟨rfl, fun _ => rfl⟩,
                  (Table.updateWhere_of_none fun _ _ => rfl).symm⟩
              have horphan := orphaned_of_insert s.db now hins rfl rfl hnone
                rfl rfl
              rw [claimRefused_insert s.db hins rfl (primaryEmailOf_touchMailbox _)]
                at hrefused
              exact Or.inr (Or.inr ⟨m, a, _, rfl, hrefused, hs', horphan⟩)
          · obtain ⟨-, husable, -⟩ := upsertLeaseClaim_ok (unavailableOnIntegrity_ok hclaim)
            rw [Work.bind_eq_error] at h
            rcases h with hsite | ⟨_, s₄, hsite, h⟩
            · rw [recordRequestedSite_error husable hsite] at he
              cases he
            · rw [mailboxLeaseResult_error (Prod.mk.inj h).1] at he
              cases he

/-! ## SMSBower resources -/

theorem primaryEmailOf_updateResource (db : Database) (resourceId : String)
    (f : MailboxProviderResource → MailboxProviderResource)
    (hf : providerResourceSchema.Keeps f) (hemail : ∀ r, (f r).primaryEmail = r.primaryEmail)
    (lease : Lease) :
    (db.updateResource resourceId f hf).primaryEmailOf lease = db.primaryEmailOf lease := by
  have hr : ∀ k, ((db.updateResource resourceId f hf).providerResources.get? k).map
      MailboxProviderResource.primaryEmail =
      (db.providerResources.get? k).map MailboxProviderResource.primaryEmail := by
    intro k
    unfold Database.updateResource
    rw [Table.get?_updateWhere, Option.map_map]
    congr 1
    funext r
    simp only [Function.comp_apply]
    split
    · exact hemail r
    · rfl
  unfold Database.primaryEmailOf
  split
  · rfl
  · rw [hr]
  · rfl

/-- **Failed resource attempt**: the session is as it was, unusable, or holds
an orphaned lease. -/
theorem acquireSmsbowerLease_error {db : Database} {s s' : Session Database}
    {principal : ClientPrincipal} {now : ℕ} {draws : Draws} {request : AcquireRequest}
    {usageSite : Option String} {e : LeaseError} (hs : s.usable = true)
    (h : acquireSmsbowerLease principal now draws request usageSite db s = (.error e, s'))
    (he : e.tryNext = true) :
    (pickResource s.db request.preferredEmail = .error e ∧ s' = s) ∨ s' = ⟨db, false⟩ ∨
      ∃ r d, pickResource s.db request.preferredEmail = .ok r ∧
      ∃ lease, lease = resourceLease principal now draws.leaseId request.ttlSeconds
          request.clientTag request.purpose "smsbower_gmail" r.providerInstanceId r.id
          (Text.normalize r.primaryEmail) ∧
        s.db.claimRefused now lease (some (Text.normalize r.primaryEmail)) = true ∧
        s' = ⟨d, true⟩ ∧ Orphaned s.db d lease := by
  unfold acquireSmsbowerLease at h
  rw [Work.bind_of_ok (Work.read_of_usable hs)] at h
  cases hpick : pickResource s.db request.preferredEmail with
  | error e' =>
      rw [hpick, Work.bind_of_error Work.ofExcept_apply] at h
      cases h
      exact Or.inl ⟨rfl, rfl⟩
  | ok r =>
      rw [hpick, Work.bind_of_ok Work.ofExcept_apply] at h
      cases hins : (s.db.updateResource r.id (fun r => r.claim now)
        (fun _ => ⟨rfl, fun _ => rfl⟩)).insertLease? (resourceLease principal now
          draws.leaseId request.ttlSeconds request.clientTag request.purpose "smsbower_gmail"
          r.providerInstanceId r.id (Text.normalize r.primaryEmail)) with
      | none =>
          rw [Work.bind_of_error (Work.flush_of_none hs hins)] at h
          cases h
          cases he
      | some db₂ =>
          rw [Work.bind_of_ok (Work.flush_of_some hs hins), Work.bind_eq_error] at h
          rcases h with hclaim | ⟨_, s₃, hclaim, h⟩
          · obtain ⟨e', hclaim'⟩ := unavailableOnIntegrity_error hclaim
            obtain ⟨-, hs' | ⟨hs', hrefused⟩⟩ := upsertLeaseClaim_error rfl hclaim'
            · exact Or.inr (Or.inl hs')
            · have horphan := orphaned_of_insert s.db now hins rfl rfl
                ⟨_, fun r => r.claim now, fun _ => ⟨rfl, fun _ => rfl⟩, rfl⟩ rfl rfl
              have hemail := primaryEmailOf_updateResource s.db r.id (fun r => r.claim now)
                (fun _ => ⟨rfl, fun _ => rfl⟩) (fun _ => rfl)
              rw [claimRefused_insert s.db hins rfl (hemail _)] at hrefused
              exact Or.inr (Or.inr ⟨r, _, rfl, _, rfl, hrefused, hs', horphan⟩)
          · obtain ⟨-, husable, -⟩ := upsertLeaseClaim_ok (unavailableOnIntegrity_ok hclaim)
            rw [Work.bind_eq_error] at h
            rcases h with hsite | ⟨_, s₄, -, h⟩
            · exact absurd hsite (recordOptionalSite_error husable)
            · cases h

/-! ## On-demand mailboxes -/

theorem insertOnDemandLease_error {db : Database} {s s' : Session Database} {now : ℕ}
    {resource : MailboxProviderResource} {lease : Lease} {address : String} {e : LeaseError}
    (hs : s.usable = true)
    (h : insertOnDemandLease now resource lease address db s = (.error e, s')) :
    e = .integrity := by
  unfold insertOnDemandLease at h
  cases hresource : s.db.insertProviderResource? resource with
  | none =>
      rw [Work.bind_of_error (Work.flush_of_none hs hresource)] at h
      cases h
      rfl
  | some db₁ =>
      rw [Work.bind_of_ok (Work.flush_of_some hs hresource)] at h
      cases hlease : db₁.insertLease? lease with
      | none =>
          rw [Work.bind_of_error (Work.flush_of_none rfl hlease)] at h
          cases h
          rfl
      | some db₂ =>
          rw [Work.bind_of_ok (Work.flush_of_some rfl hlease)] at h
          exact (upsertLeaseClaim_error rfl h).1

theorem provisionedAddress_error {providerType : String}
    {provision : Except ProvisionFailure OnDemandProvisionResult} {e : LeaseError}
    (h : provisionedAddress providerType provision = .error e) : e.tryNext = true := by
  unfold provisionedAddress at h
  split at h
  · cases h
    rfl
  · split at h <;> cases h <;> rfl
  · cases h
    rfl
  · simp only at h
    split at h <;> cases h
    rfl

/-- **Failed on-demand attempt**: the exception is stepped over, and the
session is as it was or rolled back. -/
theorem acquireOnDemandLease_error {db : Database} {s s' : Session Database}
    {principal : ClientPrincipal} {now : ℕ} {draws : Draws} {request : AcquireRequest}
    {usageSite : Option String} {providerType : String} {e : LeaseError}
    (hs : s.usable = true)
    (h : acquireOnDemandLease principal now draws request usageSite providerType db s =
      (.error e, s')) :
    e.tryNext = true ∧ ((provisionedAddress providerType draws.provision = .error e ∧ s' = s) ∨
      s' = ⟨db, true⟩) := by
  unfold acquireOnDemandLease at h
  cases hprov : provisionedAddress providerType draws.provision with
  | error e' =>
      rw [hprov, Work.bind_of_error Work.ofExcept_apply] at h
      cases h
      exact ⟨provisionedAddress_error hprov, Or.inl ⟨rfl, rfl⟩⟩
  | ok provisioned =>
      obtain ⟨provisioned, address⟩ := provisioned
      rw [hprov, Work.bind_of_ok Work.ofExcept_apply] at h
      simp only at h
      rw [Work.bind_eq_error] at h
      rcases h with hinsert | ⟨_, s₂, hinsert, h⟩
      · unfold rollbackOnIntegrity at hinsert
        rcases hx : insertOnDemandLease now
          (onDemandResource providerType draws.resourceId now provisioned address)
          (resourceLease principal now draws.leaseId request.ttlSeconds request.clientTag
            request.purpose providerType _ _ address) address db s with ⟨e' | v, s₁⟩
        · have he' := insertOnDemandLease_error hs hx
          subst he'
          rw [Work.handle_of_some hx rfl] at hinsert
          cases hinsert
          exact ⟨rfl, Or.inr rfl⟩
        · rw [Work.handle_of_ok hx] at hinsert
          cases hinsert
      · have hparts := rollbackOnIntegrity_ok hinsert
        simp only [insertOnDemandLease, Work.bind_eq_ok] at hparts
        obtain ⟨_, s₄, -, _, s₅, -, hclaim⟩ := hparts
        obtain ⟨-, husable, -⟩ := upsertLeaseClaim_ok hclaim
        rw [Work.bind_eq_error] at h
        rcases h with hsite | ⟨_, s₆, -, h⟩
        · exact absurd hsite (recordOptionalSite_error husable)
        · cases h

/-! ## One provider -/

/-- The usage site of an attempt, or the complaint about it. -/
def requestedSite (db : Database) (request : AcquireRequest) (providerType : String) :
    Except LeaseError (Option String) :=
  if request.mode = .mailRead ∧ providerType = defaultProviderType then
    if request.namesSite then
      (resolveEnabledUsageSite db (request.usageSite.getD "")).map some
    else if request.wantsPlusAlias then .ok none
    else .error (.leaseUsageSite "使用主邮箱时必须提供 usage_site")
  else .ok none

theorem resolveRequestedSite_of_usable {db : Database} {s : Session Database}
    {request : AcquireRequest} {providerType : String} (hs : s.usable = true) :
    resolveRequestedSite request providerType db s =
      (requestedSite s.db request providerType, s) := by
  unfold resolveRequestedSite requestedSite
  split
  · split
    · rw [Work.bind_of_ok (Work.read_of_usable hs)]
      cases hsite : resolveEnabledUsageSite s.db (request.usageSite.getD "") with
      | error e =>
          rw [Work.bind_of_error Work.ofExcept_apply]
          rfl
      | ok code =>
          rw [Work.bind_of_ok Work.ofExcept_apply]
          rfl
    · split <;> rfl
  · rfl

/-- What an attempt decides before it writes: the exception it ends in, if it
finds nothing to hand out. -/
def selectionOf (db : Database) (now : ℕ) (draws : Draws) (request : AcquireRequest)
    (providerType : String) : Except LeaseError Unit :=
  if providerType ∉ allProviderTypes then
    .error (.providerUnsupported ("不支持的 provider：" ++ providerType))
  else if providerType ≠ defaultProviderType ∧ request.wantsPlusAlias = true then
    .error (.leaseMode "非 microsoft provider 本轮不支持 plus alias")
  else
    match requestedSite db request providerType with
    | .error e => .error e
    | .ok siteCode =>
        if providerType ∈ onDemandProviderTypes then
          (provisionedAddress providerType draws.provision).map fun _ => ()
        else if providerType = "smsbower_gmail" then
          (pickResource db request.preferredEmail).map fun _ => ()
        else
          (pickMailbox db now draws request request.wantsPlusAlias siteCode
            providerType).map fun _ => ()

/-- The attempt flushes its lease and then has its claim refused: told from the
database it starts from. -/
def Database.orphansLease (db : Database) (principal : ClientPrincipal) (now : ℕ)
    (draws : Draws) (request : AcquireRequest) (providerType : String) : Bool :=
  match requestedSite db request providerType with
  | .error _ => false
  | .ok siteCode =>
      if providerType ∈ onDemandProviderTypes then false
      else if providerType = "smsbower_gmail" then
        match pickResource db request.preferredEmail with
        | .error _ => false
        | .ok r =>
            let address := Text.normalize r.primaryEmail
            db.claimRefused now (resourceLease principal now draws.leaseId request.ttlSeconds
              request.clientTag request.purpose "smsbower_gmail" r.providerInstanceId r.id
              address) (some address)
      else
        match pickMailbox db now draws request request.wantsPlusAlias siteCode
            providerType with
        | .error _ => false
        | .ok (m, a) => db.claimRefused now (mailboxLease principal now draws request m a) a

/-- **Failed attempt**: after an exception that is stepped over, either nothing
was found and the session is as it was, or it is unusable, rolled back by an
on-demand candidate, or holds an orphaned lease. -/
theorem acquireSingleProviderLease_error {db : Database} {s s' : Session Database}
    {principal : ClientPrincipal} {now : ℕ} {decrypt : String → Except String String}
    {draws : Draws} {request : AcquireRequest} {providerType : String} {e : LeaseError}
    (hmode : request.mode = .mailRead) (hs : s.usable = true)
    (h : acquireSingleProviderLease principal now decrypt draws request providerType db s =
      (.error e, s')) (he : e.tryNext = true) :
    (selectionOf s.db now draws request providerType = .error e ∧ s' = s) ∨
      s' = ⟨db, false⟩ ∨
      (providerType ∈ onDemandProviderTypes ∧ s' = ⟨db, true⟩) ∨
      (providerType ∉ onDemandProviderTypes ∧
        s.db.orphansLease principal now draws request providerType = true ∧
        ∃ d lease, lease.id = draws.leaseId ∧ s' = ⟨d, true⟩ ∧ Orphaned s.db d lease) := by
  unfold acquireSingleProviderLease at h
  unfold selectionOf Database.orphansLease
  split at h
  · cases h
    cases he
  rename_i hknown
  split at h
  · cases h
    cases he
  rename_i hplus
  rw [if_neg hknown, if_neg hplus]
  cases hsite : requestedSite s.db request providerType with
  | error e' =>
      rw [Work.bind_of_error ((resolveRequestedSite_of_usable hs).trans (by rw [hsite]))] at h
      cases h
      exact Or.inl ⟨rfl, rfl⟩
  | ok siteCode =>
      rw [Work.bind_of_ok ((resolveRequestedSite_of_usable hs).trans (by rw [hsite]))] at h
      by_cases hondemand : providerType ∈ onDemandProviderTypes
      · rw [if_pos ⟨hmode, hondemand⟩] at h
        simp only [if_pos hondemand]
        obtain ⟨-, ⟨hprov, hs'⟩ | hs'⟩ := acquireOnDemandLease_error hs h
        · rw [hprov]
          exact Or.inl ⟨rfl, hs'⟩
        · exact Or.inr (Or.inr (Or.inl ⟨hondemand, hs'⟩))
      · rw [if_neg fun hboth => hondemand hboth.2] at h
        simp only [if_neg hondemand]
        by_cases hsmsbower : providerType = "smsbower_gmail"
        · rw [if_pos hsmsbower, if_neg (not_not.mpr hmode)] at h
          simp only [if_pos hsmsbower]
          -- no row, an unusable session, or a lease row whose claim was refused
          rcases acquireSmsbowerLease_error hs h he with ⟨hpick, hs'⟩ | hs' |
            ⟨r, d, hpick, lease, hlease, hrefused, hs', horphan⟩
          · rw [hpick]
            exact Or.inl ⟨rfl, hs'⟩
          · exact Or.inr (Or.inl hs')
          · simp only [hpick]
            subst hlease
            exact Or.inr (Or.inr (Or.inr ⟨hondemand, hrefused, d, _, rfl, hs', horphan⟩))
        · rw [if_neg hsmsbower] at h
          simp only [if_neg hsmsbower]
          rcases acquireMailboxLease_error hs h he with ⟨hpick, hs'⟩ | hs' |
            ⟨m, a, d, hpick, hrefused, hs', horphan⟩
          · rw [hpick]
            exact Or.inl ⟨rfl, hs'⟩
          · exact Or.inr (Or.inl hs')
          · simp only [hpick]
            exact Or.inr (Or.inr (Or.inr ⟨hondemand, hrefused, d, _, rfl, hs', horphan⟩))

theorem acquireSingleProviderLease_of_selection {db : Database} {s : Session Database}
    {principal : ClientPrincipal} {now : ℕ} {decrypt : String → Except String String}
    {draws : Draws} {request : AcquireRequest} {providerType : String} {e : LeaseError}
    (hmode : request.mode = .mailRead) (hs : s.usable = true)
    (h : selectionOf s.db now draws request providerType = .error e) :
    acquireSingleProviderLease principal now decrypt draws request providerType db s =
      (.error e, s) := by
  unfold selectionOf at h
  unfold acquireSingleProviderLease
  split at h
  · rename_i hknown
    rw [if_pos hknown]
    cases h
    rfl
  rename_i hknown
  rw [if_neg hknown]
  split at h
  · rename_i hplus
    rw [if_pos hplus]
    cases h
    rfl
  rename_i hplus
  rw [if_neg hplus]
  have hsite : resolveRequestedSite request providerType db s = _ :=
    resolveRequestedSite_of_usable hs
  cases hrequested : requestedSite s.db request providerType with
  | error e' =>
      rw [hrequested] at h hsite
      cases h
      exact Work.bind_of_error hsite
  | ok siteCode =>
      rw [hrequested] at h hsite
      simp only at h
      refine (Work.bind_of_ok hsite).trans ?_
      -- each of the three selections fails before anything is written
      by_cases hondemand : providerType ∈ onDemandProviderTypes
      · rw [if_pos hondemand] at h
        rw [if_pos ⟨hmode, hondemand⟩]
        cases hprov : provisionedAddress providerType draws.provision with
        | error e' =>
            rw [hprov] at h
            cases h
            unfold acquireOnDemandLease
            rw [hprov]
            exact Work.bind_of_error Work.ofExcept_apply
        | ok _ =>
            rw [hprov] at h
            cases h
      · rw [if_neg hondemand] at h
        rw [if_neg fun hboth => hondemand hboth.2]
        split at h
        · rename_i hsmsbower
          rw [if_pos hsmsbower, if_neg (not_not.mpr hmode)]
          cases hpick : pickResource s.db request.preferredEmail with
          | error e' =>
              rw [hpick] at h
              cases h
              unfold acquireSmsbowerLease
              rw [Work.bind_of_ok (Work.read_of_usable hs), hpick]
              exact Work.bind_of_error Work.ofExcept_apply
          | ok _ =>
              rw [hpick] at h
              cases h
        · rename_i hsmsbower
          rw [if_neg hsmsbower]
          cases hpick : pickMailbox s.db now draws request request.wantsPlusAlias siteCode
            providerType with
          | error e' =>
              rw [hpick] at h
              cases h
              unfold acquireMailboxLease
              rw [Work.bind_of_ok (Work.read_of_usable hs), hpick]
              exact Work.bind_of_error Work.ofExcept_apply
          | ok _ =>
              rw [hpick] at h
              cases h

/-- **Unusable session**: every attempt raises and leaves it as it is. -/
theorem acquireSingleProviderLease_of_unusable (db : Database) {s : Session Database}
    {principal : ClientPrincipal} {now : ℕ} {decrypt : String → Except String String}
    {draws : Draws} {request : AcquireRequest} {providerType : String}
    (hs : s.usable = false) :
    ∃ e, acquireSingleProviderLease principal now decrypt draws request providerType db s =
      (.error e, s) := by
  unfold acquireSingleProviderLease
  split
  · exact ⟨_, rfl⟩
  split
  · exact ⟨_, rfl⟩
  rcases hsite : resolveRequestedSite request providerType db s with ⟨e | siteCode, s₁⟩
  · rw [Work.bind_of_error hsite]
    refine ⟨e, ?_⟩
    unfold resolveRequestedSite at hsite
    split at hsite
    · split at hsite
      · rw [Work.bind_of_error (Work.read_of_unusable hs)] at hsite
        rw [(Prod.mk.inj hsite).2]
      · split at hsite
        · cases hsite
        · rw [(Prod.mk.inj hsite).2]
    · cases hsite
  · rw [Work.bind_of_ok hsite, resolveRequestedSite_ok hsite]
    split
    · unfold acquireOnDemandLease
      rcases hprov : provisionedAddress providerType draws.provision with e | ⟨result, address⟩
      · exact ⟨e, Work.bind_of_error Work.ofExcept_apply⟩
      · rw [Work.bind_of_ok Work.ofExcept_apply]
        refine ⟨.pendingRollback, Work.bind_of_error ?_⟩
        unfold rollbackOnIntegrity
        refine Work.handle_of_none ?_ rfl
        exact Work.bind_of_error (Work.flush_of_unusable hs)
    split
    · split
      · exact ⟨_, rfl⟩
      · exact ⟨_, Work.bind_of_error (Work.read_of_unusable hs)⟩
    · exact ⟨_, Work.bind_of_error (Work.read_of_unusable hs)⟩

end

end MailboxService
