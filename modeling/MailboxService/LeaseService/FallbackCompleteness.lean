import MailboxService.LeaseService.LeaseRuns

/-!
# Completeness of the provider fallback

A mail-read acquire tries its candidates in a shuffled order. It should find
every candidate that would succeed alone and commit that candidate's effects
and nothing else, whatever the order. It does so for every order exactly when
the candidates that would fail alone fail cleanly: by an exception the loop
steps over, with the session as it was. A candidate that fails otherwise, put
first, blocks the ones behind it or leaves its lease row to be committed.
-/

namespace MailboxService

open Foundation

section

variable [Platform]

/-- The claim on one shuffle: if a candidate would succeed alone, the request
succeeds, with exactly the effects of one candidate alone. -/
def FallbackComplete (db : Database) (principal : ClientPrincipal) (now : ℕ)
    (decrypt : String → Except String String) (draws : String → Draws)
    (request : AcquireRequest) (shuffled : List String) : Prop :=
  (∃ p ∈ shuffled, Work.Succeeds (attemptProvider principal now decrypt draws request p) db) →
  ∃ p ∈ shuffled, ∃ result db',
    (attemptProvider principal now decrypt draws request p).transact db = (.ok result, db') ∧
    (acquireLease principal now decrypt draws request shuffled).transact db =
      (.ok result, db')

/-- The candidate succeeds alone, or fails cleanly. -/
def StepsAside (db : Database) (principal : ClientPrincipal) (now : ℕ)
    (decrypt : String → Except String String) (draws : String → Draws)
    (request : AcquireRequest) (p : String) : Prop :=
  Work.Succeeds (attemptProvider principal now decrypt draws request p) db ∨
    Work.FailsCleanly LeaseError.tryNext
      (attemptProvider principal now decrypt draws request p) db

theorem acquireLease_mailRead {db : Database} {s : Session Database}
    {principal : ClientPrincipal} {now : ℕ} {decrypt : String → Except String String}
    {draws : String → Draws} {request : AcquireRequest} {shuffled : List String}
    (hmode : request.mode = .mailRead) (hscope : "mailboxes:acquire" ∈ principal.scopes) :
    acquireLease principal now decrypt draws request shuffled db s =
      attemptProviders principal now decrypt draws request shuffled db s := by
  unfold acquireLease
  rw [if_pos hmode]
  refine Work.bind_of_ok (a := ()) ?_
  unfold ClientPrincipal.requireScope
  rw [if_pos hscope]
  rfl

/-- **Sufficiency**: candidates that step aside leave the fallback complete. -/
theorem fallbackComplete_of_stepsAside {db : Database} {principal : ClientPrincipal}
    {now : ℕ} {decrypt : String → Except String String} {draws : String → Draws}
    {request : AcquireRequest} {shuffled : List String} (hmode : request.mode = .mailRead)
    (hscope : "mailboxes:acquire" ∈ principal.scopes)
    (h : ∀ p ∈ shuffled, StepsAside db principal now decrypt draws request p) :
    FallbackComplete db principal now decrypt draws request shuffled := by
  intro hsome
  obtain ⟨p, hp, result, db', hattempt, hloop⟩ := Work.tryEach_of_clean h hsome
  refine ⟨p, hp, result, db', Work.transact_eq_ok.mpr hattempt,
    Work.transact_eq_ok.mpr ?_⟩
  rw [acquireLease_mailRead hmode hscope]
  exact hloop

/-! ## Tainted sessions -/

/-- The session holds a lease row with an id the database had not. -/
structure Tainted (db : Database) (leaseId : String) (s : Session Database) : Prop where
  usable : s.usable = true
  kept : ∀ l ∈ db.leases, l ∈ s.db.leases
  fresh : ∀ l ∈ db.leases, l.id ≠ leaseId
  row : ∃ l ∈ s.db.leases, l.id = leaseId

theorem Tainted.orphaned {db d : Database} {leaseId : String} {s : Session Database}
    {lease : Lease} (h : Tainted db leaseId s) (horphan : Orphaned s.db d lease) :
    Tainted db leaseId ⟨d, true⟩ := by
  obtain ⟨l, hl, hid⟩ := h.row
  exact ⟨rfl, fun l hl => (horphan.leases l).mpr (Or.inl (h.kept l hl)), h.fresh, l,
    (horphan.leases l).mpr (Or.inl hl), hid⟩

theorem tainted_of_orphaned {db d : Database} {lease : Lease} (h : Orphaned db d lease) :
    Tainted db lease.id ⟨d, true⟩ :=
  ⟨rfl, fun l hl => (h.leases l).mpr (Or.inl hl), h.fresh, lease,
    (h.leases lease).mpr (Or.inr rfl), rfl⟩

/-- **Taint lemma**: what an attempt commits from a tainted session is not what
any candidate commits alone. -/
theorem Tainted.not_alone {db db' : Database} {principal : ClientPrincipal} {now : ℕ}
    {decrypt : String → Except String String} {draws : String → Draws}
    {request : AcquireRequest} {leaseId p q : String} {s : Session Database}
    {result result' : LeaseAcquireResult} (h : Tainted db leaseId s)
    (hq : attemptProvider principal now decrypt draws request q db s =
      (.ok result, ⟨db', true⟩)) :
    attemptProvider principal now decrypt draws request p db ⟨db, true⟩ ≠
      (.ok result', ⟨db', true⟩) := by
  intro hp
  obtain ⟨-, lease, -, hgranted⟩ := acquireSingleProviderLease_ok hq rfl
  obtain ⟨-, lease', -, hgranted'⟩ := acquireSingleProviderLease_ok hp rfl
  obtain ⟨l, hl, hid⟩ := h.row
  -- both rows are new, but alone there is one new row
  have hrow : l ∈ db'.leases :=
    (hgranted.put.leases l).mpr (Or.inl ⟨hl, hgranted.fresh l hl⟩)
  have hrow' : lease ∈ db'.leases := (hgranted.put.leases lease).mpr (Or.inr rfl)
  have hl' : l = lease' := by
    rcases (hgranted'.put.leases l).mp hrow with ⟨hl₀, -⟩ | heq
    · exact absurd hid (h.fresh l hl₀)
    · exact heq
  have hlease' : lease = lease' := by
    rcases (hgranted'.put.leases lease).mp hrow' with ⟨hl₀, -⟩ | heq
    · exact absurd rfl (hgranted.fresh lease (h.kept lease hl₀))
    · exact heq
  exact hgranted.fresh l hl (by rw [hl', hlease'])

/-! ## On-demand candidates behind an orphaned lease -/

theorem insertProviderResource?_eq_some {db db' : Database}
    {resource : MailboxProviderResource} (h : db.insertProviderResource? resource = some db') :
    db'.providerResources.get? resource.id = some resource ∧
      db' = { db with providerResources := db'.providerResources } := by
  unfold Database.insertProviderResource? at h
  rw [Option.map_eq_some_iff] at h
  obtain ⟨resources, hins, rfl⟩ := h
  exact ⟨Table.get?_eq_some.mpr ⟨(Table.mem_insert? hins).mpr (Or.inr rfl), rfl⟩, rfl⟩

theorem primaryEmailOf_inserted {db db₁ db₂ : Database} {resource : MailboxProviderResource}
    {lease : Lease} (hmailbox : lease.mailboxId = none)
    (hresource : lease.providerResourceId = some resource.id)
    (h₁ : db.insertProviderResource? resource = some db₁)
    (h₂ : db₁.insertLease? lease = some db₂) :
    db₂.primaryEmailOf lease = resource.primaryEmail := by
  obtain ⟨-, -, hframe⟩ := insertLease?_eq_some h₂
  have hget : db₂.providerResources.get? resource.id = some resource := by
    rw [hframe]
    exact (insertProviderResource?_eq_some h₁).1
  unfold Database.primaryEmailOf
  simp only [hmailbox, hresource, hget, Option.map_some, Option.getD_some]

/-- Inserting an on-demand lease succeeds behind an orphaned lease if it
succeeds without it: there are fewer claims, and no further key is taken. -/
theorem insertOnDemandLease_of_orphaned {db d : Database} {s' : Session Database} {now : ℕ}
    {orphan lease : Lease} {resource : MailboxProviderResource} {address : String} {u : Unit}
    (horphan : Orphaned db d orphan) (hne : orphan.id ≠ lease.id)
    (hmailbox : lease.mailboxId = none)
    (hresource : lease.providerResourceId = some resource.id)
    (h : insertOnDemandLease now resource lease address db ⟨db, true⟩ = (.ok u, s')) :
    ∃ d', insertOnDemandLease now resource lease address db ⟨d, true⟩ =
      (.ok (), ⟨d', true⟩) := by
  simp only [insertOnDemandLease, Work.bind_eq_ok] at h
  obtain ⟨_, s₁, hflush₁, _, s₂, hflush₂, hclaim⟩ := h
  obtain ⟨-, db₁, h₁, rfl⟩ := Work.flush_eq_ok.mp hflush₁
  obtain ⟨-, db₂, h₂, rfl⟩ := Work.flush_eq_ok.mp hflush₂
  rw [upsertLeaseClaim_of_usable rfl] at hclaim
  split at hclaim
  · cases hclaim
  rename_i hfree
  -- the resource
  obtain ⟨d₁, hd₁⟩ : ∃ d₁, d.insertProviderResource? resource = some d₁ := by
    obtain ⟨p, f, hf, hresources⟩ := horphan.resources
    unfold Database.insertProviderResource? at h₁ ⊢
    rw [Option.map_eq_some_iff] at h₁
    obtain ⟨_, hins, -⟩ := h₁
    obtain ⟨t, ht⟩ := Table.insert?_updateWhere (p := p) (f := f) hins
    rw [hresources]
    exact ⟨_, Option.map_eq_some_iff.mpr ⟨t, ht, rfl⟩⟩
  have hframe₁ := (insertProviderResource?_eq_some h₁).2
  have hdframe₁ := (insertProviderResource?_eq_some hd₁).2
  -- the lease
  obtain ⟨d₂, hd₂⟩ : ∃ d₂, d₁.insertLease? lease = some d₂ := by
    have hfresh := (insertLease?_eq_some h₂).2.1
    have hleases : ∃ t, d₁.leases.insert? lease = some t := by
      apply Table.insert?_isSome
      intro q hq
      refine ⟨?_, rfl⟩
      rw [hdframe₁] at hq
      rcases (horphan.leases q).mp hq with hq | rfl
      · rw [hframe₁] at hfresh
        exact hfresh q hq
      · exact hne
    obtain ⟨t, ht⟩ := hleases
    unfold Database.insertLease?
    exact ⟨_, Option.map_eq_some_iff.mpr ⟨t, ht, rfl⟩⟩
  -- the claims behind the orphan are among the others
  have hclaims : ∀ c ∈ d₂.leaseClaims, c ∈ db₂.leaseClaims := by
    intro c hc
    rw [(insertLease?_eq_some hd₂).2.2, hdframe₁] at hc
    rw [(insertLease?_eq_some h₂).2.2, hframe₁]
    exact horphan.claims c hc
  have hfree' : d₂.claimRefused now lease (some address) = false := by
    unfold Database.claimRefused at hfree ⊢
    rw [primaryEmailOf_inserted hmailbox hresource h₁ h₂, Bool.not_eq_true,
      Bool.and_eq_false_iff] at hfree
    rw [primaryEmailOf_inserted hmailbox hresource hd₁ hd₂, Bool.and_eq_false_iff]
    refine hfree.imp id fun hnone => ?_
    unfold Database.conflictingClaim at hnone ⊢
    rw [Table.any_eq_false] at hnone ⊢
    exact fun c hc => hnone c (hclaims c hc)
  obtain ⟨d₃, hd₃⟩ : ∃ d₃, (d₂.withdrawClaims now lease).insertLeaseClaim?
      (claimOf lease (some address)) = some d₃ := by
    split at hclaim
    · rename_i db₃ h₃
      unfold Database.insertLeaseClaim? at h₃ ⊢
      rw [Option.map_eq_some_iff] at h₃
      obtain ⟨_, hins, -⟩ := h₃
      have hsub : ∀ c ∈ (d₂.withdrawClaims now lease).leaseClaims,
          c ∈ (db₂.withdrawClaims now lease).leaseClaims := by
        intro c hc
        obtain ⟨hc, hsurvives⟩ := mem_withdrawClaims.mp hc
        exact mem_withdrawClaims.mpr ⟨hclaims c hc, hsurvives⟩
      obtain ⟨t, ht⟩ := Table.insert?_of_subset hsub hins
      exact ⟨_, Option.map_eq_some_iff.mpr ⟨t, ht, rfl⟩⟩
    · cases hclaim
  refine ⟨d₃, ?_⟩
  unfold insertOnDemandLease
  rw [Work.bind_of_ok (Work.flush_of_some rfl hd₁), Work.bind_of_ok (Work.flush_of_some rfl hd₂),
    upsertLeaseClaim_of_usable rfl]
  simp only [hfree', hd₃, Bool.false_eq_true, if_false]

theorem attemptProvider_onDemand {db : Database} {s : Session Database}
    {principal : ClientPrincipal} {now : ℕ} {decrypt : String → Except String String}
    {draws : String → Draws} {request : AcquireRequest} {p : String}
    (hmode : request.mode = .mailRead) (hp : p ∈ onDemandProviderTypes) :
    attemptProvider principal now decrypt draws request p db s =
      acquireOnDemandLease principal now (draws p) (request.forProvider p) none p db s := by
  have hne := onDemand_ne_default p hp
  have hsite : resolveRequestedSite (request.forProvider p) p db s = (.ok none, s) := by
    unfold resolveRequestedSite
    rw [if_neg fun hboth => hne hboth.2]
    rfl
  unfold attemptProvider acquireSingleProviderLease
  rw [if_neg (not_not.mpr (mem_allProviderTypes p hp)), if_neg fun hboth => by
    rw [forProvider_wantsPlusAlias hne] at hboth
    cases hboth.2]
  refine (Work.bind_of_ok hsite).trans ?_
  rw [if_pos ⟨forProvider_mode.trans hmode, hp⟩, ite_self]

theorem attemptProvider_of_orphaned {db d : Database} {principal : ClientPrincipal} {now : ℕ}
    {decrypt : String → Except String String} {draws : String → Draws}
    {request : AcquireRequest} {p : String} {orphan : Lease}
    (hmode : request.mode = .mailRead) (hp : p ∈ onDemandProviderTypes)
    (horphan : Orphaned db d orphan) (hne : orphan.id ≠ (draws p).leaseId)
    (h : Work.Succeeds (attemptProvider principal now decrypt draws request p) db) :
    ∃ result d', attemptProvider principal now decrypt draws request p db ⟨d, true⟩ =
      (.ok result, ⟨d', true⟩) := by
  obtain ⟨result, db', h⟩ := h
  rw [attemptProvider_onDemand hmode hp] at h ⊢
  unfold acquireOnDemandLease at h ⊢
  rcases hprov : provisionedAddress p (draws p).provision with e | ⟨provisioned, address⟩
  · rw [hprov, Work.bind_of_error Work.ofExcept_apply] at h
    cases h
  · rw [hprov, Work.bind_of_ok Work.ofExcept_apply] at h
    rw [Work.bind_of_ok Work.ofExcept_apply]
    simp only at h ⊢
    rw [Work.bind_eq_ok] at h
    obtain ⟨_, s₁, hinsert, -⟩ := h
    obtain ⟨d', hd'⟩ := insertOnDemandLease_of_orphaned horphan hne rfl rfl
      (rollbackOnIntegrity_ok hinsert)
    exact ⟨_, d', (Work.bind_of_ok (Work.handle_of_ok hd')).trans rfl⟩

/-! ## Stepping aside -/

/-- Every on-demand candidate steps aside: its conflicts are rolled back. -/
theorem stepsAside_of_onDemand {db : Database} {principal : ClientPrincipal} {now : ℕ}
    {decrypt : String → Except String String} {draws : String → Draws}
    {request : AcquireRequest} {p : String} (hmode : request.mode = .mailRead)
    (hp : p ∈ onDemandProviderTypes) :
    StepsAside db principal now decrypt draws request p := by
  unfold StepsAside Work.Succeeds Work.FailsCleanly
  rw [attemptProvider_onDemand hmode hp]
  rcases hx : acquireOnDemandLease principal now (draws p) (request.forProvider p) none p db
    ⟨db, true⟩ with ⟨e | result, s₁⟩
  · obtain ⟨he, ⟨-, rfl⟩ | rfl⟩ := acquireOnDemandLease_error rfl hx <;>
      exact Or.inr ⟨e, rfl, he⟩
  · simp only [acquireOnDemandLease, Work.bind_eq_ok] at hx
    obtain ⟨_, s₂, -, _, s₃, hinsert, _, s₄, hsite, h⟩ := hx
    have hparts := rollbackOnIntegrity_ok hinsert
    simp only [insertOnDemandLease, Work.bind_eq_ok] at hparts
    obtain ⟨_, _, -, _, _, -, hclaim⟩ := hparts
    obtain ⟨-, husable, -⟩ := upsertLeaseClaim_ok hclaim
    obtain ⟨-, rfl⟩ := Prod.mk.inj hsite
    obtain ⟨-, rfl⟩ := Prod.mk.inj h
    obtain ⟨d, usable⟩ := s₃
    cases husable
    exact Or.inl ⟨_, d, rfl⟩

/-- **Stepping aside**, told from the database: the candidate is on demand, or
succeeds alone, or finds nothing to hand out and says so by an exception that
is stepped over. -/
theorem stepsAside_iff {db : Database} {principal : ClientPrincipal} {now : ℕ}
    {decrypt : String → Except String String} {draws : String → Draws}
    {request : AcquireRequest} {p : String} (hmode : request.mode = .mailRead) :
    StepsAside db principal now decrypt draws request p ↔
      p ∈ onDemandProviderTypes ∨
      Work.Succeeds (attemptProvider principal now decrypt draws request p) db ∨
      ∃ e, selectionOf db now (draws p) (request.forProvider p) p = .error e ∧
        e.tryNext = true := by
  constructor
  · rintro (hsucceeds | ⟨e, hfail, he⟩)
    · exact Or.inr (Or.inl hsucceeds)
    · rcases acquireSingleProviderLease_error (forProvider_mode.trans hmode) rfl hfail he with
        ⟨hselection, -⟩ | hs | ⟨hondemand, -⟩ | ⟨-, -, d, lease, -, hs, horphan⟩
      · exact Or.inr (Or.inr ⟨e, hselection, he⟩)
      · cases hs
      · exact Or.inl hondemand
      · cases hs
        have hnew := (horphan.leases lease).mpr (Or.inr rfl)
        exact absurd rfl (horphan.fresh lease hnew)
  · rintro (hondemand | hsucceeds | ⟨e, hselection, he⟩)
    · exact stepsAside_of_onDemand hmode hondemand
    · exact Or.inl hsucceeds
    · exact Or.inr ⟨e, acquireSingleProviderLease_of_selection (forProvider_mode.trans hmode)
        rfl hselection, he⟩

/-! ## Blocking candidates -/

/-- A candidate the service does not know is refused in every session. -/
theorem attemptProvider_unknown {db : Database} {s : Session Database}
    {principal : ClientPrincipal} {now : ℕ} {decrypt : String → Except String String}
    {draws : String → Draws} {request : AcquireRequest} {p : String}
    (hp : p ∉ allProviderTypes) :
    attemptProvider principal now decrypt draws request p db s =
      (.error (.providerUnsupported ("不支持的 provider：" ++ p)), s) := by
  unfold attemptProvider acquireSingleProviderLease
  rw [if_pos hp]
  rfl

/-- Where the loop may stand behind a blocking candidate. -/
inductive Behind (db : Database) (leaseId : String) (s : Session Database) : Prop where
  | unusable (h : s.usable = false)
  | clean (h : s = ⟨db, true⟩)
  | tainted (h : Tainted db leaseId s)

/-- An exception that is stepped over leads from a tainted session to a tainted
or an unusable one, unless an on-demand candidate rolled back. -/
theorem Tainted.next {db : Database} {principal : ClientPrincipal} {now : ℕ}
    {decrypt : String → Except String String} {draws : String → Draws}
    {request : AcquireRequest} {leaseId p : String} {s s' : Session Database} {e : LeaseError}
    (h : Tainted db leaseId s) (hmode : request.mode = .mailRead)
    (hp : attemptProvider principal now decrypt draws request p db s = (.error e, s'))
    (he : e.tryNext = true) :
    Tainted db leaseId s' ∨ s'.usable = false ∨
      (p ∈ onDemandProviderTypes ∧ s' = ⟨db, true⟩) := by
  rcases acquireSingleProviderLease_error (forProvider_mode.trans hmode) h.usable hp he with
    ⟨-, rfl⟩ | rfl | hrollback | ⟨-, -, d, lease, -, rfl, horphan⟩
  · exact Or.inl h
  · exact Or.inr (Or.inl rfl)
  · exact Or.inr (Or.inr hrollback)
  · exact Or.inl (h.orphaned horphan)

theorem Behind.next {db : Database} {principal : ClientPrincipal} {now : ℕ}
    {decrypt : String → Except String String} {draws : String → Draws}
    {request : AcquireRequest} {leaseId p : String} {s s' : Session Database} {e : LeaseError}
    (h : Behind db leaseId s) (hmode : request.mode = .mailRead)
    (hondemand : s = ⟨db, true⟩ → p ∈ onDemandProviderTypes)
    (hp : attemptProvider principal now decrypt draws request p db s = (.error e, s'))
    (he : e.tryNext = true) : Behind db leaseId s' := by
  cases h with
  | unusable hs =>
      obtain ⟨e', he'⟩ := acquireSingleProviderLease_of_unusable db hs
      rw [attemptProvider, he'] at hp
      obtain ⟨-, rfl⟩ := Prod.mk.inj hp
      exact .unusable hs
  | clean hs =>
      subst hs
      rcases acquireSingleProviderLease_error (forProvider_mode.trans hmode) rfl hp he with
        ⟨-, rfl⟩ | rfl | ⟨-, rfl⟩ | ⟨hnot, -⟩
      · exact .clean rfl
      · exact .unusable rfl
      · exact .clean rfl
      · exact absurd (hondemand rfl) hnot
  | tainted hs =>
      rcases hs.next hmode hp he with hs | hs | ⟨-, hs⟩
      · exact .tainted hs
      · exact .unusable hs
      · exact .clean hs

theorem tryEach_of_unusable {db : Database} {principal : ClientPrincipal} {now : ℕ}
    {decrypt : String → Except String String} {draws : String → Draws}
    {request : AcquireRequest} {last : LeaseError} {l : List String} {s s' : Session Database}
    {result : LeaseAcquireResult} (hs : s.usable = false) :
    Work.tryEach (attemptProvider principal now decrypt draws request) LeaseError.tryNext last
      l db s ≠ (.ok result, s') := by
  intro h
  obtain ⟨q, -, s₁, hs₁, hq⟩ := Work.tryEach_ok (I := fun s => s.usable = false)
    (fun q _ s e s' hI hfail _ => by
      obtain ⟨e', he'⟩ := acquireSingleProviderLease_of_unusable db hI
      rw [attemptProvider, he'] at hfail
      obtain ⟨-, rfl⟩ := Prod.mk.inj hfail
      exact hI) hs h
  obtain ⟨e', he'⟩ := acquireSingleProviderLease_of_unusable db hs₁
  rw [attemptProvider, he'] at hq
  cases hq

/-- A candidate that does not step aside ends every loop it begins, or leaves
an orphaned lease. -/
theorem blocks_or_orphans {db : Database} {principal : ClientPrincipal} {now : ℕ}
    {decrypt : String → Except String String} {draws : String → Draws}
    {request : AcquireRequest} {b : String} (hmode : request.mode = .mailRead)
    (h : ¬ StepsAside db principal now decrypt draws request b) :
    (∀ last rest result db',
      Work.tryEach (attemptProvider principal now decrypt draws request) LeaseError.tryNext
        last (b :: rest) db ⟨db, true⟩ ≠ (.ok result, ⟨db', true⟩)) ∨
    (b ∈ allProviderTypes ∧ b ∉ onDemandProviderTypes ∧ ∃ e d lease, e.tryNext = true ∧
      attemptProvider principal now decrypt draws request b db ⟨db, true⟩ =
        (.error e, ⟨d, true⟩) ∧ lease.id = (draws b).leaseId ∧ Orphaned db d lease) := by
  rcases hb : attemptProvider principal now decrypt draws request b db ⟨db, true⟩ with
    ⟨e | result, s₁⟩
  · cases he : e.tryNext with
    | false =>
        refine Or.inl fun last rest result db' hloop => ?_
        rw [Work.tryEach_cons_stop hb he] at hloop
        cases hloop
    | true =>
        have hnot : s₁ ≠ ⟨db, true⟩ := by
          rintro rfl
          exact h (Or.inr ⟨e, hb, he⟩)
        rcases acquireSingleProviderLease_error (forProvider_mode.trans hmode) rfl hb he with
          ⟨-, hs⟩ | rfl | ⟨-, hs⟩ | ⟨hondemand, -, d, lease, hid, rfl, horphan⟩
        · exact absurd hs hnot
        · refine Or.inl fun last rest result db' hloop => ?_
          rw [Work.tryEach_cons_next hb he] at hloop
          exact tryEach_of_unusable rfl hloop
        · exact absurd hs hnot
        · refine Or.inr ⟨?_, hondemand, e, d, lease, he, rfl, hid, horphan⟩
          by_contra hunknown
          rw [attemptProvider_unknown hunknown] at hb
          cases hb
          cases he
  · refine Or.inl fun last rest result' db' hloop => ?_
    rw [Work.tryEach_cons_ok hb] at hloop
    cases hloop
    exact h (Or.inl ⟨_, _, hb⟩)

/-- **Necessity**: a candidate that does not step aside breaks the completeness
of some order in which another candidate would succeed. -/
theorem exists_not_fallbackComplete {db : Database} {principal : ClientPrincipal} {now : ℕ}
    {decrypt : String → Except String String} {draws : String → Draws}
    {request : AcquireRequest} {candidates : List String} {b p₀ : String}
    (hmode : request.mode = .mailRead) (hscope : "mailboxes:acquire" ∈ principal.scopes)
    (hids : ∀ p ∈ candidates, ∀ q ∈ candidates, (draws p).leaseId = (draws q).leaseId → p = q)
    (hnodup : candidates.Nodup) (hb : b ∈ candidates)
    (hblocks : ¬ StepsAside db principal now decrypt draws request b) (hp₀ : p₀ ∈ candidates)
    (hsucceeds : Work.Succeeds (attemptProvider principal now decrypt draws request p₀) db) :
    ∃ shuffled, shuffled.Perm candidates ∧
      ¬ FallbackComplete db principal now decrypt draws request shuffled := by
  -- an on-demand candidate that succeeds alone is put second, if there is one
  obtain ⟨p, hp, hp', hchoice⟩ : ∃ p ∈ candidates,
      Work.Succeeds (attemptProvider principal now decrypt draws request p) db ∧
      (p ∈ onDemandProviderTypes ∨ ∀ q ∈ candidates, q ∈ onDemandProviderTypes →
        ¬ Work.Succeeds (attemptProvider principal now decrypt draws request q) db) := by
    by_cases hex : ∃ q ∈ candidates, q ∈ onDemandProviderTypes ∧
        Work.Succeeds (attemptProvider principal now decrypt draws request q) db
    · obtain ⟨q, hq, hondemand, hq'⟩ := hex
      exact ⟨q, hq, hq', Or.inl hondemand⟩
    · exact ⟨p₀, hp₀, hsucceeds, Or.inr fun q hq hondemand hq' => hex ⟨q, hq, hondemand, hq'⟩⟩
  have hpb : p ≠ b := by
    rintro rfl
    exact hblocks (Or.inl hp')
  have hpe : p ∈ candidates.erase b := (hnodup.mem_erase_iff).mpr ⟨hpb, hp⟩
  have hperm : (b :: p :: (candidates.erase b).erase p).Perm candidates :=
    ((List.perm_cons_erase hpe).symm.cons b).trans (List.perm_cons_erase hb).symm
  refine ⟨_, hperm, fun hcomplete => ?_⟩
  obtain ⟨q, -, result, db', hq, hloop⟩ :=
    hcomplete ⟨p, List.mem_cons_of_mem _ List.mem_cons_self, hp'⟩
  rw [Work.transact_eq_ok] at hq hloop
  rw [acquireLease_mailRead hmode hscope] at hloop
  rcases blocks_or_orphans hmode hblocks with hnever |
    ⟨hknown, hondemand, e, d, lease, he, hfail, hid, horphan⟩
  · exact hnever _ _ _ _ hloop
  have htaint := tainted_of_orphaned horphan
  unfold attemptProviders at hloop
  rw [Work.tryEach_cons_next hfail he] at hloop
  rcases hpd : attemptProvider principal now decrypt draws request p db ⟨d, true⟩ with
    ⟨e' | result', s₂⟩
  · cases he' : e'.tryNext with
    | false =>
        rw [Work.tryEach_cons_stop hpd he'] at hloop
        cases hloop
    | true =>
        rw [Work.tryEach_cons_next hpd he'] at hloop
        -- the second candidate failed, so it is not on demand
        have hnot : p ∉ onDemandProviderTypes := by
          intro hpo
          obtain ⟨r, d', hok⟩ := attemptProvider_of_orphaned hmode hpo horphan
            (by
              rw [hid]
              exact fun heq => hpb (hids b hb p hp heq).symm) hp'
          rw [hpd] at hok
          cases hok
        have hnone := hchoice.resolve_left hnot
        have hpknown : p ∈ allProviderTypes := by
          by_contra hunknown
          rw [attemptProvider_unknown hunknown] at hpd
          cases hpd
          cases he'
        have hrest : ∀ q ∈ (candidates.erase b).erase p, q ∈ allProviderTypes →
            q ∈ onDemandProviderTypes := by
          intro q hq hqknown
          by_contra hqo
          obtain ⟨hqp, hq⟩ := ((hnodup.erase b).mem_erase_iff).mp hq
          obtain ⟨hqb, -⟩ := (hnodup.mem_erase_iff).mp hq
          -- three candidates of two types
          rcases eq_of_not_onDemand b hknown hondemand with hb' | hb' <;>
            rcases eq_of_not_onDemand p hpknown hnot with hp' | hp' <;>
            rcases eq_of_not_onDemand q hqknown hqo with hq' | hq' <;>
            simp_all
        have hstart : Behind db lease.id s₂ := by
          rcases htaint.next hmode hpd he' with hs | hs | ⟨hpo, -⟩
          · exact .tainted hs
          · exact .unusable hs
          · exact absurd hpo hnot
        obtain ⟨r, hr, s₃, hs₃, hr'⟩ := Work.tryEach_ok (I := Behind db lease.id)
          (fun q hq s e s' hI hfail he => hI.next hmode (fun _ => hrest q hq (by
            by_contra hunknown
            rw [attemptProvider_unknown hunknown] at hfail
            cases hfail
            cases he)) hfail he) hstart hloop
        have hrc : r ∈ candidates := List.mem_of_mem_erase (List.mem_of_mem_erase hr)
        cases hs₃ with
        | unusable hs =>
            obtain ⟨e', he'⟩ := acquireSingleProviderLease_of_unusable db hs
            rw [attemptProvider, he'] at hr'
            cases hr'
        | clean hs =>
            subst hs
            have hrknown : r ∈ allProviderTypes := by
              by_contra hunknown
              rw [attemptProvider_unknown hunknown] at hr'
              cases hr'
            exact hnone r hrc (hrest r hr hrknown) ⟨_, _, hr'⟩
        | tainted hs => exact hs.not_alone hr' hq
  · rw [Work.tryEach_cons_ok hpd] at hloop
    cases hloop
    exact htaint.not_alone hpd hq

/-! ## Every order -/

end

section Sample

attribute [local instance] asciiPlatform

def siteDatabase : Database :=
  { sampleDatabase with
    usageSites := ⟨[{ code := "shop", displayName := "Shop" }], List.pairwise_singleton _ _⟩
    emailSiteUsages := ⟨[{
      id := "usage", allocatedEmail := "a+c@x.org", usageSiteCode := "shop"
      mailboxId := some "mailbox", leaseId := none, clientKeyId := none }],
      List.pairwise_singleton _ _⟩ }

def aliasDatabase : Database :=
  (LeaseState.step (.start sampleDatabase 0) (sampleAcquire "1" "c" ["microsoft"])).db

end Sample

end MailboxService
