import MailboxService.Ascii
import MailboxService.LeaseService.Failures
import MailboxService.Foundation.SkipLocked

/-!
# Concurrent acquires

Acquires of one kind, each in its own transaction, on a pool nothing else
changes but the clock. The selection carries no LIMIT, so it locks every row
it matches and not only the one it takes: an acquire that selects while
another one is open finds nothing, however large the pool.
-/

namespace MailboxService

open Foundation

structure PoolStore [Platform] where
  db : Database
  now : ℕ

/-- What a caller asks for, with the uuids his request draws. -/
structure AcquireCall where
  principal : ClientPrincipal
  leaseId : String
  usageId : String
  ttlSeconds : ℕ
  clientTag : Option String := none
  purpose : Option String := none
  usageSite : Option String := none

/-- The request behind a call: no preferred address, no plus alias. -/
def AcquireCall.request (call : AcquireCall) (mode : LeaseMode) : AcquireRequest where
  mode := mode
  ttlSeconds := call.ttlSeconds
  clientTag := call.clientTag
  purpose := call.purpose

def AcquireCall.draws (call : AcquireCall) : Draws where
  leaseId := call.leaseId
  resourceId := ""
  usageId := call.usageId
  suffixes := []
  provision := .error .noHook

section

variable [Platform]

def PoolStore.commit (s : PoolStore) (x : LeaseWork LeaseAcquireResult) :
    Except LeaseError PoolStore :=
  match Work.transact x s.db with
  | (.ok _, db) => .ok { s with db }
  | (.error e, _) => .error e

def PoolStore.pass (s : PoolStore) (d : ℕ) : PoolStore := { s with now := s.now + d }

/-! ## An acquire on a mailbox, in two parts -/

def primaryAddress (mode : LeaseMode) (m : Mailbox) : Option String :=
  if mode = .mailRead then some (Text.normalize m.primaryEmail) else none

/-- What the body does with the mailbox it has selected. `now` is the time of
the selection, `later` the time of the rest. -/
def installMailboxLease (principal : ClientPrincipal) (now later : ℕ)
    (decrypt : String → Except String String) (draws : Draws) (request : AcquireRequest)
    (siteCode : Option String) (m : Mailbox) (allocatedEmail : Option String) :
    LeaseWork LeaseAcquireResult := do
  let lease := mailboxLease principal now draws request m allocatedEmail
  Work.flush fun db => (db.touchMailbox m.id now).insertLease? lease
  unavailableOnIntegrity (upsertLeaseClaim later lease allocatedEmail)
  recordRequestedSite principal later draws lease siteCode
  Work.ofExcept (mailboxLeaseResult decrypt lease m siteCode)

/-- The acquires on Microsoft mailboxes as transactions on the pool. -/
def mailboxReserver {ι : Type} (mode : LeaseMode) (decrypt : String → Except String String)
    (calls : ι → AcquireCall) : Reserver ι PoolStore ℕ Mailbox String LeaseError where
  key := Mailbox.id
  matched i s := s.db.mailboxes.select
    (s.db.mailboxSelectable s.now mode defaultProviderType false (calls i).usageSite none)
  before := Mailbox.coldest
  commit i seen s m := s.commit (installMailboxLease (calls i).principal seen.now s.now decrypt
    (calls i).draws ((calls i).request mode) (calls i).usageSite m (primaryAddress mode m))
  noRow := .leaseUnavailable "没有可用邮箱"
  pass := PoolStore.pass

/-! ## An acquire of a resource, in two parts -/

def installSmsbowerLease (principal : ClientPrincipal) (now later : ℕ) (draws : Draws)
    (request : AcquireRequest) (usageSite : Option String)
    (resource : MailboxProviderResource) : LeaseWork LeaseAcquireResult := do
  let address := Text.normalize resource.primaryEmail
  let lease := resourceLease principal now draws.leaseId request.ttlSeconds
    request.clientTag request.purpose "smsbower_gmail" resource.providerInstanceId
    resource.id address
  Work.flush fun db =>
    (db.updateResource resource.id (fun r => r.claim now)
      (MailboxProviderResource.claim_keeps now)).insertLease? lease
  unavailableOnIntegrity (upsertLeaseClaim later lease (some address))
  recordOptionalSite principal later draws.usageId usageSite address lease.id
  pure (resourceLeaseResult lease resource.id address usageSite)

/-- The acquires of SMSBower resources as transactions on the pool. -/
def smsbowerReserver {ι : Type} (calls : ι → AcquireCall) :
    Reserver ι PoolStore ℕ MailboxProviderResource String LeaseError where
  key := MailboxProviderResource.id
  matched _ s := s.db.providerResources.select (MailboxProviderResource.selectable none)
  before := MailboxProviderResource.coldest
  commit i seen s r := s.commit (installSmsbowerLease (calls i).principal seen.now s.now
    (calls i).draws ((calls i).request .mailRead) (calls i).usageSite r)
  noRow := .leaseUnavailable "没有可用邮箱"
  pass := PoolStore.pass

/-! ## The two parts are the acquire -/

/-- The body is its selection followed by the rest. -/
theorem acquireMailboxLease_eq (principal : ClientPrincipal) (now : ℕ)
    (decrypt : String → Except String String) (draws : Draws) (request : AcquireRequest)
    (wantsPlusAlias : Bool) (siteCode : Option String) (providerType : String) :
    acquireMailboxLease principal now decrypt draws request wantsPlusAlias siteCode
        providerType =
      (Work.read fun db =>
          pickMailbox db now draws request wantsPlusAlias siteCode providerType) >>=
        fun picked => Work.ofExcept picked >>= fun (m, a) =>
          installMailboxLease principal now now decrypt draws request siteCode m a := rfl

theorem acquireSmsbowerLease_eq (principal : ClientPrincipal) (now : ℕ) (draws : Draws)
    (request : AcquireRequest) (usageSite : Option String) :
    acquireSmsbowerLease principal now draws request usageSite =
      (Work.read fun db => pickResource db request.preferredEmail) >>=
        fun picked => Work.ofExcept picked >>= fun resource =>
          installSmsbowerLease principal now now draws request usageSite resource := rfl

theorem commit_eq_ok {s s' : PoolStore} {x : LeaseWork LeaseAcquireResult} :
    s.commit x = .ok s' ↔ ∃ result, Work.transact x s.db = (.ok result, s'.db) ∧
      s'.now = s.now := by
  unfold PoolStore.commit
  rcases hx : Work.transact x s.db with ⟨e | result, db⟩
  · simp
  · constructor
    · intro h
      cases h
      exact ⟨result, rfl, rfl⟩
    · rintro ⟨_, hdb, hnow⟩
      cases s'
      cases hdb
      cases hnow
      rfl

theorem commit_unavailable {s : PoolStore} {x : LeaseWork LeaseAcquireResult}
    {message : String} :
    s.commit x = .error (.leaseUnavailable message) ↔
      (x s.db ⟨s.db, true⟩).1 = .error (.leaseUnavailable message) := by
  unfold PoolStore.commit Work.transact
  rcases hx : x s.db ⟨s.db, true⟩ with ⟨e | result, s'⟩
  · simp
  · cases hu : s'.usable <;> simp [hu, SessionErrors.pendingRollback]

theorem unavailableOnIntegrity_result {db : Database} {s : Session Database}
    {now : ℕ} {lease : Lease} {a : Option String} (hs : s.usable = true) :
    (unavailableOnIntegrity (upsertLeaseClaim now lease a) db s).1 =
      if s.db.claimBlocked now lease a = true then .error (.leaseUnavailable "没有可用邮箱")
      else .ok () := by
  have hresult : (upsertLeaseClaim now lease a db s).1 = _ := upsertLeaseClaim_result hs
  unfold unavailableOnIntegrity
  rcases hx : upsertLeaseClaim now lease a db s with ⟨e | u, s'⟩
  · rw [hx] at hresult
    split at hresult
    · cases hresult
      rw [Work.handle_of_some hx rfl, if_pos (by assumption)]
      rfl
    · cases hresult
  · rw [hx] at hresult
    split at hresult
    · cases hresult
    · rw [Work.handle_of_ok hx, if_neg (by assumption)]

theorem claimBlocked_insert (db : Database) {db₁ db₂ : Database} {now : ℕ} {lease : Lease}
    {a : Option String} (hins : db₁.insertLease? lease = some db₂)
    (hclaims : db₁.leaseClaims = db.leaseClaims)
    (hemail : db₁.primaryEmailOf lease = db.primaryEmailOf lease) :
    db₂.claimBlocked now lease a = db.claimBlocked now lease a := by
  obtain ⟨-, -, hframe⟩ := insertLease?_eq_some hins
  have hsame : db₂.leaseClaims = db.leaseClaims := by
    rw [hframe]
    exact hclaims
  unfold Database.claimBlocked
  rw [claimRefused_insert db hins hclaims hemail, hsame]

theorem insertLease?_eq_none {db : Database} {lease : Lease} :
    db.insertLease? lease = none ↔ ∃ l ∈ db.leases, l.id = lease.id := by
  unfold Database.insertLease?
  rw [Option.map_eq_none_iff, Table.insert?_eq_none]
  constructor
  · rintro ⟨l, hl, hclash⟩
    refine ⟨l, hl, ?_⟩
    by_contra hne
    exact hclash ⟨hne, rfl⟩
  · rintro ⟨l, hl, hid⟩
    exact ⟨l, hl, fun hdistinct => hdistinct.1 hid⟩

/-- The rest of an acquire is not kept from its claim; an id that is taken
already raises something else. -/
def PoolStore.mayClaim (s : PoolStore) (lease : Lease) (a : Option String) : Prop :=
  (∃ l ∈ s.db.leases, l.id = lease.id) ∨ s.db.claimBlocked s.now lease a = false

instance decidableMayClaim (s : PoolStore) (lease : Lease) (a : Option String) :
    Decidable (s.mayClaim lease a) :=
  inferInstanceAs (Decidable ((∃ l ∈ s.db.leases.rows, l.id = lease.id) ∨ _))

/-- **Refused rest**: a transaction that inserts a lease and its claim, and
then raises nothing of the kind, ends with "no mailbox" exactly if the claims
block the one it inserts. -/
theorem commit_refused {s : PoolStore} {f : Database → Option Database} {lease : Lease}
    {a : Option String} {rest : LeaseWork LeaseAcquireResult}
    (htaken : f s.db = none ↔ ∃ l ∈ s.db.leases, l.id = lease.id)
    (hblocked : ∀ db₂, f s.db = some db₂ →
      db₂.claimBlocked s.now lease a = s.db.claimBlocked s.now lease a)
    (hrest : ∀ s' e s'', s'.usable = true → rest s.db s' = (.error e, s'') →
      e.tryNext = false) :
    s.commit (do
        Work.flush f
        unavailableOnIntegrity (upsertLeaseClaim s.now lease a)
        rest) = .error (.leaseUnavailable "没有可用邮箱") ↔ ¬ s.mayClaim lease a := by
  rw [commit_unavailable]
  unfold PoolStore.mayClaim
  rw [← htaken]
  cases hins : f s.db with
  | none =>
      rw [Work.bind_of_error (Work.flush_of_none rfl hins)]
      simp [SessionErrors.integrityError]
  | some db₂ =>
      have hclaim : (unavailableOnIntegrity (upsertLeaseClaim s.now lease a) s.db
        ⟨db₂, true⟩).1 = _ := unavailableOnIntegrity_result rfl
      rw [Work.bind_of_ok (Work.flush_of_some rfl hins), or_iff_right (by simp),
        Bool.not_eq_false, ← hblocked db₂ hins]
      rcases hx : unavailableOnIntegrity (upsertLeaseClaim s.now lease a) s.db ⟨db₂, true⟩
        with ⟨e | u, s'⟩
      · rw [Work.bind_of_error hx]
        rw [hx] at hclaim
        split at hclaim
        · rename_i hb
          exact iff_of_true (congrArg Except.error (Except.error.inj hclaim)) hb
        · cases hclaim
      · rw [Work.bind_of_ok hx]
        rw [hx] at hclaim
        split at hclaim
        · cases hclaim
        rename_i hb
        refine iff_of_false ?_ hb
        obtain ⟨-, husable, -⟩ := upsertLeaseClaim_ok (unavailableOnIntegrity_ok hx)
        intro herror
        rcases hr : rest s.db s' with ⟨r, s''⟩
        rw [hr] at herror
        subst herror
        cases hrest s' _ s'' husable hr

/-! ## What the rest of an acquire leaves -/

/-- Every occupancy afterwards was there before, or is one of the address. -/
def UsagesGrow (db db' : Database) (a : Option String) : Prop :=
  ∀ u ∈ db'.emailSiteUsages, u ∈ db.emailSiteUsages ∨
    ∃ x ∈ a, sqlEq u.allocatedEmail (Text.normalize x) = true

theorem recordRequestedSite_usages {db : Database} {s s' : Session Database}
    {principal : ClientPrincipal} {now : ℕ} {draws : Draws} {lease : Lease}
    {siteCode : Option String} {r : Unit}
    (h : recordRequestedSite principal now draws lease siteCode db s = (.ok r, s')) :
    UsagesGrow s.db s'.db lease.allocatedEmail := by
  have hdone : ∀ {r s'}, (pure () : LeaseWork Unit) db s = (r, s') →
      UsagesGrow s.db s'.db lease.allocatedEmail := by
    intro r s' h u hu
    cases h
    exact Or.inl hu
  unfold recordRequestedSite at h
  cases siteCode with
  | none => exact hdone h
  | some code =>
      cases hx : lease.allocatedEmail with
      | none =>
          simp only [hx] at h
          exact hx ▸ hdone h
      | some x =>
          simp only [hx] at h
          split at h
          · obtain ⟨-, -, u, hrecorded⟩ := recordEmailSiteUsage_ok h
            intro q hq
            rcases (hrecorded.usages q).mp hq with ⟨hq, -⟩ | rfl
            · exact Or.inl hq
            · have hslot := hrecorded.slot
              unfold EmailSiteUsage.inSlot at hslot
              rw [Bool.and_eq_true] at hslot
              exact Or.inr ⟨x, rfl, hslot.1⟩
          · exact hx ▸ hdone h

/-- What a committed acquire on a mailbox changes of the pool. -/
structure MailboxInstalled (db db' : Database) (now : ℕ) (lease : Lease) (m : Mailbox)
    (a : Option String) : Prop where
  mailboxes : db'.mailboxes = (db.touchMailbox m.id now).mailboxes
  leases : ∀ l ∈ db'.leases, l ∈ db.leases ∨ l = lease
  claims : ∀ c ∈ db'.leaseClaims, c ∈ db.leaseClaims ∨ c = claimOf lease a
  usages : UsagesGrow db db' lease.allocatedEmail

theorem installMailboxLease_ok {db : Database} {s s' : Session Database}
    {principal : ClientPrincipal} {now later : ℕ} {decrypt : String → Except String String}
    {draws : Draws} {request : AcquireRequest} {siteCode : Option String} {m : Mailbox}
    {a : Option String} {result : LeaseAcquireResult}
    (h : installMailboxLease principal now later decrypt draws request siteCode m a db s =
      (.ok result, s')) (hs' : s'.usable = true) :
    MailboxInstalled s.db s'.db now (mailboxLease principal now draws request m a) m a := by
  unfold installMailboxLease at h
  simp only [Work.bind_eq_ok] at h
  obtain ⟨_, s₁, hflush, _, s₂, hclaim, _, s₃, hsite, h⟩ := h
  obtain ⟨-, db₂, hins, rfl⟩ := Work.flush_eq_ok.mp hflush
  obtain ⟨-, husable, hput⟩ := upsertLeaseClaim_ok (unavailableOnIntegrity_ok hclaim)
  obtain ⟨-, rfl⟩ := Prod.mk.inj h
  have husages := recordRequestedSite_usages hsite
  have hframe := recordRequestedSite_frame husable hsite hs'
  obtain ⟨hmem, -, hinsert⟩ := insertLease?_eq_some hins
  refine ⟨?_, ?_, ?_, ?_⟩
  · rw [hframe, hput.frame, hinsert]
  · intro l hl
    rw [hframe, hput.frame] at hl
    exact (hmem l).mp hl
  · intro c hc
    rw [hframe] at hc
    rcases (hput.claims c).mp hc with ⟨hc, -⟩ | hc
    · rw [hinsert] at hc
      exact Or.inl hc
    · exact Or.inr hc
  · intro u hu
    rcases husages u hu with hu | hu
    · rw [hput.frame, hinsert] at hu
      exact Or.inl hu
    · exact Or.inr hu

/-! ## Microsoft acquires -/

/-- The addresses are stored without surrounding spaces, as the import does. -/
def PoolStore.Stripped (s : PoolStore) : Prop :=
  ∀ m ∈ s.db.mailboxes, Text.strip m.primaryEmail = m.primaryEmail

def PoolStore.Lists (s : PoolStore) (m : Mailbox) : Prop :=
  ∃ m' ∈ s.db.mailboxes, m'.id = m.id ∧ m'.primaryEmail = m.primaryEmail

theorem key_normalize {s : String} (h : Text.strip s = s) :
    Collation.key (Text.normalize s) = Collation.key s := by
  unfold Text.normalize
  rw [h, Platform.key_lower]

theorem mailboxSelectable_mono {db db' : Database} {now now' : ℕ} {mode : LeaseMode}
    {providerType : String} {siteCode preferred : Option String} {m : Mailbox}
    (hoccupied : db.mailboxOccupied now m = false → db'.mailboxOccupied now' m = false)
    (hsite : ∀ code, db.primaryUsedForSite m code = false →
      db'.primaryUsedForSite m code = false)
    (h : db.mailboxSelectable now mode providerType false siteCode preferred m = true) :
    db'.mailboxSelectable now' mode providerType false siteCode preferred m = true := by
  unfold Database.mailboxSelectable at h ⊢
  simp only [Bool.and_eq_true, Bool.or_eq_true, Bool.false_or, Bool.not_eq_true'] at h ⊢
  obtain ⟨⟨⟨⟨hstatus, hfree⟩, hcredentials⟩, hmail⟩, hpreferred⟩ := h
  refine ⟨⟨⟨⟨hstatus, hoccupied hfree⟩, hcredentials⟩, ?_⟩, hpreferred⟩
  rcases hmail with hmail | ⟨hcapability, hmail⟩
  · exact Or.inl hmail
  · refine Or.inr ⟨hcapability, ?_⟩
    cases siteCode with
    | none => rfl
    | some code =>
        simp only [Bool.not_eq_true'] at hmail ⊢
        exact hsite code hmail

theorem mailboxOccupied_later {db : Database} {now now' : ℕ} {m : Mailbox} (hle : now ≤ now')
    (h : db.mailboxOccupied now m = false) : db.mailboxOccupied now' m = false := by
  unfold Database.mailboxOccupied at h ⊢
  simp only [Bool.or_eq_false_iff, Table.any_eq_false, Bool.and_eq_false_iff] at h ⊢
  obtain ⟨hleases, hclaims⟩ := h
  constructor
  · intro l hl
    refine (hleases l hl).imp id fun hnot => ?_
    unfold Lease.activeAt at hnot ⊢
    simp only [Bool.and_eq_false_iff, decide_eq_false_iff_not, Nat.not_lt] at hnot ⊢
    exact hnot.imp id fun hexpired => Nat.le_trans hexpired hle
  · intro c hc
    refine (hclaims c hc).imp id fun hnot => ?_
    unfold MailboxLeaseClaim.liveAt at hnot ⊢
    simp only [decide_eq_false_iff_not, Nat.not_lt] at hnot ⊢
    exact Nat.le_trans hnot hle

theorem MailboxInstalled.selectable {db db' : Database} {now now' : ℕ} {mode : LeaseMode}
    {principal : ClientPrincipal} {draws : Draws} {request : AcquireRequest}
    {siteCode : Option String} {m r : Mailbox}
    (h : MailboxInstalled db db' now (mailboxLease principal now draws request m
      (primaryAddress mode m)) m (primaryAddress mode m))
    (hm : Text.strip m.primaryEmail = m.primaryEmail) (hid : r.id ≠ m.id)
    (hemail : sqlEq m.primaryEmail r.primaryEmail = false)
    (hr : r ∈ db.mailboxes)
    (hselectable : db.mailboxSelectable now' mode defaultProviderType false siteCode none r =
      true) :
    r ∈ db'.mailboxes ∧
      db'.mailboxSelectable now' mode defaultProviderType false siteCode none r = true := by
  constructor
  · rw [h.mailboxes]
    exact mem_touchMailbox.mpr ⟨r, hr, by rw [if_neg hid]⟩
  · refine mailboxSelectable_mono ?_ ?_ hselectable
    · intro hfree
      unfold Database.mailboxOccupied at hfree ⊢
      simp only [Bool.or_eq_false_iff, Table.any_eq_false] at hfree ⊢
      obtain ⟨hleases, hclaims⟩ := hfree
      constructor
      · intro l hl
        rcases h.leases l hl with hl | rfl
        · exact hleases l hl
        · simp [mailboxLease, hid.symm]
      · intro c hc
        rcases h.claims c hc with hc | rfl
        · exact hclaims c hc
        · simp [claimOf, mailboxLease, hid.symm]
    · intro code hfree
      unfold Database.primaryUsedForSite at hfree ⊢
      simp only [Table.any_eq_false] at hfree ⊢
      intro u hu
      rcases h.usages u hu with hu | ⟨x, hx, hux⟩
      · exact hfree u hu
      · have hxm : x = Text.normalize m.primaryEmail := by
          have hsome : primaryAddress mode m = some x := hx
          unfold primaryAddress at hsome
          split at hsome
          · exact (Option.some.inj hsome).symm
          · cases hsome
        have hne : sqlEq u.allocatedEmail r.primaryEmail = false := by
          unfold sqlEq at hux hemail ⊢
          rw [decide_eq_true_eq, hxm, Text.normalize_normalize, key_normalize hm] at hux
          rw [hux]
          exact hemail
        rw [hne, Bool.false_and, Bool.false_and]

theorem mailboxReserver_commit {ι : Type} {mode : LeaseMode}
    {decrypt : String → Except String String} {calls : ι → AcquireCall} {i : ι}
    {seen s s' : PoolStore} {m : Mailbox}
    (h : (mailboxReserver mode decrypt calls).commit i seen s m = .ok s') :
    s'.now = s.now ∧ MailboxInstalled s.db s'.db seen.now
      (mailboxLease (calls i).principal seen.now (calls i).draws ((calls i).request mode) m
        (primaryAddress mode m)) m (primaryAddress mode m) := by
  obtain ⟨result, htransact, hnow⟩ := commit_eq_ok.mp h
  exact ⟨hnow, installMailboxLease_ok (Work.transact_eq_ok.mp htransact) rfl⟩

theorem MailboxInstalled.mem {db db' : Database} {now : ℕ} {lease : Lease} {m m' : Mailbox}
    {a : Option String} (h : MailboxInstalled db db' now lease m a)
    (hm' : m' ∈ db'.mailboxes) :
    ∃ m₀ ∈ db.mailboxes, m₀.id = m'.id ∧ m₀.primaryEmail = m'.primaryEmail := by
  rw [h.mailboxes] at hm'
  obtain ⟨m₀, hm₀, rfl⟩ := mem_touchMailbox.mp hm'
  refine ⟨m₀, hm₀, ?_⟩
  split <;> exact ⟨rfl, rfl⟩

theorem MailboxInstalled.lists {s s' : PoolStore} {now : ℕ} {lease : Lease} {m r : Mailbox}
    {a : Option String} (h : MailboxInstalled s.db s'.db now lease m a) (hr : s.Lists r) :
    s'.Lists r := by
  obtain ⟨m', hm', hid, hemail⟩ := hr
  refine ⟨if m'.id = m.id then m'.touch now else m', ?_, ?_⟩
  · rw [h.mailboxes]
    exact mem_touchMailbox.mpr ⟨m', hm', rfl⟩
  · split <;> exact ⟨hid, hemail⟩

def AcquireCall.mailboxLease (call : AcquireCall) (mode : LeaseMode) (now : ℕ) (m : Mailbox) :
    Lease :=
  MailboxService.mailboxLease call.principal now call.draws (call.request mode) m
    (primaryAddress mode m)

def mailboxMayClaim {ι : Type} (mode : LeaseMode) (calls : ι → AcquireCall) (i : ι)
    (seen s : PoolStore) (m : Mailbox) : Prop :=
  s.mayClaim ((calls i).mailboxLease mode seen.now m) (primaryAddress mode m)

instance {ι : Type} (mode : LeaseMode) (calls : ι → AcquireCall) (i : ι) (seen s : PoolStore)
    (m : Mailbox) : Decidable (mailboxMayClaim mode calls i seen s m) :=
  decidableMayClaim _ _ _

theorem mailboxReserver_steady {ι : Type} (mode : LeaseMode)
    (decrypt : String → Except String String) (calls : ι → AcquireCall) :
    (mailboxReserver mode decrypt calls).Steady PoolStore.Stripped (fun _ s m => s.Lists m)
      (mailboxMayClaim mode calls) where
  sound_pass _ _ hs := hs
  sound_commit i seen s m s' hs hgood hcommit := by
    obtain ⟨-, hinstalled⟩ := mailboxReserver_commit hcommit
    intro m' hm'
    obtain ⟨m₀, hm₀, -, hemail⟩ := hinstalled.mem hm'
    rw [← hemail]
    exact hs m₀ hm₀
  good_matched i s m _ hm := ⟨m, (Table.mem_select.mp hm).1, rfl, rfl⟩
  good_pass _ _ _ _ _ h := h
  good_commit i seen s m s' seen' m' _ _ hgood' _ hcommit :=
    (mailboxReserver_commit hcommit).2.lists hgood'
  eligible_pass s d k _ h i := by
    obtain ⟨r, hr, hkey⟩ := h i
    obtain ⟨hmem, hselectable⟩ := Table.mem_select.mp hr
    refine ⟨r, Table.mem_select.mpr ⟨hmem, ?_⟩, hkey⟩
    exact mailboxSelectable_mono (mailboxOccupied_later (Nat.le_add_right _ _))
      (fun _ hfree => hfree) hselectable
  eligible_commit i seen s m s' k hs hgood hkey hcommit h j := by
    obtain ⟨r, hr, rfl⟩ := h j
    obtain ⟨hmem, hselectable⟩ := Table.mem_select.mp hr
    obtain ⟨m', hm', hid, hemail⟩ := hgood
    obtain ⟨hnow, hinstalled⟩ := mailboxReserver_commit hcommit
    have hm : Text.strip m.primaryEmail = m.primaryEmail := by
      rw [← hemail]
      exact hs m' hm'
    -- another row has another address, so the commit does not occupy it
    have hdistinct : mailboxSchema.Distinct m' r := by
      apply Table.distinct_of_ne hm' hmem
      rintro rfl
      exact hkey hid
    have hne : sqlEq m.primaryEmail r.primaryEmail = false := by
      rw [← hemail]
      exact hdistinct.2
    obtain ⟨hmem', hselectable'⟩ := hinstalled.selectable hm hkey hne hmem hselectable
    refine ⟨r, Table.mem_select.mpr ⟨hmem', ?_⟩, rfl⟩
    rw [hnow]
    exact hselectable'
  noRow_iff i seen s m _ _ := by
    apply commit_refused
    · exact insertLease?_eq_none
    · intro db₂ hins
      exact claimBlocked_insert s.db hins rfl (primaryEmailOf_touchMailbox _)
    · intro s₁ e s₂ husable herror
      rcases Work.bind_eq_error.mp herror with hsite | ⟨_, s₃, -, hlast⟩
      · exact recordRequestedSite_error husable hsite
      · exact mailboxLeaseResult_error (Prod.mk.inj hlast).1

/-! ## SMSBower acquires -/

def AcquireCall.resourceLease (call : AcquireCall) (now : ℕ) (r : MailboxProviderResource) :
    Lease :=
  MailboxService.resourceLease call.principal now call.leaseId call.ttlSeconds call.clientTag
    call.purpose "smsbower_gmail" r.providerInstanceId r.id (Text.normalize r.primaryEmail)

def resourceMayClaim {ι : Type} (calls : ι → AcquireCall) (i : ι) (seen s : PoolStore)
    (r : MailboxProviderResource) : Prop :=
  s.mayClaim ((calls i).resourceLease seen.now r) (some (Text.normalize r.primaryEmail))

instance {ι : Type} (calls : ι → AcquireCall) (i : ι) (seen s : PoolStore)
    (r : MailboxProviderResource) : Decidable (resourceMayClaim calls i seen s r) :=
  decidableMayClaim _ _ _

theorem installSmsbowerLease_ok {db : Database} {s s' : Session Database}
    {principal : ClientPrincipal} {now later : ℕ} {draws : Draws} {request : AcquireRequest}
    {usageSite : Option String} {r : MailboxProviderResource} {result : LeaseAcquireResult}
    (h : installSmsbowerLease principal now later draws request usageSite r db s =
      (.ok result, s')) (hs' : s'.usable = true) :
    s'.db.providerResources = (s.db.updateResource r.id (fun r => r.claim now)
      (fun _ => ⟨rfl, fun _ => rfl⟩)).providerResources := by
  unfold installSmsbowerLease at h
  simp only [Work.bind_eq_ok] at h
  obtain ⟨_, s₁, hflush, _, s₂, hclaim, _, s₃, hsite, h⟩ := h
  obtain ⟨-, db₂, hins, rfl⟩ := Work.flush_eq_ok.mp hflush
  obtain ⟨-, husable, hput⟩ := upsertLeaseClaim_ok (unavailableOnIntegrity_ok hclaim)
  obtain ⟨-, rfl⟩ := Prod.mk.inj h
  obtain ⟨-, hframe⟩ := recordOptionalSite_frame husable hsite
  rw [hframe hs', hput.frame, (insertLease?_eq_some hins).2.2]

theorem smsbowerReserver_steady {ι : Type} (calls : ι → AcquireCall) :
    (smsbowerReserver calls).Steady (fun _ => True) (fun _ _ _ => True)
      (resourceMayClaim calls) where
  sound_pass _ _ _ := trivial
  sound_commit _ _ _ _ _ _ _ _ := trivial
  good_matched _ _ _ _ _ := trivial
  good_pass _ _ _ _ _ _ := trivial
  good_commit _ _ _ _ _ _ _ _ _ _ _ _ := trivial
  eligible_pass _ _ _ _ h := h
  eligible_commit i seen s r s' k _ _ hkey hcommit h j := by
    obtain ⟨q, hq, rfl⟩ := h j
    obtain ⟨hmem, hselectable⟩ := Table.mem_select.mp hq
    obtain ⟨result, htransact, -⟩ := commit_eq_ok.mp hcommit
    have hresources := installSmsbowerLease_ok (Work.transact_eq_ok.mp htransact) rfl
    refine ⟨q, Table.mem_select.mpr ⟨?_, hselectable⟩, rfl⟩
    rw [hresources]
    have hid : q.id ≠ r.id := hkey
    exact (mem_updateResource _).mpr ⟨q, hmem, by rw [if_neg hid]⟩
  noRow_iff i seen s r _ _ := by
    apply commit_refused
    · exact insertLease?_eq_none
    · intro db₂ hins
      exact claimBlocked_insert s.db hins rfl
        (primaryEmailOf_updateResource s.db r.id (fun r => r.claim seen.now)
          (fun _ => ⟨rfl, fun _ => rfl⟩) (fun _ => rfl) _)
    · intro s₁ e s₂ husable herror
      rcases Work.bind_eq_error.mp herror with hsite | ⟨_, s₃, -, hlast⟩
      · exact absurd hsite (recordOptionalSite_error husable)
      · cases hlast

/-! ## Undisturbed acquires -/

theorem pickMailbox_primary {db : Database} {now : ℕ} {call : AcquireCall} {mode : LeaseMode} :
    pickMailbox db now call.draws (call.request mode) false call.usageSite
        defaultProviderType =
      match db.selectMailbox now mode defaultProviderType false call.usageSite none with
      | none => .error (.leaseUnavailable "没有可用邮箱")
      | some m => .ok (m, primaryAddress mode m) := by
  show (match db.selectMailbox now mode defaultProviderType false call.usageSite none with
    | none => _
    | some m => _) = _
  rcases db.selectMailbox now mode defaultProviderType false call.usageSite none with _ | m
  · simp only
    rw [if_neg]
    rintro ⟨-, -, hany⟩
    cases hany
  · unfold allocateAddress primaryAddress
    cases mode <;> rfl

theorem pickResource_unconstrained {db : Database} {call : AcquireCall} {mode : LeaseMode} :
    pickResource db (call.request mode).preferredEmail =
      match db.providerResources.first? (MailboxProviderResource.selectable none)
        MailboxProviderResource.coldest with
      | none => .error (.leaseUnavailable "没有可用邮箱")
      | some r => .ok r :=
  rfl

/-- **Refinement**: an acquire that starts while nobody has a lock, and that
nobody follows before it ends, is `_acquire_lease_body`. -/
theorem mailbox_undisturbed {ι : Type} [DecidableEq ι] {mode : LeaseMode}
    {decrypt : String → Except String String} {calls : ι → AcquireCall} {i : ι}
    {t : Reservations ι PoolStore Mailbox String LeaseError} (h : ∀ k, t.owner k = none)
    (hwait : t.phase i = .waiting) :
    ((mailboxReserver mode decrypt calls).finish
        ((mailboxReserver mode decrypt calls).select t i) i).store.db =
      (Work.transact (acquireMailboxLease (calls i).principal t.store.now decrypt
        (calls i).draws ((calls i).request mode) false (calls i).usageSite
        defaultProviderType) t.store.db).2 := by
  rw [Reserver.finish_select_of_unlocked h hwait, acquireMailboxLease_eq]
  have hfirst : ((mailboxReserver mode decrypt calls).matched i t.store).foldl
      (Table.better (mailboxReserver mode decrypt calls).before) none =
      t.store.db.selectMailbox t.store.now mode defaultProviderType false
        (calls i).usageSite none := rfl
  rw [hfirst]
  unfold Work.transact
  rw [Work.bind_of_ok (Work.read_of_usable rfl), pickMailbox_primary]
  rcases t.store.db.selectMailbox t.store.now mode defaultProviderType false
    (calls i).usageSite none with _ | m
  · rfl
  · simp only
    rw [Work.bind_of_ok Work.ofExcept_apply]
    simp only [mailboxReserver, PoolStore.commit, Work.transact]
    rcases installMailboxLease (calls i).principal t.store.now t.store.now decrypt
      (calls i).draws ((calls i).request mode) (calls i).usageSite m (primaryAddress mode m)
      t.store.db ⟨t.store.db, true⟩ with ⟨e | result, s'⟩
    · rfl
    · cases hu : s'.usable <;> simp [hu]

theorem smsbower_undisturbed {ι : Type} [DecidableEq ι] {calls : ι → AcquireCall} {i : ι}
    {t : Reservations ι PoolStore MailboxProviderResource String LeaseError}
    (h : ∀ k, t.owner k = none) (hwait : t.phase i = .waiting) :
    ((smsbowerReserver calls).finish ((smsbowerReserver calls).select t i) i).store.db =
      (Work.transact (acquireSmsbowerLease (calls i).principal t.store.now (calls i).draws
        ((calls i).request .mailRead) (calls i).usageSite) t.store.db).2 := by
  rw [Reserver.finish_select_of_unlocked h hwait, acquireSmsbowerLease_eq]
  have hfirst : ((smsbowerReserver calls).matched i t.store).foldl
      (Table.better (smsbowerReserver calls).before) none =
      t.store.db.providerResources.first? (MailboxProviderResource.selectable none)
        MailboxProviderResource.coldest := rfl
  rw [hfirst]
  unfold Work.transact
  rw [Work.bind_of_ok (Work.read_of_usable rfl), pickResource_unconstrained]
  rcases t.store.db.providerResources.first? (MailboxProviderResource.selectable none)
    MailboxProviderResource.coldest with _ | r
  · rfl
  · simp only
    rw [Work.bind_of_ok Work.ofExcept_apply]
    simp only [smsbowerReserver, PoolStore.commit, Work.transact]
    rcases installSmsbowerLease (calls i).principal t.store.now t.store.now (calls i).draws
      ((calls i).request .mailRead) (calls i).usageSite r t.store.db ⟨t.store.db, true⟩
      with ⟨e | result, s'⟩
    · rfl
    · cases hu : s'.usable <;> simp [hu]

/-! ## Starvation -/

/-- **Concurrent acquires.** With at least as many eligible mailboxes (or
resources) as acquires, none of them ends with "no mailbox" exactly if none
selects while the open ones have locked every row it matches, and none inserts
a claim that another claim blocks. -/
theorem acquires_starve_iff {ι : Type} [Fintype ι] [DecidableEq ι]
    (decrypt : String → Except String String) (calls : ι → AcquireCall) (s : PoolStore)
    (E : Finset String) (hcard : Fintype.card ι ≤ E.card) (es : List (ReserveEvent ι ℕ)) :
    (∀ mode, s.Stripped →
      (∀ k ∈ E, (mailboxReserver mode decrypt calls).Eligible s k) →
      (Throughout (mailboxReserver mode decrypt calls).step
          (fun t => ¬ (mailboxReserver mode decrypt calls).Starved t) (.start s) es ↔
        Meets (mailboxReserver mode decrypt calls).step
          ((mailboxReserver mode decrypt calls).Clear (mailboxMayClaim mode calls))
          (.start s) es)) ∧
      ((∀ k ∈ E, (smsbowerReserver calls).Eligible s k) →
        (Throughout (smsbowerReserver calls).step
            (fun t => ¬ (smsbowerReserver calls).Starved t) (.start s) es ↔
          Meets (smsbowerReserver calls).step
            ((smsbowerReserver calls).Clear (resourceMayClaim calls)) (.start s) es)) := by
  constructor
  · intro mode hstripped heligible
    exact Reserver.neverStarved_iff (mailboxReserver_steady mode decrypt calls) hcard hstripped
      heligible es
  · intro heligible
    exact Reserver.neverStarved_iff (smsbowerReserver_steady calls) hcard trivial heligible es

end

/-! ## Two acquires on two mailboxes -/

section Sample

attribute [local instance] asciiPlatform

def freeMailbox (id email : String) : Mailbox where
  id := id
  primaryEmail := email
  clientId := some "client"
  refreshTokenCiphertext := some "token"

def freeResource (id email : String) : MailboxProviderResource where
  id := id
  providerType := "smsbower_gmail"
  providerInstanceId := "default"
  externalResourceId := id
  primaryEmail := email
  lifecycleState := .available
  readiness := .ready

def twoFree : PoolStore where
  db :=
    { mailboxes := ⟨[freeMailbox "a" "a@x.org", freeMailbox "b" "b@x.org"], by decide +kernel⟩
      providerResources :=
        ⟨[freeResource "a" "a@gmail.com", freeResource "b" "b@gmail.com"], by
          decide +kernel⟩ }
  now := 0

def twoCalls (second : Bool) : AcquireCall where
  principal := ⟨"key", "client", []⟩
  leaseId := if second then "second" else "first"
  usageId := if second then "usage-2" else "usage-1"
  ttlSeconds := 60

/-- The second acquire selects after the first has committed. -/
def serialAcquires : List (ReserveEvent Bool ℕ) :=
  [.select false, .finish false, .pass 1, .select true, .finish true]

/-- The second acquire selects before the first has committed. -/
def overlappingAcquires : List (ReserveEvent Bool ℕ) :=
  [.select false, .select true, .finish false]

theorem acquires_starve_sample :
    Throughout (mailboxReserver .accessToken .ok twoCalls).step
        (fun t => ¬ (mailboxReserver .accessToken .ok twoCalls).Starved t) (.start twoFree)
        serialAcquires ∧
      Throughout (smsbowerReserver twoCalls).step
        (fun t => ¬ (smsbowerReserver twoCalls).Starved t) (.start twoFree)
        serialAcquires := by
  obtain ⟨hmailboxes, hresources⟩ :=
    acquires_starve_iff .ok twoCalls twoFree {"a", "b"} (by decide) serialAcquires
  constructor
  · refine (hmailboxes .accessToken ?_ ?_).mpr ?_
    · show ∀ m ∈ twoFree.db.mailboxes.rows, _
      decide +kernel
    · unfold Reserver.Eligible
      decide +kernel
    · decide +kernel
  · refine (hresources ?_).mpr ?_
    · unfold Reserver.Eligible
      decide +kernel
    · decide +kernel

/-- Two mailboxes are free, and the second of two overlapping acquires finds
none. -/
theorem overlapping_acquires_starve :
    (∀ k ∈ ({"a", "b"} : Finset String),
        (mailboxReserver .accessToken .ok twoCalls).Eligible twoFree k) ∧
      Fintype.card Bool ≤ ({"a", "b"} : Finset String).card ∧
      ¬ Throughout (mailboxReserver .accessToken .ok twoCalls).step
        (fun t => ¬ (mailboxReserver .accessToken .ok twoCalls).Starved t) (.start twoFree)
        overlappingAcquires := by
  have heligible : ∀ k ∈ ({"a", "b"} : Finset String),
      (mailboxReserver .accessToken .ok twoCalls).Eligible twoFree k := by
    unfold Reserver.Eligible
    decide +kernel
  refine ⟨heligible, by decide, ?_⟩
  have hstripped : twoFree.Stripped := by
    show ∀ m ∈ twoFree.db.mailboxes.rows, _
    decide +kernel
  rw [Reserver.neverStarved_iff (mailboxReserver_steady .accessToken .ok twoCalls) (by decide)
    hstripped heligible]
  decide +kernel

end Sample

end MailboxService
