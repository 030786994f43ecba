import MailboxService.LeaseService.Exclusivity
import MailboxService.Ascii

/-!
# Runs of the lease service

The events of the lease service, each a committed transaction or the passing
of time, and what holds in every state of their runs.
-/

namespace MailboxService

open Foundation

section

variable [Platform]

structure LeaseState where
  db : Database
  now : ℕ

/-- A transaction of the lease service, or time passing. -/
inductive LeaseEvent where
  | acquire (principal : ClientPrincipal) (decrypt : String → Except String String)
      (draws : String → Draws) (request : AcquireRequest) (shuffled : List String)
  | reacquire (principal : ClientPrincipal) (leaseId email : String) (ttlSeconds : ℕ)
      (clientTag purpose : Option String)
  | release (principal : ClientPrincipal) (operationId leaseId : String)
  | forceRelease (mailboxId : String)
  | deleteMailboxes (mailboxIds : List String) (forceReleaseActiveLeases : Bool)
  | advance (microseconds : ℕ)

namespace LeaseState

def step (s : LeaseState) : LeaseEvent → LeaseState
  | .acquire principal decrypt draws request shuffled =>
      { s with
        db := ((acquireLease principal s.now decrypt draws request shuffled).transact s.db).2 }
  | .reacquire principal leaseId email ttlSeconds clientTag purpose =>
      { s with
        db := ((reacquireLeaseByEmail principal s.now leaseId email ttlSeconds clientTag
          purpose).transact s.db).2 }
  | .release principal operationId leaseId =>
      { s with db := ((releaseLease principal s.now operationId leaseId).transact s.db).2 }
  | .forceRelease mailboxId =>
      { s with db := forceReleaseClaimsAndLeases s.db s.now mailboxId }
  | .deleteMailboxes mailboxIds force =>
      match deleteMailboxesByIds s.db s.now mailboxIds force with
      | .error _ => s
      | .ok (_, db) => { s with db }
  | .advance microseconds => { s with now := s.now + microseconds }

def start (db : Database) (now : ℕ) : LeaseState :=
  ⟨{ db with leases := ∅, leaseClaims := ∅ }, now⟩

/-- No candidate that is stepped over orphans its lease: a request within the
scopes of its caller, on a candidate behind others that all fail, does not have
its claim refused if the loop over the candidates behind it goes on and succeeds.
Other events orphan nothing. -/
def NoOrphan (s : LeaseState) : LeaseEvent → Prop
  | .acquire principal decrypt draws request shuffled =>
      let attempt := attemptProvider principal s.now decrypt draws request
      request.mode = .mailRead → "mailboxes:acquire" ∈ principal.scopes →
        ∀ pre p rest, shuffled = pre ++ p :: rest →
          (∀ q ∈ pre, ¬ Work.Succeeds (attempt q) s.db) →
          Work.GoesOn attempt LeaseError.tryNext p rest s.db →
          s.db.orphansLease principal s.now (draws p) (request.forProvider p) p = false
  | _ => True

/-- No exclusive lease is created on a mailbox while a lease on it is active. -/
def CreatesAlone (s s' : LeaseState) : Prop :=
  ∀ l ∈ s'.db.leases, (∀ l₀ ∈ s.db.leases, l₀.id ≠ l.id) → l.exclusiveIn s'.db = true →
    ∀ l₀ ∈ s.db.leases, l₀.activeAt s.now = true → l₀.mailboxId ≠ l.mailboxId

end LeaseState

/-! ## Acquiring -/

omit [Platform] in
theorem forProvider_mode {request : AcquireRequest} {providerType : String} :
    (request.forProvider providerType).mode = request.mode := by
  unfold AcquireRequest.forProvider
  split <;> rfl

omit [Platform] in
/-- Only Microsoft candidates are asked for a plus alias. -/
theorem forProvider_wantsPlusAlias {request : AcquireRequest} {providerType : String}
    (h : providerType ≠ defaultProviderType) :
    (request.forProvider providerType).wantsPlusAlias = false := by
  unfold AcquireRequest.forProvider
  rw [if_neg fun hboth => h hboth.1]
  rfl

/-- On an unusable session no attempt returns, so the loop returns nothing. -/
theorem not_attemptProviders_of_unusable {db db' : Database} {s : Session Database}
    {principal : ClientPrincipal} {now : ℕ} {decrypt : String → Except String String}
    {draws : String → Draws} {request : AcquireRequest} {result : LeaseAcquireResult}
    {last : LeaseError} {l : List String} (hs : s.usable = false) :
    Work.tryEach (attemptProvider principal now decrypt draws request) LeaseError.tryNext last l
      db s ≠ (.ok result, ⟨db', true⟩) := by
  intro h
  obtain ⟨q, -, s', hs', hq⟩ := Work.tryEach_ok (I := fun s => s.usable = false)
    (fun q _ s e s' hI hfail _ => by
      obtain ⟨e', he'⟩ := acquireSingleProviderLease_of_unusable db hI
      rw [attemptProvider, he'] at hfail
      obtain ⟨-, rfl⟩ := Prod.mk.inj hfail
      exact hI) hs h
  obtain ⟨e', he'⟩ := acquireSingleProviderLease_of_unusable db hs'
  rw [attemptProvider, he'] at hq
  cases hq

/-- **Loop lemma**: when no candidate that is stepped over orphans its lease,
what the loop commits is one attempt alone. -/
theorem attemptProviders_ok {db db' : Database} {principal : ClientPrincipal} {now : ℕ}
    {decrypt : String → Except String String} {draws : String → Draws}
    {request : AcquireRequest} {result : LeaseAcquireResult} (hmode : request.mode = .mailRead)
    {last : LeaseError} {l : List String} (pre : List String)
    (hok : ∀ pre' p rest, pre ++ l = pre' ++ p :: rest →
      (∀ q ∈ pre', ¬ Work.Succeeds
        (attemptProvider principal now decrypt draws request q) db) →
      Work.GoesOn (attemptProvider principal now decrypt draws request) LeaseError.tryNext p
        rest db →
      db.orphansLease principal now (draws p) (request.forProvider p) p = false)
    (hpre : ∀ q ∈ pre, ¬ Work.Succeeds
      (attemptProvider principal now decrypt draws request q) db)
    (h : Work.tryEach (attemptProvider principal now decrypt draws request)
      LeaseError.tryNext last l db ⟨db, true⟩ = (.ok result, ⟨db', true⟩)) :
    ∃ p ∈ l, attemptProvider principal now decrypt draws request p db ⟨db, true⟩ =
      (.ok result, ⟨db', true⟩) := by
  induction l generalizing pre last with
  | nil => cases h
  | cons p rest ih =>
      rcases hp : attemptProvider principal now decrypt draws request p db ⟨db, true⟩ with
        ⟨e | r, s₁⟩
      · cases he : e.tryNext with
        | false =>
            rw [Work.tryEach_cons_stop hp he] at h
            cases h
        | true =>
            rw [Work.tryEach_cons_next hp he] at h
            have hnot : ¬ Work.Succeeds
                (attemptProvider principal now decrypt draws request p) db := by
              rintro ⟨a, d, ha⟩
              rw [hp] at ha
              cases ha
            -- a failure that leaves the session as it was hands it to the rest
            have hclean : s₁ = ⟨db, true⟩ → ∃ q ∈ p :: rest,
                attemptProvider principal now decrypt draws request q db ⟨db, true⟩ =
                  (.ok result, ⟨db', true⟩) := by
              rintro rfl
              obtain ⟨q, hq, hq'⟩ := ih (pre ++ [p])
                (by rw [List.append_assoc]; exact hok : ∀ pre' p' rest',
                  (pre ++ [p]) ++ rest = pre' ++ p' :: rest' → _)
                (by
                  intro q hq
                  rcases List.mem_append.mp hq with hq | hq
                  · exact hpre q hq
                  · rw [List.mem_singleton.mp hq]
                    exact hnot) h
              exact ⟨q, List.mem_cons_of_mem _ hq, hq'⟩
            rcases acquireSingleProviderLease_error (forProvider_mode.trans hmode) rfl hp he with
              ⟨-, hs⟩ | hs | ⟨-, hs⟩ | ⟨-, horphan, -⟩
            · exact hclean hs
            · exact absurd h (not_attemptProviders_of_unusable (by rw [hs]))
            · exact hclean hs
            · rw [hok pre p rest rfl hpre ⟨e, s₁, result, db', hp, he, h⟩] at horphan
              cases horphan
      · rw [Work.tryEach_cons_ok hp] at h
        exact ⟨p, List.mem_cons_self, hp.trans h⟩

theorem acquireLease_ok {s : LeaseState} {db' : Database} {principal : ClientPrincipal}
    {decrypt : String → Except String String} {draws : String → Draws}
    {request : AcquireRequest} {shuffled : List String} {result : LeaseAcquireResult}
    (hok : s.NoOrphan (.acquire principal decrypt draws request shuffled))
    (h : acquireLease principal s.now decrypt draws request shuffled s.db ⟨s.db, true⟩ =
      (.ok result, ⟨db', true⟩)) :
    ∃ lease, LeaseGranted s.db db' s.now lease := by
  unfold acquireLease at h
  by_cases hmode : request.mode = .mailRead
  · rw [if_pos hmode, Work.bind_eq_ok] at h
    obtain ⟨_, s₁, hscope, h⟩ := h
    have hallowed := mem_scopes_of_requireScope hscope
    rw [requireScope_ok hscope] at h
    obtain ⟨p, -, hp⟩ := attemptProviders_ok hmode []
      (hok hmode hallowed) (fun q hq => by cases hq) h
    obtain ⟨-, lease, -, hgranted⟩ := acquireSingleProviderLease_ok hp rfl
    exact ⟨lease, hgranted⟩
  · rw [if_neg hmode, Work.bind_eq_ok] at h
    obtain ⟨_, s₁, hcheck, h⟩ := h
    have hs₁ : s₁ = ⟨s.db, true⟩ := by
      simp only [checkCredentialRequest, Work.bind_eq_ok] at hcheck
      obtain ⟨_, s₂, hscope, _, s₃, hscope', hcheck⟩ := hcheck
      rw [requireScope_ok hscope', requireScope_ok hscope] at hcheck
      split at hcheck
      · cases hcheck
      · split at hcheck
        · cases hcheck
        · exact (Prod.mk.inj hcheck).2.symm
    rw [hs₁] at h
    obtain ⟨-, lease, -, hgranted⟩ := acquireSingleProviderLease_ok h rfl
    exact ⟨lease, hgranted⟩

/-! ## One step -/

theorem LeaseInv.granted {db db' : Database} {now : ℕ} {lease : Lease} (h : LeaseInv db now)
    (hgranted : LeaseGranted db db' now lease) : LeaseInv db' now :=
  h.put hgranted.put hgranted.unreleased rfl rfl hgranted.trimmed

/-- A renewal writes the claim with the normalised address, which is the
lease's own for the database. -/
theorem LeaseInv.renewed {db db' : Database} {now : ℕ} {old lease : Lease} {a : String}
    (h : LeaseInv db now) (hrenewed : LeaseRenewed db db' now old lease a) :
    LeaseInv db' now := by
  obtain ⟨x, hx⟩ : ∃ x, old.allocatedEmail = some x := by
    cases hnone : old.allocatedEmail with
    | none =>
        have := hrenewed.carries
        rw [hnone] at this
        exact absurd this.symm hrenewed.address_ne
    | some x => exact ⟨x, rfl⟩
  have hcarries := hrenewed.carries
  rw [hx, Option.getD_some] at hcarries
  have htrimmed := h.trimmed old hrenewed.old_mem hrenewed.old_active x hx
  have hactive := hrenewed.old_active
  unfold Lease.activeAt at hactive
  rw [Bool.and_eq_true, Option.isNone_iff_eq_none] at hactive
  refine h.put hrenewed.put ?_ ?_ ?_ ?_
  · rw [hrenewed.released_eq]
    exact hactive.1
  · rw [hrenewed.address_eq, hx, Option.map_some, Option.map_some, ← hcarries,
      Text.normalize_normalize]
  · rw [hrenewed.address_eq, hx, Option.map_some, Option.map_some, ← hcarries]
    show some (Collation.key (Text.lower (Text.strip x))) = _
    rw [Platform.key_lower, Text.strip_of_trimmed htrimmed]
  · intro y hy
    rw [hrenewed.address_eq, hx] at hy
    cases hy
    exact htrimmed

namespace LeaseState

/-- A step that creates no lease creates none beside an active one. -/
theorem createsAlone_of_ids {s s' : LeaseState}
    (h : ∀ l ∈ s'.db.leases, ∃ l₀ ∈ s.db.leases, l₀.id = l.id) : CreatesAlone s s' := by
  intro l hl hnew
  obtain ⟨l₀, hl₀, hid⟩ := h l hl
  exact absurd hid (hnew l₀ hl₀)

theorem createsAlone_granted {s : LeaseState} {db' : Database} {lease : Lease}
    (h : LeaseInv s.db s.now) (hgranted : LeaseGranted s.db db' s.now lease) :
    CreatesAlone s { s with db := db' } := by
  intro l hl hnew hexclusive l₀ hl₀ hactive
  rcases (hgranted.put.leases l).mp hl with ⟨hl, -⟩ | rfl
  · exact absurd rfl (hnew l hl)
  · exact h.put_alone hgranted.put rfl hexclusive l₀ hl₀ hactive (hgranted.fresh l₀ hl₀)

theorem createsAlone_renewed {s : LeaseState} {db' : Database} {old lease : Lease}
    {a : String} (hrenewed : LeaseRenewed s.db db' s.now old lease a) :
    CreatesAlone s { s with db := db' } := by
  apply createsAlone_of_ids
  intro l hl
  rcases (hrenewed.put.leases l).mp hl with ⟨hl, -⟩ | rfl
  · exact ⟨l, hl, rfl⟩
  · exact ⟨old, hrenewed.old_mem, hrenewed.id_eq.symm⟩

theorem createsAlone_released {s : LeaseState} {db' : Database} {lease : Lease}
    (hreleased : LeaseReleased s.db db' s.now lease) :
    CreatesAlone s { s with db := db' } := by
  apply createsAlone_of_ids
  intro l hl
  rcases (hreleased.mem_leases l).mp hl with ⟨hl, -⟩ | rfl
  · exact ⟨l, hl, rfl⟩
  · exact ⟨lease, hreleased.mem, rfl⟩

theorem forceRelease_ids {db : Database} {now : ℕ} {mailboxId : String} :
    ∀ l ∈ (forceReleaseClaimsAndLeases db now mailboxId).leases,
      ∃ l₀ ∈ db.leases, l₀.id = l.id := by
  intro l hl
  obtain ⟨r, hr, rfl⟩ := mem_forceRelease.mp hl
  refine ⟨r, hr, ?_⟩
  split <;> rfl

theorem forceReleaseAll_ids {now : ℕ} (mailboxIds : List String) :
    ∀ {db : Database}, ∀ l ∈ (mailboxIds.foldl
      (fun db id => forceReleaseClaimsAndLeases db now id) db).leases,
      ∃ l₀ ∈ db.leases, l₀.id = l.id := by
  induction mailboxIds with
  | nil => exact fun l hl => ⟨l, hl, rfl⟩
  | cons mailboxId mailboxIds ih =>
      intro db l hl
      obtain ⟨l₁, hl₁, hid₁⟩ := ih l hl
      obtain ⟨l₀, hl₀, hid₀⟩ := forceRelease_ids l₁ hl₁
      exact ⟨l₀, hl₀, hid₀.trans hid₁⟩

theorem deleteMailboxesByIds_ids {db db' : Database} {now : ℕ} {mailboxIds : List String}
    {force : Bool} {result : AdminDeleteResult}
    (hok : deleteMailboxesByIds db now mailboxIds force = .ok (result, db')) :
    ∀ l ∈ db'.leases, ∃ l₀ ∈ db.leases, l₀.id = l.id := by
  unfold deleteMailboxesByIds at hok
  simp only at hok
  split at hok
  · cases hok
  · obtain ⟨-, rfl⟩ := Prod.mk.inj (Except.ok.inj hok)
    intro l hl
    have hl' := (Table.mem_deleteWhere.mp hl).1
    split at hl'
    · exact forceReleaseAll_ids _ l hl'
    · exact ⟨l, hl', rfl⟩

/-- **Step lemma**: an event that orphans no lease keeps the invariant and
creates exclusive leases on free mailboxes only. -/
theorem step_keeps {s : LeaseState} {e : LeaseEvent} (h : LeaseInv s.db s.now)
    (hok : s.NoOrphan e) :
    LeaseInv (s.step e).db (s.step e).now ∧ CreatesAlone s (s.step e) := by
  have hsame : LeaseInv s.db s.now ∧ CreatesAlone s s :=
    ⟨h, createsAlone_of_ids fun l hl => ⟨l, hl, rfl⟩⟩
  cases e with
  | acquire principal decrypt draws request shuffled =>
      simp only [step]
      rcases hx : (acquireLease principal s.now decrypt draws request shuffled).transact s.db
        with ⟨e | result, db'⟩
      · rw [Work.transact_error hx]
        exact hsame
      · obtain ⟨lease, hgranted⟩ := acquireLease_ok hok (Work.transact_eq_ok.mp hx)
        exact ⟨h.granted hgranted, createsAlone_granted h hgranted⟩
  | reacquire principal leaseId email ttlSeconds clientTag purpose =>
      simp only [step]
      rcases hx : (reacquireLeaseByEmail principal s.now leaseId email ttlSeconds clientTag
        purpose).transact s.db with ⟨e | result, db'⟩
      · rw [Work.transact_error hx]
        exact hsame
      · rcases reacquireLeaseByEmail_ok (Work.transact_eq_ok.mp hx) with
          ⟨lease, hgranted⟩ | ⟨old, lease, a, hrenewed⟩
        · exact ⟨h.granted hgranted, createsAlone_granted h hgranted⟩
        · exact ⟨h.renewed hrenewed, createsAlone_renewed hrenewed⟩
  | release principal operationId leaseId =>
      simp only [step]
      rcases hx : (releaseLease principal s.now operationId leaseId).transact s.db
        with ⟨e | result, db'⟩
      · rw [Work.transact_error hx]
        exact hsame
      · rcases releaseLease_ok (Work.transact_eq_ok.mp hx) with heq | ⟨lease, hreleased⟩
        · rw [show db' = s.db from heq]
          exact hsame
        · exact ⟨h.release hreleased, createsAlone_released hreleased⟩
  | forceRelease mailboxId =>
      exact ⟨h.forceRelease mailboxId, createsAlone_of_ids forceRelease_ids⟩
  | deleteMailboxes mailboxIds force =>
      unfold step
      simp only
      split
      · exact hsame
      · rename_i result db' hdelete
        exact ⟨h.deleteMailboxesByIds hdelete,
          createsAlone_of_ids (deleteMailboxesByIds_ids hdelete)⟩
  | advance microseconds =>
      exact ⟨h.advance (Nat.le_add_right _ _), createsAlone_of_ids fun l hl => ⟨l, hl, rfl⟩⟩

theorem start_inv (db : Database) (now : ℕ) :
    LeaseInv (start db now).db (start db now).now := by
  refine ⟨?_, ?_, ?_, ?_⟩ <;> intro l hl <;> cases hl

/-! ## Runs -/

/-- **Lease exclusivity**: in a run that starts without leases and in which no
candidate that is stepped over orphans its lease, the active leases are
exclusive and mirrored by the live claims in every state, and no exclusive
lease is created beside an active one. -/
theorem leases_exclusive (db : Database) (now : ℕ) (events : List LeaseEvent)
    (hok : Meets step NoOrphan (start db now) events) :
    Throughout step (fun s => LeaseExclusivity s.db s.now) (start db now) events ∧
      Meets step (fun s e => CreatesAlone s (s.step e)) (start db now) events := by
  have hstep : ∀ s e, LeaseInv s.db s.now → NoOrphan s e →
      LeaseInv (step s e).db (step s e).now := fun s e h hok => (step_keeps h hok).1
  constructor
  · rw [throughout_iff]
    intro pre post heq
    have hinv := throughout_of_meets hstep (start_inv db now) hok
    exact (throughout_iff.mp hinv pre post heq).exclusivity
  · exact Meets.imp_of_invariant hstep (fun s e h hok => (step_keeps h hok).2)
      (start_inv db now) hok

end LeaseState

end

/-! ## An own-address alias -/

section Sample

attribute [local instance] asciiPlatform

def samplePrincipal : ClientPrincipal where
  clientKeyId := "key"
  name := "client"
  scopes := ["mailboxes:acquire", "leases:release"]

def sampleMailbox : Mailbox where
  id := "mailbox"
  primaryEmail := "a+b@x.org"
  clientId := some "app"
  refreshTokenCiphertext := some "token"
  capability := some .graph

def sampleResource : MailboxProviderResource where
  id := "resource"
  providerType := "smsbower_gmail"
  providerInstanceId := "default"
  externalResourceId := "7"
  primaryEmail := "g@y.org"
  lifecycleState := .available
  readiness := .ready

def sampleDatabase : Database where
  mailboxes := ⟨[sampleMailbox], List.pairwise_singleton _ _⟩
  providerResources := ⟨[sampleResource], List.pairwise_singleton _ _⟩

def sampleDraws (n providerType : String) : Draws where
  leaseId := providerType ++ n
  resourceId := providerType ++ n
  usageId := providerType ++ n
  suffixes := []
  provision := .error .noHook

def sampleAcquire (n suffix : String) (shuffled : List String) : LeaseEvent :=
  .acquire samplePrincipal .ok (sampleDraws n)
    { mode := .mailRead, ttlSeconds := 60, preferredAliasSuffix := some suffix } shuffled

namespace LeaseState

/-- An alias beside another one on the mailbox, then a step in time and a
release. -/
def sampleRun : List LeaseEvent :=
  [sampleAcquire "1" "c" ["microsoft"],
   sampleAcquire "2" "d" ["microsoft", "smsbower_gmail"],
   .advance 1000000,
   .release samplePrincipal "operation" "microsoft1"]

theorem leases_exclusive_sample :
    Throughout step (fun s => LeaseExclusivity s.db s.now) (start sampleDatabase 0)
        sampleRun ∧
      Meets step (fun s e => CreatesAlone s (s.step e)) (start sampleDatabase 0)
        sampleRun := by
  refine leases_exclusive sampleDatabase 0 sampleRun ⟨?_, ?_, trivial, trivial, trivial⟩
  · intro _ _ pre p rest hl _ hbehind
    -- nothing is behind a single candidate
    cases pre with
    | nil =>
        cases hl
        obtain ⟨e, s, a, db, -, -, hloop⟩ := hbehind
        cases hloop
    | cons q pre => simp at hl
  · intro _ _ pre p rest hl _ hbehind
    cases pre with
    | nil =>
        cases hl
        decide +kernel
    | cons q pre =>
        cases pre with
        | nil =>
            cases hl
            obtain ⟨e, s, a, db, -, -, hloop⟩ := hbehind
            cases hloop
        | cons q' pre => simp at hl

/-- The mailbox's own address asked for as an alias of it, while another alias
is out: the refused attempt leaves its lease behind and the next candidate
commits it. -/
def orphanRun : List LeaseEvent :=
  [sampleAcquire "1" "c" ["microsoft"],
   sampleAcquire "2" "b" ["microsoft", "smsbower_gmail"]]

theorem orphan_breaks_exclusivity :
    ¬ Throughout step (fun s => LeaseExclusivity s.db s.now) (start sampleDatabase 0)
      orphanRun := by
  intro h
  have hlast := h.last
  have hlease : (exec step (start sampleDatabase 0) orphanRun).db.leases.any
      (fun l => l.activeAt 0 && (decide (l.id = "microsoft2") &&
        decide (l.expiresAt = 60000000))) = true := by
    decide +kernel
  have hclaim : (exec step (start sampleDatabase 0) orphanRun).db.leaseClaims.any
      (fun c => decide (c.leaseId = "microsoft2")) = false := by
    decide +kernel
  rw [Table.any_eq_true] at hlease
  rw [Table.any_eq_false] at hclaim
  obtain ⟨l, hl, hactive⟩ := hlease
  simp only [Bool.and_eq_true, decide_eq_true_eq] at hactive
  obtain ⟨c, hc, -, hid, -⟩ := (hlast.mirror "microsoft2" 60000000).mpr
    ⟨l, hl, hactive⟩
  have := hclaim c hc
  rw [decide_eq_false_iff_not] at this
  exact this hid

end LeaseState

end Sample

end MailboxService
