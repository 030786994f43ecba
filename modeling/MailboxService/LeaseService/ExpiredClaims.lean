import MailboxService.Foundation.SessionCoupling
import MailboxService.LeaseService.FallbackCompleteness
import MailboxService.LeaseService.LateRelease
import MailboxService.Ascii

/-!
# Expired claims in the way

A claim upsert drops the expired claims on its own mailbox or resource. An
address is unique among all claims, so an expired claim elsewhere still refuses
it. Whether a request that would succeed without the expired claims succeeds
with them comes down to that: the two runs go hand in hand up to a claim that
an expired one elsewhere keeps out.
-/

namespace MailboxService

open Foundation

section

variable [Platform]

/-! ## Requests -/

inductive LeaseCall where
  | acquire (principal : ClientPrincipal) (decrypt : String → Except String String)
      (draws : String → Draws) (request : AcquireRequest) (shuffled : List String)
  | reacquire (principal : ClientPrincipal) (leaseId email : String) (ttlSeconds : ℕ)
      (clientTag purpose : Option String)

def LeaseCall.run (call : LeaseCall) (now : ℕ) : LeaseWork LeaseAcquireResult :=
  match call with
  | .acquire principal decrypt draws request shuffled =>
      acquireLease principal now decrypt draws request shuffled
  | .reacquire principal leaseId email ttlSeconds clientTag purpose =>
      reacquireLeaseByEmail principal now leaseId email ttlSeconds clientTag purpose

/-- No candidate of the request flushes a lease and has its claim refused, as
far as the database tells. -/
def LeaseCall.Unorphaned (db : Database) (now : ℕ) : LeaseCall → Prop
  | .acquire principal _ draws request shuffled =>
      request.mode = .mailRead → ∀ p ∈ shuffled,
        db.orphansLease principal now (draws p) (request.forProvider p) p = false
  | .reacquire .. => True

def Database.withoutExpiredClaims (db : Database) (now : ℕ) : Database :=
  db.deleteLeaseClaims fun c => isExpired c.expiresAt now

/-- The claim is on the mailbox or resource that was handed out. -/
def MailboxLeaseClaim.onChoiceOf (result : LeaseAcquireResult) (c : MailboxLeaseClaim) :
    Bool :=
  match result.mailboxId, result.providerResourceId with
  | some m, _ => c.mailboxId = some m
  | none, some r => c.providerResourceId = some r
  | none, none => false

/-- An expired claim of another lease, on another mailbox or resource, has the
address. -/
def MailboxLeaseClaim.inWayOf (now : ℕ) (result : LeaseAcquireResult)
    (c : MailboxLeaseClaim) : Bool :=
  isExpired c.expiresAt now && !c.onChoiceOf result && decide (c.leaseId ≠ result.leaseId) &&
    sqlEqNullable c.allocatedEmail result.allocatedEmail

def Database.expiredInWay (db : Database) (now : ℕ) (result : LeaseAcquireResult) : Bool :=
  db.leaseClaims.any fun c => c.inWayOf now result

/-- The result is about the lease, with the address of its claim. -/
structure LeaseAcquireResult.Describes (result : LeaseAcquireResult) (lease : Lease)
    (a : Option String) : Prop where
  id_eq : result.leaseId = lease.id
  choice_eq : ∀ c : MailboxLeaseClaim, c.onChoiceOf result = c.onTargetOf lease
  address_eq : result.allocatedEmail = a

theorem LeaseAcquireResult.Describes.inWayOf {result : LeaseAcquireResult} {lease : Lease}
    {a : Option String} (h : result.Describes lease a) (now : ℕ) (c : MailboxLeaseClaim) :
    c.inWayOf now result = (isExpired c.expiresAt now && c.holdsAddress now lease a) := by
  unfold MailboxLeaseClaim.inWayOf MailboxLeaseClaim.holdsAddress
  rw [h.choice_eq, h.id_eq, h.address_eq]
  cases isExpired c.expiresAt now <;> cases c.onTargetOf lease <;> simp

theorem mailboxLeaseResult_describes {decrypt : String → Except String String} {lease : Lease}
    {m : Mailbox} {siteCode : Option String} {result : LeaseAcquireResult}
    (hmailbox : lease.mailboxId = some m.id)
    (h : mailboxLeaseResult decrypt lease m siteCode = .ok result) :
    result.Describes lease lease.allocatedEmail := by
  have hid : result.leaseId = lease.id := by
    unfold mailboxLeaseResult at h
    simp only at h
    split at h
    · split at h
      · cases h
      · cases h
        rfl
    · cases h
      rfl
  obtain ⟨hresult, haddress, -, -⟩ := mailboxLeaseResult_ok h
  refine ⟨hid, ?_, haddress⟩
  intro c
  unfold MailboxLeaseClaim.onChoiceOf MailboxLeaseClaim.onTargetOf
  rw [hresult, hmailbox]

omit [Platform] in
theorem reacquireResult_describes {old : Lease} {m : Mailbox} {now ttlSeconds : ℕ}
    {clientTag purpose : Option String} {allocatedEmail addressKind : String}
    (hmailbox : old.mailboxId = some m.id) :
    (reacquireResult (old.renew now ttlSeconds clientTag purpose) m allocatedEmail
      addressKind).Describes (old.renew now ttlSeconds clientTag purpose)
      (some allocatedEmail) := by
  refine ⟨rfl, ?_, rfl⟩
  intro c
  unfold MailboxLeaseClaim.onChoiceOf MailboxLeaseClaim.onTargetOf
  rw [show (old.renew now ttlSeconds clientTag purpose).mailboxId = some m.id from hmailbox]
  rfl

/-! ## Databases that differ in expired claims -/

/-- The first database is the second one without some of its expired claims,
all of them claims of the base. -/
def Stale (base : Database) (now : ℕ) (c d : Database) : Prop :=
  ∃ claims, c = { d with leaseClaims := claims } ∧ (∀ q ∈ claims, q ∈ d.leaseClaims) ∧
    ∀ q ∈ d.leaseClaims, q ∈ claims ∨
      (q ∈ base.leaseClaims ∧ isExpired q.expiresAt now = true)

theorem stale_withoutExpiredClaims (db : Database) (now : ℕ) :
    Stale db now (db.withoutExpiredClaims now) db := by
  refine ⟨_, rfl, ?_, ?_⟩
  · intro q hq
    exact (Table.mem_deleteWhere.mp hq).1
  · intro q hq
    cases hexpired : isExpired q.expiresAt now with
    | true => exact Or.inr ⟨hq, rfl⟩
    | false => exact Or.inl (Table.mem_deleteWhere.mpr ⟨hq, hexpired⟩)

variable {base c d : Database} {now : ℕ}

/-- A query for live claims does not see the difference. -/
theorem Stale.any_live (h : Stale base now c d) {p : MailboxLeaseClaim → Bool}
    (hp : ∀ q, p q = true → q.liveAt now = true) :
    c.leaseClaims.any p = d.leaseClaims.any p := by
  obtain ⟨claims, rfl, hkept, hextra⟩ := h
  rw [Bool.eq_iff_iff, Table.any_eq_true, Table.any_eq_true]
  constructor
  · rintro ⟨q, hq, hpq⟩
    exact ⟨q, hkept q hq, hpq⟩
  · rintro ⟨q, hq, hpq⟩
    refine ⟨q, (hextra q hq).resolve_right ?_, hpq⟩
    rintro ⟨-, hexpired⟩
    rw [isExpired_eq_not_liveAt, hp q hpq] at hexpired
    cases hexpired

theorem Stale.conflictingClaim (h : Stale base now c d) (lease : Lease) :
    c.conflictingClaim now lease = d.conflictingClaim now lease :=
  h.any_live fun _ hq => (Bool.and_eq_true_iff.mp hq).2

theorem Stale.mailboxOccupied (h : Stale base now c d) (m : Mailbox) :
    c.mailboxOccupied now m = d.mailboxOccupied now m := by
  unfold Database.mailboxOccupied
  rw [h.any_live fun _ hq => (Bool.and_eq_true_iff.mp hq).2]
  obtain ⟨claims, rfl, -, -⟩ := h
  rfl

theorem Stale.pickMailbox (h : Stale base now c d) (draws : Draws) (request : AcquireRequest)
    (wantsPlusAlias : Bool) (siteCode : Option String) (providerType : String) :
    pickMailbox c now draws request wantsPlusAlias siteCode providerType =
      pickMailbox d now draws request wantsPlusAlias siteCode providerType := by
  have hselect : ∀ preferred, c.selectMailbox now request.mode providerType wantsPlusAlias
      siteCode preferred =
        d.selectMailbox now request.mode providerType wantsPlusAlias siteCode preferred := by
    intro preferred
    have hselectable : c.mailboxSelectable now request.mode providerType wantsPlusAlias
        siteCode preferred =
          d.mailboxSelectable now request.mode providerType wantsPlusAlias siteCode
            preferred := by
      funext m
      unfold Database.mailboxSelectable
      rw [h.mailboxOccupied]
      obtain ⟨claims, rfl, -, -⟩ := h
      rfl
    unfold Database.selectMailbox
    rw [hselectable]
    obtain ⟨claims, rfl, -, -⟩ := h
    rfl
  have hoccupies : ∀ e, c.occupiesSite e siteCode = d.occupiesSite e siteCode := by
    intro e
    obtain ⟨claims, rfl, -, -⟩ := h
    rfl
  have hinUse : ∀ e, c.isAllocatedEmailInUse now e = d.isAllocatedEmailInUse now e := by
    intro e
    obtain ⟨claims, rfl, -, -⟩ := h
    rfl
  have hallocate : ∀ m, allocateAddress c now draws request wantsPlusAlias siteCode m =
      allocateAddress d now draws request wantsPlusAlias siteCode m := by
    intro m
    unfold allocateAddress allocatePlusAlias Database.aliasTaken
    simp only [hinUse, hoccupies]
  unfold MailboxService.pickMailbox
  simp only [hselect, hoccupies, hallocate]

theorem Stale.resolveReacquireEmail (h : Stale base now c d) (email : String) :
    resolveReacquireEmail c email = resolveReacquireEmail d email := by
  have hby : ∀ e, c.mailboxByEmail? e = d.mailboxByEmail? e := by
    intro e
    obtain ⟨claims, rfl, -, -⟩ := h
    rfl
  unfold MailboxService.resolveReacquireEmail
  simp only [hby]

/-! ## Claims -/

theorem Stale.withdrawClaims (h : Stale base now c d) (lease : Lease) :
    Stale base now (c.withdrawClaims now lease) (d.withdrawClaims now lease) := by
  obtain ⟨claims, rfl, hkept, hextra⟩ := h
  refine ⟨(Database.withdrawClaims { d with leaseClaims := claims } now lease).leaseClaims, rfl,
    ?_, ?_⟩
  · intro q hq
    obtain ⟨hmem, hsurvives⟩ := mem_withdrawClaims.mp hq
    exact mem_withdrawClaims.mpr ⟨hkept q hmem, hsurvives⟩
  · intro q hq
    obtain ⟨hmem, hsurvives⟩ := mem_withdrawClaims.mp hq
    rcases hextra q hmem with hmem | hbase
    · exact Or.inl (mem_withdrawClaims.mpr ⟨hmem, hsurvives⟩)
    · exact Or.inr hbase

theorem Stale.insertLeaseClaim? (h : Stale base now c d) {claim : MailboxLeaseClaim}
    {c' d' : Database} (hc : c.insertLeaseClaim? claim = some c')
    (hd : d.insertLeaseClaim? claim = some d') : Stale base now c' d' := by
  obtain ⟨hmem, hframe⟩ := insertLeaseClaim?_eq_some hc
  obtain ⟨hmem', hframe'⟩ := insertLeaseClaim?_eq_some hd
  obtain ⟨claims, rfl, hkept, hextra⟩ := h
  refine ⟨c'.leaseClaims, ?_, ?_, ?_⟩
  · rw [hframe, hframe']
  · intro q hq
    rcases (hmem q).mp hq with hq | rfl
    · exact (hmem' q).mpr (Or.inl (hkept q hq))
    · exact (hmem' q).mpr (Or.inr rfl)
  · intro q hq
    rcases (hmem' q).mp hq with hq | rfl
    · rcases hextra q hq with hq | hbase
      · exact Or.inl ((hmem q).mpr (Or.inl hq))
      · exact Or.inr hbase
    · exact Or.inl ((hmem q).mpr (Or.inr rfl))

/-- An expired claim of the base has the address that the lease is to claim. -/
def KeptOut (base : Database) (now : ℕ) (lease : Lease) (a : Option String) : Prop :=
  ∃ q ∈ base.leaseClaims, isExpired q.expiresAt now = true ∧
    q.holdsAddress now lease a = true

/-- Where the runs part: the first upsert returns, the second one is kept out. -/
def ClaimParts (base : Database) (now : ℕ) (lease : Lease) (a : Option String)
    (o : Except LeaseError Unit × Session Database) : Prop :=
  o.1 = .ok () ∧ o.2.usable = true ∧ KeptOut base now lease a

variable {committed committed' : Database}

/-- **Upsert**: the runs go hand in hand, or an expired claim keeps the second
one out. -/
theorem couples_upsertLeaseClaim (hcommitted : Stale base now committed committed')
    (lease : Lease) (a : Option String) :
    Work.Couples (Stale base now) (ClaimParts base now lease a) committed committed'
      (upsertLeaseClaim now lease a) := by
  intro s s' hu hr
  cases hs : s.usable with
  | false =>
      have hraise : ∀ db (t : Session Database), t.usable = false →
          upsertLeaseClaim now lease a db t = (.error .pendingRollback, t) :=
        fun db t ht => Work.bind_of_error (Work.flush_of_unusable ht)
      rw [hraise _ _ hs, hraise _ _ (hu.symm.trans hs)]
      exact Or.inl ⟨rfl, hu, hr⟩
  | true =>
      have hrefused : s.db.claimRefused now lease a = s'.db.claimRefused now lease a := by
        unfold Database.claimRefused
        rw [hr.conflictingClaim]
        obtain ⟨claims, heq, -, -⟩ := hr
        rw [heq]
        rfl
      rw [upsertLeaseClaim_of_usable hs, upsertLeaseClaim_of_usable (hu.symm.trans hs),
        hrefused]
      split
      · exact Or.inl ⟨rfl, rfl, hr.withdrawClaims lease⟩
      · rcases hins : (s.db.withdrawClaims now lease).insertLeaseClaim? (claimOf lease a)
          with _ | u
        · -- what refuses the first one refuses the second one
          rw [insertLeaseClaim?_withdraw_none] at hins
          obtain ⟨q, hq, hholds⟩ := Table.any_eq_true.mp hins
          have hins' : (s'.db.withdrawClaims now lease).insertLeaseClaim? (claimOf lease a) =
              none := by
            rw [insertLeaseClaim?_withdraw_none]
            obtain ⟨claims, heq, hkept, -⟩ := hr
            rw [heq] at hq
            exact Table.any_eq_true.mpr ⟨q, hkept q hq, hholds⟩
          rw [hins']
          exact Or.inl ⟨rfl, rfl, hcommitted⟩
        · rcases hins' : (s'.db.withdrawClaims now lease).insertLeaseClaim? (claimOf lease a)
            with _ | u'
          · refine Or.inr ⟨rfl, rfl, ?_⟩
            rw [insertLeaseClaim?_withdraw_none] at hins'
            obtain ⟨q, hq, hholds⟩ := Table.any_eq_true.mp hins'
            obtain ⟨claims, heq, -, hextra⟩ := hr
            rcases hextra q hq with hmem | ⟨hbase, hexpired⟩
            · have hnone : (s.db.withdrawClaims now lease).insertLeaseClaim?
                  (claimOf lease a) = none := by
                rw [insertLeaseClaim?_withdraw_none, heq]
                exact Table.any_eq_true.mpr ⟨q, hmem, hholds⟩
              rw [hnone] at hins
              cases hins
            · exact ⟨q, hbase, hexpired, hholds⟩
          · exact Or.inl ⟨rfl, rfl, (hr.withdrawClaims lease).insertLeaseClaim? hins hins'⟩

/-! ## The other statements -/

/-- A statement that has nothing to do with the claims. -/
theorem couples_apart {f : Database → Option Database}
    {D : Except LeaseError Unit × Session Database → Prop}
    (hcommitted : Stale base now committed committed')
    (hmap : ∀ (d : Database) claims, f { d with leaseClaims := claims } =
      (f d).map fun u => { u with leaseClaims := claims })
    (hsame : ∀ d u, f d = some u → u.leaseClaims = d.leaseClaims) :
    Work.Couples (Stale base now) D committed committed' (Work.flush f) := by
  refine Work.couples_flush hcommitted ?_
  rintro _ d ⟨claims, rfl, hkept, hextra⟩
  cases hf : f d with
  | none =>
      refine Or.inl ⟨?_, rfl⟩
      rw [hmap, hf]
      rfl
  | some u =>
      refine Or.inr (Or.inl ⟨{ u with leaseClaims := claims }, u, ?_, rfl, claims, rfl, ?_, ?_⟩)
      · rw [hmap, hf]
        rfl
      · rw [hsame d u hf]
        exact hkept
      · rw [hsame d u hf]
        exact hextra

theorem couples_insertLease {D : Except LeaseError Unit × Session Database → Prop}
    (hcommitted : Stale base now committed committed') (g : Database → Database)
    (hg : ∀ (d : Database) claims, g { d with leaseClaims := claims } =
      { g d with leaseClaims := claims })
    (hsame : ∀ d, (g d).leaseClaims = d.leaseClaims) (lease : Lease) :
    Work.Couples (Stale base now) D committed committed'
      (Work.flush fun d => (g d).insertLease? lease) := by
  refine couples_apart hcommitted ?_ ?_
  · intro d claims
    unfold Database.insertLease?
    rw [hg, Option.map_map]
    rfl
  · intro d u hu
    rw [← hsame d, (insertLease?_eq_some hu).2.2]

theorem KeptOut.expiredInWay {lease : Lease} {a : Option String} {result : LeaseAcquireResult}
    (h : KeptOut base now lease a) (hresult : result.Describes lease a) :
    base.expiredInWay now result = true := by
  obtain ⟨q, hq, hexpired, hholds⟩ := h
  refine Table.any_eq_true.mpr ⟨q, hq, ?_⟩
  rw [hresult.inWayOf, hexpired, hholds]
  rfl

/-- What becomes of the first run where the two part: it returns a choice that
an expired claim is in the way of, or raises what no candidate is tried after. -/
def AttemptParts (base : Database) (now : ℕ)
    (o : Except LeaseError LeaseAcquireResult × Session Database) : Prop :=
  (∀ result, o.1 = .ok result → base.expiredInWay now result = true) ∧
    ∀ e, o.1 = .error e → e.tryNext = false

theorem attemptParts_of_optional {principal : ClientPrincipal} {usageId address : String}
    {usageSite : Option String} {lease : Lease} {a : Option String}
    {result : LeaseAcquireResult} {s : Session Database} (hs : s.usable = true)
    (hout : KeptOut base now lease a) (hresult : result.Describes lease a) :
    AttemptParts base now ((do
      recordOptionalSite principal now usageId usageSite address lease.id
      pure result : LeaseWork LeaseAcquireResult) committed s) := by
  rcases hsite : recordOptionalSite principal now usageId usageSite address lease.id committed s
    with ⟨e | v, s₁⟩
  · exact absurd hsite (recordOptionalSite_error hs)
  · rw [Work.bind_of_ok hsite]
    refine ⟨?_, fun e he => by cases he⟩
    intro result' hresult'
    cases hresult'
    exact hout.expiredInWay hresult

theorem couples_requireScope {D : Except LeaseError Unit × Session Database → Prop}
    (principal : ClientPrincipal) (requiredScope : String) :
    Work.Couples (Stale base now) D committed committed'
      (principal.requireScope requiredScope) := by
  unfold ClientPrincipal.requireScope
  split
  · exact Work.couples_pure
  · exact Work.couples_raise

section Couplings

variable (hcommitted : Stale base now committed committed')

include hcommitted

theorem couples_recordEmailSiteUsage {D : Except LeaseError Unit × Session Database → Prop}
    (principal : ClientPrincipal) (usageId email siteCode : String)
    (mailboxId : Option String) (leaseId : String) :
    Work.Couples (Stale base now) D committed committed'
      (recordEmailSiteUsage principal now usageId email siteCode mailboxId leaseId) := by
  unfold recordEmailSiteUsage
  refine Work.couples_query ?_ fun d => ?_
  · rintro _ d ⟨claims, rfl, -, -⟩
    rfl
  cases d.siteUsage? (Text.normalize email) siteCode with
  | none =>
      refine couples_apart hcommitted ?_ ?_
      · intro d claims
        unfold Database.insertEmailSiteUsage?
        rw [Option.map_map]
        rfl
      · intro d u hu
        unfold Database.insertEmailSiteUsage? at hu
        rw [Option.map_eq_some_iff] at hu
        obtain ⟨usages, -, rfl⟩ := hu
        rfl
  | some existing =>
      simp only
      split
      · exact Work.couples_raise
      · refine Work.couples_write hcommitted ?_
        rintro _ d ⟨claims, rfl, hkept, hextra⟩
        exact ⟨claims, rfl, hkept, hextra⟩

theorem couples_recordRequestedSite {D : Except LeaseError Unit × Session Database → Prop}
    (principal : ClientPrincipal) (draws : Draws) (lease : Lease) (siteCode : Option String) :
    Work.Couples (Stale base now) D committed committed'
      (recordRequestedSite principal now draws lease siteCode) := by
  unfold recordRequestedSite
  split
  · split
    · exact couples_recordEmailSiteUsage hcommitted _ _ _ _ _ _
    · exact Work.couples_pure
  · exact Work.couples_pure

theorem couples_recordOptionalSite {D : Except LeaseError Unit × Session Database → Prop}
    (principal : ClientPrincipal) (usageId : String) (usageSite : Option String)
    (address leaseId : String) :
    Work.Couples (Stale base now) D committed committed'
      (recordOptionalSite principal now usageId usageSite address leaseId) := by
  unfold recordOptionalSite
  split
  · exact Work.couples_pure
  · have hrecord : Work.Couples (Stale base now) (fun _ => False) committed committed'
        (recordResolvedSite principal now usageId (usageSite.getD "") address leaseId) := by
      unfold recordResolvedSite
      refine Work.couples_query ?_ fun d => Work.couples_take fun code _ =>
        couples_recordEmailSiteUsage hcommitted _ _ _ _ _ _
      rintro _ d ⟨claims, rfl, -, -⟩
      rfl
    have hhandled : Work.Couples (Stale base now) (fun _ => False) committed committed'
        ((recordResolvedSite principal now usageId (usageSite.getD "") address leaseId).handle
          fun _ => some (pure ())) := by
      refine hrecord.handle ?_ fun _ _ h => h.elim
      intro e y hy
      cases hy
      exact Work.couples_pure
    intro s s' hu hr
    exact Or.inl ((hhandled s s' hu hr).resolve_right id)

theorem couples_unavailableOnIntegrity (lease : Lease) (a : Option String) :
    Work.Couples (Stale base now) (ClaimParts base now lease a) committed committed'
      (unavailableOnIntegrity (upsertLeaseClaim now lease a)) := by
  unfold unavailableOnIntegrity
  refine (couples_upsertLeaseClaim hcommitted lease a).handle ?_ ?_
  · intro e y hy
    split at hy
    · cases hy
      exact Work.couples_raise
    · cases hy
  · rintro e s ⟨hok, -⟩
    cases hok

/-! ## Attempts -/

theorem couples_acquireMailboxLease (principal : ClientPrincipal)
    (decrypt : String → Except String String) (draws : Draws) (request : AcquireRequest)
    (wantsPlusAlias : Bool) (siteCode : Option String) (providerType : String) :
    Work.Couples (Stale base now) (AttemptParts base now) committed committed'
      (acquireMailboxLease principal now decrypt draws request wantsPlusAlias siteCode
        providerType) := by
  unfold acquireMailboxLease
  refine Work.couples_query (fun _ _ h => h.pickMailbox _ _ _ _ _) fun d => ?_
  refine Work.couples_take fun ⟨m, a⟩ _ => ?_
  refine Work.Couples.seq (couples_insertLease hcommitted (fun d => d.touchMailbox m.id now)
    (fun _ _ => rfl) (fun _ => rfl) _) fun _ => ?_
  refine (couples_unavailableOnIntegrity hcommitted _ _).bind (fun _ => ?_) ?_ ?_
  · exact Work.Couples.seq (couples_recordRequestedSite hcommitted _ _ _ _) fun _ =>
      Work.couples_ofExcept
  · rintro u s ⟨-, hs, hout⟩
    rcases hsite : recordRequestedSite principal now draws
      (mailboxLease principal now draws request m a) siteCode committed s with ⟨e | v, s₁⟩
    · rw [Work.bind_of_error hsite]
      refine ⟨fun result h => (by cases h), ?_⟩
      intro e' he'
      cases he'
      exact recordRequestedSite_error hs hsite
    · rw [Work.bind_of_ok hsite]
      constructor
      · intro result hresult
        exact hout.expiredInWay (mailboxLeaseResult_describes rfl hresult)
      · intro e he
        exact mailboxLeaseResult_error he
  · rintro e s ⟨hok, -⟩
    cases hok

theorem couples_acquireSmsbowerLease (principal : ClientPrincipal) (draws : Draws)
    (request : AcquireRequest) (usageSite : Option String) :
    Work.Couples (Stale base now) (AttemptParts base now) committed committed'
      (acquireSmsbowerLease principal now draws request usageSite) := by
  unfold acquireSmsbowerLease
  refine Work.couples_query ?_ fun d => Work.couples_take fun resource _ => ?_
  · rintro _ d ⟨claims, rfl, -, -⟩
    rfl
  refine Work.Couples.seq (couples_insertLease hcommitted
    (fun d => d.updateResource resource.id (fun r => r.claim now) fun _ => ⟨rfl, fun _ => rfl⟩)
    (fun _ _ => rfl) (fun _ => rfl) _) fun _ => ?_
  refine (couples_unavailableOnIntegrity hcommitted _ _).bind (fun _ => ?_) ?_ ?_
  · exact Work.Couples.seq (couples_recordOptionalSite hcommitted _ _ _ _ _) fun _ =>
      Work.couples_pure
  · rintro u s ⟨-, hs, hout⟩
    exact attemptParts_of_optional hs hout ⟨rfl, fun _ => rfl, rfl⟩
  · rintro e s ⟨hok, -⟩
    cases hok

theorem couples_acquireOnDemandLease (principal : ClientPrincipal) (draws : Draws)
    (request : AcquireRequest) (usageSite : Option String) (providerType : String) :
    Work.Couples (Stale base now) (AttemptParts base now) committed committed'
      (acquireOnDemandLease principal now draws request usageSite providerType) := by
  unfold acquireOnDemandLease
  refine Work.couples_take fun ⟨provisioned, address⟩ _ => ?_
  refine Work.Couples.bind (M := ClaimParts base now (resourceLease principal now draws.leaseId
    request.ttlSeconds request.clientTag request.purpose providerType
    (onDemandResource providerType draws.resourceId now provisioned address).providerInstanceId
    draws.resourceId address) (some address)) ?_ (fun _ => ?_) ?_ ?_
  · unfold rollbackOnIntegrity insertOnDemandLease
    refine Work.Couples.handle ?_ ?_ ?_
    · refine Work.Couples.seq (couples_apart hcommitted ?_ ?_) fun _ => ?_
      · intro d claims
        unfold Database.insertProviderResource?
        rw [Option.map_map]
        rfl
      · intro d u hu
        unfold Database.insertProviderResource? at hu
        rw [Option.map_eq_some_iff] at hu
        obtain ⟨resources, -, rfl⟩ := hu
        rfl
      exact Work.Couples.seq (couples_insertLease hcommitted (fun d => d) (fun _ _ => rfl)
        (fun _ => rfl) _) fun _ => couples_upsertLeaseClaim hcommitted _ _
    · intro e y hy
      split at hy
      · cases hy
        exact Work.Couples.seq (Work.couples_rollback hcommitted) fun _ => Work.couples_raise
      · cases hy
    · rintro e s ⟨hok, -⟩
      cases hok
  · exact Work.Couples.seq (couples_recordOptionalSite hcommitted _ _ _ _ _) fun _ =>
      Work.couples_pure
  · rintro u s ⟨-, hs, hout⟩
    exact attemptParts_of_optional hs hout ⟨rfl, fun _ => rfl, rfl⟩
  · rintro e s ⟨hok, -⟩
    cases hok

theorem couples_acquireSingleProviderLease (principal : ClientPrincipal)
    (decrypt : String → Except String String) (draws : Draws) (request : AcquireRequest)
    (providerType : String) :
    Work.Couples (Stale base now) (AttemptParts base now) committed committed'
      (acquireSingleProviderLease principal now decrypt draws request providerType) := by
  unfold acquireSingleProviderLease
  split
  · exact Work.couples_raise
  split
  · exact Work.couples_raise
  refine Work.Couples.seq ?_ fun siteCode => ?_
  · unfold resolveRequestedSite
    split
    · split
      · refine Work.couples_query ?_ fun d => Work.couples_take fun _ _ => Work.couples_pure
        rintro _ d ⟨claims, rfl, -, -⟩
        rfl
      · split
        · exact Work.couples_pure
        · exact Work.couples_raise
    · exact Work.couples_pure
  split
  · exact couples_acquireOnDemandLease hcommitted _ _ _ _ _
  split
  · split
    · exact Work.couples_raise
    · exact couples_acquireSmsbowerLease hcommitted _ _ _ _
  · exact couples_acquireMailboxLease hcommitted _ _ _ _ _ _ _

/-! ## Requests of both kinds -/

theorem couples_acquireLease (principal : ClientPrincipal)
    (decrypt : String → Except String String) (draws : String → Draws)
    (request : AcquireRequest) (shuffled : List String) :
    Work.Couples (Stale base now) (AttemptParts base now) committed committed'
      (acquireLease principal now decrypt draws request shuffled) := by
  unfold acquireLease
  split
  · refine Work.Couples.seq (couples_requireScope _ _) fun _ => ?_
    refine Work.couples_tryEach (fun p _ => ?_) fun e s hpart => hpart.2 e rfl
    exact couples_acquireSingleProviderLease hcommitted _ _ _ _ _
  · refine Work.Couples.seq ?_ fun _ =>
      couples_acquireSingleProviderLease hcommitted _ _ _ _ _
    unfold checkCredentialRequest
    refine Work.Couples.seq (couples_requireScope _ _) fun _ => ?_
    refine Work.Couples.seq (couples_requireScope _ _) fun _ => ?_
    split
    · exact Work.couples_raise
    · split
      · exact Work.couples_raise
      · exact Work.couples_pure

theorem couples_renewOrInsertLease (principal : ClientPrincipal) (ttlSeconds : ℕ)
    (leaseId : String) (clientTag purpose : Option String) (m : Mailbox)
    (allocatedEmail addressKind : String) (owned : Option Lease)
    (howned : ∀ l ∈ owned, l.mailboxId = some m.id) :
    Work.Couples (Stale base now) (AttemptParts base now) committed committed'
      (renewOrInsertLease principal now ttlSeconds leaseId clientTag purpose m allocatedEmail
        addressKind owned) := by
  unfold renewOrInsertLease
  cases owned with
  | none =>
      refine Work.Couples.seq (couples_insertLease hcommitted (fun d => d) (fun _ _ => rfl)
        (fun _ => rfl) _) fun _ => ?_
      refine (couples_upsertLeaseClaim hcommitted _ _).bind (fun _ => Work.couples_pure) ?_ ?_
      · rintro u s ⟨-, -, hout⟩
        refine ⟨?_, fun e he => by cases he⟩
        intro result hresult
        cases hresult
        exact hout.expiredInWay ⟨rfl, fun _ => rfl, rfl⟩
      · rintro e s ⟨hok, -⟩
        cases hok
  | some l =>
      refine Work.Couples.seq (Work.couples_write hcommitted ?_) fun _ => ?_
      · rintro _ d ⟨claims, rfl, hkept, hextra⟩
        exact ⟨claims, rfl, hkept, hextra⟩
      refine (couples_upsertLeaseClaim hcommitted _ _).bind (fun _ => Work.couples_pure) ?_ ?_
      · rintro u s ⟨-, -, hout⟩
        refine ⟨?_, fun e he => by cases he⟩
        intro result hresult
        cases hresult
        exact hout.expiredInWay (reacquireResult_describes (howned l rfl))
      · rintro e s ⟨hok, -⟩
        cases hok

theorem couples_reacquireLeaseByEmail (principal : ClientPrincipal) (leaseId email : String)
    (ttlSeconds : ℕ) (clientTag purpose : Option String) :
    Work.Couples (Stale base now) (AttemptParts base now) committed committed'
      (reacquireLeaseByEmail principal now leaseId email ttlSeconds clientTag purpose) := by
  unfold reacquireLeaseByEmail
  refine Work.Couples.seq (couples_requireScope _ _) fun _ => ?_
  simp only
  split
  · exact Work.couples_raise
  refine Work.couples_query (fun _ _ h => h.resolveReacquireEmail _) fun d =>
    Work.couples_take fun resolved _ => ?_
  obtain ⟨mailboxId, addressKind⟩ := resolved
  refine Work.couples_query ?_ fun d => ?_
  · rintro _ d ⟨claims, rfl, -, -⟩
    rfl
  split
  · exact Work.couples_raise
  refine Work.couples_query ?_ fun d => ?_
  · rintro _ d ⟨claims, rfl, -, -⟩
    rfl
  cases d.mailboxes.get? mailboxId with
  | none => exact Work.couples_raise
  | some m =>
      refine Work.couples_take fun _ _ => ?_
      refine Work.couples_query ?_ fun d => Work.couples_take fun owned howned => ?_
      · rintro _ d ⟨claims, rfl, -, -⟩
        rfl
      refine couples_renewOrInsertLease hcommitted _ _ _ _ _ _ _ _ _ ?_
      rintro l rfl
      exact (matchOwnedLease_active howned).2.1

theorem couples_run (call : LeaseCall) :
    Work.Couples (Stale base now) (AttemptParts base now) committed committed'
      (call.run now) := by
  cases call with
  | acquire principal decrypt draws request shuffled =>
      exact couples_acquireLease hcommitted _ _ _ _ _
  | reacquire principal leaseId email ttlSeconds clientTag purpose =>
      exact couples_reacquireLeaseByEmail hcommitted _ _ _ _ _ _

end Couplings

/-- **Sufficiency**: with no expired claim in the way, a request that succeeds
without the expired claims succeeds with them, and hands out the same. -/
theorem same_of_not_inWay {db u : Database} {call : LeaseCall} {result : LeaseAcquireResult}
    (h : (call.run now).transact (db.withoutExpiredClaims now) = (.ok result, u))
    (hfree : db.expiredInWay now result = false) :
    ∃ u', (call.run now).transact db = (.ok result, u') := by
  have hstale := stale_withoutExpiredClaims db now
  rcases (couples_run hstale call).transact hstale h with ⟨u', hrun, -⟩ | hpart
  · exact ⟨u', hrun⟩
  · rw [hpart.1 result rfl] at hfree
    cases hfree

/-! ## A claim in the way keeps the request from its choice -/

theorem ClaimPut.not_holdsAddress {db db' : Database} {lease : Lease} {a : Option String}
    (h : ClaimPut db db' now lease a) {q : MailboxLeaseClaim} (hq : q ∈ db.leaseClaims) :
    q.holdsAddress now lease a = false := by
  rw [Bool.eq_false_iff]
  intro hholds
  unfold MailboxLeaseClaim.holdsAddress at hholds
  simp only [Bool.and_eq_true, decide_eq_true_eq, Bool.not_eq_true', ← Bool.not_eq_true] at hholds
  obtain ⟨⟨hid, hsurvives⟩, hsame⟩ := hholds
  have hmem : q ∈ db'.leaseClaims := (h.claims q).mpr (Or.inl ⟨hq, hsurvives, hid⟩)
  have hnew : claimOf lease a ∈ db'.leaseClaims := (h.claims _).mpr (Or.inr rfl)
  have hne : q ≠ claimOf lease a := by
    intro heq
    exact hid (congrArg MailboxLeaseClaim.leaseId heq)
  have hclash : leaseClaimSchema.clash q (claimOf lease a) = false :=
    (Table.distinct_of_ne hmem hnew hne).2
  rw [show leaseClaimSchema.clash q (claimOf lease a) = true from hsame] at hclash
  cases hclash

section Returns

variable {q : MailboxLeaseClaim} {db : Database} {s s' : Session Database}
  {result : LeaseAcquireResult}

theorem LeaseAcquireResult.Describes.not_inWayOf {lease : Lease} {a : Option String}
    {db' : Database} (h : result.Describes lease a) (hput : ClaimPut db db' now lease a)
    (hq : q ∈ db.leaseClaims) : q.inWayOf now result = false := by
  rw [h.inWayOf, hput.not_holdsAddress hq, Bool.and_false]

theorem acquireMailboxLease_clears {principal : ClientPrincipal}
    {decrypt : String → Except String String} {draws : Draws} {request : AcquireRequest}
    {wantsPlusAlias : Bool} {siteCode : Option String} {providerType : String}
    (h : acquireMailboxLease principal now decrypt draws request wantsPlusAlias siteCode
      providerType db s = (.ok result, s')) (hq : q ∈ s.db.leaseClaims) :
    q.inWayOf now result = false := by
  unfold acquireMailboxLease at h
  simp only [Work.bind_eq_ok] at h
  obtain ⟨picked, s₁, hread, ⟨m, a⟩, s₂, htake, _, s₃, hflush, _, s₄, hclaim, _, s₅, -, h⟩ := h
  obtain ⟨-, rfl, rfl⟩ := Work.read_eq_ok.mp hread
  obtain ⟨-, rfl⟩ := Prod.mk.inj htake
  obtain ⟨-, db₂, hins, rfl⟩ := Work.flush_eq_ok.mp hflush
  obtain ⟨-, -, hput⟩ := upsertLeaseClaim_ok (unavailableOnIntegrity_ok hclaim)
  have hdescribes := mailboxLeaseResult_describes rfl (Prod.mk.inj h).1
  refine hdescribes.not_inWayOf hput ?_
  show q ∈ db₂.leaseClaims
  rw [(insertLease?_eq_some hins).2.2]
  exact hq

theorem acquireSmsbowerLease_clears {principal : ClientPrincipal} {draws : Draws}
    {request : AcquireRequest} {usageSite : Option String}
    (h : acquireSmsbowerLease principal now draws request usageSite db s = (.ok result, s'))
    (hq : q ∈ s.db.leaseClaims) : q.inWayOf now result = false := by
  unfold acquireSmsbowerLease at h
  simp only [Work.bind_eq_ok] at h
  obtain ⟨picked, s₁, hread, r, s₂, htake, _, s₃, hflush, _, s₄, hclaim, _, s₅, -, h⟩ := h
  obtain ⟨-, rfl, rfl⟩ := Work.read_eq_ok.mp hread
  obtain ⟨-, rfl⟩ := Prod.mk.inj htake
  obtain ⟨-, db₂, hins, rfl⟩ := Work.flush_eq_ok.mp hflush
  obtain ⟨-, -, hput⟩ := upsertLeaseClaim_ok (unavailableOnIntegrity_ok hclaim)
  cases h
  refine LeaseAcquireResult.Describes.not_inWayOf ⟨rfl, fun _ => rfl, rfl⟩ hput ?_
  show q ∈ db₂.leaseClaims
  rw [(insertLease?_eq_some hins).2.2]
  exact hq

theorem acquireOnDemandLease_clears {principal : ClientPrincipal} {draws : Draws}
    {request : AcquireRequest} {usageSite : Option String} {providerType : String}
    (h : acquireOnDemandLease principal now draws request usageSite providerType db s =
      (.ok result, s')) (hq : q ∈ s.db.leaseClaims) : q.inWayOf now result = false := by
  unfold acquireOnDemandLease at h
  simp only [Work.bind_eq_ok] at h
  obtain ⟨⟨provisioned, address⟩, s₁, htake, _, s₂, hinsert, _, s₃, -, h⟩ := h
  obtain ⟨-, rfl⟩ := Prod.mk.inj htake
  have hparts := rollbackOnIntegrity_ok hinsert
  simp only [insertOnDemandLease, Work.bind_eq_ok] at hparts
  obtain ⟨_, s₄, hflush₁, _, s₅, hflush₂, hclaim⟩ := hparts
  obtain ⟨-, db₁, hresource, rfl⟩ := Work.flush_eq_ok.mp hflush₁
  obtain ⟨-, db₂, hins, rfl⟩ := Work.flush_eq_ok.mp hflush₂
  obtain ⟨-, -, hput⟩ := upsertLeaseClaim_ok hclaim
  cases h
  refine LeaseAcquireResult.Describes.not_inWayOf ⟨rfl, fun _ => rfl, rfl⟩ hput ?_
  show q ∈ db₂.leaseClaims
  rw [(insertLease?_eq_some hins).2.2]
  unfold Database.insertProviderResource? at hresource
  rw [Option.map_eq_some_iff] at hresource
  obtain ⟨resources, -, rfl⟩ := hresource
  exact hq

theorem acquireSingleProviderLease_clears {principal : ClientPrincipal}
    {decrypt : String → Except String String} {draws : Draws} {request : AcquireRequest}
    {providerType : String}
    (h : acquireSingleProviderLease principal now decrypt draws request providerType db s =
      (.ok result, s')) (hq : q ∈ s.db.leaseClaims) : q.inWayOf now result = false := by
  unfold acquireSingleProviderLease at h
  split at h
  · cases h
  split at h
  · cases h
  rw [Work.bind_eq_ok] at h
  obtain ⟨siteCode, s₁, hsite, h⟩ := h
  rw [← resolveRequestedSite_ok hsite] at hq
  split at h
  · exact acquireOnDemandLease_clears h hq
  split at h
  · split at h
    · cases h
    · exact acquireSmsbowerLease_clears h hq
  · exact acquireMailboxLease_clears h hq

/-- The loop, where no candidate leaves an orphaned lease to the next one. -/
theorem attemptProviders_clears {principal : ClientPrincipal}
    {decrypt : String → Except String String} {draws : String → Draws}
    {request : AcquireRequest} {shuffled : List String} (hmode : request.mode = .mailRead)
    (hclean : ∀ p ∈ shuffled,
      db.orphansLease principal now (draws p) (request.forProvider p) p = false)
    (h : attemptProviders principal now decrypt draws request shuffled db ⟨db, true⟩ =
      (.ok result, s')) (hq : q ∈ db.leaseClaims) : q.inWayOf now result = false := by
  have hloop := Work.tryEach_ok
    (I := fun s : Session Database => s = ⟨db, true⟩ ∨ s.usable = false) ?_ (Or.inl rfl) h
  · obtain ⟨p, hp, s₁, hs₁, hattempt⟩ := hloop
    rcases hs₁ with rfl | hunusable
    · exact acquireSingleProviderLease_clears hattempt hq
    · obtain ⟨e, he⟩ := acquireSingleProviderLease_of_unusable db hunusable
      rw [attemptProvider, he] at hattempt
      cases hattempt
  · rintro p hp s e s' hs hattempt he
    rcases hs with rfl | hunusable
    · rcases acquireSingleProviderLease_error (forProvider_mode.trans hmode) rfl hattempt he
        with ⟨-, rfl⟩ | rfl | ⟨-, rfl⟩ | ⟨-, horphan, -⟩
      · exact Or.inl rfl
      · exact Or.inr rfl
      · exact Or.inl rfl
      · rw [show db.orphansLease principal now (draws p) (request.forProvider p) p = false from
          hclean p hp] at horphan
        cases horphan
    · obtain ⟨e', he'⟩ := acquireSingleProviderLease_of_unusable db hunusable
      rw [attemptProvider, he'] at hattempt
      obtain ⟨-, rfl⟩ := Prod.mk.inj hattempt
      exact Or.inr hunusable

theorem acquireLease_clears {principal : ClientPrincipal}
    {decrypt : String → Except String String} {draws : String → Draws}
    {request : AcquireRequest} {shuffled : List String}
    (hclean : request.mode = .mailRead → ∀ p ∈ shuffled,
      db.orphansLease principal now (draws p) (request.forProvider p) p = false)
    (h : acquireLease principal now decrypt draws request shuffled db ⟨db, true⟩ =
      (.ok result, s')) (hq : q ∈ db.leaseClaims) : q.inWayOf now result = false := by
  unfold acquireLease at h
  split at h
  · rename_i hmode
    rw [Work.bind_eq_ok] at h
    obtain ⟨_, s₁, hscope, h⟩ := h
    rw [requireScope_ok hscope] at h
    exact attemptProviders_clears hmode (hclean hmode) h hq
  · rw [Work.bind_eq_ok] at h
    obtain ⟨_, s₁, hcheck, h⟩ := h
    refine acquireSingleProviderLease_clears h ?_
    unfold checkCredentialRequest at hcheck
    simp only [Work.bind_eq_ok] at hcheck
    obtain ⟨_, s₂, hscope₁, _, s₃, hscope₂, hcheck⟩ := hcheck
    split at hcheck
    · cases hcheck
    split at hcheck
    · cases hcheck
    obtain ⟨-, rfl⟩ := Prod.mk.inj hcheck
    rw [requireScope_ok hscope₂, requireScope_ok hscope₁]
    exact hq

theorem reacquireLeaseByEmail_clears {principal : ClientPrincipal} {ttlSeconds : ℕ}
    {leaseId email : String} {clientTag purpose : Option String}
    (h : reacquireLeaseByEmail principal now leaseId email ttlSeconds clientTag purpose db s =
      (.ok result, s')) (hq : q ∈ s.db.leaseClaims) : q.inWayOf now result = false := by
  obtain ⟨-, m, addressKind, owned, howned, h⟩ := reacquireLeaseByEmail_returns h
  cases owned with
  | none =>
      simp only [renewOrInsertLease, Work.bind_eq_ok] at h
      obtain ⟨_, s₁, hflush, _, s₂, hclaim, h⟩ := h
      obtain ⟨-, db₂, hins, rfl⟩ := Work.flush_eq_ok.mp hflush
      obtain ⟨-, -, hput⟩ := upsertLeaseClaim_ok hclaim
      cases h
      refine LeaseAcquireResult.Describes.not_inWayOf ⟨rfl, fun _ => rfl, rfl⟩ hput ?_
      show q ∈ db₂.leaseClaims
      rw [(insertLease?_eq_some hins).2.2]
      exact hq
  | some old =>
      simp only [renewOrInsertLease, Work.bind_eq_ok] at h
      obtain ⟨_, s₁, hflush, _, s₂, hclaim, h⟩ := h
      obtain ⟨-, rfl⟩ := Work.write_eq_ok.mp hflush
      obtain ⟨-, -, hput⟩ := upsertLeaseClaim_ok hclaim
      cases h
      obtain ⟨-, hmailbox, -, -⟩ := matchOwnedLease_active howned
      exact (reacquireResult_describes hmailbox).not_inWayOf hput hq

end Returns

theorem LeaseCall.run_clears {call : LeaseCall} {db u : Database} {result : LeaseAcquireResult}
    (hclean : call.Unorphaned db now) (h : (call.run now).transact db = (.ok result, u)) :
    db.expiredInWay now result = false := by
  rw [Database.expiredInWay, Table.any_eq_false]
  intro q hq
  have hrun := Work.transact_eq_ok.mp h
  cases call with
  | acquire principal decrypt draws request shuffled => exact acquireLease_clears hclean hrun hq
  | reacquire principal leaseId email ttlSeconds clientTag purpose =>
      exact reacquireLeaseByEmail_clears hrun hq

/-- **Expired claims**: a request that succeeds with the expired claims removed
hands out the same with them, unless one of them is in the way; and where no
candidate leaves an orphaned lease to the next one, it does so exactly then. -/
theorem expired_claims_iff (call : LeaseCall) (now : ℕ) (db u : Database)
    (result : LeaseAcquireResult)
    (h : (call.run now).transact (db.withoutExpiredClaims now) = (.ok result, u)) :
    (db.expiredInWay now result = false →
        ∃ u', (call.run now).transact db = (.ok result, u')) ∧
      (call.Unorphaned db now →
        ((∃ u', (call.run now).transact db = (.ok result, u')) ↔
          db.expiredInWay now result = false)) := by
  refine ⟨same_of_not_inWay h, fun hclean => ⟨?_, same_of_not_inWay h⟩⟩
  rintro ⟨u', hrun⟩
  exact LeaseCall.run_clears hclean hrun

end

section Sample

attribute [local instance] asciiPlatform

/-- An address is bought and handed out; its lease runs out, and then another
purchase is made. -/
def boughtRun (address : String) : List LifeEvent :=
  [.replenish "first" "operation1" "default" "41" "user@gmail.com" none,
   .acquire samplePrincipal .ok (sampleDraws "1") { mode := .mailRead, ttlSeconds := 60 }
     ["smsbower_gmail"],
   .advance 61000000,
   .replenish "second" "operation2" "default" "42" address none]

def boughtState (address : String) : LeaseState :=
  exec LeaseState.live (.start { } 0) (boughtRun address)

def boughtCall : LeaseCall :=
  .acquire samplePrincipal .ok (sampleDraws "2") { mode := .mailRead, ttlSeconds := 60 }
    ["smsbower_gmail"]

def boughtResult (address : String) : LeaseAcquireResult where
  leaseId := "smsbower_gmail2"
  primaryEmail := address
  mode := .mailRead
  expiresAt := 121000000
  createdAt := 61000000
  providerResourceId := some "second"
  allocatedEmail := some address
  addressKind := some "primary"
  providerType := some "smsbower_gmail"
  providerInstanceId := some "default"

theorem expired_claims_sample :
    ∃ u', (boughtCall.run 61000000).transact (boughtState "other@gmail.com").db =
      (.ok (boughtResult "other@gmail.com"), u') := by
  refine (expired_claims_iff boughtCall 61000000 (boughtState "other@gmail.com").db _ _
    (Prod.ext ?_ rfl)).1 ?_
  · decide +kernel
  · decide +kernel

/-- **An expired claim blocks**: an address that was bought again is not handed
out while the claim of its first lease stands. -/
theorem expired_claim_blocks :
    ((boughtCall.run 61000000).transact
        ((boughtState "user@gmail.com").db.withoutExpiredClaims 61000000)).1 =
        .ok (boughtResult "user@gmail.com") ∧
      ((boughtCall.run 61000000).transact (boughtState "user@gmail.com").db).1 =
        .error (.leaseUnavailable "没有可用邮箱") := by
  constructor <;> decide +kernel

end Sample

end MailboxService
