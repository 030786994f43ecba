import MailboxService.LeaseService.AccessTokenLeases
import MailboxService.LeaseService.Failures
import MailboxService.LeaseService.ReleaseEffects

/-!
# Leases with an access token are given or leave nothing

The reserve puts a lease and its claim or does nothing, the token service leaves
both alone, and the compensation finds the lease and takes it back. So a call
gives a lease, or leaves none. The expired claims on the mailbox are gone either
way, and the time of the lease runs from the reserve on.
-/

namespace MailboxService

open Foundation

section

variable [Platform]

/-! ## What an acquire leaves -/

/-- Leases and claims but for those of one lease and for the expired claims on
its mailbox. -/
structure OthersKept (db db' : Database) (leaseId : String) (mailboxId : Option String)
    (now : ℕ) : Prop where
  leases : ∀ l, l.id ≠ leaseId → (l ∈ db'.leases ↔ l ∈ db.leases)
  claims : ∀ c, c.leaseId ≠ leaseId → (c ∈ db'.leaseClaims ↔
    c ∈ db.leaseClaims ∧ ¬ (c.mailboxId = mailboxId ∧ isExpired c.expiresAt now = true))

/-- A new lease that is not released, with its claim. -/
structure LeaseGiven (db db' : Database) (result : AccessTokenLease) : Prop where
  fresh : ∀ l ∈ db.leases, l.id ≠ result.leaseId
  lease : ∃ l ∈ db'.leases, l.id = result.leaseId ∧ l.mode = .accessToken ∧
    l.releasedAt = none ∧ l.expiresAt = result.expiresAt
  claim : ∃ c ∈ db'.leaseClaims, c.leaseId = result.leaseId ∧ c.mailboxId = result.mailboxId ∧
    c.expiresAt = result.expiresAt
  others : OthersKept db db' result.leaseId result.mailboxId result.createdAt

/-- A new lease that is released, without a claim. -/
structure LeaseTakenBack (db db' : Database) (leaseId : String) (mailboxId : Option String)
    (now : ℕ) : Prop where
  fresh : ∀ l ∈ db.leases, l.id ≠ leaseId
  released : ∀ l ∈ db'.leases, l.id = leaseId → l.releasedAt ≠ none
  unclaimed : ∀ c ∈ db'.leaseClaims, c.leaseId ≠ leaseId
  others : OthersKept db db' leaseId mailboxId now

/-- Leases and claims are as they were, or the lease is taken back. -/
def NothingLeft (db db' : Database) : Prop :=
  (db'.leases = db.leases ∧ db'.leaseClaims = db.leaseClaims) ∨
    ∃ leaseId mailboxId now, LeaseTakenBack db db' leaseId mailboxId now

/-- **An acquire gives a lease that runs for the requested time, or leaves
nothing.** -/
def Settled {ε : Type} (call : AccessTokenCall ε) (db : Database) :
    Except (AccessTokenLeaseError ε) AccessTokenLease × Database → Prop
  | (.ok result, db') =>
      LeaseGiven db db' result ∧
        result.expiresAt = result.createdAt + seconds call.request.ttlSeconds
  | (.error _, db') => NothingLeft db db'

/-- The same with a lease that is active when the call returns, and with all
other leases and claims as they were. -/
def SettledExactly {ε : Type} (call : AccessTokenCall ε) (db : Database) :
    Except (AccessTokenLeaseError ε) AccessTokenLease × Database → Prop
  | (.ok result, db') =>
      (∃ l ∈ db'.leases, l.id = result.leaseId ∧ l.activeAt call.returnedAt = true) ∧
        (∃ c ∈ db'.leaseClaims, c.leaseId = result.leaseId ∧
          c.liveAt call.returnedAt = true) ∧
        (∀ l, l.id ≠ result.leaseId → (l ∈ db'.leases ↔ l ∈ db.leases)) ∧
        ∀ c, c.leaseId ≠ result.leaseId → (c ∈ db'.leaseClaims ↔ c ∈ db.leaseClaims)
  | (.error _, db') =>
      (∀ l ∈ db'.leases, l ∉ db.leases → l.releasedAt ≠ none) ∧
        (∀ l ∈ db.leases, l ∈ db'.leases) ∧ ∀ c, c ∈ db'.leaseClaims ↔ c ∈ db.leaseClaims

/-! ## Lifted work -/

section

variable {ε α : Type} {x : LeaseWork α} {committed : Database} {s s' : Session Database}

theorem liftLease_ok {a : α}
    (h : (liftLease x : Work Database (AccessTokenLeaseError ε) α) committed s = (.ok a, s')) :
    x committed s = (.ok a, s') := by
  unfold liftLease at h
  rcases hx : x committed s with ⟨e | b, t⟩
  · rw [hx] at h
    cases h
  · rw [hx] at h
    cases h
    rfl

theorem liftLease_error {e : AccessTokenLeaseError ε}
    (h : (liftLease x : Work Database (AccessTokenLeaseError ε) α) committed s =
      (.error e, s')) : ∃ e', x committed s = (.error e', s') := by
  unfold liftLease at h
  rcases hx : x committed s with ⟨e' | b, t⟩
  · rw [hx] at h
    cases h
    exact ⟨e', rfl⟩
  · rw [hx] at h
    cases h

theorem liftLease_of_ok {a : α} (h : x committed s = (.ok a, s')) :
    (liftLease x : Work Database (AccessTokenLeaseError ε) α) committed s = (.ok a, s') := by
  unfold liftLease
  rw [h]
  rfl

end

theorem checkCredentialRequest_session {principal : ClientPrincipal} {request : AcquireRequest}
    {committed : Database} {s : Session Database} :
    (checkCredentialRequest principal request committed s).2 = s := by
  have hscope : ∀ scope, principal.requireScope scope committed s = (.ok (), s) ∨
      ∃ e, principal.requireScope scope committed s = (.error e, s) := by
    intro scope
    unfold ClientPrincipal.requireScope
    split
    · exact Or.inl rfl
    · exact Or.inr ⟨_, rfl⟩
  unfold checkCredentialRequest
  rcases hscope "leases:acquire" with h | ⟨e, h⟩
  · rw [Work.bind_of_ok h]
    rcases hscope (if request.mode = .accessToken then "tokens:access:read"
      else "tokens:refresh:read") with h | ⟨e, h⟩
    · rw [Work.bind_of_ok h]
      split
      · rfl
      · split <;> rfl
    · rw [Work.bind_of_error h]
  · rw [Work.bind_of_error h]

/-! ## The reserve -/

structure Reserved (db db' : Database) (clientKeyId : String) (ttlSeconds : ℕ)
    (reserved : LeaseAcquireResult) (lease : Lease) : Prop where
  put : LeasePut db db' reserved.createdAt lease none
  fresh : ∀ l ∈ db.leases, l.id ≠ lease.id
  id : lease.id = reserved.leaseId
  mode : lease.mode = .accessToken
  owner : lease.clientKeyId = some clientKeyId
  unreleased : lease.releasedAt = none
  resource : lease.providerResourceId = none
  mailbox : ∃ m, lease.mailboxId = some m ∧ reserved.mailboxId = some m ∧
    (db'.mailboxes.get? m).isSome = true
  expires : lease.expiresAt = reserved.expiresAt
  ttl : reserved.expiresAt = reserved.createdAt + seconds ttlSeconds

section

variable {ε : Type} {call : AccessTokenCall ε} {attempt : ReserveAttempt}
  {committed : Database} {s s' : Session Database}

theorem isSome_of_emails {db db' : Database}
    (h : ∀ k, (db'.mailboxes.get? k).map Mailbox.primaryEmail =
      (db.mailboxes.get? k).map Mailbox.primaryEmail) (k : String) :
    (db'.mailboxes.get? k).isSome = (db.mailboxes.get? k).isSome := by
  have hk := congrArg Option.isSome (h k)
  rwa [Option.isSome_map, Option.isSome_map] at hk

/-- An acquire without a site that returns leaves a session that takes
statements. -/
theorem acquireMailboxLease_usable {principal : ClientPrincipal} {now : ℕ}
    {decrypt : String → Except String String} {draws : Draws} {request : AcquireRequest}
    {wantsPlusAlias : Bool} {providerType : String} {result : LeaseAcquireResult}
    (h : acquireMailboxLease principal now decrypt draws request wantsPlusAlias none
      providerType committed s = (.ok result, s')) : s'.usable = true := by
  unfold acquireMailboxLease at h
  simp only [Work.bind_eq_ok] at h
  obtain ⟨_, _, -, _, _, -, _, _, -, _, s₄, hclaim, _, s₅, hsite, h⟩ := h
  obtain ⟨-, husable, -⟩ := upsertLeaseClaim_ok (unavailableOnIntegrity_ok hclaim)
  have hsame : s₄ = s₅ := congrArg Prod.snd hsite
  have hsame' : s₅ = s' := congrArg Prod.snd h
  rw [← hsame', ← hsame]
  exact husable

/-- **A reserve that returns** has put a lease and its claim on a mailbox. -/
theorem reserve_ok {reserved : LeaseAcquireResult}
    (h : call.reserve attempt committed s = (.ok reserved, s')) :
    s'.usable = true ∧ ∃ lease, Reserved s.db s'.db call.principal.clientKeyId call.request.ttlSeconds reserved
      lease := by
  unfold AccessTokenCall.reserve at h
  cases hruns : attempt.interruptedBy with
  | some mysqlErrorCode =>
      rw [hruns] at h
      cases h
  | none =>
    rw [hruns] at h
    have hbody := liftLease_ok h
    have husable := acquireMailboxLease_usable hbody
    obtain ⟨-, m, a, hacquired⟩ := acquireMailboxLease_ok hbody husable
    obtain ⟨m', a', hpick, hresult⟩ := acquireMailboxLease_result hbody
    have hsame : (m', a') = (m, a) := Except.ok.inj (hpick.symm.trans hacquired.picked)
    obtain ⟨rfl, rfl⟩ := Prod.mk.inj hsame
    obtain ⟨hmem, -, hallocate⟩ := pickMailbox_ok hpick
    have hnone : a' = none := by
      unfold allocateAddress at hallocate
      cases hallocate
      rfl
    subst hnone
    have hreserved : reserved.leaseId = attempt.draws.leaseId ∧
        reserved.mailboxId = some m'.id ∧ reserved.createdAt = attempt.now ∧
        reserved.expiresAt = attempt.now + seconds call.request.ttlSeconds := by
      cases hresult
      exact ⟨rfl, rfl, rfl, rfl⟩
    obtain ⟨hid, hmailbox, hcreated, hexpires⟩ := hreserved
    refine ⟨husable, mailboxLease call.principal attempt.now attempt.draws call.body m' none,
      ?_, hacquired.fresh, hid.symm, rfl, rfl, rfl, rfl, ⟨m'.id, rfl, hmailbox, ?_⟩,
      hexpires.symm, ?_⟩
    · rw [hcreated]
      exact hacquired.put
    · have hrow : s.db.mailboxes.get? m'.id = some m' := Table.get?_eq_some.mpr ⟨hmem, rfl⟩
      rw [isSome_of_emails hacquired.put.emails, hrow]
      rfl
    · rw [hexpires, hcreated]

theorem claimRefused_of_reserve {db : Database} {now : ℕ} {draws : Draws} {m : Mailbox}
    {a : Option String}
    (hpick : pickMailbox db now draws call.body false none defaultProviderType = .ok (m, a)) :
    db.claimRefused now (mailboxLease call.principal now draws call.body m a) a = false := by
  obtain ⟨-, hselectable, -⟩ := pickMailbox_ok hpick
  have hfree : db.mailboxOccupied now m = false := by
    unfold Database.mailboxSelectable at hselectable
    simp only [Bool.and_eq_true, Bool.false_or, Bool.not_eq_true'] at hselectable
    exact hselectable.1.1.1.2
  unfold Database.mailboxOccupied at hfree
  rw [Bool.or_eq_false_iff, Table.any_eq_false, Table.any_eq_false] at hfree
  unfold Database.claimRefused Database.conflictingClaim
  rw [Bool.and_eq_false_iff]
  refine Or.inr ?_
  rw [Table.any_eq_false]
  intro c hc
  have hoff := hfree.2 c hc
  show (decide (c.mailboxId = some m.id) && _ && c.liveAt now) = false
  by_cases hon : c.mailboxId = some m.id
  · rw [decide_eq_true hon, Bool.true_and] at hoff
    rw [hoff, Bool.and_false]
  · rw [decide_eq_false hon, Bool.false_and, Bool.false_and]

/-- **A reserve that raises on its own** has done nothing, or its session takes
no statements any more. -/
theorem reserve_error {e : AccessTokenLeaseError ε} (hs : s.usable = true)
    (hruns : attempt.interruptedBy = none)
    (h : call.reserve attempt committed s = (.error e, s')) :
    s' = s ∨ s' = ⟨committed, false⟩ := by
  unfold AccessTokenCall.reserve at h
  rw [hruns] at h
  obtain ⟨e', hbody⟩ := liftLease_error h
  unfold acquireMailboxLease at hbody
  rw [Work.bind_of_ok (Work.read_of_usable hs)] at hbody
  cases hpick : pickMailbox s.db attempt.now attempt.draws call.body false none
      defaultProviderType with
  | error e' =>
      rw [hpick, Work.bind_of_error Work.ofExcept_apply] at hbody
      cases hbody
      exact Or.inl rfl
  | ok picked =>
      obtain ⟨m, a⟩ := picked
      rw [hpick, Work.bind_of_ok Work.ofExcept_apply] at hbody
      simp only at hbody
      cases hins : (s.db.touchMailbox m.id attempt.now).insertLease?
          (mailboxLease call.principal attempt.now attempt.draws call.body m a) with
      | none =>
          rw [Work.bind_of_error (Work.flush_of_none hs hins)] at hbody
          cases hbody
          exact Or.inr rfl
      | some db₂ =>
          rw [Work.bind_of_ok (Work.flush_of_some hs hins), Work.bind_eq_error] at hbody
          rcases hbody with hclaim | ⟨_, s₃, -, hbody⟩
          · obtain ⟨e'', hclaim⟩ := unavailableOnIntegrity_error hclaim
            obtain ⟨-, hs' | ⟨-, hrefused⟩⟩ := upsertLeaseClaim_error rfl hclaim
            · exact Or.inr hs'
            · rw [claimRefused_insert s.db hins rfl (primaryEmailOf_touchMailbox _),
                claimRefused_of_reserve hpick] at hrefused
              cases hrefused
          · -- nothing is recorded for a site, and no credential is read
            have hsite : recordRequestedSite call.principal attempt.now attempt.draws
                (mailboxLease call.principal attempt.now attempt.draws call.body m a) none
                committed s₃ = (.ok (), s₃) := rfl
            rw [Work.bind_of_ok hsite] at hbody
            cases hbody

end

/-! ## The token and the compensation -/

/-- The database with a lease released and its claim gone. -/
def Database.takeBack (db : Database) (now : ℕ) (leaseId : String) : Database :=
  (db.updateLease leaseId (fun l => { l with releasedAt := some now })
    (lease_keeps_releasedAt now)).deleteLeaseClaims fun c => c.leaseId = leaseId

/-- **A release of a lease on a mailbox** takes it back. -/
theorem releaseLeaseInternal_of_held {principal : ClientPrincipal} {now : ℕ}
    {operationId mailboxId : String} {lease : Lease} {committed db : Database}
    (hlease : lease ∈ db.leases) (howner : lease.clientKeyId = some principal.clientKeyId)
    (hunreleased : lease.releasedAt = none) (hmailbox : lease.mailboxId = some mailboxId)
    (hresource : lease.providerResourceId = none)
    (hexists : (db.mailboxes.get? mailboxId).isSome = true) :
    releaseLeaseInternal principal now operationId lease.id committed ⟨db, true⟩ =
      (.ok ⟨lease.id, now⟩, ⟨db.takeBack now lease.id, true⟩) := by
  have howned : db.ownedLease? principal lease.id = some lease := by
    unfold Database.ownedLease?
    have hrow : db.leases.get? lease.id = some lease := Table.get?_eq_some.mpr ⟨hlease, rfl⟩
    rw [hrow, Option.filter_eq_some_iff]
    exact ⟨rfl, decide_eq_true howner⟩
  have hpeek : peekOwnedLease db principal lease.id = .ok lease := by
    unfold peekOwnedLease
    rw [howned]
  have htarget : lockLeaseTarget db lease = .ok () := by
    unfold lockLeaseTarget Database.targetExists
    rw [hmailbox]
    exact if_pos hexists
  have hlock : lockOwnedLease db principal now lease.id lease false = .ok lease := by
    unfold lockOwnedLease
    rw [howned]
    dsimp only
    rw [load_loaded, if_neg (fun h => h.2 rfl), if_neg (fun h => h.2 rfl)]
    exact if_neg fun h => Bool.false_ne_true h.1
  -- the four reads of the lock order, one after the other
  have hload : loadOwnedLeaseMailboxFirst principal now lease.id false committed ⟨db, true⟩ =
      (.ok lease, ⟨db, true⟩) := by
    unfold loadOwnedLeaseMailboxFirst
    rw [Work.bind_of_ok (Work.read_of_usable rfl)]
    dsimp only
    rw [hpeek, Work.bind_of_ok Work.ofExcept_apply, Work.bind_of_ok (Work.read_of_usable rfl)]
    dsimp only
    rw [htarget, Work.bind_of_ok Work.ofExcept_apply, Work.bind_of_ok (Work.read_of_usable rfl)]
    dsimp only
    rw [hlock]
    rfl
  have hreleased : releaseResource now operationId lease committed
      ⟨db.takeBack now lease.id, true⟩ = (.ok (), ⟨db.takeBack now lease.id, true⟩) := by
    unfold releaseResource
    rw [hresource]
    rfl
  have heffects : releaseEffects now operationId lease committed ⟨db, true⟩ =
      (.ok (), ⟨db.takeBack now lease.id, true⟩) := by
    unfold releaseEffects deleteLeaseClaimForLease
    rw [Work.bind_of_ok (Work.write_of_usable rfl), Work.bind_of_ok (Work.write_of_usable rfl)]
    exact hreleased
  unfold releaseLeaseInternal
  rw [Work.bind_of_ok hload]
  unfold releaseLoadedLease
  rw [hunreleased]
  dsimp only
  rw [Work.bind_of_ok heffects]
  rfl

section

variable {ε : Type} {call : AccessTokenCall ε} {db db₁ db₂ : Database}
  {reserved : LeaseAcquireResult} {lease : Lease}

theorem othersKept_of_reserved
    (h : Reserved db db₁ call.principal.clientKeyId call.request.ttlSeconds reserved lease)
    (hcolumns : MailboxColumnsOnly db₁ db₂) :
    OthersKept db db₂ reserved.leaseId reserved.mailboxId reserved.createdAt := by
  obtain ⟨m, hm, hmailbox, -⟩ := h.mailbox
  constructor
  · intro l hl
    rw [hcolumns.leases, h.put.leases, h.id]
    constructor
    · rintro (⟨hmem, -⟩ | rfl)
      · exact hmem
      · exact absurd h.id hl
    · intro hmem
      exact Or.inl ⟨hmem, hl⟩
  · intro c hc
    have hclaim : c ≠ claimOf lease none := by
      rintro rfl
      exact hc h.id
    rw [hcolumns.leaseClaims, h.put.claims, or_iff_left hclaim, hmailbox]
    unfold MailboxLeaseClaim.survives MailboxLeaseClaim.onTargetOf
    rw [hm, h.id, and_iff_left hc]
    simp only [decide_eq_true_eq]

/-- **The lease and its claim** are there once the token is obtained. -/
theorem leaseGiven_of_reserved
    (h : Reserved db db₁ call.principal.clientKeyId call.request.ttlSeconds reserved lease)
    (hcolumns : MailboxColumnsOnly db₁ db₂) (token : MailboxAccessTokenResult) :
    LeaseGiven db db₂ (reserved.withToken token) := by
  obtain ⟨m, hm, hmailbox, -⟩ := h.mailbox
  refine ⟨?_, ⟨lease, ?_, h.id, h.mode, h.unreleased, h.expires⟩,
    ⟨claimOf lease none, ?_, h.id, hm.trans hmailbox.symm, h.expires⟩,
    othersKept_of_reserved h hcolumns⟩
  · intro l hl
    show l.id ≠ reserved.leaseId
    rw [← h.id]
    exact h.fresh l hl
  · rw [hcolumns.leases, h.put.leases]
    exact Or.inr rfl
  · rw [hcolumns.leaseClaims, h.put.claims]
    exact Or.inr rfl

/-- **The lease is taken back** by the compensation. -/
theorem leaseTakenBack_of_reserved
    (h : Reserved db db₁ call.principal.clientKeyId call.request.ttlSeconds reserved lease)
    (hcolumns : MailboxColumnsOnly db₁ db₂) :
    LeaseTakenBack db (db₂.takeBack call.compensatedAt lease.id) reserved.leaseId
      reserved.mailboxId reserved.createdAt := by
  have hothers := othersKept_of_reserved h hcolumns
  have hmem : lease ∈ db₂.leases := by
    rw [hcolumns.leases, h.put.leases]
    exact Or.inr rfl
  have hleases : ∀ l, l ∈ (db₂.takeBack call.compensatedAt lease.id).leases ↔
      (l ∈ db₂.leases ∧ l.id ≠ lease.id) ∨
        l = { lease with releasedAt := some call.compensatedAt } := by
    intro l
    have hkeeps := lease_keeps_releasedAt call.compensatedAt
    exact Table.mem_updateWhere_key hkeeps hmem l
  have hclaims : ∀ c, c ∈ (db₂.takeBack call.compensatedAt lease.id).leaseClaims ↔
      c ∈ db₂.leaseClaims ∧ c.leaseId ≠ lease.id := by
    intro c
    unfold Database.takeBack Database.deleteLeaseClaims
    rw [Table.mem_deleteWhere, decide_eq_false_iff_not]
    rfl
  refine ⟨?_, ?_, ?_, ?_, ?_⟩
  · intro l hl
    rw [← h.id]
    exact h.fresh l hl
  · intro l hl hid
    rcases (hleases l).mp hl with ⟨-, hne⟩ | rfl
    · exact absurd (hid.trans h.id.symm) hne
    · exact Option.some_ne_none _
  · intro c hc hid
    exact ((hclaims c).mp hc).2 (hid.trans h.id.symm)
  · intro l hl
    rw [hleases, ← hothers.leases l hl, h.id, and_iff_left hl]
    refine or_iff_left ?_
    rintro rfl
    exact hl rfl
  · intro c hc
    rw [hclaims, h.id, and_iff_left hc]
    exact hothers.claims c hc

theorem compensate_of_reserved
    (h : Reserved db db₁ call.principal.clientKeyId call.request.ttlSeconds reserved lease)
    (hcolumns : MailboxColumnsOnly db₁ db₂) (committed : Database) :
    call.compensate reserved.leaseId committed ⟨db₂, true⟩ =
      (.ok ⟨lease.id, call.compensatedAt⟩,
        ⟨db₂.takeBack call.compensatedAt lease.id, true⟩) := by
  obtain ⟨m, hm, -, hexists⟩ := h.mailbox
  have hmem : lease ∈ db₂.leases := by
    rw [hcolumns.leases, h.put.leases]
    exact Or.inr rfl
  rw [← h.id]
  apply liftLease_of_ok
  refine releaseLeaseInternal_of_held hmem h.owner h.unreleased hm h.resource ?_
  rw [hcolumns.mailboxes]
  exact hexists

end

/-! ## Acquiring -/

section

variable {ε : Type} {call : AccessTokenCall ε} {db : Database}

theorem nothingLeft_of_same {db' : Database} (h : db' = db) : NothingLeft db db' := by
  rw [h]
  exact Or.inl ⟨rfl, rfl⟩

theorem check_session {s : Session Database} : (call.check db s).2 = s :=
  checkCredentialRequest_session

theorem settled_obtainCommitted {db₁ : Database} {reserved : LeaseAcquireResult}
    {lease : Lease}
    (h : Reserved db db₁ call.principal.clientKeyId call.request.ttlSeconds reserved lease) :
    Settled call db (call.obtainCommitted reserved db₁) := by
  unfold AccessTokenCall.obtainCommitted
  have hcolumns := call.ensure.frame (reserved.mailboxId.getD "") db₁
  rcases hrun : call.ensure.run (reserved.mailboxId.getD "") db₁ with ⟨e | token, db₂⟩
  · rw [hrun] at hcolumns
    have hcompensated := Work.transact_eq_ok.mpr (compensate_of_reserved h hcolumns db₂)
    dsimp only
    rw [hcompensated]
    exact Or.inr ⟨_, _, _, leaseTakenBack_of_reserved h hcolumns⟩
  · rw [hrun] at hcolumns
    exact ⟨leaseGiven_of_reserved h hcolumns token, h.ttl⟩

/-- **With a session factory.** -/
theorem settled_acquireCommitted (call : AccessTokenCall ε) (db : Database) :
    Settled call db (call.acquireCommitted db) := by
  have hrollback : RollsBack fun i db => (call.reserve (call.attempts i)).transact db :=
    fun _ _ _ _ h => Work.transact_error h
  unfold AccessTokenCall.acquireCommitted
  rcases hcheck : call.check.transact db with ⟨e | u, db₁⟩
  · exact nothingLeft_of_same (Work.transact_error hcheck)
  · have hsession : (call.check db ⟨db, true⟩).2 = ⟨db, true⟩ := check_session
    rw [Work.transact_eq_ok.mp hcheck] at hsession
    obtain rfl : db₁ = db := congrArg Session.db hsession
    dsimp only
    rcases hreserve : call.reserveCommitted db₁ with ⟨e | reserved, db₂⟩
    · exact nothingLeft_of_same (retryFrom_error hrollback hreserve)
    · obtain ⟨i, hattempt⟩ := retryFrom_ok hrollback hreserve
      obtain ⟨-, lease, hreserved⟩ := reserve_ok (Work.transact_eq_ok.mp hattempt)
      exact settled_obtainCommitted hreserved

/-- On a session that takes no statements a release raises. -/
theorem compensate_of_unusable (leaseId : String) :
    call.compensate leaseId db ⟨db, false⟩ =
      (.error (.lease .pendingRollback), ⟨db, false⟩) := by
  have hload : loadOwnedLeaseMailboxFirst call.principal call.compensatedAt leaseId false db
      ⟨db, false⟩ = (.error .pendingRollback, ⟨db, false⟩) :=
    Work.bind_of_error (Work.read_of_unusable rfl)
  have hrelease : releaseLeaseInternal call.principal call.compensatedAt call.operationId
      leaseId db ⟨db, false⟩ = (.error .pendingRollback, ⟨db, false⟩) :=
    Work.bind_of_error hload
  unfold AccessTokenCall.compensate liftLease
  rw [hrelease]
  rfl

theorem ensure_of_breaks (hbreaks : call.ensure.breaksSession = true) (mailboxId : String)
    (db db₁ : Database) : call.ensure.onSession mailboxId db ⟨db₁, true⟩ =
      (.error (.lease .integrity), ⟨db, false⟩) := by
  unfold EnsureCall.onSession
  refine Work.bind_of_error (Work.flush_of_none rfl ?_)
  exact if_pos hbreaks

theorem ensure_of_usable (hbreaks : call.ensure.breaksSession = false) (mailboxId : String)
    (db db₁ : Database) : call.ensure.onSession mailboxId db ⟨db₁, true⟩ =
      ((call.ensure.run mailboxId db₁).1.mapError .token,
        ⟨(call.ensure.run mailboxId db₁).2, true⟩) := by
  have hflush : (Work.flush (fun db => if call.ensure.breaksSession then none else some db) :
      Work Database (AccessTokenLeaseError ε) Unit) db ⟨db₁, true⟩ = (.ok (), ⟨db₁, true⟩) := by
    refine Work.flush_of_some rfl ?_
    rw [hbreaks]
    rfl
  unfold EnsureCall.onSession
  rw [Work.bind_of_ok hflush, Work.bind_of_ok (Work.read_of_usable rfl),
    Work.bind_of_ok (Work.write_of_usable rfl)]
  rfl

/-- What an acquire leaves on the session of its caller: nothing of a lease that
was not given, or a session that takes no statements and has raised. -/
def SettledOnSession (call : AccessTokenCall ε) (db : Database)
    (x : Except (AccessTokenLeaseError ε) AccessTokenLease × Session Database) : Prop :=
  (x.2.usable = true → Settled call db (x.1, x.2.db)) ∧
    (x.2.usable = false → ∃ e, x.1 = .error e)

theorem settled_obtainOnSession {db₁ : Database} {reserved : LeaseAcquireResult}
    {lease : Lease}
    (h : Reserved db db₁ call.principal.clientKeyId call.request.ttlSeconds reserved lease) :
    SettledOnSession call db (call.obtainOnSession reserved db ⟨db₁, true⟩) := by
  unfold AccessTokenCall.obtainOnSession
  by_cases hbreaks : call.ensure.breaksSession = true
  · have hensure := ensure_of_breaks hbreaks (reserved.mailboxId.getD "") db db₁
    have hraises : call.takeBackAndRaise reserved.leaseId (.lease .integrity) db ⟨db, false⟩ =
        (.error (.lease .pendingRollback), ⟨db, false⟩) :=
      Work.bind_of_error (compensate_of_unusable reserved.leaseId)
    rw [Work.bind_of_error ((Work.handle_of_some hensure rfl).trans hraises)]
    exact ⟨nofun, fun _ => ⟨_, rfl⟩⟩
  · have hcolumns := call.ensure.frame (reserved.mailboxId.getD "") db₁
    rw [Bool.not_eq_true] at hbreaks
    have hensure := ensure_of_usable hbreaks (reserved.mailboxId.getD "") db db₁
    rcases htoken : call.ensure.run (reserved.mailboxId.getD "") db₁ with ⟨e | token, db₂⟩
    · rw [htoken] at hensure hcolumns
      have hraises : call.takeBackAndRaise reserved.leaseId (.token e) db ⟨db₂, true⟩ =
          (.error (.token e), ⟨db₂.takeBack call.compensatedAt lease.id, true⟩) :=
        Work.bind_of_ok (compensate_of_reserved h hcolumns db)
      rw [Work.bind_of_error ((Work.handle_of_some hensure rfl).trans hraises)]
      exact ⟨fun _ => Or.inr ⟨_, _, _, leaseTakenBack_of_reserved h hcolumns⟩, nofun⟩
    · rw [htoken] at hensure hcolumns
      rw [Work.bind_of_ok (Work.handle_of_ok hensure)]
      exact ⟨fun _ => ⟨leaseGiven_of_reserved h hcolumns token, h.ttl⟩, nofun⟩

/-- **On the session of the caller**, unless the database interrupts the
reserve. -/
theorem settled_acquireOnSession (hruns : (call.attempts 1).interruptedBy = none) :
    SettledOnSession call db (call.acquireOnSession db ⟨db, true⟩) := by
  unfold AccessTokenCall.acquireOnSession
  have hsession : (call.check db ⟨db, true⟩).2 = ⟨db, true⟩ := check_session
  rcases hcheck : call.check db ⟨db, true⟩ with ⟨e | u, s₁⟩
  · rw [hcheck] at hsession
    obtain rfl : s₁ = ⟨db, true⟩ := hsession
    rw [Work.bind_of_error hcheck]
    exact ⟨fun _ => nothingLeft_of_same rfl, nofun⟩
  · rw [hcheck] at hsession
    obtain rfl : s₁ = ⟨db, true⟩ := hsession
    rw [Work.bind_of_ok hcheck]
    rcases hreserve : call.reserve (call.attempts 1) db ⟨db, true⟩ with ⟨e | reserved, s₂⟩
    · rw [Work.bind_of_error hreserve]
      rcases reserve_error rfl hruns hreserve with rfl | rfl
      · exact ⟨fun _ => nothingLeft_of_same rfl, nofun⟩
      · exact ⟨nofun, fun _ => ⟨e, rfl⟩⟩
    · rw [Work.bind_of_ok hreserve]
      obtain ⟨husable, lease, hreserved⟩ := reserve_ok hreserve
      obtain ⟨db₂, usable⟩ := s₂
      obtain rfl : usable = true := husable
      exact settled_obtainOnSession hreserved

theorem acquireOnSession_of_interrupted {mysqlErrorCode : ℕ}
    (h : (call.attempts 1).interruptedBy = some mysqlErrorCode) :
    ∃ e s', call.acquireOnSession db ⟨db, true⟩ = (.error e, s') := by
  unfold AccessTokenCall.acquireOnSession
  rcases hcheck : call.check db ⟨db, true⟩ with ⟨e | u, s₁⟩
  · exact ⟨e, s₁, Work.bind_of_error hcheck⟩
  · rw [Work.bind_of_ok hcheck]
    have hreserve : call.reserve (call.attempts 1) db s₁ =
        (.error (.operational mysqlErrorCode), (call.attempts 1).leaves s₁) := by
      unfold AccessTokenCall.reserve
      rw [h]
    exact ⟨_, _, Work.bind_of_error hreserve⟩

/-- **Without a session factory**, in the transaction of the caller. -/
theorem settled_acquireInTransaction (call : AccessTokenCall ε) (db : Database) :
    Settled call db (call.acquireOnSession.transact db) := by
  rcases hrun : call.acquireOnSession db ⟨db, true⟩ with ⟨e | result, s'⟩
  · rw [Work.transact_of_error hrun]
    exact nothingLeft_of_same rfl
  · cases hruns : (call.attempts 1).interruptedBy with
    | some mysqlErrorCode =>
        obtain ⟨e, s'', herror⟩ : ∃ e s'', call.acquireOnSession db ⟨db, true⟩ =
            (.error e, s'') := acquireOnSession_of_interrupted hruns
        rw [hrun] at herror
        cases herror
    | none =>
        have hsettled : SettledOnSession call db (.ok result, s') := by
          rw [← hrun]
          exact settled_acquireOnSession hruns
        obtain ⟨db', usable⟩ := s'
        cases usable with
        | false =>
            obtain ⟨e, he⟩ := hsettled.2 rfl
            cases he
        | true =>
            rw [Work.transact_eq_ok.mpr hrun]
            exact hsettled.1 rfl

/-- **An acquire in access-token mode is atomic**: with or without a session
factory it gives a new lease that runs with its claim for the requested time, or
it raises and leaves no lease and no claim. Other leases stay as they are, and
so do their claims but for expired ones on the mailbox. -/
theorem access_token_acquire_atomic (call : AccessTokenCall ε) (db : Database) :
    Settled call db (call.acquireCommitted db) ∧
      Settled call db (call.acquireOnSession.transact db) :=
  ⟨settled_acquireCommitted call db, settled_acquireInTransaction call db⟩

end

end

/-! ## An expired claim, and a slow token -/

section Sample

attribute [local instance] asciiPlatform

def tokenPrincipal : ClientPrincipal where
  clientKeyId := "key"
  name := "client"
  scopes := ["leases:acquire", "tokens:access:read"]

def reserveDraws : Draws where
  leaseId := "new"
  resourceId := "resource"
  usageId := "usage"
  suffixes := []
  provision := .error .noHook

def obtainedToken : MailboxAccessTokenResult where
  mailboxId := "mailbox"
  primaryEmail := "a@x.org"
  accessToken := "token"
  expiresAt := 3600000000
  tokenVersion := 1
  refreshed := false
  refreshTokenRotated := false

/-- A call at one second whose token is there at the given time. -/
def sampleTokenCall (returnedAt : ℕ) : AccessTokenCall String where
  principal := tokenPrincipal
  decrypt := .ok
  request := { mode := .accessToken, ttlSeconds := 60 }
  attempts _ := { now := 1000000, draws := reserveDraws }
  ensure := .ofService sampleTokenSettings 1000000 [] (.ok obtainedToken)
  compensatedAt := returnedAt
  operationId := "operation"
  returnedAt := returnedAt

/-- The claim of a lease that has run out and was never released. -/
def expiredClaim : MailboxLeaseClaim where
  leaseId := "old"
  mailboxId := some "mailbox"
  providerResourceId := none
  clientKeyId := some "other"
  mode := .accessToken
  allocatedEmail := none
  expiresAt := 1

def freeDatabase : Database where
  mailboxes := tokenDatabase.mailboxes

def expiredClaimDatabase : Database where
  mailboxes := tokenDatabase.mailboxes
  leaseClaims := ⟨[expiredClaim], List.pairwise_singleton _ _⟩

theorem acquire_drops_expiredClaim :
    let run := (sampleTokenCall 2000000).acquireCommitted expiredClaimDatabase
    run.1.toOption.map AccessTokenLease.leaseId = some "new" ∧
      run.2.leaseClaims.rows.map MailboxLeaseClaim.leaseId = ["new"] := by
  decide +kernel

theorem slow_token_lease :
    let run := (sampleTokenCall 61000000).acquireCommitted freeDatabase
    run.1.toOption.map AccessTokenLease.leaseId = some "new" ∧
      ∀ l ∈ run.2.leases.rows, l.activeAt 61000000 = false := by
  decide +kernel

/-- **An expired claim of another lease is dropped, and a lease may have run out**
when the call returns it. -/
theorem acquire_not_exact :
    ¬ SettledExactly (sampleTokenCall 2000000) expiredClaimDatabase
        ((sampleTokenCall 2000000).acquireCommitted expiredClaimDatabase) ∧
      ¬ SettledExactly (sampleTokenCall 61000000) freeDatabase
        ((sampleTokenCall 61000000).acquireCommitted freeDatabase) := by
  constructor
  · intro h
    obtain ⟨hresult, hclaims⟩ := acquire_drops_expiredClaim
    generalize (sampleTokenCall 2000000).acquireCommitted expiredClaimDatabase = run at *
    obtain ⟨e | result, db'⟩ := run
    · cases hresult
    · have hid : result.leaseId = "new" := Option.some.inj hresult
      have hkept : expiredClaim ∈ db'.leaseClaims := by
        refine (h.2.2.2 expiredClaim ?_).mpr (List.mem_singleton_self _)
        rw [hid]
        decide
      have hmem : "old" ∈ db'.leaseClaims.rows.map MailboxLeaseClaim.leaseId :=
        List.mem_map_of_mem hkept
      rw [hclaims] at hmem
      exact absurd hmem (by decide)
  · intro h
    obtain ⟨hresult, hleases⟩ := slow_token_lease
    generalize (sampleTokenCall 61000000).acquireCommitted freeDatabase = run at *
    obtain ⟨e | result, db'⟩ := run
    · cases hresult
    · obtain ⟨l, hl, -, hactive⟩ := h.1
      have hinactive : l.activeAt 61000000 = false := hleases l hl
      rw [show (sampleTokenCall 61000000).returnedAt = 61000000 from rfl, hinactive] at hactive
      cases hactive

end Sample

end MailboxService
