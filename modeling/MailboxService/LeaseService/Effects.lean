import MailboxService.LeaseService.Reacquire

/-!
# What an acquire leaves

The inversion lemmas of the acquiring paths: what the database looks like after
a unit of work that returned. `ClaimPut` is the effect of `_upsert_lease_claim`
and `LeasePut` the joint effect of writing a lease and its claim, which every
acquire, renewal and reacquire shares.
-/

namespace MailboxService

open Foundation

theorem isExpired_eq_not_liveAt (c : MailboxLeaseClaim) (now : ℕ) :
    isExpired c.expiresAt now = !c.liveAt now := by
  unfold isExpired MailboxLeaseClaim.liveAt
  rw [← decide_not]
  simp only [Nat.not_lt]

section

variable [Platform]

/-! ## Inserts -/

theorem insertLease?_eq_some {db db' : Database} {lease : Lease}
    (h : db.insertLease? lease = some db') :
    (∀ l, l ∈ db'.leases ↔ l ∈ db.leases ∨ l = lease) ∧
      (∀ l ∈ db.leases, l.id ≠ lease.id) ∧
      db' = { db with leases := db'.leases } := by
  unfold Database.insertLease? at h
  rw [Option.map_eq_some_iff] at h
  obtain ⟨leases, hins, rfl⟩ := h
  exact ⟨fun l => Table.mem_insert? hins, fun l hl => ((Table.insert?_eq_some hins).1 l hl).1,
    rfl⟩

theorem insertLeaseClaim?_eq_some {db db' : Database} {claim : MailboxLeaseClaim}
    (h : db.insertLeaseClaim? claim = some db') :
    (∀ c, c ∈ db'.leaseClaims ↔ c ∈ db.leaseClaims ∨ c = claim) ∧
      db' = { db with leaseClaims := db'.leaseClaims } := by
  unfold Database.insertLeaseClaim? at h
  rw [Option.map_eq_some_iff] at h
  obtain ⟨claims, hins, rfl⟩ := h
  exact ⟨fun c => Table.mem_insert? hins, rfl⟩

/-! ## Putting a claim -/

/-- A claim that an upsert for the lease leaves in place. -/
def MailboxLeaseClaim.survives (c : MailboxLeaseClaim) (now : ℕ) (lease : Lease) : Prop :=
  ¬ (c.onTargetOf lease = true ∧ isExpired c.expiresAt now = true) ∧ c.leaseId ≠ lease.id

/-- The claims as an upsert for the lease finds them: the expired ones on its
mailbox or resource and its own are gone. -/
def Database.withdrawClaims (db : Database) (now : ℕ) (lease : Lease) : Database :=
  (db.purgeExpiredClaims now lease).deleteLeaseClaims fun c => c.leaseId = lease.id

theorem mem_withdrawClaims {db : Database} {now : ℕ} {lease : Lease} {c : MailboxLeaseClaim} :
    c ∈ (db.withdrawClaims now lease).leaseClaims ↔
      c ∈ db.leaseClaims ∧ c.survives now lease := by
  simp only [Database.withdrawClaims, Database.purgeExpiredClaims, Database.deleteLeaseClaims,
    Table.mem_deleteWhere, MailboxLeaseClaim.survives, Bool.and_eq_false_iff,
    decide_eq_false_iff_not, and_assoc, not_and_or, Bool.not_eq_true]

/-- Neither the expired claims nor the lease's own are in its way. -/
theorem conflictingClaim_withdraw {db : Database} {now : ℕ} {lease : Lease} :
    (db.withdrawClaims now lease).conflictingClaim now lease =
      db.conflictingClaim now lease := by
  unfold Database.conflictingClaim
  rw [Bool.eq_iff_iff, Table.any_eq_true, Table.any_eq_true]
  constructor
  · rintro ⟨c, hc, hp⟩
    exact ⟨c, (mem_withdrawClaims.mp hc).1, hp⟩
  · rintro ⟨c, hc, hp⟩
    refine ⟨c, mem_withdrawClaims.mpr ⟨hc, ?_⟩, hp⟩
    simp only [Bool.and_eq_true, decide_eq_true_eq] at hp
    refine ⟨?_, hp.1.2⟩
    rintro ⟨-, hexpired⟩
    rw [isExpired_eq_not_liveAt, hp.2] at hexpired
    cases hexpired

/-- The claim of the lease meets another live claim on its mailbox or
resource, and is not for a plus alias. -/
def Database.claimRefused (db : Database) (now : ℕ) (lease : Lease) (a : Option String) :
    Bool :=
  !isPlusAllocation lease.mode a (db.primaryEmailOf lease) && db.conflictingClaim now lease

theorem rejectConflictingClaim_of_usable {db : Database} {s : Session Database} {now : ℕ}
    {lease : Lease} {isPlus : Bool} (hs : s.usable = true) :
    rejectConflictingClaim now lease isPlus db s =
      (if (!isPlus && s.db.conflictingClaim now lease) = true then .error .integrity
        else .ok (), s) := by
  unfold rejectConflictingClaim
  cases isPlus with
  | true => rfl
  | false =>
      rw [if_neg Bool.false_ne_true, Work.bind_of_ok (Work.read_of_usable hs)]
      cases hconflict : s.db.conflictingClaim now lease <;> rfl

/-- **Upsert equation**: a claim is refused, or breaks the unique key, or is
inserted. -/
theorem upsertLeaseClaim_of_usable {db : Database} {s : Session Database} {now : ℕ}
    {lease : Lease} {a : Option String} (hs : s.usable = true) :
    upsertLeaseClaim now lease a db s =
      if s.db.claimRefused now lease a = true then
        (.error .integrity, ⟨s.db.withdrawClaims now lease, true⟩)
      else
        match (s.db.withdrawClaims now lease).insertLeaseClaim? (claimOf lease a) with
        | some d => (.ok (), ⟨d, true⟩)
        | none => (.error .integrity, ⟨db, false⟩) := by
  unfold upsertLeaseClaim
  rw [Work.bind_of_ok (Work.write_of_usable hs), Work.bind_of_ok (Work.read_of_usable rfl),
    Work.bind_of_ok (Work.write_of_usable rfl)]
  have hcheck : rejectConflictingClaim now lease
      (isPlusAllocation lease.mode a (s.db.primaryEmailOf lease)) db
        ⟨s.db.withdrawClaims now lease, true⟩ = _ := rejectConflictingClaim_of_usable rfl
  rw [conflictingClaim_withdraw] at hcheck
  unfold Database.claimRefused
  split
  · rename_i hrefused
    rw [if_pos hrefused] at hcheck
    exact Work.bind_of_error hcheck
  · rename_i hfree
    rw [if_neg hfree] at hcheck
    refine (Work.bind_of_ok hcheck).trans ?_
    cases hins : (s.db.withdrawClaims now lease).insertLeaseClaim? (claimOf lease a) with
    | none => exact Work.flush_of_none rfl hins
    | some d => exact Work.flush_of_some rfl hins

/-- A claim elsewhere, or a live one on the same mailbox or resource, has the
address. -/
def MailboxLeaseClaim.holdsAddress (c : MailboxLeaseClaim) (now : ℕ) (lease : Lease)
    (a : Option String) : Bool :=
  decide (c.leaseId ≠ lease.id) && !(c.onTargetOf lease && isExpired c.expiresAt now) &&
    sqlEqNullable c.allocatedEmail a

/-- The claims keep the lease from its claim: one is live on its mailbox or
resource, or one has its address. -/
def Database.claimBlocked (db : Database) (now : ℕ) (lease : Lease) (a : Option String) :
    Bool :=
  db.claimRefused now lease a || db.leaseClaims.any fun c => c.holdsAddress now lease a

theorem insertLeaseClaim?_withdraw_none {db : Database} {now : ℕ} {lease : Lease}
    {a : Option String} :
    (db.withdrawClaims now lease).insertLeaseClaim? (claimOf lease a) = none ↔
      (db.leaseClaims.any fun c => c.holdsAddress now lease a) = true := by
  unfold Database.insertLeaseClaim?
  rw [Option.map_eq_none_iff, Table.insert?_eq_none, Table.any_eq_true]
  constructor
  · rintro ⟨c, hc, hclash⟩
    obtain ⟨hmem, hsurvives, hid⟩ := mem_withdrawClaims.mp hc
    refine ⟨c, hmem, ?_⟩
    have hsame : sqlEqNullable c.allocatedEmail a = true := by
      by_contra hne
      rw [Bool.not_eq_true] at hne
      exact hclash ⟨hid, hne⟩
    unfold MailboxLeaseClaim.holdsAddress
    rw [hsame, Bool.and_true, Bool.and_eq_true, decide_eq_true_eq, Bool.not_eq_true',
      ← Bool.not_eq_true, Bool.and_eq_true]
    exact ⟨hid, hsurvives⟩
  · rintro ⟨c, hc, hholds⟩
    unfold MailboxLeaseClaim.holdsAddress at hholds
    rw [Bool.and_eq_true, Bool.and_eq_true, decide_eq_true_eq, Bool.not_eq_true',
      ← Bool.not_eq_true, Bool.and_eq_true] at hholds
    refine ⟨c, mem_withdrawClaims.mpr ⟨hc, hholds.1.2, hholds.1.1⟩, ?_⟩
    rintro ⟨-, hclash⟩
    rw [show leaseClaimSchema.clash c (claimOf lease a) = true from hholds.2] at hclash
    cases hclash

/-- **Blocked claims**: an upsert raises exactly if the claims block it. -/
theorem upsertLeaseClaim_result {db : Database} {s : Session Database} {now : ℕ}
    {lease : Lease} {a : Option String} (hs : s.usable = true) :
    (upsertLeaseClaim now lease a db s).1 =
      if s.db.claimBlocked now lease a = true then .error .integrity else .ok () := by
  rw [upsertLeaseClaim_of_usable hs]
  unfold Database.claimBlocked
  cases hrefused : s.db.claimRefused now lease a with
  | true => rfl
  | false =>
      rw [Bool.false_or, if_neg Bool.false_ne_true]
      rcases hins : (s.db.withdrawClaims now lease).insertLeaseClaim? (claimOf lease a)
        with _ | d
      · rw [if_pos (insertLeaseClaim?_withdraw_none.mp hins)]
      · rw [if_neg]
        intro hany
        rw [insertLeaseClaim?_withdraw_none.mpr hany] at hins
        cases hins

/-- The effect of `_upsert_lease_claim`. -/
structure ClaimPut (db db' : Database) (now : ℕ) (lease : Lease) (a : Option String) :
    Prop where
  claims : ∀ c, c ∈ db'.leaseClaims ↔
    (c ∈ db.leaseClaims ∧ c.survives now lease) ∨ c = claimOf lease a
  /-- Off a plus alias, no other live claim is on the mailbox or resource. -/
  alone : isPlusAllocation lease.mode a (db.primaryEmailOf lease) = false →
    ∀ c ∈ db.leaseClaims, c.onTargetOf lease = true → c.leaseId ≠ lease.id →
      c.liveAt now = false
  frame : db' = { db with leaseClaims := db'.leaseClaims }

/-- **Upsert lemma**: what a claim upsert that returns leaves. -/
theorem upsertLeaseClaim_ok {db : Database} {s s' : Session Database} {now : ℕ}
    {lease : Lease} {a : Option String} {u : Unit}
    (h : upsertLeaseClaim now lease a db s = (.ok u, s')) :
    s.usable = true ∧ s'.usable = true ∧ ClaimPut s.db s'.db now lease a := by
  have hs : s.usable = true := by
    unfold upsertLeaseClaim at h
    rw [Work.bind_eq_ok] at h
    obtain ⟨_, _, hpurge, -⟩ := h
    exact (Work.write_eq_ok.mp hpurge).1
  rw [upsertLeaseClaim_of_usable hs] at h
  split at h
  · cases h
  rename_i hfree
  split at h
  · rename_i d hins
    cases h
    obtain ⟨hmem, hframe⟩ := insertLeaseClaim?_eq_some hins
    refine ⟨hs, rfl, ?_, ?_, ?_⟩
    · intro c
      rw [hmem, mem_withdrawClaims]
    · intro hplus c hc htarget hne
      unfold Database.claimRefused at hfree
      rw [hplus, Bool.not_false, Bool.true_and, Bool.not_eq_true] at hfree
      unfold Database.conflictingClaim at hfree
      rw [Table.any_eq_false] at hfree
      simpa [htarget, hne] using hfree c hc
    · rw [hframe]
      rfl
  · cases h

/-! ## Putting a lease with its claim -/

structure LeasePut (db db' : Database) (now : ℕ) (lease : Lease) (a : Option String) :
    Prop where
  leases : ∀ l, l ∈ db'.leases ↔ (l ∈ db.leases ∧ l.id ≠ lease.id) ∨ l = lease
  claims : ∀ c, c ∈ db'.leaseClaims ↔
    (c ∈ db.leaseClaims ∧ c.survives now lease) ∨ c = claimOf lease a
  alone : isPlusAllocation lease.mode a (db'.primaryEmailOf lease) = false →
    ∀ c ∈ db.leaseClaims, c.onTargetOf lease = true → c.leaseId ≠ lease.id →
      c.liveAt now = false
  emails : ∀ k, (db'.mailboxes.get? k).map Mailbox.primaryEmail =
    (db.mailboxes.get? k).map Mailbox.primaryEmail

theorem leasePut_of_claimPut {db db₂ db' : Database} {now : ℕ} {lease : Lease}
    {a : Option String}
    (hleases : ∀ l, l ∈ db₂.leases ↔ (l ∈ db.leases ∧ l.id ≠ lease.id) ∨ l = lease)
    (hclaims : db₂.leaseClaims = db.leaseClaims)
    (hemails : ∀ k, (db₂.mailboxes.get? k).map Mailbox.primaryEmail =
      (db.mailboxes.get? k).map Mailbox.primaryEmail)
    (hput : ClaimPut db₂ db' now lease a) : LeasePut db db' now lease a := by
  refine ⟨?_, ?_, ?_, ?_⟩
  · intro l
    have hl : db'.leases = db₂.leases := by rw [hput.frame]
    rw [hl]
    exact hleases l
  · intro c
    rw [hput.claims, hclaims]
  · have hp : db'.primaryEmailOf lease = db₂.primaryEmailOf lease := by
      rw [hput.frame]
      rfl
    rw [hp, ← hclaims]
    exact hput.alone
  · intro k
    rw [hput.frame, ← hemails k]

theorem leasePut_of_insert (db : Database) {db₁ db₂ db' : Database} {now : ℕ} {lease : Lease}
    {a : Option String} (hins : db₁.insertLease? lease = some db₂)
    (hleases : db₁.leases = db.leases) (hclaims : db₁.leaseClaims = db.leaseClaims)
    (hemails : ∀ k, (db₁.mailboxes.get? k).map Mailbox.primaryEmail =
      (db.mailboxes.get? k).map Mailbox.primaryEmail)
    (hput : ClaimPut db₂ db' now lease a) :
    LeasePut db db' now lease a ∧ ∀ l ∈ db.leases, l.id ≠ lease.id := by
  obtain ⟨hmem, hfresh, hframe⟩ := insertLease?_eq_some hins
  rw [hleases] at hfresh
  refine ⟨leasePut_of_claimPut ?_ ?_ ?_ hput, hfresh⟩
  · intro l
    rw [hmem, hleases]
    constructor
    · rintro (hl | hl)
      · exact Or.inl ⟨hl, hfresh l hl⟩
      · exact Or.inr hl
    · rintro (hl | hl)
      · exact Or.inl hl.1
      · exact Or.inr hl
  · rw [hframe]
    exact hclaims
  · intro k
    rw [hframe]
    exact hemails k

/-! ## Usage sites -/

/-- The row is the slot of the address on the site. -/
def EmailSiteUsage.inSlot (u : EmailSiteUsage) (email siteCode : String) : Bool :=
  sqlEq u.allocatedEmail email && sqlEq u.usageSiteCode siteCode

def SiteFrame (db db' : Database) : Prop :=
  db' = { db with emailSiteUsages := db'.emailSiteUsages }

theorem SiteFrame.refl (db : Database) : SiteFrame db db := rfl

/-- What recording an occupancy leaves: the slot of the address on the site was
free or given back, and now holds one active row. -/
structure SiteRecorded (db db' : Database) (email siteCode : String) (u : EmailSiteUsage) :
    Prop where
  slot : u.inSlot email siteCode = true
  active : u.revokedAt = none
  free : ∀ q ∈ db.emailSiteUsages, q.inSlot email siteCode = true → q.revokedAt ≠ none
  usages : ∀ q, q ∈ db'.emailSiteUsages ↔
    (q ∈ db.emailSiteUsages ∧ q.inSlot email siteCode = false) ∨ q = u
  frame : SiteFrame db db'

theorem reactivate_keeps (now : ℕ) (mailboxId : Option String) (leaseId clientKeyId : String) :
    emailSiteUsageSchema.Keeps fun u => u.reactivate now mailboxId leaseId clientKeyId :=
  fun _ => ⟨rfl, fun _ => rfl⟩

/-- Two rows in one slot are one row. -/
theorem inSlot_unique {db : Database} {email siteCode : String} {q u : EmailSiteUsage}
    (hq : q ∈ db.emailSiteUsages) (hu : u ∈ db.emailSiteUsages)
    (hqs : q.inSlot email siteCode = true) (hus : u.inSlot email siteCode = true) : q = u := by
  apply Table.eq_of_clash hq hu
  simp only [EmailSiteUsage.inSlot, sqlEq, Bool.and_eq_true, decide_eq_true_eq] at hqs hus
  simp only [emailSiteUsageSchema, sqlEq, Bool.and_eq_true, decide_eq_true_eq]
  exact ⟨hqs.1.trans hus.1.symm, hqs.2.trans hus.2.symm⟩

/-- **Occupancy lemma**: what recording an occupancy leaves when it returns. -/
theorem recordEmailSiteUsage_ok {db : Database} {s s' : Session Database}
    {principal : ClientPrincipal} {now : ℕ} {usageId email site leaseId : String}
    {mailboxId : Option String} {r : Unit}
    (h : recordEmailSiteUsage principal now usageId email site mailboxId leaseId db s =
      (.ok r, s')) :
    s.usable = true ∧ s'.usable = true ∧
      ∃ u, SiteRecorded s.db s'.db (Text.normalize email) site u := by
  unfold recordEmailSiteUsage at h
  simp only [Work.bind_eq_ok] at h
  obtain ⟨found, s₁, hread, h⟩ := h
  obtain ⟨husable, hfound, rfl⟩ := Work.read_eq_ok.mp hread
  cases found with
  | none =>
      obtain ⟨-, d, hins, rfl⟩ := Work.flush_eq_ok.mp h
      unfold Database.insertEmailSiteUsage? at hins
      rw [Option.map_eq_some_iff] at hins
      obtain ⟨usages, hins, rfl⟩ := hins
      -- the slot is empty, and the new row takes it
      have hempty : ∀ q ∈ s₁.db.emailSiteUsages,
          q.inSlot (Text.normalize email) site = false := by
        intro q hq
        have hnone := List.find?_eq_none.mp hfound.symm q hq
        unfold EmailSiteUsage.inSlot
        rwa [Bool.not_eq_true] at hnone
      refine ⟨husable, rfl,
        { id := usageId, allocatedEmail := Text.normalize email, usageSiteCode := site
          mailboxId, leaseId := some leaseId, clientKeyId := some principal.clientKeyId
          createdAt := now, updatedAt := now }, ?_, rfl, ?_, ?_, rfl⟩
      · simp [EmailSiteUsage.inSlot, sqlEq]
      · intro q hq hslot
        rw [hempty q hq] at hslot
        cases hslot
      · intro q
        rw [Table.mem_insert? hins]
        constructor
        · rintro (hq | hq)
          · exact Or.inl ⟨hq, hempty q hq⟩
          · exact Or.inr hq
        · rintro (⟨hq, -⟩ | hq)
          · exact Or.inl hq
          · exact Or.inr hq
  | some existing =>
      unfold Database.siteUsage? at hfound
      have hslot : existing.inSlot (Text.normalize email) site = true := by
        have hfind := List.find?_some hfound.symm
        exact hfind
      have hmem : existing ∈ s₁.db.emailSiteUsages := List.mem_of_find?_eq_some hfound.symm
      simp only at h
      split at h
      · cases h
      rename_i hrevoked
      obtain ⟨-, rfl⟩ := Work.write_eq_ok.mp h
      refine ⟨husable, rfl,
        existing.reactivate now mailboxId leaseId principal.clientKeyId, hslot, rfl, ?_, ?_, rfl⟩
      -- the slot has one row, and it was revoked
      · intro q hq hqs
        rw [inSlot_unique hq hmem hqs hslot]
        intro hnone
        rw [hnone] at hrevoked
        exact hrevoked rfl
      · intro q
        refine (Table.mem_updateWhere_key (reactivate_keeps now mailboxId leaseId
          principal.clientKeyId) hmem q).trans (or_congr_left (and_congr_right ?_))
        intro hq
        rw [← Bool.not_eq_true, not_iff_not]
        constructor
        · intro hid
          rw [Table.eq_of_key hq hmem hid]
          exact hslot
        · intro hqs
          rw [inSlot_unique hq hmem hqs hslot]

/-- Whatever becomes of it, recording an occupancy on a session that takes
statements touches nothing else, or leaves the session unusable. -/
theorem recordEmailSiteUsage_frame {db : Database} {s s' : Session Database}
    {principal : ClientPrincipal} {now : ℕ} {usageId email site leaseId : String}
    {mailboxId : Option String} {r : Except LeaseError Unit} (hs : s.usable = true)
    (h : recordEmailSiteUsage principal now usageId email site mailboxId leaseId db s =
      (r, s')) (hs' : s'.usable = true) : SiteFrame s.db s'.db := by
  unfold recordEmailSiteUsage at h
  rw [Work.bind_of_ok (Work.read_of_usable hs)] at h
  cases husage : s.db.siteUsage? (Text.normalize email) site with
  | none =>
      simp only [husage] at h
      cases hins : s.db.insertEmailSiteUsage? _ with
      | none =>
          rw [Work.flush_of_none hs hins] at h
          cases h
          cases hs'
      | some d =>
          rw [Work.flush_of_some hs hins] at h
          cases h
          unfold Database.insertEmailSiteUsage? at hins
          rw [Option.map_eq_some_iff] at hins
          obtain ⟨_, _, rfl⟩ := hins
          rfl
  | some existing =>
      simp only [husage] at h
      by_cases hrevoked : existing.revokedAt.isNone = true
      · rw [if_pos hrevoked] at h
        cases h
        exact SiteFrame.refl _
      · rw [if_neg hrevoked, Work.write_of_usable hs] at h
        cases h
        rfl

theorem recordRequestedSite_frame {db : Database} {s s' : Session Database}
    {principal : ClientPrincipal} {now : ℕ} {draws : Draws} {lease : Lease}
    {siteCode : Option String} {r : Except LeaseError Unit} (hs : s.usable = true)
    (h : recordRequestedSite principal now draws lease siteCode db s = (r, s'))
    (hs' : s'.usable = true) : SiteFrame s.db s'.db := by
  have hdone : ∀ {r s'}, (pure () : LeaseWork Unit) db s = (r, s') →
      SiteFrame s.db s'.db := by
    intro r s' h
    cases h
    exact SiteFrame.refl _
  unfold recordRequestedSite at h
  cases siteCode with
  | none => exact hdone h
  | some code =>
      cases ha : lease.allocatedEmail with
      | none =>
          simp only [ha] at h
          exact hdone h
      | some a =>
          simp only [ha] at h
          by_cases hmode : lease.mode = .mailRead
          · rw [if_pos hmode] at h
            exact recordEmailSiteUsage_frame hs h hs'
          · rw [if_neg hmode] at h
            exact hdone h

theorem recordResolvedSite_frame {db : Database} {s s' : Session Database}
    {principal : ClientPrincipal} {now : ℕ} {usageId site address leaseId : String}
    {r : Except LeaseError Unit} (hs : s.usable = true)
    (h : recordResolvedSite principal now usageId site address leaseId db s = (r, s'))
    (hs' : s'.usable = true) : SiteFrame s.db s'.db := by
  unfold recordResolvedSite at h
  rw [Work.bind_of_ok (Work.read_of_usable hs)] at h
  cases hsite : resolveEnabledUsageSite s.db site with
  | error e =>
      rw [hsite, Work.bind_of_error Work.ofExcept_apply] at h
      cases h
      exact SiteFrame.refl _
  | ok code =>
      rw [hsite, Work.bind_of_ok Work.ofExcept_apply] at h
      exact recordEmailSiteUsage_frame hs h hs'

theorem recordOptionalSite_frame {db : Database} {s s' : Session Database}
    {principal : ClientPrincipal} {now : ℕ} {usageId address leaseId : String}
    {usageSite : Option String} {r : Except LeaseError Unit} (hs : s.usable = true)
    (h : recordOptionalSite principal now usageId usageSite address leaseId db s = (r, s')) :
    r = .ok () ∧ (s'.usable = true → SiteFrame s.db s'.db) := by
  unfold recordOptionalSite at h
  by_cases hsite : missing usageSite = true
  · rw [if_pos hsite] at h
    cases h
    exact ⟨rfl, fun _ => SiteFrame.refl _⟩
  · rw [if_neg hsite] at h
    rcases hx : recordResolvedSite principal now usageId (usageSite.getD "") address leaseId
      db s with ⟨e | u, s₁⟩
    · rw [Work.handle_of_some hx rfl] at h
      cases h
      exact ⟨rfl, recordResolvedSite_frame hs hx⟩
    · rw [Work.handle_of_ok hx] at h
      cases h
      exact ⟨rfl, recordResolvedSite_frame hs hx⟩

/-! ## Allocated addresses -/

theorem plusAliasOf_trimmed {primaryEmail : String} {aliasOf : String → String}
    (h : plusAliasOf primaryEmail = .ok aliasOf) (suffix : String) :
    Text.Trimmed (aliasOf suffix).toList := by
  unfold plusAliasOf at h
  rcases hpart : Text.partition (Text.strip primaryEmail) '@' with ⟨localPart, separator, domain⟩
  simp only [hpart] at h
  split at h
  · cases h
  · rename_i hvalid
    cases h
    simp only [Bool.or_eq_true, Bool.not_eq_true', decide_eq_true_eq, not_or,
      Bool.not_eq_false] at hvalid
    obtain ⟨⟨rfl, hlocal⟩, hdomain⟩ := hvalid
    have hstrip := Text.trimmed_strip primaryEmail
    rw [Text.toList_of_partition hpart] at hstrip
    have hlocal' : localPart.toList ≠ [] := by simpa using hlocal
    have hdomain' : domain.toList ≠ [] := by simpa using hdomain
    have hlower : (Text.lower domain).toList ≠ [] := by
      simpa [Text.lower_eq_empty] using hdomain
    simp only [String.toList_append]
    refine ⟨?_, ?_⟩
    · intro c hc
      cases hfirst : (Text.partition localPart '+').1.toList with
      | nil =>
          rw [hfirst] at hc
          have : c = '+' := by simpa [eq_comm] using hc
          rw [this]
          exact PythonText.plus_not_space
      | cons d rest =>
          rw [hfirst] at hc
          have hd : d = c := by simpa using hc
          obtain ⟨tail, htail⟩ := Text.partition_fst_prefix localPart '+'
          apply hstrip.1 c
          rw [← htail, hfirst, hd]
          simp
    · intro c hc
      rw [List.getLast?_append_of_ne_nil _ hlower] at hc
      obtain ⟨d, hd, hcd⟩ := Text.mem_getLast?_lower hc
      rw [PythonText.lowerChar_space d c hcd]
      apply hstrip.2 d
      rw [List.getLast?_append_of_ne_nil _ (List.cons_ne_nil _ _),
        List.getLast?_cons_of_ne_nil hdomain']
      exact hd

/-- The suffix of an alias: the explicit one, checked, or one of those drawn. -/
def AliasSuffix (suffixes : List String) (preferred : Option String) (suffix : String) : Prop :=
  match preferred with
  | some p => checkedAliasSuffix p = .ok suffix
  | none => suffix ∈ suffixes

theorem allocatePlusAlias_ok {db : Database} {now : ℕ} {suffixes : List String}
    {primaryEmail a : String} {preferred siteCode : Option String}
    (h : allocatePlusAlias db now suffixes primaryEmail preferred siteCode = .ok a) :
    ∃ aliasOf suffix, plusAliasOf primaryEmail = .ok aliasOf ∧
      AliasSuffix suffixes preferred suffix ∧ a = aliasOf suffix := by
  unfold allocatePlusAlias at h
  split at h
  · cases h
  · rename_i aliasOf _ halias
    split at h
    · cases h
    · rename_i hchecked
      split at h
      · cases h
      · split at h
        · cases h
        · cases h
          exact ⟨aliasOf, _, halias, hchecked, rfl⟩
  · rename_i aliasOf halias
    split at h
    · cases h
    · rename_i suffix hfound
      cases h
      exact ⟨aliasOf, suffix, halias, List.mem_of_mem_take (List.mem_of_find?_eq_some hfound),
        rfl⟩

theorem allocateAddress_trimmed {db : Database} {now : ℕ} {draws : Draws}
    {request : AcquireRequest} {wantsPlusAlias : Bool} {siteCode : Option String}
    {m : Mailbox} {x : String}
    (h : allocateAddress db now draws request wantsPlusAlias siteCode m = .ok (some x)) :
    Text.Trimmed x.toList := by
  unfold allocateAddress at h
  by_cases hmode : request.mode = .mailRead
  · rw [if_pos hmode] at h
    cases wantsPlusAlias with
    | true =>
        rw [if_pos rfl] at h
        cases halias : allocatePlusAlias db now draws.suffixes m.primaryEmail
          request.preferredAliasSuffix siteCode with
        | error e =>
            rw [halias] at h
            cases h
        | ok y =>
            rw [halias] at h
            obtain ⟨aliasOf, suffix, hof, -, hy⟩ := allocatePlusAlias_ok halias
            have hyx : y = x := Option.some.inj (Except.ok.inj h)
            rw [← hyx, hy]
            exact plusAliasOf_trimmed hof suffix
    | false =>
        rw [if_neg Bool.false_ne_true] at h
        have hx : Text.normalize m.primaryEmail = x := Option.some.inj (Except.ok.inj h)
        rw [← hx]
        exact Text.trimmed_normalize _
  · rw [if_neg hmode] at h
    cases Except.ok.inj h

theorem pickMailbox_ok {db : Database} {now : ℕ} {draws : Draws} {request : AcquireRequest}
    {wantsPlusAlias : Bool} {siteCode : Option String} {providerType : String} {m : Mailbox}
    {a : Option String}
    (h : pickMailbox db now draws request wantsPlusAlias siteCode providerType = .ok (m, a)) :
    m ∈ db.mailboxes ∧ db.mailboxSelectable now request.mode providerType wantsPlusAlias
      siteCode (normalizedPreferred request.preferredEmail) m = true ∧
      allocateAddress db now draws request wantsPlusAlias siteCode m = .ok a := by
  unfold pickMailbox at h
  simp only at h
  cases hsel : db.selectMailbox now request.mode providerType wantsPlusAlias siteCode
    (normalizedPreferred request.preferredEmail) with
  | none =>
      simp only [hsel] at h
      split at h <;> cases h
  | some m' =>
      simp only [hsel] at h
      cases hall : allocateAddress db now draws request wantsPlusAlias siteCode m' with
      | error e =>
          rw [hall] at h
          cases h
      | ok a' =>
          rw [hall] at h
          obtain ⟨rfl, rfl⟩ := Prod.mk.inj (Except.ok.inj h)
          obtain ⟨hmem, hselectable⟩ := Table.first?_eq_some hsel
          exact ⟨hmem, hselectable, hall⟩

theorem pickResource_ok {db : Database} {preferredEmail : Option String}
    {r : MailboxProviderResource} (h : pickResource db preferredEmail = .ok r) :
    r ∈ db.providerResources ∧
      r.selectable (normalizedPreferred preferredEmail) = true := by
  unfold pickResource at h
  split at h
  · cases h
  · rename_i resource hfirst
    cases h
    exact Table.first?_eq_some hfirst

theorem MailboxProviderResource.available_of_selectable {r : MailboxProviderResource}
    {preferred : Option String} (h : r.selectable preferred = true) :
    r.providerType = "smsbower_gmail" ∧ r.lifecycleState = .available := by
  unfold MailboxProviderResource.selectable at h
  simp only [Bool.and_eq_true, decide_eq_true_eq] at h
  exact ⟨h.1.1.1, h.1.1.2⟩

/-! ## Acquiring -/

theorem unavailableOnIntegrity_ok {db : Database} {s s' : Session Database}
    {x : LeaseWork Unit} {u : Unit}
    (h : unavailableOnIntegrity x db s = (.ok u, s')) : x db s = (.ok u, s') := by
  unfold unavailableOnIntegrity at h
  rcases hx : x db s with ⟨e | v, s₁⟩
  · by_cases he : e = .integrity
    · subst he
      rw [Work.handle_of_some hx rfl] at h
      cases h
    · rw [Work.handle_of_none hx (by cases e <;> simp_all)] at h
      cases h
  · rwa [Work.handle_of_ok hx] at h

theorem touchMailbox_email {db : Database} {mailboxId k : String} {now : ℕ} :
    ((db.touchMailbox mailboxId now).mailboxes.get? k).map Mailbox.primaryEmail =
      (db.mailboxes.get? k).map Mailbox.primaryEmail := by
  show ((db.mailboxes.updateWhere _ _ (Mailbox.touch_keeps now)).get? k).map _ = _
  rw [Table.get?_updateWhere, Option.map_map]
  congr 1
  funext m
  simp only [Function.comp_apply]
  split <;> rfl

/-- What an acquire on a mailbox returns comes from the mailbox it picked and
the address it allocated on it. -/
theorem acquireMailboxLease_result {db : Database} {s s' : Session Database}
    {principal : ClientPrincipal} {now : ℕ} {decrypt : String → Except String String}
    {draws : Draws} {request : AcquireRequest} {wantsPlusAlias : Bool}
    {siteCode : Option String} {providerType : String} {result : LeaseAcquireResult}
    (h : acquireMailboxLease principal now decrypt draws request wantsPlusAlias siteCode
      providerType db s = (.ok result, s')) :
    ∃ m a, pickMailbox s.db now draws request wantsPlusAlias siteCode providerType =
        .ok (m, a) ∧
      mailboxLeaseResult decrypt (mailboxLease principal now draws request m a) m siteCode =
        .ok result := by
  unfold acquireMailboxLease at h
  simp only [Work.bind_eq_ok] at h
  obtain ⟨picked, s₁, hread, ⟨m, a⟩, s₂, htake, _, s₃, -, _, s₄, -, _, s₅, -, h⟩ := h
  obtain ⟨-, rfl, -⟩ := Work.read_eq_ok.mp hread
  obtain ⟨hpick, -⟩ := Prod.mk.inj htake
  exact ⟨m, a, hpick, (Prod.mk.inj h).1⟩

/-- What a lease's result says of it, whatever its mode. -/
theorem mailboxLeaseResult_ok {decrypt : String → Except String String} {lease : Lease}
    {m : Mailbox} {siteCode : Option String} {result : LeaseAcquireResult}
    (h : mailboxLeaseResult decrypt lease m siteCode = .ok result) :
    result.mailboxId = some m.id ∧ result.allocatedEmail = lease.allocatedEmail ∧
      result.addressKind = classifyAddressKind m.primaryEmail lease.allocatedEmail ∧
      result.providerType = some lease.providerType := by
  unfold mailboxLeaseResult at h
  simp only at h
  split at h
  · split at h
    · cases h
    · cases h
      exact ⟨rfl, rfl, rfl, rfl⟩
  · cases h
    exact ⟨rfl, rfl, rfl, rfl⟩

structure MailboxAcquired (db db' : Database) (now : ℕ) (draws : Draws)
    (request : AcquireRequest) (wantsPlusAlias : Bool) (siteCode : Option String)
    (providerType : String) (principal : ClientPrincipal) (m : Mailbox)
    (a : Option String) : Prop where
  picked : pickMailbox db now draws request wantsPlusAlias siteCode providerType =
    .ok (m, a)
  put : LeasePut db db' now (mailboxLease principal now draws request m a) a
  fresh : ∀ l ∈ db.leases, l.id ≠ draws.leaseId

/-- **Mailbox lemma**: what an acquire on a mailbox leaves when it returns on
a session that still takes statements. -/
theorem acquireMailboxLease_ok {db : Database} {s s' : Session Database}
    {principal : ClientPrincipal} {now : ℕ} {decrypt : String → Except String String}
    {draws : Draws} {request : AcquireRequest} {wantsPlusAlias : Bool}
    {siteCode : Option String} {providerType : String} {result : LeaseAcquireResult}
    (h : acquireMailboxLease principal now decrypt draws request wantsPlusAlias siteCode
      providerType db s = (.ok result, s')) (hs' : s'.usable = true) :
    s.usable = true ∧ ∃ m a, MailboxAcquired s.db s'.db now draws request wantsPlusAlias
      siteCode providerType principal m a := by
  unfold acquireMailboxLease at h
  simp only [Work.bind_eq_ok] at h
  obtain ⟨picked, s₁, hread, ⟨m, a⟩, s₂, htake, _, s₃, hflush, _, s₄, hclaim, _, s₅, hsite,
    h⟩ := h
  obtain ⟨husable, rfl, rfl⟩ := Work.read_eq_ok.mp hread
  obtain ⟨hpick, rfl⟩ := Prod.mk.inj htake
  obtain ⟨-, db₂, hins, rfl⟩ := Work.flush_eq_ok.mp hflush
  obtain ⟨-, husable₄, hput⟩ := upsertLeaseClaim_ok (unavailableOnIntegrity_ok hclaim)
  obtain ⟨-, rfl⟩ := Prod.mk.inj h
  have hframe := recordRequestedSite_frame husable₄ hsite hs'
  obtain ⟨hleasePut, hfresh⟩ := leasePut_of_insert s₁.db hins rfl rfl
    (fun k => touchMailbox_email) hput
  refine ⟨husable, m, a, hpick, ?_, hfresh⟩
  rw [hframe]
  exact ⟨hleasePut.leases, hleasePut.claims, hleasePut.alone, hleasePut.emails⟩

structure ResourceAcquired (db db' : Database) (now : ℕ) (lease : Lease)
    (r : MailboxProviderResource) (address : String) : Prop where
  put : LeasePut db db' now lease (some address)
  fresh : ∀ l ∈ db.leases, l.id ≠ lease.id
  resources : db'.providerResources =
    (db.updateResource r.id (fun r => r.claim now)
      (fun _ => ⟨rfl, fun _ => rfl⟩)).providerResources
  operations : db'.providerOperations = db.providerOperations

/-- **Resource lemma**: what an acquire of an available resource leaves when
it returns on a session that still takes statements. -/
theorem acquireSmsbowerLease_ok {db : Database} {s s' : Session Database}
    {principal : ClientPrincipal} {now : ℕ} {draws : Draws} {request : AcquireRequest}
    {usageSite : Option String} {result : LeaseAcquireResult}
    (h : acquireSmsbowerLease principal now draws request usageSite db s =
      (.ok result, s')) (hs' : s'.usable = true) :
    s.usable = true ∧ ∃ r, pickResource s.db request.preferredEmail = .ok r ∧
      ResourceAcquired s.db s'.db now
        (resourceLease principal now draws.leaseId request.ttlSeconds request.clientTag
          request.purpose "smsbower_gmail" r.providerInstanceId r.id
          (Text.normalize r.primaryEmail)) r (Text.normalize r.primaryEmail) := by
  unfold acquireSmsbowerLease at h
  simp only [Work.bind_eq_ok] at h
  obtain ⟨picked, s₁, hread, r, s₂, htake, _, s₃, hflush, _, s₄, hclaim, _, s₅, hsite, h⟩ := h
  obtain ⟨husable, rfl, rfl⟩ := Work.read_eq_ok.mp hread
  obtain ⟨hpick, rfl⟩ := Prod.mk.inj htake
  obtain ⟨-, db₂, hins, rfl⟩ := Work.flush_eq_ok.mp hflush
  obtain ⟨-, husable₄, hput⟩ := upsertLeaseClaim_ok (unavailableOnIntegrity_ok hclaim)
  obtain ⟨-, rfl⟩ := Prod.mk.inj h
  obtain ⟨-, hframe⟩ := recordOptionalSite_frame husable₄ hsite
  obtain ⟨hleasePut, hfresh⟩ := leasePut_of_insert s₁.db hins rfl rfl
    (fun _ => rfl) hput
  refine ⟨husable, r, hpick, ?_, hfresh, ?_, ?_⟩
  · rw [hframe hs']
    exact ⟨hleasePut.leases, hleasePut.claims, hleasePut.alone, hleasePut.emails⟩
  · rw [hframe hs', hput.frame, (insertLease?_eq_some hins).2.2]
  · rw [hframe hs', hput.frame, (insertLease?_eq_some hins).2.2]
    rfl

theorem rollbackOnIntegrity_ok {db : Database} {s s' : Session Database}
    {x : LeaseWork Unit} {u : Unit}
    (h : rollbackOnIntegrity x db s = (.ok u, s')) : x db s = (.ok u, s') := by
  unfold rollbackOnIntegrity at h
  rcases hx : x db s with ⟨e | v, s₁⟩
  · by_cases he : e = .integrity
    · subst he
      rw [Work.handle_of_some hx rfl] at h
      cases h
    · rw [Work.handle_of_none hx (by cases e <;> simp_all)] at h
      cases h
  · rwa [Work.handle_of_ok hx] at h

structure LeaseGranted (db db' : Database) (now : ℕ) (lease : Lease) : Prop where
  put : LeasePut db db' now lease lease.allocatedEmail
  fresh : ∀ l ∈ db.leases, l.id ≠ lease.id
  unreleased : lease.releasedAt = none
  trimmed : ∀ x ∈ lease.allocatedEmail, Text.Trimmed x.toList

theorem provisionedAddress_ok {providerType address : String}
    {provision : Except ProvisionFailure OnDemandProvisionResult}
    {result : OnDemandProvisionResult}
    (h : provisionedAddress providerType provision = .ok (result, address)) :
    provision = .ok result ∧ address = Text.normalize (result.address.getD "") := by
  unfold provisionedAddress at h
  split at h
  · cases h
  · split at h <;> cases h
  · cases h
  · simp only at h
    split at h
    · cases h
    · cases h
      exact ⟨rfl, rfl⟩

/-- **On-demand lemma**: what an on-demand acquire leaves when it returns on a
session that still takes statements. -/
theorem acquireOnDemandLease_ok {db : Database} {s s' : Session Database}
    {principal : ClientPrincipal} {now : ℕ} {draws : Draws} {request : AcquireRequest}
    {usageSite : Option String} {providerType : String} {result : LeaseAcquireResult}
    (h : acquireOnDemandLease principal now draws request usageSite providerType db s =
      (.ok result, s')) (hs' : s'.usable = true) :
    s.usable = true ∧ ∃ lease, lease.id = draws.leaseId ∧
      LeaseGranted s.db s'.db now lease := by
  unfold acquireOnDemandLease at h
  simp only [Work.bind_eq_ok] at h
  obtain ⟨⟨provisioned, address⟩, s₁, htake, _, s₂, hinsert, _, s₃, hsite, h⟩ := h
  obtain ⟨hprov, rfl⟩ := Prod.mk.inj htake
  obtain ⟨-, rfl⟩ := Prod.mk.inj h
  obtain ⟨-, haddress⟩ := provisionedAddress_ok hprov
  have hparts := rollbackOnIntegrity_ok hinsert
  simp only [insertOnDemandLease, Work.bind_eq_ok] at hparts
  obtain ⟨_, s₄, hflush₁, _, s₅, hflush₂, hclaim⟩ := hparts
  obtain ⟨husable, db₁, hresource, rfl⟩ := Work.flush_eq_ok.mp hflush₁
  obtain ⟨-, db₂, hins, rfl⟩ := Work.flush_eq_ok.mp hflush₂
  obtain ⟨-, husable₂, hput⟩ := upsertLeaseClaim_ok hclaim
  obtain ⟨-, hframe⟩ := recordOptionalSite_frame husable₂ hsite
  unfold Database.insertProviderResource? at hresource
  rw [Option.map_eq_some_iff] at hresource
  obtain ⟨resources, -, rfl⟩ := hresource
  obtain ⟨hleasePut, hfresh⟩ := leasePut_of_insert s.db hins rfl rfl
    (fun _ => rfl) hput
  refine ⟨husable, _, rfl, ?_, hfresh, rfl, ?_⟩
  · rw [hframe hs']
    exact ⟨hleasePut.leases, hleasePut.claims, hleasePut.alone, hleasePut.emails⟩
  · intro x hx
    have hx' : address = x := Option.some.inj hx
    rw [← hx', haddress]
    exact Text.trimmed_normalize _

theorem resolveRequestedSite_ok {db : Database} {s s' : Session Database}
    {request : AcquireRequest} {providerType : String} {site : Option String}
    (h : resolveRequestedSite request providerType db s = (.ok site, s')) : s' = s := by
  unfold resolveRequestedSite at h
  split at h
  · split at h
    · simp only [Work.bind_eq_ok] at h
      obtain ⟨_, s₁, hread, _, s₂, hcode, h⟩ := h
      obtain ⟨-, -, rfl⟩ := Work.read_eq_ok.mp hread
      obtain ⟨-, rfl⟩ := Prod.mk.inj hcode
      exact (Prod.mk.inj h).2.symm
    · split at h
      · exact (Prod.mk.inj h).2.symm
      · cases h
  · exact (Prod.mk.inj h).2.symm

/-- **Grant lemma**: a single-provider attempt that returns on a session that
still takes statements hands out one new lease, with its claim. -/
theorem acquireSingleProviderLease_ok {db : Database} {s s' : Session Database}
    {principal : ClientPrincipal} {now : ℕ} {decrypt : String → Except String String}
    {draws : Draws} {request : AcquireRequest} {providerType : String}
    {result : LeaseAcquireResult}
    (h : acquireSingleProviderLease principal now decrypt draws request providerType db s =
      (.ok result, s')) (hs' : s'.usable = true) :
    s.usable = true ∧ ∃ lease, lease.id = draws.leaseId ∧
      LeaseGranted s.db s'.db now lease := by
  unfold acquireSingleProviderLease at h
  split at h
  · cases h
  split at h
  · cases h
  rw [Work.bind_eq_ok] at h
  obtain ⟨siteCode, s₁, hsite, h⟩ := h
  have hs₁ := resolveRequestedSite_ok hsite
  rw [hs₁] at h
  split at h
  · exact acquireOnDemandLease_ok h hs'
  split at h
  · split at h
    · cases h
    · obtain ⟨husable, r, -, hgot⟩ := acquireSmsbowerLease_ok h hs'
      refine ⟨husable, _, rfl, hgot.put, hgot.fresh, rfl, ?_⟩
      intro x hx
      have hx' : Text.normalize r.primaryEmail = x := Option.some.inj hx
      rw [← hx']
      exact Text.trimmed_normalize _
  · obtain ⟨husable, m, a, hgot⟩ := acquireMailboxLease_ok h hs'
    refine ⟨husable, _, rfl, hgot.put, hgot.fresh, rfl, ?_⟩
    intro x hx
    have hx' : a = some x := hx
    subst hx'
    exact allocateAddress_trimmed (pickMailbox_ok hgot.picked).2.2

/-! ## Reacquiring -/

/-- The lease a reacquire renews is one of the mailbox's active leases, a
mail-read lease that carries the address. -/
theorem matchOwnedLease_ok {clientKeyId a : String} {isPlusAlias : Bool} {l : Lease} :
    ∀ {leases : List Lease} {found : Option Lease},
      matchOwnedLease clientKeyId a isPlusAlias found leases = .ok (some l) →
      found = some l ∨ l ∈ leases ∧ l.mode = .mailRead ∧ l.carries a = true := by
  intro leases
  induction leases with
  | nil =>
      intro found h
      exact Or.inl (Except.ok.inj h)
  | cons l' leases ih =>
      intro found h
      simp only [matchOwnedLease] at h
      split at h
      · rename_i howned
        rcases ih h with hfound | ⟨hl, hrest⟩
        · cases hfound
          exact Or.inr ⟨List.mem_cons_self, howned.2⟩
        · exact Or.inr ⟨List.mem_cons_of_mem _ hl, hrest⟩
      · split at h
        · cases h
        · rcases ih h with hfound | ⟨hl, hrest⟩
          · exact Or.inl hfound
          · exact Or.inr ⟨List.mem_cons_of_mem _ hl, hrest⟩

/-- A lease that a committed reacquire renewed: `old` is the row before. -/
structure LeaseRenewed (db db' : Database) (now : ℕ) (old lease : Lease) (a : String) :
    Prop where
  old_mem : old ∈ db.leases
  old_active : old.activeAt now = true
  id_eq : lease.id = old.id
  mailbox_eq : lease.mailboxId = old.mailboxId
  mode_eq : lease.mode = old.mode
  address_eq : lease.allocatedEmail = old.allocatedEmail
  released_eq : lease.releasedAt = old.releasedAt
  carries : Text.normalize (old.allocatedEmail.getD "") = a
  address_ne : a ≠ ""
  put : LeasePut db db' now lease (some a)

theorem reacquireLeaseByEmail_returns {db : Database} {s s' : Session Database}
    {principal : ClientPrincipal} {now ttlSeconds : ℕ} {leaseId email : String}
    {clientTag purpose : Option String} {result : LeaseAcquireResult}
    (h : reacquireLeaseByEmail principal now leaseId email ttlSeconds clientTag purpose db s =
      (.ok result, s')) :
    Text.normalize email ≠ "" ∧ ∃ m addressKind owned,
      matchOwnedLease principal.clientKeyId (Text.normalize email)
        (addressKind = "plus_alias") none
        (s.db.leases.select fun l => l.mailboxId = some m.id && l.activeAt now) = .ok owned ∧
      renewOrInsertLease principal now ttlSeconds leaseId clientTag purpose m
        (Text.normalize email) addressKind owned db s = (.ok result, s') := by
  unfold reacquireLeaseByEmail at h
  rw [Work.bind_eq_ok] at h
  obtain ⟨_, s₀, hscope, h⟩ := h
  have hs₀ : s₀ = s := by
    unfold ClientPrincipal.requireScope at hscope
    split at hscope
    · exact (Prod.mk.inj hscope).2.symm
    · cases hscope
  rw [hs₀] at h
  simp only at h
  split at h
  · cases h
  rename_i hne
  refine ⟨hne, ?_⟩
  rw [Work.bind_eq_ok] at h
  obtain ⟨resolved, s₁, hread, h⟩ := h
  obtain ⟨husable, -, hs₁⟩ := Work.read_eq_ok.mp hread
  rw [hs₁, Work.bind_eq_ok] at h
  obtain ⟨⟨mailboxId, addressKind⟩, s₂, hresolve, h⟩ := h
  have hs₂ : s₂ = s := (Prod.mk.inj hresolve).2.symm
  rw [hs₂, Work.bind_of_ok (Work.read_of_usable husable)] at h
  simp only at h
  split at h
  · cases h
  rw [Work.bind_of_ok (Work.read_of_usable husable)] at h
  cases hm : s.db.mailboxes.get? mailboxId with
  | none =>
      simp only [hm] at h
      cases h
  | some m =>
      simp only [hm] at h
      rw [Work.bind_eq_ok] at h
      obtain ⟨_, s₃, hcheck, h⟩ := h
      have hs₃ : s₃ = s := (Prod.mk.inj hcheck).2.symm
      rw [hs₃, Work.bind_of_ok (Work.read_of_usable husable), Work.bind_eq_ok] at h
      obtain ⟨owned, s₄, howned, h⟩ := h
      obtain ⟨howned, hs₄⟩ := Prod.mk.inj howned
      rw [← hs₄] at h
      exact ⟨m, addressKind, owned, howned, h⟩

theorem matchOwnedLease_active {db : Database} {m : Mailbox} {now : ℕ}
    {clientKeyId a : String} {isPlusAlias : Bool} {old : Lease}
    (h : matchOwnedLease clientKeyId a isPlusAlias none
      (db.leases.select fun l => l.mailboxId = some m.id && l.activeAt now) =
        .ok (some old)) :
    old ∈ db.leases ∧ old.mailboxId = some m.id ∧ old.activeAt now = true ∧
      old.carries a = true := by
  rcases matchOwnedLease_ok h with hnone | ⟨hmem, -, hcarries⟩
  · cases hnone
  · obtain ⟨hmem, hactive⟩ := Table.mem_select.mp hmem
    rw [Bool.and_eq_true, decide_eq_true_eq] at hactive
    exact ⟨hmem, hactive.1, hactive.2, hcarries⟩

/-- **Reacquire lemma**: a reacquire that returns renews an active lease of the
mailbox or hands out a new one. -/
theorem reacquireLeaseByEmail_ok {db : Database} {s s' : Session Database}
    {principal : ClientPrincipal} {now ttlSeconds : ℕ} {leaseId email : String}
    {clientTag purpose : Option String} {result : LeaseAcquireResult}
    (h : reacquireLeaseByEmail principal now leaseId email ttlSeconds clientTag purpose db s =
      (.ok result, s')) :
    (∃ lease, LeaseGranted s.db s'.db now lease) ∨
      ∃ old lease a, LeaseRenewed s.db s'.db now old lease a := by
  obtain ⟨hne, m, addressKind, owned, howned, h⟩ := reacquireLeaseByEmail_returns h
  cases owned with
  | none =>
      simp only [renewOrInsertLease, Work.bind_eq_ok] at h
      obtain ⟨_, s₅, hflush, _, s₆, hclaim, h⟩ := h
      obtain ⟨-, db₂, hins, rfl⟩ := Work.flush_eq_ok.mp hflush
      obtain ⟨-, -, hput⟩ := upsertLeaseClaim_ok hclaim
      obtain ⟨-, rfl⟩ := Prod.mk.inj h
      obtain ⟨hleasePut, hfresh⟩ := leasePut_of_insert s.db hins rfl rfl
        (fun _ => rfl) hput
      refine Or.inl ⟨_, hleasePut, hfresh, rfl, ?_⟩
      intro x hx
      have hx' : Text.normalize email = x := Option.some.inj hx
      rw [← hx']
      exact Text.trimmed_normalize _
  | some old =>
      simp only [renewOrInsertLease, Work.bind_eq_ok] at h
      obtain ⟨_, s₅, hflush, _, s₆, hclaim, h⟩ := h
      obtain ⟨-, rfl⟩ := Work.write_eq_ok.mp hflush
      obtain ⟨-, -, hput⟩ := upsertLeaseClaim_ok hclaim
      obtain ⟨-, rfl⟩ := Prod.mk.inj h
      obtain ⟨hmem, -, hactive, hcarries⟩ := matchOwnedLease_active howned
      refine Or.inr ⟨old, old.renew now ttlSeconds clientTag purpose, _, hmem, hactive,
        rfl, rfl, rfl, rfl, rfl, ?_, hne, ?_⟩
      · simpa [Lease.carries] using hcarries
      · refine leasePut_of_claimPut ?_ ?_ ?_ hput
        · exact mem_updateLease hmem
        · rfl
        · exact fun _ => rfl

end

end MailboxService
