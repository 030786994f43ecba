import MailboxService.LeaseService.Failures
import MailboxService.LeaseService.ReleaseEffects
import MailboxService.MailboxAdmin
import MailboxService.Foundation.Run

/-!
# Exclusivity of leases

Runs of committed transactions over the lease tables and the clock: acquires,
reacquires, releases, and the administrator's forced releases and deletions.

`LeaseInv` ties every active lease to its claim row and every live claim to
its lease, and keeps a mailbox from two active exclusive leases. Two lemmas
carry it: writing a lease together with its claim keeps it (`LeaseInv.put`),
and so does any step that only withdraws leases (`LeaseInv.shrink`). The
candidate loop can commit a lease row without a claim, when a candidate whose
claim was refused is followed by one that succeeds; runs in which no attempt
that is stepped over orphans its lease keep the invariant throughout.
-/

namespace MailboxService

open Foundation

section

variable [Platform]

/-! ## What is claimed -/

/-- An exclusive lease: on a mailbox, and not for a plus alias of it. -/
def Lease.exclusiveIn (db : Database) (l : Lease) : Bool :=
  l.mailboxId.isSome && !isPlusAllocation l.mode l.allocatedEmail (db.primaryEmailOf l)

structure LeaseExclusivity (db : Database) (now : ℕ) : Prop where
  /-- A mailbox has at most one active exclusive lease. -/
  exclusive : ∀ l ∈ db.leases, ∀ l' ∈ db.leases, l.activeAt now = true →
    l'.activeAt now = true → l.exclusiveIn db = true → l'.exclusiveIn db = true →
    l.mailboxId = l'.mailboxId → l = l'
  /-- The live claims mirror the active leases. -/
  mirror : ∀ leaseId expiresAt,
    (∃ c ∈ db.leaseClaims, c.liveAt now = true ∧ c.leaseId = leaseId ∧
      c.expiresAt = expiresAt) ↔
    ∃ l ∈ db.leases, l.activeAt now = true ∧ l.id = leaseId ∧ l.expiresAt = expiresAt
  /-- No two active leases carry the same address. -/
  address : ∀ l ∈ db.leases, ∀ l' ∈ db.leases, l.activeAt now = true →
    l'.activeAt now = true → sqlEqNullable l.allocatedEmail l'.allocatedEmail = true → l = l'

/-! ## The invariant -/

structure MailboxLeaseClaim.Mirrors (c : MailboxLeaseClaim) (l : Lease) : Prop where
  lease : c.leaseId = l.id
  expiry : c.expiresAt = l.expiresAt
  mailbox : c.mailboxId = l.mailboxId
  resource : c.providerResourceId = l.providerResourceId
  address : c.allocatedEmail.map Collation.key = l.allocatedEmail.map Collation.key

structure LeaseInv (db : Database) (now : ℕ) : Prop where
  claim_of_lease : ∀ l ∈ db.leases, l.activeAt now = true →
    ∃ c ∈ db.leaseClaims, c.Mirrors l
  lease_of_claim : ∀ c ∈ db.leaseClaims, c.liveAt now = true →
    ∃ l ∈ db.leases, l.activeAt now = true ∧ c.Mirrors l
  trimmed : ∀ l ∈ db.leases, l.activeAt now = true →
    ∀ x ∈ l.allocatedEmail, Text.Trimmed x.toList
  exclusive : ∀ l ∈ db.leases, ∀ l' ∈ db.leases, l.activeAt now = true →
    l'.activeAt now = true → l.exclusiveIn db = true → l'.exclusiveIn db = true →
    l.mailboxId = l'.mailboxId → l = l'

theorem lease_eq_of_id {db : Database} {l l' : Lease} (hl : l ∈ db.leases)
    (hl' : l' ∈ db.leases) (h : l.id = l'.id) : l = l' :=
  Table.eq_of_key hl hl' h

theorem MailboxLeaseClaim.Mirrors.live {c : MailboxLeaseClaim} {l : Lease} {now : ℕ}
    (h : c.Mirrors l) (hl : l.activeAt now = true) : c.liveAt now = true := by
  unfold Lease.activeAt at hl
  rw [Bool.and_eq_true] at hl
  unfold MailboxLeaseClaim.liveAt
  rw [h.expiry]
  exact hl.2

/-- Two nullable addresses with the same sort key, one of them there, are
equal for the database. -/
theorem sqlEqNullable_of_map_key {a b c d : Option String}
    (hab : a.map Collation.key = b.map Collation.key)
    (hcd : c.map Collation.key = d.map Collation.key)
    (h : sqlEqNullable b d = true) : sqlEqNullable a c = true := by
  cases a <;> cases b <;> cases c <;> cases d <;>
    simp_all [sqlEqNullable, sqlEq]

/-- **The invariant is enough.** -/
theorem LeaseInv.exclusivity {db : Database} {now : ℕ} (h : LeaseInv db now) :
    LeaseExclusivity db now := by
  refine ⟨h.exclusive, ?_, ?_⟩
  · intro leaseId expiresAt
    constructor
    · rintro ⟨c, hc, hlive, rfl, rfl⟩
      obtain ⟨l, hl, hactive, hmirror⟩ := h.lease_of_claim c hc hlive
      exact ⟨l, hl, hactive, hmirror.lease.symm, hmirror.expiry.symm⟩
    · rintro ⟨l, hl, hactive, rfl, rfl⟩
      obtain ⟨c, hc, hmirror⟩ := h.claim_of_lease l hl hactive
      exact ⟨c, hc, hmirror.live hactive, hmirror.lease, hmirror.expiry⟩
  · intro l hl l' hl' hactive hactive' haddress
    obtain ⟨c, hc, hmirror⟩ := h.claim_of_lease l hl hactive
    obtain ⟨c', hc', hmirror'⟩ := h.claim_of_lease l' hl' hactive'
    have hclash : sqlEqNullable c.allocatedEmail c'.allocatedEmail = true :=
      sqlEqNullable_of_map_key hmirror.address hmirror'.address haddress
    have hcc : c = c' := Table.eq_of_clash hc hc' hclash
    apply lease_eq_of_id hl hl'
    rw [← hmirror.lease, hcc, hmirror'.lease]

/-! ## Putting a lease with its claim -/

theorem exclusiveIn_congr {db db' : Database} {l : Lease}
    (h : ∀ k, l.mailboxId = some k → (db'.mailboxes.get? k).map Mailbox.primaryEmail =
      (db.mailboxes.get? k).map Mailbox.primaryEmail) :
    l.exclusiveIn db' = l.exclusiveIn db := by
  unfold Lease.exclusiveIn
  cases hm : l.mailboxId with
  | none => simp only [Option.isSome_none, Bool.false_and]
  | some k =>
      have hemail : db'.primaryEmailOf l = db.primaryEmailOf l := by
        unfold Database.primaryEmailOf
        simp only [hm]
        rw [h k hm]
      rw [hemail]

/-- A lease that is put meets no active lease on its mailbox, unless it is for
a plus alias. -/
theorem LeaseInv.put_alone {db db' : Database} {now : ℕ} {lease : Lease} {a : Option String}
    (h : LeaseInv db now) (hput : LeasePut db db' now lease a)
    (haddress : a.map Text.normalize = lease.allocatedEmail.map Text.normalize)
    (hexclusive : lease.exclusiveIn db' = true) :
    ∀ l ∈ db.leases, l.activeAt now = true → l.id ≠ lease.id →
      l.mailboxId ≠ lease.mailboxId := by
  intro l hl hactive hne hmailbox
  unfold Lease.exclusiveIn at hexclusive
  rw [Bool.and_eq_true, Bool.not_eq_true'] at hexclusive
  obtain ⟨hsome, hplus⟩ := hexclusive
  obtain ⟨m, hm⟩ := Option.isSome_iff_exists.mp hsome
  have hplus' : isPlusAllocation lease.mode a (db'.primaryEmailOf lease) = false := by
    rw [← hplus]
    unfold isPlusAllocation
    cases lease.mode <;> cases a <;> cases hla : lease.allocatedEmail <;>
      simp_all
  obtain ⟨c, hc, hmirror⟩ := h.claim_of_lease l hl hactive
  have htarget : c.onTargetOf lease = true := by
    unfold MailboxLeaseClaim.onTargetOf
    simp only [hm]
    rw [decide_eq_true_eq, hmirror.mailbox, hmailbox, hm]
  have hdead := hput.alone hplus' c hc htarget (by rw [hmirror.lease]; exact hne)
  rw [hmirror.live hactive] at hdead
  cases hdead

/-- **Put rule**: writing a lease with its claim keeps the invariant. -/
theorem LeaseInv.put {db db' : Database} {now : ℕ} {lease : Lease} {a : Option String}
    (h : LeaseInv db now) (hput : LeasePut db db' now lease a)
    (hunreleased : lease.releasedAt = none)
    (haddress : a.map Text.normalize = lease.allocatedEmail.map Text.normalize)
    (hkey : a.map Collation.key = lease.allocatedEmail.map Collation.key)
    (htrimmed : ∀ x ∈ lease.allocatedEmail, Text.Trimmed x.toList) : LeaseInv db' now := by
  have hmirror : (claimOf lease a).Mirrors lease := ⟨rfl, rfl, rfl, rfl, hkey⟩
  have hexclusive : ∀ l : Lease, l.exclusiveIn db' = l.exclusiveIn db := fun l =>
    exclusiveIn_congr fun k _ => hput.emails k
  refine ⟨?_, ?_, ?_, ?_⟩
  · intro l hl hactive
    rcases (hput.leases l).mp hl with ⟨hl, hne⟩ | rfl
    · obtain ⟨c, hc, hm⟩ := h.claim_of_lease l hl hactive
      have hsurvives : c.survives now lease := by
        refine ⟨?_, by rw [hm.lease]; exact hne⟩
        rintro ⟨-, hexpired⟩
        rw [isExpired_eq_not_liveAt, hm.live hactive] at hexpired
        cases hexpired
      exact ⟨c, (hput.claims c).mpr (Or.inl ⟨hc, hsurvives⟩), hm⟩
    · exact ⟨claimOf l a, (hput.claims _).mpr (Or.inr rfl), hmirror⟩
  · intro c hc hlive
    rcases (hput.claims c).mp hc with ⟨hc, hsurvives⟩ | rfl
    · obtain ⟨l, hl, hactive, hm⟩ := h.lease_of_claim c hc hlive
      have hne : l.id ≠ lease.id := by
        rw [← hm.lease]
        exact hsurvives.2
      exact ⟨l, (hput.leases l).mpr (Or.inl ⟨hl, hne⟩), hactive, hm⟩
    · refine ⟨lease, (hput.leases lease).mpr (Or.inr rfl), ?_, hmirror⟩
      unfold Lease.activeAt
      rw [hunreleased]
      exact hlive
  · intro l hl hactive
    rcases (hput.leases l).mp hl with ⟨hl, -⟩ | rfl
    · exact h.trimmed l hl hactive
    · exact htrimmed
  · intro l hl l' hl' hactive hactive' hex hex' hmailbox
    rcases (hput.leases l).mp hl with ⟨hl, hne⟩ | rfl <;>
      rcases (hput.leases l').mp hl' with ⟨hl', hne'⟩ | rfl
    · rw [hexclusive] at hex hex'
      exact h.exclusive l hl l' hl' hactive hactive' hex hex' hmailbox
    · exact absurd hmailbox (h.put_alone hput haddress hex' l hl hactive hne)
    · exact absurd hmailbox.symm (h.put_alone hput haddress hex l' hl' hactive' hne')
    · rfl

/-! ## Withdrawing leases -/

/-- Leases and claims only go, a claim exactly when its lease does, and time
only advances. -/
structure LeaseShrink (db db' : Database) (now now' : ℕ) : Prop where
  time : now ≤ now'
  leases : ∀ l ∈ db'.leases, l.activeAt now' = true → l ∈ db.leases
  claims : ∀ c ∈ db'.leaseClaims, c ∈ db.leaseClaims
  kept_claim : ∀ l ∈ db'.leases, l.activeAt now' = true → ∀ c ∈ db.leaseClaims,
    c.Mirrors l → c ∈ db'.leaseClaims
  kept_lease : ∀ c ∈ db'.leaseClaims, ∀ l ∈ db.leases, l.activeAt now = true →
    c.Mirrors l → l ∈ db'.leases
  emails : ∀ l ∈ db'.leases, ∀ k, l.mailboxId = some k →
    (db'.mailboxes.get? k).map Mailbox.primaryEmail =
      (db.mailboxes.get? k).map Mailbox.primaryEmail

omit [Platform] in
theorem Lease.activeAt_mono {l : Lease} {now now' : ℕ} (h : now ≤ now')
    (hactive : l.activeAt now' = true) : l.activeAt now = true := by
  unfold Lease.activeAt at hactive ⊢
  rw [Bool.and_eq_true, decide_eq_true_eq] at hactive ⊢
  exact ⟨hactive.1, by omega⟩

/-- **Shrink rule**: withdrawing leases with their claims keeps the invariant. -/
theorem LeaseInv.shrink {db db' : Database} {now now' : ℕ} (h : LeaseInv db now)
    (hs : LeaseShrink db db' now now') : LeaseInv db' now' := by
  have hback : ∀ l ∈ db'.leases, l.activeAt now' = true →
      l ∈ db.leases ∧ l.activeAt now = true := fun l hl hactive =>
    ⟨hs.leases l hl hactive, Lease.activeAt_mono hs.time hactive⟩
  refine ⟨?_, ?_, ?_, ?_⟩
  · intro l hl hactive
    obtain ⟨hl₀, hactive₀⟩ := hback l hl hactive
    obtain ⟨c, hc, hmirror⟩ := h.claim_of_lease l hl₀ hactive₀
    exact ⟨c, hs.kept_claim l hl hactive c hc hmirror, hmirror⟩
  · intro c hc hlive
    have hlive₀ : c.liveAt now = true := by
      unfold MailboxLeaseClaim.liveAt at hlive ⊢
      rw [decide_eq_true_eq] at hlive ⊢
      exact hs.time.trans_lt hlive
    obtain ⟨l, hl, hactive, hmirror⟩ := h.lease_of_claim c (hs.claims c hc) hlive₀
    refine ⟨l, hs.kept_lease c hc l hl hactive hmirror, ?_, hmirror⟩
    unfold Lease.activeAt at hactive ⊢
    rw [Bool.and_eq_true] at hactive ⊢
    refine ⟨hactive.1, ?_⟩
    rw [← hmirror.expiry]
    exact hlive
  · intro l hl hactive
    obtain ⟨hl₀, hactive₀⟩ := hback l hl hactive
    exact h.trimmed l hl₀ hactive₀
  · intro l hl l' hl' hactive hactive' hex hex' hmailbox
    obtain ⟨hl₀, hactive₀⟩ := hback l hl hactive
    obtain ⟨hl₀', hactive₀'⟩ := hback l' hl' hactive'
    rw [exclusiveIn_congr (hs.emails l hl)] at hex
    rw [exclusiveIn_congr (hs.emails l' hl')] at hex'
    exact h.exclusive l hl₀ l' hl₀' hactive₀ hactive₀' hex hex' hmailbox

theorem LeaseInv.advance {db : Database} {now now' : ℕ} (h : LeaseInv db now)
    (hle : now ≤ now') : LeaseInv db now' :=
  h.shrink ⟨hle, fun _ hl _ => hl, fun _ hc => hc, fun _ _ _ _ hc _ => hc,
    fun _ _ _ hl _ _ => hl, fun _ _ _ _ => rfl⟩

omit [Platform] in
theorem Lease.not_active_of_released {l : Lease} {now t : ℕ} (h : l.releasedAt = some t) :
    l.activeAt now = false := by
  unfold Lease.activeAt
  rw [h]
  rfl

theorem LeaseInv.release {db db' : Database} {now : ℕ} {lease : Lease} (h : LeaseInv db now)
    (hreleased : LeaseReleased db db' now lease) : LeaseInv db' now := by
  have hmem := hreleased.mem_leases
  have hclaim := hreleased.mem_claims
  refine h.shrink ⟨le_rfl, ?_, ?_, ?_, ?_, ?_⟩
  · intro l hl hactive
    rcases (hmem l).mp hl with ⟨hl, -⟩ | rfl
    · exact hl
    · rw [Lease.not_active_of_released rfl] at hactive
      cases hactive
  · intro c hc
    exact ((hclaim c).mp hc).1
  · intro l hl hactive c hc hmirror
    rcases (hmem l).mp hl with ⟨-, hne⟩ | rfl
    · exact (hclaim c).mpr ⟨hc, by rw [hmirror.lease]; exact hne⟩
    · rw [Lease.not_active_of_released rfl] at hactive
      cases hactive
  · intro c hc l hl _ hmirror
    have hne := ((hclaim c).mp hc).2
    rw [hmirror.lease] at hne
    exact (hmem l).mpr (Or.inl ⟨hl, hne⟩)
  · intro l _ k _
    rw [hreleased.mailboxes]

/-! ## The administrator -/

theorem mem_forceRelease {db : Database} {now : ℕ} {mailboxId : String} {l : Lease} :
    l ∈ (forceReleaseClaimsAndLeases db now mailboxId).leases ↔ ∃ r ∈ db.leases,
      l = if (decide (r.mailboxId = some mailboxId) && r.activeAt now) = true then
        { r with releasedAt := some now } else r := by
  unfold forceReleaseClaimsAndLeases
  rw [Table.mem_updateWhere]

theorem LeaseInv.forceRelease {db : Database} {now : ℕ} (mailboxId : String)
    (h : LeaseInv db now) : LeaseInv (forceReleaseClaimsAndLeases db now mailboxId) now := by
  have hclaim : ∀ c, c ∈ (forceReleaseClaimsAndLeases db now mailboxId).leaseClaims ↔
      c ∈ db.leaseClaims ∧ c.mailboxId ≠ some mailboxId := by
    intro c
    simp [forceReleaseClaimsAndLeases]
  -- an active lease that is left is an old one, on another mailbox
  have hmem : ∀ l ∈ (forceReleaseClaimsAndLeases db now mailboxId).leases,
      l.activeAt now = true → l ∈ db.leases ∧ l.mailboxId ≠ some mailboxId := by
    intro l hl hactive
    obtain ⟨r, hr, rfl⟩ := mem_forceRelease.mp hl
    by_cases hp : (decide (r.mailboxId = some mailboxId) && r.activeAt now) = true
    · rw [if_pos hp, Lease.not_active_of_released rfl] at hactive
      cases hactive
    · rw [if_neg hp] at hactive ⊢
      refine ⟨hr, fun hm => hp ?_⟩
      rw [Bool.and_eq_true, decide_eq_true_eq]
      exact ⟨hm, hactive⟩
  refine h.shrink ⟨le_rfl, ?_, ?_, ?_, ?_, ?_⟩
  · intro l hl hactive
    exact (hmem l hl hactive).1
  · intro c hc
    exact ((hclaim c).mp hc).1
  · intro l hl hactive c hc hmirror
    exact (hclaim c).mpr ⟨hc, by rw [hmirror.mailbox]; exact (hmem l hl hactive).2⟩
  · intro c hc l hl _ hmirror
    have hne := ((hclaim c).mp hc).2
    rw [hmirror.mailbox] at hne
    refine mem_forceRelease.mpr ⟨l, hl, (if_neg ?_).symm⟩
    rw [Bool.and_eq_true, decide_eq_true_eq]
    exact fun hp => hne hp.1
  · intro l _ k _
    rfl

theorem LeaseInv.forceReleaseAll {now : ℕ} (mailboxIds : List String) :
    ∀ {db : Database}, LeaseInv db now →
      LeaseInv (mailboxIds.foldl (fun db id => forceReleaseClaimsAndLeases db now id) db)
        now := by
  induction mailboxIds with
  | nil => exact id
  | cons mailboxId mailboxIds ih => exact fun h => ih (h.forceRelease mailboxId)

theorem LeaseInv.deleteMailboxes {db : Database} {now : ℕ} (mailboxIds : List String)
    (h : LeaseInv db now) : LeaseInv (db.deleteMailboxes mailboxIds) now := by
  have hclaim : ∀ c, c ∈ (db.deleteMailboxes mailboxIds).leaseClaims ↔
      c ∈ db.leaseClaims ∧ (c.mailboxId.any (mailboxIds.contains ·)) = false :=
    fun _ => Table.mem_deleteWhere
  have hlease : ∀ l, l ∈ (db.deleteMailboxes mailboxIds).leases ↔
      l ∈ db.leases ∧ (l.mailboxId.any (mailboxIds.contains ·)) = false :=
    fun _ => Table.mem_deleteWhere
  refine h.shrink ⟨le_rfl, ?_, ?_, ?_, ?_, ?_⟩
  · intro l hl _
    exact ((hlease l).mp hl).1
  · intro c hc
    exact ((hclaim c).mp hc).1
  · intro l hl _ c hc hmirror
    exact (hclaim c).mpr ⟨hc, by rw [hmirror.mailbox]; exact ((hlease l).mp hl).2⟩
  · intro c hc l hl _ hmirror
    have hkeep := ((hclaim c).mp hc).2
    rw [hmirror.mailbox] at hkeep
    exact (hlease l).mpr ⟨hl, hkeep⟩
  · intro l hl k hk
    -- the mailbox of a lease that is left is left
    have hkeep := ((hlease l).mp hl).2
    rw [hk, Option.any_some] at hkeep
    congr 1
    exact Table.get?_deleteWhere fun m _ hm => by rw [← hm] at hkeep; exact hkeep

theorem LeaseInv.deleteMailboxesByIds {db db' : Database} {now : ℕ}
    {mailboxIds : List String} {force : Bool} {result : AdminDeleteResult}
    (h : LeaseInv db now)
    (hok : deleteMailboxesByIds db now mailboxIds force = .ok (result, db')) :
    LeaseInv db' now := by
  unfold MailboxService.deleteMailboxesByIds at hok
  simp only at hok
  split at hok
  · cases hok
  · obtain ⟨-, rfl⟩ := Prod.mk.inj (Except.ok.inj hok)
    apply LeaseInv.deleteMailboxes
    split
    · exact h.forceReleaseAll _
    · exact h

end

end MailboxService
