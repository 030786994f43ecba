import MailboxService.Ascii
import MailboxService.Foundation.FirstRanked
import MailboxService.TokenService.AccessTokens
import Mathlib.Data.Prod.Lex
import Mathlib.Data.String.Basic

/-!
# The mailboxes that are kept alive

`list_mailbox_ids_due_for_refresh_token_keepalive`: the mailboxes whose refresh token
expires soon, as many as a batch takes. The expiry of a token is estimated. Rows from
before the estimate was stored are ordered by the last refresh instead, a lifetime
before their tokens expire.
-/

namespace MailboxService

open Foundation

/-- `timedelta(days=n)`. -/
def days (n : ℕ) : ℕ := seconds (n * 86400)

theorem days_add (n k : ℕ) : days (n + k) = days n + days k := by
  unfold days seconds
  rw [Nat.add_mul, Nat.add_mul]

namespace Mailbox

/-! ## Estimates -/

/-- `coalesce(access_token_refreshed_at, created_at)`. -/
def lastRefresh (m : Mailbox) : ℕ := m.accessTokenRefreshedAt.getD m.createdAt

/-- When the refresh token is taken to expire. -/
def estimatedExpiry (lifetimeDays : ℕ) (m : Mailbox) : ℕ :=
  m.refreshTokenExpiresAt.getD (m.lastRefresh + days lifetimeDays)

/-- `coalesce(refresh_token_expires_at, last_refresh)`, which the batch is ordered by. -/
def expiryOrder (m : Mailbox) : ℕ := m.refreshTokenExpiresAt.getD m.lastRefresh

/-- `is_due_by_refresh_token_expiry`. -/
def dueByRefreshTokenExpiry (dueExpiryBefore : ℕ) (m : Mailbox) : Bool :=
  match m.refreshTokenExpiresAt with
  | some expiresAt => expiresAt ≤ dueExpiryBefore
  | none => false

/-- `is_due_by_legacy_last_refresh`. -/
def dueByLegacyLastRefresh (legacyLastRefreshDueBefore : ℤ) (m : Mailbox) : Bool :=
  m.refreshTokenExpiresAt.isNone && decide ((m.lastRefresh : ℤ) ≤ legacyLastRefreshDueBefore)

end Mailbox

/-- Two due tests that look at different columns are one test of the estimate. -/
theorem due_iff (now lifetimeDays leadDays : ℕ) (m : Mailbox) :
    (m.dueByRefreshTokenExpiry (now + days (min leadDays lifetimeDays)) ||
      m.dueByLegacyLastRefresh
        ((now : ℤ) - days (lifetimeDays - min leadDays lifetimeDays))) = true ↔
      m.estimatedExpiry lifetimeDays ≤ now + days (min leadDays lifetimeDays) := by
  unfold Mailbox.dueByRefreshTokenExpiry Mailbox.dueByLegacyLastRefresh Mailbox.estimatedExpiry
  cases m.refreshTokenExpiresAt with
  | some expiresAt => simp
  | none =>
      have hlead : min leadDays lifetimeDays ≤ lifetimeDays := min_le_right _ _
      generalize min leadDays lifetimeDays = lead at hlead
      have hdays : days lifetimeDays = days (lifetimeDays - lead) + days lead := by
        rw [← days_add, Nat.sub_add_cancel hlead]
      rw [Bool.false_or, Option.isNone_none, Bool.true_and, decide_eq_true_iff, Option.getD_none,
        hdays]
      omega

section

variable [Platform]

/-! ## The batch -/

namespace Database

def keepaliveCandidates (db : Database) (now lifetimeDays leadDays : ℕ) : List Mailbox :=
  let leadDays := min leadDays lifetimeDays
  db.mailboxes.select fun m =>
    m.status = .active && sqlEq m.providerType defaultProviderType && m.clientId.isSome &&
      m.refreshTokenCiphertext.isSome &&
      !db.leases.any (fun l => l.mailboxId = some m.id && l.activeAt now) &&
      (m.dueByRefreshTokenExpiry (now + days leadDays) ||
        m.dueByLegacyLastRefresh ((now : ℤ) - days (lifetimeDays - leadDays)))

end Database

/-- The order of a batch: soonest first, and then by address. -/
def Mailbox.batchRank (m : Mailbox) : ℕ ×ₗ String :=
  toLex (m.expiryOrder, Collation.key m.primaryEmail)

/-- `list_mailbox_ids_due_for_refresh_token_keepalive`. -/
def Database.listDueForKeepalive (db : Database) (now lifetimeDays leadDays batchSize : ℕ) :
    List String :=
  (firstRanked Mailbox.batchRank batchSize
    (db.keepaliveCandidates now lifetimeDays leadDays)).map Mailbox.id

/-! ## What the batch promises -/

structure KeepaliveDue (db : Database) (now lifetimeDays leadDays : ℕ) (m : Mailbox) :
    Prop where
  active : m.status = .active
  microsoft : sqlEq m.providerType defaultProviderType = true
  clientId : m.clientId ≠ none
  refreshToken : m.refreshTokenCiphertext ≠ none
  unleased : ∀ l ∈ db.leases, l.mailboxId = some m.id → l.activeAt now = false
  expiry : m.estimatedExpiry lifetimeDays ≤ now + days (min leadDays lifetimeDays)

/-- **The most urgent mailboxes**: a batch holds due mailboxes only, and none that is
left out expires before one that is taken. -/
structure PicksMostUrgent (db : Database) (now lifetimeDays leadDays : ℕ)
    (batch : List String) : Prop where
  due : ∀ id ∈ batch, ∃ m ∈ db.mailboxes, m.id = id ∧ KeepaliveDue db now lifetimeDays leadDays m
  urgent : ∀ m ∈ db.mailboxes, m.id ∈ batch → ∀ m' ∈ db.mailboxes,
    KeepaliveDue db now lifetimeDays leadDays m' → m'.id ∉ batch →
      m.estimatedExpiry lifetimeDays ≤ m'.estimatedExpiry lifetimeDays

variable {db : Database} {now lifetimeDays leadDays batchSize : ℕ} {m m' : Mailbox}

theorem mem_keepaliveCandidates :
    m ∈ db.keepaliveCandidates now lifetimeDays leadDays ↔
      m ∈ db.mailboxes ∧ KeepaliveDue db now lifetimeDays leadDays m := by
  unfold Database.keepaliveCandidates
  rw [Table.mem_select]
  refine and_congr_right fun _ => ?_
  have hdue := due_iff now lifetimeDays leadDays m
  simp only [Bool.and_eq_true, decide_eq_true_eq, Bool.not_eq_true', Table.any_eq_false, hdue]
  constructor
  · rintro ⟨⟨⟨⟨⟨hactive, hmicrosoft⟩, hclient⟩, htoken⟩, hleases⟩, htime⟩
    refine ⟨hactive, hmicrosoft, Option.isSome_iff_ne_none.mp hclient,
      Option.isSome_iff_ne_none.mp htoken, ?_, htime⟩
    intro l hl hmailbox
    have hlease := hleases l hl
    rw [decide_eq_true hmailbox, Bool.true_and] at hlease
    exact hlease
  · intro h
    refine ⟨⟨⟨⟨⟨h.active, h.microsoft⟩, Option.isSome_iff_ne_none.mpr h.clientId⟩,
      Option.isSome_iff_ne_none.mpr h.refreshToken⟩, ?_⟩, h.expiry⟩
    intro l hl
    by_cases hmailbox : l.mailboxId = some m.id
    · rw [h.unleased l hl hmailbox, Bool.and_false]
    · rw [decide_eq_false hmailbox, Bool.false_and]

/-- No two candidates have the same place in the order. -/
theorem eq_of_batchRank (hm : m ∈ db.keepaliveCandidates now lifetimeDays leadDays)
    (hm' : m' ∈ db.keepaliveCandidates now lifetimeDays leadDays)
    (h : m.batchRank = m'.batchRank) : m = m' := by
  have hemail : Collation.key m.primaryEmail = Collation.key m'.primaryEmail :=
    congrArg (fun rank => (ofLex rank).2) h
  exact Table.eq_of_clash (mem_keepaliveCandidates.mp hm).1 (mem_keepaliveCandidates.mp hm').1
    (decide_eq_true hemail)

theorem nodup_keepaliveCandidates (db : Database) (now lifetimeDays leadDays : ℕ) :
    (db.keepaliveCandidates now lifetimeDays leadDays).Nodup :=
  db.mailboxes.nodup_rows.filter _

theorem mem_listDueForKeepalive (hm : m ∈ db.mailboxes) :
    m.id ∈ db.listDueForKeepalive now lifetimeDays leadDays batchSize ↔
      m ∈ firstRanked Mailbox.batchRank batchSize
        (db.keepaliveCandidates now lifetimeDays leadDays) := by
  unfold Database.listDueForKeepalive
  rw [List.mem_map]
  constructor
  · rintro ⟨m', hfirst, hid⟩
    have hmem' := (mem_keepaliveCandidates.mp (mem_of_mem_firstRanked hfirst)).1
    rw [← Table.eq_of_key hmem' hm hid]
    exact hfirst
  · intro hfirst
    exact ⟨m, hfirst, rfl⟩

omit [Platform] in
theorem legacy_of_orderedEarly {lifetime : ℕ} (horder : m.expiryOrder ≤ m'.expiryOrder)
    (hexpiry : m'.refreshTokenExpiresAt.getD (m'.lastRefresh + lifetime) <
      m.refreshTokenExpiresAt.getD (m.lastRefresh + lifetime)) :
    m.refreshTokenExpiresAt = none ∧ m'.refreshTokenExpiresAt ≠ none := by
  unfold Mailbox.expiryOrder at horder
  cases hm : m.refreshTokenExpiresAt with
  | none =>
      refine ⟨rfl, fun hm' => ?_⟩
      simp only [hm, hm', Option.getD_none] at horder hexpiry
      omega
  | some expiresAt =>
      cases hm' : m'.refreshTokenExpiresAt with
      | none =>
          simp only [hm, hm', Option.getD_none, Option.getD_some] at horder hexpiry
          omega
      | some expiresAt' =>
          simp only [hm, hm', Option.getD_some] at horder hexpiry
          omega

/-- Of two candidates that the order puts the wrong way round, the one ahead is from
before the estimate was stored and the other is not. -/
theorem legacy_of_misordered (hrank : m.batchRank < m'.batchRank)
    (hexpiry : m'.estimatedExpiry lifetimeDays < m.estimatedExpiry lifetimeDays) :
    m.refreshTokenExpiresAt = none ∧ m'.refreshTokenExpiresAt ≠ none := by
  have horder : m.expiryOrder ≤ m'.expiryOrder := Prod.Lex.monotone_fst _ _ hrank.le
  exact legacy_of_orderedEarly horder hexpiry

/-- How many candidates are taken before a mailbox. -/
def Database.aheadInBatch (db : Database) (now lifetimeDays leadDays : ℕ) (m : Mailbox) : ℕ :=
  ahead Mailbox.batchRank (db.keepaliveCandidates now lifetimeDays leadDays) m

/-- No due row without a stored estimate is within the batch while a due row with an
earlier one, which the order puts behind it, is not. -/
def BatchKeepsUrgent (db : Database) (now lifetimeDays leadDays batchSize : ℕ) : Prop :=
  ∀ m ∈ db.mailboxes, KeepaliveDue db now lifetimeDays leadDays m →
    m.refreshTokenExpiresAt = none →
    ∀ m' ∈ db.mailboxes, KeepaliveDue db now lifetimeDays leadDays m' →
      ∀ expiresAt, m'.refreshTokenExpiresAt = some expiresAt →
        m.batchRank < m'.batchRank → expiresAt < m.lastRefresh + days lifetimeDays →
          db.aheadInBatch now lifetimeDays leadDays m < batchSize →
            db.aheadInBatch now lifetimeDays leadDays m' < batchSize

/-- **When the batch picks the most urgent mailboxes**: exactly if its limit does not
fall between a row that is ordered by its last refresh and one that expires earlier. -/
theorem picksMostUrgent_iff (db : Database) (now lifetimeDays leadDays batchSize : ℕ) :
    PicksMostUrgent db now lifetimeDays leadDays
        (db.listDueForKeepalive now lifetimeDays leadDays batchSize) ↔
      BatchKeepsUrgent db now lifetimeDays leadDays batchSize := by
  have hrespects := firstRanked_respects_iff (n := batchSize)
    (nodup_keepaliveCandidates db now lifetimeDays leadDays)
    (fun m hm m' hm' => eq_of_batchRank hm hm') (Mailbox.estimatedExpiry lifetimeDays)
  constructor
  · intro h
    have hfirst := hrespects.mp fun m hm m' hm' hleft => by
      have hrow := mem_keepaliveCandidates.mp (mem_of_mem_firstRanked hm)
      obtain ⟨hrow', hdue'⟩ := mem_keepaliveCandidates.mp hm'
      refine h.urgent m hrow.1 ((mem_listDueForKeepalive hrow.1).mpr hm) m' hrow' hdue' ?_
      exact fun hmem => hleft ((mem_listDueForKeepalive hrow').mp hmem)
    intro m hm hdue hlegacy m' hm' hdue' expiresAt hstored hrank hearlier
    refine hfirst m (mem_keepaliveCandidates.mpr ⟨hm, hdue⟩) m'
      (mem_keepaliveCandidates.mpr ⟨hm', hdue'⟩) hrank ?_
    unfold Mailbox.estimatedExpiry
    rw [hlegacy, hstored, Option.getD_none, Option.getD_some]
    exact hearlier
  · intro h
    have hfirst := hrespects.mpr fun m hm m' hm' hrank hexpiry => by
      obtain ⟨hrow, hdue⟩ := mem_keepaliveCandidates.mp hm
      obtain ⟨hrow', hdue'⟩ := mem_keepaliveCandidates.mp hm'
      obtain ⟨hlegacy, hstored⟩ := legacy_of_misordered hrank hexpiry
      obtain ⟨expiresAt, hstored⟩ := Option.ne_none_iff_exists'.mp hstored
      unfold Mailbox.estimatedExpiry at hexpiry
      rw [hlegacy, hstored, Option.getD_none, Option.getD_some] at hexpiry
      exact h m hrow hdue hlegacy m' hrow' hdue' expiresAt hstored hrank hexpiry
    constructor
    · intro id hid
      obtain ⟨m, hm, rfl⟩ := List.mem_map.mp hid
      obtain ⟨hrow, hdue⟩ := mem_keepaliveCandidates.mp (mem_of_mem_firstRanked hm)
      exact ⟨m, hrow, rfl, hdue⟩
    · intro m hm hbatch m' hm' hdue' hleft
      exact hfirst m ((mem_listDueForKeepalive hm).mp hbatch) m'
        (mem_keepaliveCandidates.mpr ⟨hm', hdue'⟩)
        fun hmem => hleft ((mem_listDueForKeepalive hm').mpr hmem)

end

/-! ## A legacy row ahead of an expired one -/

section Sample

attribute [local instance] asciiPlatform

/-- A mailbox from before the estimate was stored; its token expires in five days. -/
def legacyMailbox : Mailbox :=
  { id := "m-1", primaryEmail := "legacy@outlook.com", clientId := some "c"
    refreshTokenCiphertext := some "t", createdAt := days 15 }

def expiredMailbox : Mailbox :=
  { id := "m-2", primaryEmail := "expired@outlook.com", clientId := some "c"
    refreshTokenCiphertext := some "t", refreshTokenExpiresAt := some (days 99) }

theorem keepaliveMailboxes_distinct :
    [legacyMailbox, expiredMailbox].Pairwise mailboxSchema.Distinct := by
  decide +kernel

def keepaliveDatabase : Database where
  mailboxes := ⟨[legacyMailbox, expiredMailbox], keepaliveMailboxes_distinct⟩

/-- **A batch of one takes the mailbox that expires later.** -/
theorem batch_misses_expired :
    ¬ PicksMostUrgent keepaliveDatabase (days 100) 90 7
      (keepaliveDatabase.listDueForKeepalive (days 100) 90 7 1) := by
  intro h
  have hdue : KeepaliveDue keepaliveDatabase (days 100) 90 7 expiredMailbox :=
    { active := rfl
      microsoft := by decide +kernel
      clientId := Option.some_ne_none _
      refreshToken := Option.some_ne_none _
      unleased := fun l hl => absurd hl (Table.not_mem_empty l)
      expiry := by decide +kernel }
  have hurgent := h.urgent legacyMailbox (List.mem_cons_self ..) (by decide +kernel)
    expiredMailbox (List.mem_cons_of_mem _ (List.mem_cons_self ..)) hdue (by decide +kernel)
  exact absurd hurgent (by decide +kernel)

end Sample

end MailboxService
