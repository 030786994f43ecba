import MailboxService.ExportRoundTrip
import MailboxService.MailboxDeletion

/-!
# What an import does to the mailboxes

Each line of `import_mailboxes` creates a mailbox, replaces the credentials of
one, or leaves everything as it is. A line finds its mailbox by the address as
the database compares it, but the addresses of one batch are compared as texts,
so that two spellings of one address pass the check for duplicates, and the
mailbox is replaced twice.

`returned_accounted_iff` says that nothing else is amiss in an import that returns.
-/

namespace MailboxService

open Foundation

section

variable [ImportPlatform]

/-! ## What may change -/

def Database.leasesOn (db : Database) (mailboxId : String) : List Lease :=
  db.leases.select fun l => l.mailboxId = some mailboxId

def Database.claimsOn (db : Database) (mailboxId : String) : List MailboxLeaseClaim :=
  db.leaseClaims.select fun c => c.mailboxId = some mailboxId

structure Untouched (mailboxId : String) (db db' : Database) : Prop where
  row : db'.mailboxes.get? mailboxId = db.mailboxes.get? mailboxId
  leases : db'.leasesOn mailboxId = db.leasesOn mailboxId
  claims : db'.claimsOn mailboxId = db.claimsOn mailboxId

structure Database.Freed (db : Database) (now : ℕ) (mailboxId : String) : Prop where
  leases : ∀ l ∈ db.leasesOn mailboxId, l.activeAt now = false
  claims : db.claimsOn mailboxId = []

/-- The row has nothing that came from other credentials. -/
structure Mailbox.Cleared (m : Mailbox) : Prop where
  accessTokenCiphertext : m.accessTokenCiphertext = none
  accessTokenExpiresAt : m.accessTokenExpiresAt = none
  accessTokenRefreshedAt : m.accessTokenRefreshedAt = none
  accessTokenSourceVersion : m.accessTokenSourceVersion = none
  scope : m.scope = none
  capability : m.capability = none

/-- The mailbox is in its next version, and cleared. -/
def Database.ReplacedOnce (db' : Database) (m : Mailbox) : Prop :=
  ∃ m', db'.mailboxes.get? m.id = some m' ∧ m'.tokenVersion = m.tokenVersion + 1 ∧ m'.Cleared

structure Counted (p p' : ImportProgress) (created updated skipped failed : ℕ) : Prop where
  created : p'.created = p.created + created
  updated : p'.updated = p.updated + updated
  skipped : p'.skipped = p.skipped + skipped
  failed : p'.errors.length = p.errors.length + failed

/-- What holds of every line: it counts once, a line that is skipped or fails
changes nothing, and one that creates or replaces a mailbox changes no other. -/
structure LineAccounted (now : ℕ) (request : MailboxImportRequest) (p p' : ImportProgress) :
    Prop where
  counts : Counted p p' 1 0 0 0 ∨ Counted p p' 0 1 0 0 ∨ Counted p p' 0 0 1 0 ∨
    Counted p p' 0 0 0 1
  rejected : Counted p p' 0 0 1 0 ∨ Counted p p' 0 0 0 1 → p'.db = p.db
  created : Counted p p' 1 0 0 0 → ∃ new, p.db.mailboxes.get? new = none ∧
    ∀ id, id ≠ new → Untouched id p.db p'.db
  updated : Counted p p' 0 1 0 0 → ∃ m ∈ p.db.mailboxes, p'.db.ReplacedOnce m ∧
    ∀ id, id ≠ m.id → Untouched id p.db p'.db
  guarded : ∀ m ∈ p.db.mailboxes, p.db.Claimed now m.id → p'.db.mailboxes.get? m.id ≠ some m →
    request.onConflict = .replaceToken ∧ request.forceReleaseActiveLeases = true ∧
      p'.db.Freed now m.id

/-- What is asked of an import, of its lines and as a whole. -/
structure ImportAccounted (settings : TokenSettings) (now : ℕ) (request : MailboxImportRequest)
    (draw : ℕ → ImportDraw) (db : Database) (response : MailboxImportResponse)
    (db' : Database) : Prop where
  lines : ∀ before line after p p', importLines request.content = before ++ line :: after →
    before.foldlM (importLine settings now request draw) { db := db } = some p →
    importLine settings now request draw p line = some p' → LineAccounted now request p p'
  counted : importLines request.content ≠ [] →
    response.created + response.updated + response.skipped + response.failed =
      (importLines request.content).length
  guarded : ∀ m ∈ db.mailboxes, db.Claimed now m.id → db'.mailboxes.get? m.id ≠ some m →
    request.onConflict = .replaceToken ∧ request.forceReleaseActiveLeases = true ∧
      db'.Freed now m.id
  replaced : ∀ m ∈ db.mailboxes, db'.mailboxes.get? m.id ≠ some m → db'.ReplacedOnce m
  unnamed : ∀ m ∈ db.mailboxes,
    (∀ c, .ok c ∈ parsedLines request.content → sqlEq m.primaryEmail c.primaryEmail = false) →
    Untouched m.id db db'

/-- The import replaces the credentials of the mailbox where a line names it. -/
structure MailboxImportRequest.Replaces (request : MailboxImportRequest) (now : ℕ)
    (db : Database) (m : Mailbox) : Prop where
  onConflict : request.onConflict = .replaceToken
  microsoft : m.providerType = "" ∨ m.providerType = defaultProviderType
  released : request.forceReleaseActiveLeases = true ∨ ¬ db.Claimed now m.id

/-- Two spellings of its address name a mailbox that the import replaces. -/
def MailboxImportRequest.NamesTwice (request : MailboxImportRequest) (now : ℕ)
    (db : Database) : Prop :=
  ∃ m ∈ db.mailboxes, request.Replaces now db m ∧ ∃ c c' : MailboxCredentials,
    .ok c ∈ parsedLines request.content ∧ .ok c' ∈ parsedLines request.content ∧
    c.primaryEmail ≠ c'.primaryEmail ∧ sqlEq m.primaryEmail c.primaryEmail = true ∧
    sqlEq m.primaryEmail c'.primaryEmail = true

variable {settings : TokenSettings} {now : ℕ} {request : MailboxImportRequest}
  {draw : ℕ → ImportDraw} {db db' : Database} {p p' : ImportProgress} {m existing : Mailbox}
  {c : MailboxCredentials} {id : String}

/-! ## The pieces of a step -/

theorem Untouched.refl (db : Database) : Untouched id db db := ⟨rfl, rfl, rfl⟩

theorem Untouched.trans {db'' : Database} (h : Untouched id db db')
    (h' : Untouched id db' db'') : Untouched id db db'' :=
  ⟨h'.row.trans h.row, h'.leases.trans h.leases, h'.claims.trans h.claims⟩

theorem Untouched.unchanged (h : Untouched m.id db db') (hm : m ∈ db.mailboxes) :
    db'.mailboxes.get? m.id = some m :=
  h.row.trans (Table.get?_eq_some.mpr ⟨hm, rfl⟩)

theorem id_ne_of_get?_none (hm : m ∈ db.mailboxes) (hid : db.mailboxes.get? id = none) :
    m.id ≠ id :=
  Table.get?_eq_none.mp hid m hm

theorem Untouched.freed (h : Untouched id db db') (hfreed : db.Freed now id) :
    db'.Freed now id := by
  constructor
  · rw [h.leases]
    exact hfreed.leases
  · rw [h.claims]
    exact hfreed.claims

theorem claimed_iff : db.Claimed now id ↔ ∃ c ∈ db.claimsOn id, c.liveAt now = true := by
  unfold Database.Claimed Database.claimsOn
  refine exists_congr fun c => ?_
  rw [Table.mem_select, decide_eq_true_eq, and_assoc]

theorem claimed_congr (h : db'.claimsOn id = db.claimsOn id) :
    db'.Claimed now id ↔ db.Claimed now id := by
  rw [claimed_iff, claimed_iff, h]

theorem unclaimed_iff : db.activeClaimMailboxIds now [id] = [] ↔ ¬ db.Claimed now id := by
  rw [List.eq_nil_iff_forall_not_mem]
  constructor
  · intro h hclaimed
    exact h id (mem_activeClaimMailboxIds.mpr ⟨List.mem_singleton_self id, hclaimed⟩)
  · intro h id' hid'
    obtain ⟨hmem, hclaimed⟩ := mem_activeClaimMailboxIds.mp hid'
    rw [List.mem_singleton.mp hmem] at hclaimed
    exact h hclaimed

theorem forceRelease_untouched {mailboxId : String} (hid : id ≠ mailboxId) :
    Untouched id db (forceReleaseClaimsAndLeases db now mailboxId) := by
  have hother : ∀ owner : Option String, owner = some mailboxId →
      decide (owner = some id) = false := by
    rintro _ rfl
    exact decide_eq_false fun heq => hid (Option.some.inj heq).symm
  unfold forceReleaseClaimsAndLeases
  constructor
  · rfl
  · unfold Database.leasesOn
    rw [Table.select_updateWhere]
    intro l hl
    rw [Bool.and_eq_true, decide_eq_true_eq] at hl
    exact ⟨hother _ hl.1, hother _ hl.1⟩
  · unfold Database.claimsOn
    rw [Table.select_deleteWhere]
    intro c hc
    exact hother _ (of_decide_eq_true hc)

theorem forceRelease_freed : (forceReleaseClaimsAndLeases db now id).Freed now id := by
  unfold forceReleaseClaimsAndLeases
  constructor
  · intro l hl
    obtain ⟨hmem, hmailbox⟩ := Table.mem_select.mp hl
    rw [Table.mem_updateWhere] at hmem
    obtain ⟨l₀, -, rfl⟩ := hmem
    split
    · rfl
    · rename_i hnot
      rw [if_neg hnot] at hmailbox
      simpa [of_decide_eq_true hmailbox] using hnot
  · apply List.eq_nil_iff_forall_not_mem.mpr
    intro c hc
    obtain ⟨hmem, hmailbox⟩ := Table.mem_select.mp hc
    have hkept := (Table.mem_deleteWhere.mp hmem).2
    rw [hmailbox] at hkept
    cases hkept

/-- The mailbox that a line names is the one with its address. -/
theorem mailboxByEmail_eq_some {email : String} :
    db.mailboxByEmail email = some m ↔
      m ∈ db.mailboxes ∧ sqlEq m.primaryEmail email = true := by
  constructor
  · intro h
    exact Table.mem_select.mp (List.mem_of_mem_head? h)
  · rintro ⟨hm, hemail⟩
    cases hfound : db.mailboxByEmail email with
    | none =>
        have hselected : m ∈ db.mailboxes.select fun m => sqlEq m.primaryEmail email :=
          Table.mem_select.mpr ⟨hm, hemail⟩
        rw [List.head?_eq_none_iff.mp hfound] at hselected
        cases hselected
    | some m' =>
        obtain ⟨hm', hemail'⟩ := Table.mem_select.mp (List.mem_of_mem_head? hfound)
        have hclash : mailboxSchema.clash m' m = true := by
          apply decide_eq_true
          exact (of_decide_eq_true hemail').trans (of_decide_eq_true hemail).symm
        rw [Table.eq_of_clash hm' hm hclash]

/-- A replacement changes one row, and frees the mailbox if it was claimed. -/
structure ReplacesRow (now : ℕ) (existing : Mailbox) (db db' : Database) : Prop where
  row : ∃ m', db'.mailboxes.get? existing.id = some m' ∧
    m'.primaryEmail = existing.primaryEmail ∧ m'.providerType = existing.providerType ∧
    m'.tokenVersion = existing.tokenVersion + 1 ∧ m'.Cleared
  others : ∀ id, id ≠ existing.id → Untouched id db db'
  freed : db.Claimed now existing.id ∨ db.Freed now existing.id → db'.Freed now existing.id
  unclaimed : ¬ db.Claimed now existing.id → db'.claimsOn existing.id = db.claimsOn existing.id

omit [ImportPlatform] in
theorem writeImport_cleared (nonce : ℕ) (item : MailboxImportItem) (m : Mailbox) :
    (settings.writeImport now nonce item m m).Cleared where
  accessTokenCiphertext := flushColumn_current _ _
  accessTokenExpiresAt := flushColumn_current _ _
  accessTokenRefreshedAt := flushColumn_current _ _
  accessTokenSourceVersion := flushColumn_current _ _
  scope := flushColumn_current _ _
  capability := flushColumn_current _ _

theorem replacesRow_write {released : Database} {nonce : ℕ} {item : MailboxImportItem}
    (hexisting : db.mailboxes.get? existing.id = some existing)
    (hrows : released.mailboxes = db.mailboxes)
    (hreleased : db.Claimed now existing.id ∧
        released = forceReleaseClaimsAndLeases db now existing.id ∨
      ¬ db.Claimed now existing.id ∧ released = db) :
    ReplacesRow now existing db
      (released.writeMailbox existing.id (assignImported settings now nonce item existing)) := by
  have hget : released.mailboxes.get? existing.id = some existing := by rw [hrows, hexisting]
  constructor
  · refine ⟨_, updateMailbox_row hget, ?_⟩
    rw [if_pos ⟨rfl, rfl⟩]
    exact ⟨rfl, rfl, rfl, writeImport_cleared nonce item existing⟩
  · intro id hid
    have hwrite : Untouched id released (released.writeMailbox existing.id
        (assignImported settings now nonce item existing)) :=
      ⟨updateMailbox_get?_ne hid, rfl, rfl⟩
    rcases hreleased with ⟨-, rfl⟩ | ⟨-, rfl⟩
    · exact (forceRelease_untouched hid).trans hwrite
    · exact hwrite
  · intro hfreed
    have hfree : released.Freed now existing.id := by
      rcases hreleased with ⟨-, rfl⟩ | ⟨hnot, rfl⟩
      · exact forceRelease_freed
      · exact hfreed.resolve_left hnot
    exact ⟨hfree.leases, hfree.claims⟩
  · intro hnot
    rcases hreleased with ⟨hclaimed, -⟩ | ⟨-, rfl⟩
    · exact absurd hclaimed hnot
    · rfl

/-- A new row for a line, and nothing else. -/
structure CreatesRow (drawn : String) (c : MailboxCredentials) (db db' : Database) : Prop where
  row : ∃ m', db'.mailboxes.get? drawn = some m' ∧ m'.primaryEmail = c.primaryEmail ∧
    m'.providerType = defaultProviderType
  others : ∀ id, id ≠ drawn → Untouched id db db'
  claims : db'.leaseClaims = db.leaseClaims

/-! ## One line -/

/-- What a line does that is read and names no mailbox of an earlier line. -/
inductive LineEffect (now : ℕ) (request : MailboxImportRequest) (drawn : String)
    (c : MailboxCredentials) (p p' : ImportProgress) : Prop
  | created (hnew : p.db.mailboxByEmail c.primaryEmail = none)
      (hcount : Counted p p' 1 0 0 0) (hdrawn : p.db.mailboxes.get? drawn = none)
      (hrow : CreatesRow drawn c p.db p'.db)
  | kept (existing : Mailbox) (hexisting : p.db.mailboxByEmail c.primaryEmail = some existing)
      (hnot : ¬ request.Replaces now p.db existing)
      (hcount : Counted p p' 0 0 1 0 ∨ Counted p p' 0 0 0 1) (hdb : p'.db = p.db)
  | replaced (existing : Mailbox)
      (hexisting : p.db.mailboxByEmail c.primaryEmail = some existing)
      (hreplaces : request.Replaces now p.db existing)
      (hcount : Counted p p' 0 1 0 0) (hrow : ReplacesRow now existing p.db p'.db)

theorem counted_fail (p : ImportProgress) (lineNumber : ℕ) (message : String) :
    Counted p (p.fail lineNumber message) 0 0 0 1 := by
  refine ⟨rfl, rfl, rfl, ?_⟩
  unfold ImportProgress.fail
  rw [List.length_append]
  rfl

theorem createsRow_insert {mailboxes : Table mailboxSchema} {draw : ImportDraw}
    (h : db.mailboxes.insert? (settings.importedMailbox now draw c) = some mailboxes) :
    db.mailboxes.get? draw.mailboxId = none ∧
      CreatesRow draw.mailboxId c db { db with mailboxes := mailboxes } := by
  constructor
  · rw [Table.get?_eq_none]
    exact fun q hq => ((Table.insert?_eq_some h).1 q hq).1
  · refine ⟨⟨_, (Table.get?_insert? h).trans (if_pos rfl), rfl, rfl⟩, ?_, rfl⟩
    intro id hid
    exact ⟨(Table.get?_insert? h).trans (if_neg (Ne.symm hid)), rfl, rfl⟩

theorem storeImported_effect {draw : ImportDraw} {lineNumber : ℕ}
    (h : storeImported settings now request draw lineNumber c p = some p') :
    p'.seenPrimaryEmails = p.seenPrimaryEmails ∧
      LineEffect now request draw.mailboxId c p p' := by
  unfold storeImported at h
  dsimp only at h
  split at h
  · rename_i hnew
    obtain ⟨-, h⟩ := Option.ite_none_right_eq_some.mp h
    obtain ⟨mailboxes, hinsert, rfl⟩ := Option.map_eq_some_iff.mp h
    obtain ⟨hdrawn, hrow⟩ := createsRow_insert hinsert
    exact ⟨rfl, .created hnew ⟨rfl, rfl, rfl, rfl⟩ hdrawn hrow⟩
  · rename_i existing hexisting
    have hget := mailboxByEmail_get? hexisting
    split at h
    · rename_i hother
      cases h
      -- a mailbox of another provider
      refine ⟨rfl, .kept existing hexisting ?_ (Or.inr (counted_fail ..)) rfl⟩
      intro hreplaces
      rcases hreplaces.microsoft with hempty | hmicrosoft
      · exact hother.1 hempty
      · exact hother.2 hmicrosoft
    rename_i hmicrosoft
    rw [not_and_or, not_not, not_not] at hmicrosoft
    split at h
    · rename_i hskip
      cases h
      refine ⟨rfl, .kept existing hexisting ?_ (Or.inl ⟨rfl, rfl, rfl, rfl⟩) rfl⟩
      intro hreplaces
      cases hskip.symm.trans hreplaces.onConflict
    · rename_i herror
      cases h
      refine ⟨rfl, .kept existing hexisting ?_ (Or.inr (counted_fail ..)) rfl⟩
      intro hreplaces
      cases herror.symm.trans hreplaces.onConflict
    rename_i hconflict
    split at h
    · rename_i hfree
      -- nobody has the mailbox
      obtain ⟨-, rfl⟩ := ImportProgress.replace_eq_some.mp h
      have hunclaimed := unclaimed_iff.mp hfree
      exact ⟨rfl, .replaced existing hexisting ⟨hconflict, hmicrosoft, Or.inr hunclaimed⟩
        ⟨rfl, rfl, rfl, rfl⟩ (replacesRow_write hget rfl (Or.inr ⟨hunclaimed, rfl⟩))⟩
    rename_i hbusy
    have hclaimed : p.db.Claimed now existing.id := by
      rw [unclaimed_iff, not_not] at hbusy
      exact hbusy
    split at h
    · rename_i hforce
      -- its leases are released first
      obtain ⟨-, rfl⟩ := ImportProgress.replace_eq_some.mp h
      exact ⟨rfl, .replaced existing hexisting ⟨hconflict, hmicrosoft, Or.inl hforce⟩
        ⟨rfl, rfl, rfl, rfl⟩ (replacesRow_write hget rfl (Or.inl ⟨hclaimed, rfl⟩))⟩
    · rename_i hforce
      cases h
      refine ⟨rfl, .kept existing hexisting ?_ (Or.inr (counted_fail ..)) rfl⟩
      intro hreplaces
      exact hreplaces.released.elim hforce fun hnot => hnot hclaimed

/-- **Step lemma.** A line fails, or is read, is new in its batch and has its effect. -/
theorem importLine_cases {line : ℕ × String}
    (h : importLine settings now request draw p line = some p') :
    (p'.seenPrimaryEmails = p.seenPrimaryEmails ∧ Counted p p' 0 0 0 1 ∧ p'.db = p.db ∧
      ∀ c, parseMailboxImportLine line.1 line.2 = .ok c →
        c.primaryEmail ∈ p.seenPrimaryEmails) ∨
    ∃ c, parseMailboxImportLine line.1 line.2 = .ok c ∧
      c.primaryEmail ∉ p.seenPrimaryEmails ∧
      p'.seenPrimaryEmails = c.primaryEmail :: p.seenPrimaryEmails ∧
      LineEffect now request (draw line.1).mailboxId c p p' := by
  unfold importLine at h
  split at h
  · rename_i e hparsed
    cases h
    refine Or.inl ⟨rfl, counted_fail .., rfl, ?_⟩
    intro c hc
    rw [hparsed] at hc
    cases hc
  · rename_i c hparsed
    split at h
    · rename_i hseen
      cases h
      refine Or.inl ⟨rfl, counted_fail .., rfl, ?_⟩
      intro c' hc'
      rw [hparsed] at hc'
      cases hc'
      exact hseen
    · rename_i hseen
      obtain ⟨hseen', heffect⟩ := storeImported_effect h
      refine Or.inr ⟨c, hparsed, hseen, hseen', ?_⟩
      -- the note of the address is in neither the counters nor the database
      cases heffect with
      | created hnew hcount hdrawn hrow =>
          exact .created hnew ⟨hcount.created, hcount.updated, hcount.skipped, hcount.failed⟩
            hdrawn hrow
      | kept existing hexisting hnot hcount hdb =>
          refine .kept existing hexisting hnot (hcount.imp ?_ ?_) hdb
          · exact fun hcount =>
              ⟨hcount.created, hcount.updated, hcount.skipped, hcount.failed⟩
          · exact fun hcount =>
              ⟨hcount.created, hcount.updated, hcount.skipped, hcount.failed⟩
      | replaced existing hexisting hreplaces hcount hrow =>
          exact .replaced existing hexisting hreplaces
            ⟨hcount.created, hcount.updated, hcount.skipped, hcount.failed⟩ hrow

theorem importLine_get?_none {line : ℕ × String}
    (h : importLine settings now request draw p line = some p')
    (hid : id ≠ (draw line.1).mailboxId) (hnone : p.db.mailboxes.get? id = none) :
    p'.db.mailboxes.get? id = none := by
  rcases importLine_cases h with ⟨-, -, hdb, -⟩ | ⟨c, -, -, -, heffect⟩
  · rw [hdb]
    exact hnone
  cases heffect with
  | created hnew hcount hdrawn hrow =>
      rw [(hrow.others id hid).row]
      exact hnone
  | kept existing hexisting hnot hcount hdb =>
      rw [hdb]
      exact hnone
  | replaced existing hexisting hreplaces hcount hrow =>
      have hother := id_ne_of_get?_none (mailboxByEmail_eq_some.mp hexisting).1 hnone
      rw [(hrow.others id (Ne.symm hother)).row]
      exact hnone

/-! ## Every line is accounted for -/

theorem Counted.unique {n u k f n' u' k' f' : ℕ} (h : Counted p p' n u k f)
    (h' : Counted p p' n' u' k' f') : n = n' ∧ u = u' ∧ k = k' ∧ f = f' := by
  refine ⟨?_, ?_, ?_, ?_⟩
  · exact Nat.add_left_cancel (h.created.symm.trans h'.created)
  · exact Nat.add_left_cancel (h.updated.symm.trans h'.updated)
  · exact Nat.add_left_cancel (h.skipped.symm.trans h'.skipped)
  · exact Nat.add_left_cancel (h.failed.symm.trans h'.failed)

theorem not_rejected (h : Counted p p' 1 0 0 0 ∨ Counted p p' 0 1 0 0) :
    ¬ (Counted p p' 0 0 1 0 ∨ Counted p p' 0 0 0 1) := by
  rintro (h' | h')
  · rcases h with h | h
    · cases (h.unique h').1
    · cases (h.unique h').2.1
  · rcases h with h | h
    · cases (h.unique h').1
    · cases (h.unique h').2.1

theorem lineAccounted_of_rejected (hcount : Counted p p' 0 0 1 0 ∨ Counted p p' 0 0 0 1)
    (hdb : p'.db = p.db) : LineAccounted now request p p' where
  counts := Or.inr (Or.inr hcount)
  rejected _ := hdb
  created h := absurd hcount (not_rejected (Or.inl h))
  updated h := absurd hcount (not_rejected (Or.inr h))
  guarded m hm _ hchanged := by
    rw [hdb] at hchanged
    exact absurd ((Untouched.refl p.db).unchanged hm) hchanged

theorem LineEffect.accounted {drawn : String} (h : LineEffect now request drawn c p p') :
    LineAccounted now request p p' := by
  cases h with
  | created hnew hcount hdrawn hrow =>
      constructor
      · exact Or.inl hcount
      · exact fun h => absurd h (not_rejected (Or.inl hcount))
      · exact fun _ => ⟨drawn, hdrawn, hrow.others⟩
      · exact fun h => absurd (hcount.unique h).1 (by decide)
      · intro m hm _ hchanged
        exact absurd ((hrow.others m.id (id_ne_of_get?_none hm hdrawn)).unchanged hm) hchanged
  | kept existing hexisting hnot hcount hdb => exact lineAccounted_of_rejected hcount hdb
  | replaced existing hexisting hreplaces hcount hrow =>
      have hmem := (mailboxByEmail_eq_some.mp hexisting).1
      constructor
      · exact Or.inr (Or.inl hcount)
      · exact fun h => absurd h (not_rejected (Or.inr hcount))
      · exact fun h => absurd (hcount.unique h).1 (by decide)
      · intro _
        obtain ⟨m', hget, -, -, hversion, hcleared⟩ := hrow.row
        exact ⟨existing, hmem, ⟨m', hget, hversion, hcleared⟩, hrow.others⟩
      · intro m hm hclaimed hchanged
        by_cases hid : m.id = existing.id
        · obtain rfl := Table.eq_of_key hm hmem hid
          refine ⟨hreplaces.onConflict, ?_, hrow.freed (Or.inl hclaimed)⟩
          exact hreplaces.released.resolve_right fun hnot => hnot hclaimed
        · exact absurd ((hrow.others m.id hid).unchanged hm) hchanged

theorem importLine_accounted {line : ℕ × String}
    (h : importLine settings now request draw p line = some p') :
    LineAccounted now request p p' := by
  rcases importLine_cases h with ⟨-, hcount, hdb, -⟩ | ⟨c, -, -, -, heffect⟩
  · exact lineAccounted_of_rejected (Or.inr hcount) hdb
  · exact heffect.accounted

/-! ## Runs -/

theorem counted_run {lines : List (ℕ × String)} (hstart : p.created + p.updated + p.skipped +
      p.errors.length = 0)
    (h : lines.foldlM (importLine settings now request draw) p = some p') :
    p'.created + p'.updated + p'.skipped + p'.errors.length = lines.length := by
  refine foldlM_prefix_invariant (P := fun before q =>
    q.created + q.updated + q.skipped + q.errors.length = before.length) h hstart ?_
  intro before line after q q' _ _ hq hline
  rw [List.length_append, List.length_singleton]
  rcases (importLine_accounted hline).counts with hcount | hcount | hcount | hcount
  all_goals
    have hcreated := hcount.created
    have hupdated := hcount.updated
    have hskipped := hcount.skipped
    have hfailed := hcount.failed
    omega

/-- The addresses seen are those of the lines read, each once. -/
structure Seen (lines : List (ℕ × String)) (p : ImportProgress) : Prop where
  nodup : p.seenPrimaryEmails.Nodup
  mem_iff : ∀ email, email ∈ p.seenPrimaryEmails ↔
    ∃ line ∈ lines, ∃ c, parseMailboxImportLine line.1 line.2 = .ok c ∧ c.primaryEmail = email

theorem seen_run {lines : List (ℕ × String)} (hstart : p.seenPrimaryEmails = [])
    (h : lines.foldlM (importLine settings now request draw) p = some p') : Seen lines p' := by
  refine foldlM_prefix_invariant (P := Seen) h ?_ ?_
  · exact ⟨by rw [hstart]; exact List.nodup_nil, by simp [hstart]⟩
  intro before line after q q' _ _ hq hline
  rcases importLine_cases hline with ⟨hseen, -, -, hdup⟩ | ⟨c, hparsed, hnew, hseen, -⟩
  · constructor
    · rw [hseen]
      exact hq.nodup
    · intro email
      rw [hseen, hq.mem_iff]
      constructor
      · rintro ⟨line', hmem, hline'⟩
        exact ⟨line', List.mem_append_left _ hmem, hline'⟩
      · rintro ⟨line', hmem, c, hc, rfl⟩
        rcases List.mem_append.mp hmem with hmem | hmem
        · exact ⟨line', hmem, c, hc, rfl⟩
        · rw [List.mem_singleton.mp hmem] at hc
          exact (hq.mem_iff _).mp (hdup c hc)
  · constructor
    · rw [hseen]
      exact List.nodup_cons.mpr ⟨hnew, hq.nodup⟩
    · intro email
      rw [hseen, List.mem_cons, hq.mem_iff]
      constructor
      · rintro (rfl | ⟨line', hmem, hline'⟩)
        · exact ⟨line, List.mem_append_right _ (List.mem_singleton_self line), c, hparsed, rfl⟩
        · exact ⟨line', List.mem_append_left _ hmem, hline'⟩
      · rintro ⟨line', hmem, c', hc', rfl⟩
        rcases List.mem_append.mp hmem with hmem | hmem
        · exact Or.inr ⟨line', hmem, c', hc', rfl⟩
        · rw [List.mem_singleton.mp hmem, hparsed] at hc'
          cases hc'
          exact Or.inl rfl

theorem untouched_run (hm : m ∈ db.mailboxes) (hnot : ¬ request.Replaces now db m)
    {lines : List (ℕ × String)}
    (h : lines.foldlM (importLine settings now request draw) { db := db } = some p) :
    Untouched m.id db p.db := by
  refine foldlM_prefix_invariant (P := fun _ q => Untouched m.id db q.db) h
    (Untouched.refl db) ?_
  intro before line after q q' _ _ hq hline
  have hthere : m ∈ q.db.mailboxes := Table.mem_of_get? (hq.unchanged hm)
  rcases importLine_cases hline with ⟨-, -, hdb, -⟩ | ⟨c, -, -, -, heffect⟩
  · rw [hdb]
    exact hq
  cases heffect with
  | created hnew hcount hdrawn hrow =>
      exact hq.trans (hrow.others m.id (id_ne_of_get?_none hthere hdrawn))
  | kept existing hexisting hnot hcount hdb =>
      rw [hdb]
      exact hq
  | replaced existing hexisting hreplaces hcount hrow =>
      refine hq.trans (hrow.others m.id fun hid => hnot ?_)
      obtain rfl := Table.eq_of_key hthere (mailboxByEmail_eq_some.mp hexisting).1 hid
      refine ⟨hreplaces.onConflict, hreplaces.microsoft, ?_⟩
      rw [← claimed_congr hq.claims]
      exact hreplaces.released

def ImportProgress.named (p : ImportProgress) (m : Mailbox) : ℕ :=
  p.seenPrimaryEmails.countP fun email => sqlEq m.primaryEmail email

/-- A mailbox that the import replaces, behind some lines: it has one more version
for each address seen that is its own. -/
structure Tracked (now : ℕ) (db : Database) (m : Mailbox) (p : ImportProgress) : Prop where
  row : ∃ m', p.db.mailboxes.get? m.id = some m' ∧ m'.primaryEmail = m.primaryEmail ∧
    m'.providerType = m.providerType ∧ m'.tokenVersion = m.tokenVersion + p.named m ∧
    (p.named m ≠ 0 → m'.Cleared)
  idle : p.named m = 0 → Untouched m.id db p.db
  freed : p.named m ≠ 0 → db.Claimed now m.id → p.db.Freed now m.id
  unclaimed : ¬ db.Claimed now m.id → ¬ p.db.Claimed now m.id

/-- A line that does not name the mailbox. -/
theorem Tracked.of_untouched (h : Tracked now db m p) (hkept : Untouched m.id p.db p'.db)
    (hnamed : p'.named m = p.named m) : Tracked now db m p' := by
  constructor
  · rw [hkept.row, hnamed]
    exact h.row
  · rw [hnamed]
    exact fun hzero => (h.idle hzero).trans hkept
  · rw [hnamed]
    exact fun hnonzero hclaimed => hkept.freed (h.freed hnonzero hclaimed)
  · rw [claimed_congr hkept.claims]
    exact h.unclaimed

theorem Tracked.of_replaced (h : Tracked now db m p) {m' : Mailbox} (hid : m'.id = m.id)
    (hm' : p.db.mailboxes.get? m.id = some m') (hrow : ReplacesRow now m' p.db p'.db)
    (hnamed : p'.named m = p.named m + 1) : Tracked now db m p' := by
  obtain ⟨m₀, hm₀, hemail, htype, hversion, -⟩ := h.row
  obtain rfl : m₀ = m' := Option.some.inj (hm₀.symm.trans hm')
  obtain ⟨m'', hget, hemail', htype', hversion', hcleared⟩ := hrow.row
  rw [hid] at hget
  have hnonzero : p'.named m ≠ 0 := by omega
  constructor
  · refine ⟨m'', hget, hemail'.trans hemail, htype'.trans htype, ?_, fun _ => hcleared⟩
    rw [hversion', hversion, hnamed, Nat.add_assoc]
  · exact fun hzero => absurd hzero hnonzero
  · intro _ hclaimed
    have hbusy : p.db.Claimed now m.id ∨ p.db.Freed now m.id := by
      by_cases hzero : p.named m = 0
      · exact Or.inl ((claimed_congr (h.idle hzero).claims).mpr hclaimed)
      · exact Or.inr (h.freed hzero hclaimed)
    have hfreed := hrow.freed
    rw [hid] at hfreed
    exact hfreed hbusy
  · intro hnot
    have hnot' := h.unclaimed hnot
    have hclaims := hrow.unclaimed
    rw [hid] at hclaims
    rw [claimed_congr (hclaims hnot')]
    exact hnot'

theorem named_of_seen (hseen : p'.seenPrimaryEmails = c.primaryEmail :: p.seenPrimaryEmails)
    (m : Mailbox) : p'.named m =
      p.named m + if sqlEq m.primaryEmail c.primaryEmail then 1 else 0 := by
  unfold ImportProgress.named
  rw [hseen, List.countP_cons]

/-- **Run lemma** for a mailbox that the import replaces. -/
theorem tracked_run (hm : m ∈ db.mailboxes) (hreplaces : request.Replaces now db m)
    {lines : List (ℕ × String)}
    (h : lines.foldlM (importLine settings now request draw) { db := db } = some p) :
    Tracked now db m p := by
  refine foldlM_prefix_invariant (P := fun _ q => Tracked now db m q) h ?_ ?_
  · refine ⟨⟨m, Table.get?_eq_some.mpr ⟨hm, rfl⟩, rfl, rfl, rfl, ?_⟩, ?_, ?_, ?_⟩
    · exact fun hnonzero => absurd rfl hnonzero
    · exact fun _ => Untouched.refl db
    · exact fun hnonzero => absurd rfl hnonzero
    · exact id
  intro before line after q q' _ _ hq hline
  obtain ⟨m', hm', hemail, htype, -⟩ := hq.row
  have hthere := Table.mem_of_get? hm'
  have hid : m'.id = m.id := Table.key_of_get? hm'
  rcases importLine_cases hline with ⟨hseen, -, hdb, -⟩ | ⟨c, -, -, hseen, heffect⟩
  · refine hq.of_untouched ?_ ?_
    · rw [hdb]
      exact Untouched.refl q.db
    · unfold ImportProgress.named
      rw [hseen]
  have hnamed := named_of_seen hseen m
  -- the mailbox has kept its address, so a line that names it finds it
  have hfind : sqlEq m.primaryEmail c.primaryEmail = true →
      q.db.mailboxByEmail c.primaryEmail = some m' := by
    intro hsame
    exact mailboxByEmail_eq_some.mpr ⟨hthere, hemail ▸ hsame⟩
  have hother : ∀ existing, q.db.mailboxByEmail c.primaryEmail = some existing →
      existing ≠ m' → q'.named m = q.named m := by
    intro existing hexisting hne
    have hnot : ¬ sqlEq m.primaryEmail c.primaryEmail = true := fun hsame =>
      hne (Option.some.inj (hexisting.symm.trans (hfind hsame)))
    rw [hnamed, if_neg hnot, Nat.add_zero]
  cases heffect with
  | created hnew hcount hdrawn hrow =>
      have hkept := hrow.others m'.id (id_ne_of_get?_none hthere hdrawn)
      rw [hid] at hkept
      have hnot : ¬ sqlEq m.primaryEmail c.primaryEmail = true := by
        intro hsame
        cases hnew.symm.trans (hfind hsame)
      refine hq.of_untouched hkept ?_
      rw [hnamed, if_neg hnot, Nat.add_zero]
  | kept existing hexisting hnot hcount hdb =>
      refine hq.of_untouched ?_ (hother existing hexisting ?_)
      · rw [hdb]
        exact Untouched.refl q.db
      · -- the mailbox itself would have been replaced
        rintro rfl
        refine hnot ⟨hreplaces.onConflict, ?_, ?_⟩
        · rw [htype]
          exact hreplaces.microsoft
        · rw [hid]
          exact hreplaces.released.imp id hq.unclaimed
  | replaced existing hexisting hreplaces' hcount hrow =>
      by_cases hsame : existing = m'
      · subst hsame
        refine hq.of_replaced hid hm' hrow ?_
        have hfound := (mailboxByEmail_eq_some.mp hexisting).2
        rw [hemail] at hfound
        rw [hnamed, if_pos hfound]
      · have hne : m.id ≠ existing.id := by
          intro heq
          apply hsame
          exact Table.eq_of_key (mailboxByEmail_eq_some.mp hexisting).1 hthere
            (heq.symm.trans hid.symm)
        exact hq.of_untouched (hrow.others m.id hne) (hother existing hexisting hsame)

theorem noted_run {lines : List (ℕ × String)}
    (h : lines.foldlM (importLine settings now request draw) p = some p') :
    lines.length ≤ p'.errors.length + p'.seenPrimaryEmails.length := by
  refine foldlM_prefix_invariant (P := fun before q =>
    before.length ≤ q.errors.length + q.seenPrimaryEmails.length) h (Nat.zero_le _) ?_
  intro before line after q q' _ _ hq hline
  rw [List.length_append, List.length_singleton]
  rcases importLine_cases hline with ⟨hseen, hcount, -, -⟩ | ⟨c, -, -, hseen, heffect⟩
  · have hfailed := hcount.failed
    rw [hseen]
    omega
  · have hgrown : q.errors.length ≤ q'.errors.length := by
      rcases heffect.accounted.counts with hcount | hcount | hcount | hcount
      all_goals
        have hfailed := hcount.failed
        omega
    rw [hseen, List.length_cons]
    omega

theorem importMailboxes_run {response : MailboxImportResponse}
    (h : importMailboxes settings now request draw db = some (response, db')) :
    ∃ p, (importLines request.content).foldlM (importLine settings now request draw)
        { db := db } = some p ∧ p.db = db' ∧
      (importLines request.content ≠ [] →
        response = ⟨p.created, p.updated, p.skipped, p.errors.length, p.errors⟩) := by
  unfold importMailboxes at h
  obtain ⟨p, hfold, hresult⟩ := Option.map_eq_some_iff.mp h
  obtain ⟨rfl, rfl⟩ := Prod.mk.inj hresult
  refine ⟨p, hfold, rfl, fun hlines => ?_⟩
  have hnoted := noted_run hfold
  have hpos := List.length_pos_of_ne_nil hlines
  rw [if_neg]
  rintro ⟨hseen, herrors⟩
  rw [hseen, herrors] at hnoted
  simp only [List.length_nil] at hnoted
  omega

/-! ## The import -/

omit [ImportPlatform] in
/-- More than one element meets a condition exactly if two different ones do. -/
theorem one_lt_countP_iff {α : Type*} {l : List α} {q : α → Bool} (hnodup : l.Nodup) :
    1 < l.countP q ↔ ∃ a ∈ l, ∃ b ∈ l, a ≠ b ∧ q a = true ∧ q b = true := by
  have hfilter : ∀ a, a ∈ l.filter q ↔ a ∈ l ∧ q a = true := fun a => List.mem_filter
  rw [List.countP_eq_length_filter]
  constructor
  · intro hlength
    match hl : l.filter q, hnodup.filter q with
    | [], _ => simp [hl] at hlength
    | [a], _ => simp [hl] at hlength
    | a :: b :: rest, hdistinct =>
        obtain ⟨ha, hqa⟩ := (hfilter a).mp (by simp [hl])
        obtain ⟨hb, hqb⟩ := (hfilter b).mp (by simp [hl])
        have hne : a ≠ b := by
          rintro rfl
          exact (List.nodup_cons.mp hdistinct).1 (List.mem_cons_self ..)
        exact ⟨a, ha, b, hb, hne, hqa, hqb⟩
  · rintro ⟨a, ha, b, hb, hne, hqa, hqb⟩
    by_contra hshort
    have ha' := (hfilter a).mpr ⟨ha, hqa⟩
    have hb' := (hfilter b).mpr ⟨hb, hqb⟩
    match hl : l.filter q with
    | [] =>
        rw [hl] at ha'
        cases ha'
    | [c] =>
        rw [hl, List.mem_singleton] at ha' hb'
        exact hne (ha'.trans hb'.symm)
    | c :: d :: rest => simp [hl] at hshort

theorem mem_parsedLines {content : String} :
    .ok c ∈ parsedLines content ↔
      ∃ line ∈ importLines content, parseMailboxImportLine line.1 line.2 = .ok c :=
  List.mem_map

/-- A mailbox has been named twice exactly if it has two spellings among the lines. -/
theorem named_iff (h : Seen (importLines request.content) p) (m : Mailbox) :
    1 < p.named m ↔ ∃ c c' : MailboxCredentials,
      .ok c ∈ parsedLines request.content ∧ .ok c' ∈ parsedLines request.content ∧
      c.primaryEmail ≠ c'.primaryEmail ∧ sqlEq m.primaryEmail c.primaryEmail = true ∧
      sqlEq m.primaryEmail c'.primaryEmail = true := by
  unfold ImportProgress.named
  rw [one_lt_countP_iff h.nodup]
  constructor
  · rintro ⟨email, hemail, email', hemail', hne, hsame, hsame'⟩
    obtain ⟨line, hline, c, hparsed, rfl⟩ := (h.mem_iff email).mp hemail
    obtain ⟨line', hline', c', hparsed', rfl⟩ := (h.mem_iff email').mp hemail'
    exact ⟨c, c', mem_parsedLines.mpr ⟨line, hline, hparsed⟩,
      mem_parsedLines.mpr ⟨line', hline', hparsed'⟩, hne, hsame, hsame'⟩
  · rintro ⟨c, c', hc, hc', hne, hsame, hsame'⟩
    obtain ⟨line, hline, hparsed⟩ := mem_parsedLines.mp hc
    obtain ⟨line', hline', hparsed'⟩ := mem_parsedLines.mp hc'
    exact ⟨_, (h.mem_iff _).mpr ⟨line, hline, c, hparsed, rfl⟩,
      _, (h.mem_iff _).mpr ⟨line', hline', c', hparsed', rfl⟩, hne, hsame, hsame'⟩

theorem Tracked.replacedOnce (h : Tracked now db m p) (hone : ¬ 1 < p.named m)
    (hchanged : p.named m ≠ 0) : p.db.ReplacedOnce m := by
  obtain ⟨m', hget, -, -, hversion, hcleared⟩ := h.row
  refine ⟨m', hget, ?_, hcleared hchanged⟩
  omega

/-- An import that returns is accounted for exactly if no mailbox that it replaces is
named by two spellings of its address. -/
theorem returned_accounted_iff {response : MailboxImportResponse}
    (h : importMailboxes settings now request draw db = some (response, db')) :
    ImportAccounted settings now request draw db response db' ↔
      ¬ request.NamesTwice now db := by
  obtain ⟨p, hfold, rfl, hresponse⟩ := importMailboxes_run h
  have hseen : Seen (importLines request.content) p := seen_run rfl hfold
  constructor
  · rintro haccounted ⟨m, hm, hreplaces, htwice⟩
    -- a mailbox that is named twice is two versions further on
    have htracked := tracked_run hm hreplaces hfold
    have hnamed := (named_iff hseen m).mpr htwice
    obtain ⟨m', hget, -, -, hversion, -⟩ := htracked.row
    have hchanged : p.db.mailboxes.get? m.id ≠ some m := by
      rw [hget]
      intro heq
      rw [Option.some.inj heq] at hversion
      omega
    obtain ⟨m'', hget', hversion', -⟩ := haccounted.replaced m hm hchanged
    rw [hget] at hget'
    rw [← Option.some.inj hget'] at hversion'
    omega
  · intro hnot
    -- what the import does not replace is untouched
    have hreplaced : ∀ m ∈ db.mailboxes, p.db.mailboxes.get? m.id ≠ some m →
        request.Replaces now db m ∧ Tracked now db m p ∧ p.named m ≠ 0 := by
      intro m hm hchanged
      have hreplaces : request.Replaces now db m := by
        by_contra hkept
        exact hchanged ((untouched_run hm hkept hfold).unchanged hm)
      have htracked := tracked_run hm hreplaces hfold
      exact ⟨hreplaces, htracked, fun hzero => hchanged ((htracked.idle hzero).unchanged hm)⟩
    constructor
    · intro before line after q q' _ _ hline
      exact importLine_accounted hline
    · intro hlines
      rw [hresponse hlines]
      exact counted_run rfl hfold
    · intro m hm hclaimed hchanged
      obtain ⟨hreplaces, htracked, hnonzero⟩ := hreplaced m hm hchanged
      refine ⟨hreplaces.onConflict, ?_, htracked.freed hnonzero hclaimed⟩
      exact hreplaces.released.resolve_right fun hfree => hfree hclaimed
    · intro m hm hchanged
      obtain ⟨hreplaces, htracked, hnonzero⟩ := hreplaced m hm hchanged
      refine htracked.replacedOnce (fun htwice => hnot ?_) hnonzero
      exact ⟨m, hm, hreplaces, (named_iff hseen m).mp htwice⟩
    · intro m hm hunnamed
      by_cases hreplaces : request.Replaces now db m
      · refine (tracked_run hm hreplaces hfold).idle ?_
        unfold ImportProgress.named
        rw [List.countP_eq_zero]
        intro email hemail hsame
        obtain ⟨line, hline, c, hparsed, rfl⟩ := (hseen.mem_iff email).mp hemail
        rw [hunnamed c (mem_parsedLines.mpr ⟨line, hline, hparsed⟩)] at hsame
        cases hsame
      · exact untouched_run hm hreplaces hfold

end

end MailboxService
