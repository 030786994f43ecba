import MailboxService.ImportAccounting

/-!
# Imports that fail

A value that is too wide for its column fails the flush, and with it the whole
import: no line counts and nothing is stored, the lines before included. What is
stored for a line depends on the lines before it, so whether it is too wide is
asked of the lines, and followed along the run.

`import_accounted_iff` puts this together with the imports that return.
-/

namespace MailboxService

open Foundation

section

variable [ImportPlatform]

/-! ## What is to be stored -/

/-- Nothing has the address yet, neither an old mailbox nor a line before. -/
structure MailboxCredentials.Creates (c : MailboxCredentials) (db : Database)
    (before : List (ℕ × String)) : Prop where
  old : ∀ m ∈ db.mailboxes, sqlEq m.primaryEmail c.primaryEmail = false
  earlier : ∀ line ∈ before, ∀ c', parseMailboxImportLine line.1 line.2 = .ok c' →
    sqlEq c'.primaryEmail c.primaryEmail = false

/-- The text of the address is new in the batch, and its mailbox is an old one to be
replaced, or one that a line before has created under another spelling. -/
structure MailboxImportRequest.Rewrites (request : MailboxImportRequest) (now : ℕ)
    (db : Database) (before : List (ℕ × String)) (c : MailboxCredentials) : Prop where
  text : ∀ line ∈ before, ∀ c', parseMailboxImportLine line.1 line.2 = .ok c' →
    c'.primaryEmail ≠ c.primaryEmail
  mailbox : (∃ m ∈ db.mailboxes, sqlEq m.primaryEmail c.primaryEmail = true ∧
      request.Replaces now db m) ∨
    (∀ m ∈ db.mailboxes, sqlEq m.primaryEmail c.primaryEmail = false) ∧
      request.onConflict = .replaceToken ∧ ∃ line ∈ before, ∃ c' : MailboxCredentials,
        parseMailboxImportLine line.1 line.2 = .ok c' ∧
          sqlEq c'.primaryEmail c.primaryEmail = true

/-- A line is to store a value that is too wide for its column. -/
def MailboxImportRequest.Overflows (request : MailboxImportRequest) (settings : TokenSettings)
    (now : ℕ) (draw : ℕ → ImportDraw) (db : Database) : Prop :=
  ∃ before line after c, importLines request.content = before ++ line :: after ∧
    parseMailboxImportLine line.1 line.2 = .ok c ∧
    (c.Creates db before ∧ settings.takesNew (draw line.1).nonce c.primaryEmail
        (c.item request.forceReleaseActiveLeases) = false ∨
      request.Rewrites now db before c ∧ settings.takes (draw line.1).nonce
        (c.item request.forceReleaseActiveLeases) = false)

/-- What is drawn as keys is new in the tables, and drawn once. -/
structure MailboxImportRequest.DrawsNew (request : MailboxImportRequest) (now : ℕ)
    (draw : ℕ → ImportDraw) (db : Database) : Prop where
  fresh : ∀ line ∈ importLines request.content,
    db.mailboxes.get? (draw line.1).mailboxId = none ∧ ¬ db.Claimed now (draw line.1).mailboxId
  distinct : (importLines request.content).Pairwise fun line line' =>
    (draw line.1).mailboxId ≠ (draw line'.1).mailboxId

variable {settings : TokenSettings} {now : ℕ} {request : MailboxImportRequest}
  {draw : ℕ → ImportDraw} {db db' : Database} {p p' : ImportProgress} {m existing : Mailbox}
  {c : MailboxCredentials} {id : String}

/-! ## What is known along the run -/

theorem sqlEq_self (text : String) : sqlEq text text = true := by simp [sqlEq]

theorem sqlEq_trans {a b d : String} (h : sqlEq a b = true) (h' : sqlEq a d = true) :
    sqlEq b d = true := by
  simp only [sqlEq, decide_eq_true_eq] at h h' ⊢
  exact h.symm.trans h'

/-- What holds of the mailboxes behind some lines: the old ones are there, each new one
was named by a line, and each line that was read has a mailbox. -/
structure Known (now : ℕ) (request : MailboxImportRequest) (db : Database)
    (before : List (ℕ × String)) (p : ImportProgress) : Prop where
  old : ∀ m ∈ db.mailboxes, ∃ m' ∈ p.db.mailboxes, m'.id = m.id ∧
    m'.primaryEmail = m.primaryEmail ∧ (request.Replaces now p.db m' ↔ request.Replaces now db m)
  new : ∀ m' ∈ p.db.mailboxes, db.mailboxes.get? m'.id = none →
    m'.providerType = defaultProviderType ∧ ¬ p.db.Claimed now m'.id ∧
      ∃ line ∈ before, ∃ c : MailboxCredentials,
        parseMailboxImportLine line.1 line.2 = .ok c ∧ sqlEq m'.primaryEmail c.primaryEmail = true
  named : ∀ line ∈ before, ∀ c, parseMailboxImportLine line.1 line.2 = .ok c →
    ∃ m' ∈ p.db.mailboxes, sqlEq m'.primaryEmail c.primaryEmail = true

theorem old_run {lines : List (ℕ × String)}
    (h : lines.foldlM (importLine settings now request draw) { db := db } = some p) :
    ∀ m ∈ db.mailboxes, ∃ m' ∈ p.db.mailboxes, m'.id = m.id ∧
      m'.primaryEmail = m.primaryEmail ∧
      (request.Replaces now p.db m' ↔ request.Replaces now db m) := by
  intro m hm
  by_cases hreplaces : request.Replaces now db m
  · have htracked := tracked_run hm hreplaces h
    obtain ⟨m', hget, hemail, htype, -⟩ := htracked.row
    have hid : m'.id = m.id := Table.key_of_get? hget
    refine ⟨m', Table.mem_of_get? hget, hid, hemail, iff_of_true ⟨hreplaces.onConflict, ?_, ?_⟩
      hreplaces⟩
    · rw [htype]
      exact hreplaces.microsoft
    · rw [hid]
      exact hreplaces.released.imp id htracked.unclaimed
  · have hkept := untouched_run hm hreplaces h
    refine ⟨m, Table.mem_of_get? (hkept.unchanged hm), rfl, rfl, ?_⟩
    constructor
    · intro hnow
      exact ⟨hnow.onConflict, hnow.microsoft, hnow.released.imp id fun hfree =>
        (claimed_congr hkept.claims).not.mp hfree⟩
    · exact fun hthen => absurd hthen hreplaces

theorem LineEffect.unclaimed {drawn : String} (h : LineEffect now request drawn c p p')
    (hnot : ¬ p.db.Claimed now id) : ¬ p'.db.Claimed now id := by
  cases h with
  | created hnew hcount hdrawn hrow =>
      have hclaims : p'.db.claimsOn id = p.db.claimsOn id := by
        unfold Database.claimsOn
        rw [hrow.claims]
      rw [claimed_congr hclaims]
      exact hnot
  | kept existing hexisting hnot' hcount hdb =>
      rw [hdb]
      exact hnot
  | replaced existing hexisting hreplaces hcount hrow =>
      by_cases hid : id = existing.id
      · subst hid
        rw [claimed_congr (hrow.unclaimed hnot)]
        exact hnot
      · rw [claimed_congr (hrow.others id hid).claims]
        exact hnot

theorem LineEffect.kept_row {drawn : String} (h : LineEffect now request drawn c p p')
    (hm : m ∈ p.db.mailboxes) : ∃ m' ∈ p'.db.mailboxes, m'.id = m.id ∧
      m'.primaryEmail = m.primaryEmail ∧ m'.providerType = m.providerType := by
  have hsame : Untouched m.id p.db p'.db → ∃ m' ∈ p'.db.mailboxes, m'.id = m.id ∧
      m'.primaryEmail = m.primaryEmail ∧ m'.providerType = m.providerType :=
    fun hkept => ⟨m, Table.mem_of_get? (hkept.unchanged hm), rfl, rfl, rfl⟩
  cases h with
  | created hnew hcount hdrawn hrow => exact hsame (hrow.others _ (id_ne_of_get?_none hm hdrawn))
  | kept existing hexisting hnot hcount hdb =>
      refine hsame ?_
      rw [hdb]
      exact Untouched.refl p.db
  | replaced existing hexisting hreplaces hcount hrow =>
      by_cases hid : m.id = existing.id
      · obtain rfl := Table.eq_of_key hm (mailboxByEmail_eq_some.mp hexisting).1 hid
        obtain ⟨m', hget, hemail, htype, -⟩ := hrow.row
        exact ⟨m', Table.mem_of_get? hget, Table.key_of_get? hget, hemail, htype⟩
      · exact hsame (hrow.others m.id hid)

theorem LineEffect.mem_cases {drawn : String} (h : LineEffect now request drawn c p p')
    {m' : Mailbox} (hm' : m' ∈ p'.db.mailboxes) :
    (∃ m ∈ p.db.mailboxes, m'.id = m.id ∧ m'.primaryEmail = m.primaryEmail ∧
      m'.providerType = m.providerType) ∨
    m'.id = drawn ∧ m'.primaryEmail = c.primaryEmail ∧ m'.providerType = defaultProviderType := by
  have hget : p'.db.mailboxes.get? m'.id = some m' := Table.get?_eq_some.mpr ⟨hm', rfl⟩
  have hsame : Untouched m'.id p.db p'.db → ∃ m ∈ p.db.mailboxes, m'.id = m.id ∧
      m'.primaryEmail = m.primaryEmail ∧ m'.providerType = m.providerType := by
    intro hkept
    rw [hkept.row] at hget
    exact ⟨m', Table.mem_of_get? hget, rfl, rfl, rfl⟩
  cases h with
  | created hnew hcount hdrawn hrow =>
      by_cases hid : m'.id = drawn
      · obtain ⟨row, hrowget, hemail, htype⟩ := hrow.row
        rw [hid, hrowget] at hget
        cases hget
        exact Or.inr ⟨hid, hemail, htype⟩
      · exact Or.inl (hsame (hrow.others _ hid))
  | kept existing hexisting hnot hcount hdb =>
      refine Or.inl (hsame ?_)
      rw [hdb]
      exact Untouched.refl p.db
  | replaced existing hexisting hreplaces hcount hrow =>
      by_cases hid : m'.id = existing.id
      · obtain ⟨row, hrowget, hemail, htype, -⟩ := hrow.row
        rw [hid, hrowget] at hget
        cases hget
        exact Or.inl ⟨existing, (mailboxByEmail_eq_some.mp hexisting).1, hid, hemail, htype⟩
      · exact Or.inl (hsame (hrow.others _ hid))

theorem LineEffect.named {drawn : String} (h : LineEffect now request drawn c p p') :
    ∃ m' ∈ p'.db.mailboxes, sqlEq m'.primaryEmail c.primaryEmail = true := by
  cases hfound : p.db.mailboxByEmail c.primaryEmail with
  | some existing =>
      obtain ⟨hm, hsame⟩ := mailboxByEmail_eq_some.mp hfound
      obtain ⟨m', hm', -, hemail, -⟩ := h.kept_row hm
      exact ⟨m', hm', hemail ▸ hsame⟩
  | none =>
      cases h with
      | created hnew hcount hdrawn hrow =>
          obtain ⟨row, hget, hemail, -⟩ := hrow.row
          exact ⟨row, Table.mem_of_get? hget, hemail ▸ sqlEq_self _⟩
      | kept existing hexisting hnot hcount hdb => cases hfound.symm.trans hexisting
      | replaced existing hexisting hreplaces hcount hrow => cases hfound.symm.trans hexisting

/-- Where the mailboxes behind some lines come from: no new claim was made, each new
mailbox was named by a line, and each line that was read has a mailbox. -/
structure Sourced (now : ℕ) (db : Database) (before : List (ℕ × String))
    (p : ImportProgress) : Prop where
  unclaimed : ∀ id, ¬ db.Claimed now id → ¬ p.db.Claimed now id
  new : ∀ m' ∈ p.db.mailboxes, db.mailboxes.get? m'.id = none →
    m'.providerType = defaultProviderType ∧ ¬ db.Claimed now m'.id ∧
      ∃ line ∈ before, ∃ c : MailboxCredentials,
        parseMailboxImportLine line.1 line.2 = .ok c ∧ sqlEq m'.primaryEmail c.primaryEmail = true
  named : ∀ line ∈ before, ∀ c, parseMailboxImportLine line.1 line.2 = .ok c →
    ∃ m' ∈ p.db.mailboxes, sqlEq m'.primaryEmail c.primaryEmail = true

theorem sourced_start : Sourced now db [] { db := db } where
  unclaimed _ hnot := hnot
  new _ hm' hnone := absurd rfl (id_ne_of_get?_none hm' hnone)
  named _ hline := by cases hline

/-- A line that fails changes nothing, and its address, if it has one, was read in an
earlier line. -/
theorem Sourced.failed {before : List (ℕ × String)} {line : ℕ × String}
    (h : Sourced now db before p) (hdb : p'.db = p.db)
    (hdup : ∀ c, parseMailboxImportLine line.1 line.2 = .ok c → ∃ earlier ∈ before, ∃ c',
      parseMailboxImportLine earlier.1 earlier.2 = .ok c' ∧ c'.primaryEmail = c.primaryEmail) :
    Sourced now db (before ++ [line]) p' := by
  constructor
  · rw [hdb]
    exact h.unclaimed
  · rw [hdb]
    intro m' hm' hnone
    obtain ⟨htype, hfree, line', hline', hread⟩ := h.new m' hm' hnone
    exact ⟨htype, hfree, line', List.mem_append_left _ hline', hread⟩
  · rw [hdb]
    intro line' hline' c hc
    rcases List.mem_append.mp hline' with hline' | hline'
    · exact h.named line' hline' c hc
    · rw [List.mem_singleton.mp hline'] at hc
      obtain ⟨earlier, hearlier, c', hc', hsame⟩ := hdup c hc
      rw [← hsame]
      exact h.named earlier hearlier c' hc'

/-- A line that is read and has its effect adds at most the mailbox it names. -/
theorem Sourced.follow {before : List (ℕ × String)} {line : ℕ × String} {drawn : String}
    (h : Sourced now db before p) (hparsed : parseMailboxImportLine line.1 line.2 = .ok c)
    (hfree : ¬ db.Claimed now drawn) (heffect : LineEffect now request drawn c p p') :
    Sourced now db (before ++ [line]) p' := by
  constructor
  · exact fun id hnot => heffect.unclaimed (h.unclaimed id hnot)
  · intro m' hm' hnone
    rcases heffect.mem_cases hm' with ⟨m, hm, hid, hemail, htype⟩ | ⟨hid, hemail, htype⟩
    · obtain ⟨htype', hfree', line', hline', hread⟩ := h.new m hm (hid ▸ hnone)
      rw [hid, htype, hemail]
      exact ⟨htype', hfree', line', List.mem_append_left _ hline', hread⟩
    · rw [hid, hemail]
      exact ⟨htype, hfree, line, List.mem_append_right _ (List.mem_singleton_self line), c,
        hparsed, sqlEq_self _⟩
  · intro line' hline' c' hc'
    rcases List.mem_append.mp hline' with hline' | hline'
    · obtain ⟨m, hm, hsame⟩ := h.named line' hline' c' hc'
      obtain ⟨m', hm', -, hemail, -⟩ := heffect.kept_row hm
      exact ⟨m', hm', hemail ▸ hsame⟩
    · rw [List.mem_singleton.mp hline', hparsed] at hc'
      cases hc'
      exact heffect.named

theorem sourced_run {lines : List (ℕ × String)}
    (hfree : ∀ line ∈ lines, ¬ db.Claimed now (draw line.1).mailboxId)
    (h : lines.foldlM (importLine settings now request draw) { db := db } = some p) :
    Sourced now db lines p := by
  refine foldlM_prefix_invariant (P := Sourced now db) h sourced_start ?_
  intro before line after q q' hsplit hq hsourced hline
  rcases importLine_cases hline with ⟨-, -, hdb, hdup⟩ | ⟨c, hparsed, -, -, heffect⟩
  · -- a duplicate's address is among those that the lines before left in the batch
    have hseen : Seen before q := seen_run rfl hq
    exact hsourced.failed hdb fun c hc => (hseen.mem_iff _).mp (hdup c hc)
  · refine hsourced.follow hparsed (hfree line ?_) heffect
    rw [hsplit]
    exact List.mem_append_right _ (List.mem_cons_self ..)

/-- **Run lemma** for what is known of the mailboxes, where no claim waits for a
mailbox that is still to be created. -/
theorem known_run {lines : List (ℕ × String)}
    (hfree : ∀ line ∈ lines, ¬ db.Claimed now (draw line.1).mailboxId)
    (h : lines.foldlM (importLine settings now request draw) { db := db } = some p) :
    Known now request db lines p := by
  have hsourced := sourced_run hfree h
  refine ⟨old_run h, fun m' hm' hnone => ?_, hsourced.named⟩
  obtain ⟨htype, hnot, hread⟩ := hsourced.new m' hm' hnone
  exact ⟨htype, hsourced.unclaimed _ hnot, hread⟩

/-- What stands on the key of an old mailbox is that mailbox, under its address. -/
theorem Known.of_old {before : List (ℕ × String)} {m' : Mailbox}
    (h : Known now request db before p) (hm' : m' ∈ p.db.mailboxes)
    (hm : m ∈ db.mailboxes) (hid : m.id = m'.id) :
    m'.primaryEmail = m.primaryEmail ∧
      (request.Replaces now p.db m' ↔ request.Replaces now db m) := by
  obtain ⟨kept, hkept, hid', hemail, hiff⟩ := h.old m hm
  obtain rfl : kept = m' := Table.eq_of_key hkept hm' (hid'.trans hid)
  exact ⟨hemail, hiff⟩

/-! ## Lines that fail -/

theorem replaces_iff :
    request.Replaces now db existing ↔
      ¬ (existing.providerType ≠ "" ∧ existing.providerType ≠ defaultProviderType) ∧
        request.onConflict = .replaceToken ∧
        (db.activeClaimMailboxIds now [existing.id] = [] ∨
          request.forceReleaseActiveLeases = true) := by
  rw [unclaimed_iff, not_and_or, not_not, not_not]
  exact ⟨fun h => ⟨h.microsoft, h.onConflict, h.released.symm⟩,
    fun h => ⟨h.2.1, h.1, h.2.2.symm⟩⟩

/-- **Storing fails** exactly if a value is too wide for what is created or replaced. -/
theorem storeImported_eq_none_iff {draw : ImportDraw} {lineNumber : ℕ}
    (hdrawn : p.db.mailboxes.get? draw.mailboxId = none) :
    storeImported settings now request draw lineNumber c p = none ↔
      p.db.mailboxByEmail c.primaryEmail = none ∧
          settings.takesNew draw.nonce c.primaryEmail
            (c.item request.forceReleaseActiveLeases) = false ∨
        ∃ existing, p.db.mailboxByEmail c.primaryEmail = some existing ∧
          request.Replaces now p.db existing ∧
          settings.takes draw.nonce (c.item request.forceReleaseActiveLeases) = false := by
  unfold storeImported
  dsimp only
  cases hfound : p.db.mailboxByEmail c.primaryEmail with
  | none =>
      have hdistinct : ∀ q ∈ p.db.mailboxes, mailboxSchema.Distinct q
          (settings.importedMailbox now draw c) := by
        intro q hq
        refine ⟨id_ne_of_get?_none hq hdrawn, ?_⟩
        rw [← Bool.not_eq_true]
        intro hclash
        cases hfound.symm.trans (mailboxByEmail_eq_some.mpr ⟨hq, hclash⟩)
      obtain ⟨mailboxes, hinsert⟩ := Table.insert?_isSome hdistinct
      cases htakes : settings.takesNew draw.nonce c.primaryEmail
        (c.item request.forceReleaseActiveLeases) <;> simp [hinsert]
  | some existing =>
      have hreplace : ∀ released,
          p.replace settings now draw.nonce (c.item request.forceReleaseActiveLeases) existing
            released = none ↔
          settings.takes draw.nonce (c.item request.forceReleaseActiveLeases) = false := by
        intro released
        unfold ImportProgress.replace
        cases settings.takes draw.nonce (c.item request.forceReleaseActiveLeases) <;> simp
      simp only [reduceCtorEq, false_and, false_or, Option.some.injEq, exists_eq_left',
        replaces_iff]
      by_cases hother : existing.providerType ≠ "" ∧ existing.providerType ≠ defaultProviderType
      · simp [hother]
      rw [if_neg hother, and_iff_right hother]
      cases hconflict : request.onConflict with
      | skip => simp
      | error => simp
      | replaceToken =>
          by_cases hfree : p.db.activeClaimMailboxIds now [existing.id] = []
          · rw [if_pos hfree, hreplace]
            simp [hfree]
          · rw [if_neg hfree]
            by_cases hforce : request.forceReleaseActiveLeases = true
            · rw [if_pos hforce, hreplace]
              simp [hforce]
            · simp [hfree, hforce]

/-- **A line fails** as a whole exactly if it is read, is new in its batch, and what is
stored for it is too wide. -/
theorem importLine_eq_none_iff {line : ℕ × String}
    (hdrawn : p.db.mailboxes.get? (draw line.1).mailboxId = none) :
    importLine settings now request draw p line = none ↔
      ∃ c, parseMailboxImportLine line.1 line.2 = .ok c ∧
        c.primaryEmail ∉ p.seenPrimaryEmails ∧
        (p.db.mailboxByEmail c.primaryEmail = none ∧
            settings.takesNew (draw line.1).nonce c.primaryEmail
              (c.item request.forceReleaseActiveLeases) = false ∨
          ∃ existing, p.db.mailboxByEmail c.primaryEmail = some existing ∧
            request.Replaces now p.db existing ∧
            settings.takes (draw line.1).nonce (c.item request.forceReleaseActiveLeases) =
              false) := by
  unfold importLine
  cases hparsed : parseMailboxImportLine line.1 line.2 with
  | error e => simp
  | ok c =>
      simp only [Except.ok.injEq, exists_eq_left']
      by_cases hseen : c.primaryEmail ∈ p.seenPrimaryEmails
      · simp [hseen]
      rw [if_neg hseen, and_iff_right hseen]
      exact storeImported_eq_none_iff hdrawn

/-- A line creates its mailbox exactly if no earlier one and no old mailbox has its
address. -/
theorem Known.creates_iff {before : List (ℕ × String)} (h : Known now request db before p) :
    p.db.mailboxByEmail c.primaryEmail = none ↔ c.Creates db before := by
  constructor
  · intro hnone
    have hno : ∀ m' ∈ p.db.mailboxes, ¬ sqlEq m'.primaryEmail c.primaryEmail = true :=
      fun m' hm' hsame => by cases hnone.symm.trans (mailboxByEmail_eq_some.mpr ⟨hm', hsame⟩)
    constructor
    · intro m hm
      obtain ⟨m', hm', -, hemail, -⟩ := h.old m hm
      rw [← hemail, ← Bool.not_eq_true]
      exact hno m' hm'
    · intro line hline c' hc'
      obtain ⟨m', hm', hsame⟩ := h.named line hline c' hc'
      rw [← Bool.not_eq_true]
      intro hagain
      refine hno m' hm' ?_
      rw [sqlEq_comm] at hsame
      exact sqlEq_trans hsame hagain
  · rintro ⟨hold, hearlier⟩
    rw [Option.eq_none_iff_forall_ne_some]
    intro m' hfound
    obtain ⟨hm', hsame⟩ := mailboxByEmail_eq_some.mp hfound
    cases hget : db.mailboxes.get? m'.id with
    | some m =>
        have hm := Table.mem_of_get? hget
        rw [(h.of_old hm' hm (Table.key_of_get? hget)).1, hold m hm] at hsame
        cases hsame
    | none =>
        obtain ⟨-, -, line, hline, c', hc', hread⟩ := h.new m' hm' hget
        have hagain := sqlEq_trans hread hsame
        rw [hearlier line hline c' hc'] at hagain
        cases hagain

/-- A line replaces the credentials of a mailbox exactly if its text is new and it
names an old one that the import replaces, or one that an earlier line has created. -/
theorem Known.rewrites_iff {before : List (ℕ × String)} (h : Known now request db before p)
    (hseen : Seen before p) :
    (c.primaryEmail ∉ p.seenPrimaryEmails ∧
        ∃ existing, p.db.mailboxByEmail c.primaryEmail = some existing ∧
          request.Replaces now p.db existing) ↔
      request.Rewrites now db before c := by
  have htext : c.primaryEmail ∉ p.seenPrimaryEmails ↔ ∀ line ∈ before,
      ∀ c', parseMailboxImportLine line.1 line.2 = .ok c' → c'.primaryEmail ≠ c.primaryEmail := by
    rw [hseen.mem_iff]
    constructor
    · intro hnot line hline c' hc' hsame
      exact hnot ⟨line, hline, c', hc', hsame⟩
    · rintro hnot ⟨line, hline, c', hc', hsame⟩
      exact hnot line hline c' hc' hsame
  constructor
  · rintro ⟨hnew, existing, hfound, hreplaces⟩
    refine ⟨htext.mp hnew, ?_⟩
    obtain ⟨hmem, hsame⟩ := mailboxByEmail_eq_some.mp hfound
    -- an old mailbox, or one that a line before has created under another spelling
    cases hget : db.mailboxes.get? existing.id with
    | some m =>
        have hm := Table.mem_of_get? hget
        obtain ⟨hemail, hiff⟩ := h.of_old hmem hm (Table.key_of_get? hget)
        exact Or.inl ⟨m, hm, hemail ▸ hsame, hiff.mp hreplaces⟩
    | none =>
        obtain ⟨-, -, line, hline, c', hc', hread⟩ := h.new existing hmem hget
        refine Or.inr ⟨fun m hm => ?_, hreplaces.onConflict, line, hline, c', hc',
          sqlEq_trans hread hsame⟩
        rw [← Bool.not_eq_true]
        intro hagain
        obtain ⟨m', hm', hid, hemail, -⟩ := h.old m hm
        have hfound' : p.db.mailboxByEmail c.primaryEmail = some m' :=
          mailboxByEmail_eq_some.mpr ⟨hm', hemail ▸ hagain⟩
        obtain rfl : existing = m' := Option.some.inj (hfound.symm.trans hfound')
        exact id_ne_of_get?_none hm hget hid.symm
  · rintro ⟨hnew, hmailbox⟩
    refine ⟨htext.mpr hnew, ?_⟩
    rcases hmailbox with
      ⟨m, hm, hsame, hreplaces⟩ | ⟨hold, hconflict, line, hline, c', hc', hsame⟩
    · obtain ⟨m', hm', -, hemail, hiff⟩ := h.old m hm
      exact ⟨m', mailboxByEmail_eq_some.mpr ⟨hm', hemail ▸ hsame⟩, hiff.mpr hreplaces⟩
    · obtain ⟨m', hm', hread⟩ := h.named line hline c' hc'
      rw [sqlEq_comm] at hread
      have hagain : sqlEq m'.primaryEmail c.primaryEmail = true := sqlEq_trans hread hsame
      refine ⟨m', mailboxByEmail_eq_some.mpr ⟨hm', hagain⟩, ?_⟩
      have hnew : db.mailboxes.get? m'.id = none := by
        rw [Table.get?_eq_none]
        intro m hm hid
        rw [(h.of_old hm' hm hid).1, hold m hm] at hagain
        cases hagain
      obtain ⟨htype, hfree, -⟩ := h.new m' hm' hnew
      exact ⟨hconflict, Or.inr htype, Or.inr hfree⟩

/-- A line adds at most the mailbox whose key it draws, and a drawn key stays new up to
its own line. -/
theorem drawn_run (hdraws : request.DrawsNew now draw db) {before after : List (ℕ × String)}
    {line : ℕ × String} (hsplit : importLines request.content = before ++ line :: after)
    (h : before.foldlM (importLine settings now request draw) { db := db } = some p) :
    p.db.mailboxes.get? (draw line.1).mailboxId = none := by
  have hdistinct := hdraws.distinct
  rw [hsplit, List.pairwise_append] at hdistinct
  refine foldlM_prefix_invariant
    (P := fun _ q => q.db.mailboxes.get? (draw line.1).mailboxId = none) h ?_ ?_
  · refine (hdraws.fresh line ?_).1
    rw [hsplit]
    exact List.mem_append_right _ (List.mem_cons_self ..)
  · intro earlier line' later q q' hearlier _ hq hline
    refine importLine_get?_none hline (Ne.symm (hdistinct.2.2 line' ?_ line
      (List.mem_cons_self ..))) hq
    rw [hearlier]
    exact List.mem_append_right _ (List.mem_cons_self ..)

/-- **A line fails** exactly as the lines before it say. -/
theorem importLine_eq_none_iff_creates (hdraws : request.DrawsNew now draw db)
    {before after : List (ℕ × String)} {line : ℕ × String}
    (hsplit : importLines request.content = before ++ line :: after)
    (h : before.foldlM (importLine settings now request draw) { db := db } = some p) :
    importLine settings now request draw p line = none ↔
      ∃ c, parseMailboxImportLine line.1 line.2 = .ok c ∧
        (c.Creates db before ∧ settings.takesNew (draw line.1).nonce c.primaryEmail
            (c.item request.forceReleaseActiveLeases) = false ∨
          request.Rewrites now db before c ∧ settings.takes (draw line.1).nonce
            (c.item request.forceReleaseActiveLeases) = false) := by
  have hfree : ∀ line ∈ before, ¬ db.Claimed now (draw line.1).mailboxId := by
    intro line' hline'
    refine (hdraws.fresh line' ?_).2
    rw [hsplit]
    exact List.mem_append_left _ hline'
  have hknown := known_run hfree h
  have hseen : Seen before p := seen_run rfl h
  rw [importLine_eq_none_iff (drawn_run hdraws hsplit h)]
  refine exists_congr fun c => and_congr_right fun _ => ?_
  constructor
  · rintro ⟨htext, ⟨hnew, htakes⟩ | ⟨existing, hfound, hreplaces, htakes⟩⟩
    · exact Or.inl ⟨hknown.creates_iff.mp hnew, htakes⟩
    · exact Or.inr ⟨(hknown.rewrites_iff hseen).mp ⟨htext, existing, hfound, hreplaces⟩, htakes⟩
  · rintro (⟨hcreates, htakes⟩ | ⟨hrewrites, htakes⟩)
    · refine ⟨fun hmem => ?_, Or.inl ⟨hknown.creates_iff.mpr hcreates, htakes⟩⟩
      obtain ⟨line', hline', c', hc', hsame⟩ := (hseen.mem_iff _).mp hmem
      have hdiffers := hcreates.earlier line' hline' c' hc'
      rw [hsame, sqlEq_self] at hdiffers
      cases hdiffers
    · obtain ⟨htext, existing, hfound, hreplaces⟩ := (hknown.rewrites_iff hseen).mpr hrewrites
      exact ⟨htext, Or.inr ⟨existing, hfound, hreplaces, htakes⟩⟩

/-- **An import fails** exactly if it is to store something too wide. -/
theorem importMailboxes_eq_none_iff (hdraws : request.DrawsNew now draw db) :
    importMailboxes settings now request draw db = none ↔
      request.Overflows settings now draw db := by
  have hfails : importMailboxes settings now request draw db = none ↔
      (importLines request.content).foldlM (importLine settings now request draw)
        { db := db } = none := by
    unfold importMailboxes
    exact Option.map_eq_none_iff
  rw [hfails]
  constructor
  · intro hnone
    obtain ⟨before, line, after, hsplit, q, hq, hline⟩ := foldlM_eq_none_iff.mp hnone
    obtain ⟨c, hparsed, hwide⟩ := (importLine_eq_none_iff_creates hdraws hsplit hq).mp hline
    exact ⟨before, line, after, c, hsplit, hparsed, hwide⟩
  · rintro ⟨before, line, after, c, hsplit, hparsed, hwide⟩
    rw [hsplit, List.foldlM_append]
    cases hq : before.foldlM (importLine settings now request draw) { db := db } with
    | none => rfl
    | some q =>
        have hline := (importLine_eq_none_iff_creates hdraws hsplit hq).mpr ⟨c, hparsed, hwide⟩
        rw [Option.bind_eq_bind, Option.bind_some, List.foldlM_cons, hline]
        rfl

/-! ## The import -/

/-- **Exactly when an import is accounted for**: no mailbox that it replaces is named by
two spellings of its address, and no line is to store a value too wide for its column. -/
theorem import_accounted_iff (hdraws : request.DrawsNew now draw db) :
    (∃ response db', importMailboxes settings now request draw db = some (response, db') ∧
        ImportAccounted settings now request draw db response db') ↔
      ¬ request.NamesTwice now db ∧ ¬ request.Overflows settings now draw db := by
  rw [← importMailboxes_eq_none_iff hdraws]
  constructor
  · rintro ⟨response, db', h, haccounted⟩
    refine ⟨(returned_accounted_iff h).mp haccounted, ?_⟩
    rw [h]
    exact Option.some_ne_none _
  · rintro ⟨honce, hreturns⟩
    obtain ⟨⟨response, db'⟩, h⟩ := Option.ne_none_iff_exists'.mp hreturns
    exact ⟨response, db', h, (returned_accounted_iff h).mpr honce⟩

end

section Sample

attribute [local instance] plainAddresses

def claimedMailbox : Mailbox where
  id := "m"
  primaryEmail := "bob@b.co"
  accessTokenCiphertext := some "token"

def liveClaim : MailboxLeaseClaim where
  leaseId := "l"
  mailboxId := some "m"
  providerResourceId := none
  clientKeyId := none
  mode := .mailRead
  allocatedEmail := none
  expiresAt := 10

def claimedDatabase : Database where
  mailboxes := ⟨[claimedMailbox], List.pairwise_singleton _ _⟩
  leaseClaims := ⟨[liveClaim], List.pairwise_singleton _ _⟩

def drawnByNumber (lineNumber : ℕ) : ImportDraw :=
  ⟨String.ofList (List.replicate lineNumber 'x'), 65 + lineNumber⟩

def forcedImport : MailboxImportRequest where
  content := "bob@b.co----p----c----t\neve@b.co----p----c----t"
  forceReleaseActiveLeases := true

theorem forcedImport_drawsNew : forcedImport.DrawsNew 0 drawnByNumber claimedDatabase := by
  have hnew : (importLines forcedImport.content).all (fun line =>
      claimedMailbox.id != (drawnByNumber line.1).mailboxId &&
        liveClaim.mailboxId != some (drawnByNumber line.1).mailboxId) = true := by decide +kernel
  rw [List.all_eq_true] at hnew
  constructor
  · intro line hline
    obtain ⟨hmailbox, hclaim⟩ := Bool.and_eq_true_iff.mp (hnew line hline)
    constructor
    · rw [Table.get?_eq_none]
      intro m hm
      obtain rfl : m = claimedMailbox := List.mem_singleton.mp hm
      exact bne_iff_ne.mp hmailbox
    · rintro ⟨claim, hclaimed, howner, -⟩
      obtain rfl : claim = liveClaim := List.mem_singleton.mp hclaimed
      exact bne_iff_ne.mp hclaim howner
  · decide +kernel

theorem import_accounted_sample : ∃ response db',
    importMailboxes sampleTokenSettings 0 forcedImport drawnByNumber claimedDatabase =
      some (response, db') ∧
    ImportAccounted sampleTokenSettings 0 forcedImport drawnByNumber claimedDatabase response
      db' := by
  have hparsed : parsedLines forcedImport.content =
      [.ok ⟨"bob@b.co", "p", "c", "t"⟩, .ok ⟨"eve@b.co", "p", "c", "t"⟩] := by decide +kernel
  have hnot : sqlEq claimedMailbox.primaryEmail "eve@b.co" = false := by decide +kernel
  have hsome : (importMailboxes sampleTokenSettings 0 forcedImport drawnByNumber
      claimedDatabase).isSome := by decide +kernel
  refine (import_accounted_iff forcedImport_drawsNew).mpr ⟨?_, ?_⟩
  · rintro ⟨m, hm, -, c, c', hc, hc', hne, hsame, hsame'⟩
    obtain rfl : m = claimedMailbox := List.mem_singleton.mp hm
    have honly : ∀ c : MailboxCredentials, .ok c ∈ parsedLines forcedImport.content →
        sqlEq claimedMailbox.primaryEmail c.primaryEmail = true →
        c.primaryEmail = "bob@b.co" := by
      intro c hc hsame
      rw [hparsed] at hc
      simp only [List.mem_cons, Except.ok.injEq, List.not_mem_nil, or_false] at hc
      rcases hc with rfl | rfl
      · rfl
      · rw [hnot] at hsame
        cases hsame
    exact hne ((honly c hc hsame).trans (honly c' hc' hsame').symm)
  · rw [← importMailboxes_eq_none_iff forcedImport_drawsNew]
    intro hnone
    rw [hnone] at hsome
    cases hsome

def respelledImport : MailboxImportRequest where
  content := "bob@b.co----p----c----t\nBob@b.co----q----c----u"
  forceReleaseActiveLeases := true

/-- **Two versions in one import**: the second spelling is no duplicate for the
batch, and names the same mailbox for the database. -/
theorem respelled_replaced_twice : ∃ response db',
    importMailboxes sampleTokenSettings 0 respelledImport drawnByNumber claimedDatabase =
      some (response, db') ∧
    ¬ ImportAccounted sampleTokenSettings 0 respelledImport drawnByNumber claimedDatabase
      response db' := by
  have hsome : (importMailboxes sampleTokenSettings 0 respelledImport drawnByNumber
      claimedDatabase).isSome := by decide +kernel
  have hversions : ((importMailboxes sampleTokenSettings 0 respelledImport drawnByNumber
      claimedDatabase).bind fun result => result.2.mailboxes.get? "m").map
        Mailbox.tokenVersion = some 3 := by decide +kernel
  obtain ⟨⟨response, db'⟩, h⟩ := Option.isSome_iff_exists.mp hsome
  refine ⟨response, db', h, fun haccounted => ?_⟩
  rw [h] at hversions
  obtain ⟨m', hget, hthree⟩ := Option.map_eq_some_iff.mp hversions
  have hget : db'.mailboxes.get? claimedMailbox.id = some m' := hget
  have hchanged : db'.mailboxes.get? claimedMailbox.id ≠ some claimedMailbox := by
    rw [hget]
    intro heq
    rw [Option.some.inj heq] at hthree
    cases hthree
  obtain ⟨m'', hget', hversion, -⟩ :=
    haccounted.replaced claimedMailbox (List.mem_singleton_self _) hchanged
  rw [hget] at hget'
  rw [← Option.some.inj hget', hthree] at hversion
  cases hversion

end Sample

end MailboxService
