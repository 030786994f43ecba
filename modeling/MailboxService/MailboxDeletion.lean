import Mathlib.Data.List.Sort
import MailboxService.Foundation.Loop
import MailboxService.Ascii
import MailboxService.MailboxAdmin

/-!
# Deletion of mailboxes

The two deletion endpoints of `main.py`: by ids, and of all INVALID mailboxes
in chunks of rows that no other session holds locked. A conflict with a live
claim rolls back whatever the chunks before have deleted.

Ids are compared exactly, as the service draws and hands them out. The database
ignores case there, so that an id sent in other letters would name a row too.

`deletions_safe` says what either endpoint leaves behind.
-/

namespace MailboxService

open Foundation

structure AdminDeleteInvalidResult where
  deletedMailboxIds : List String
  deletedPrimaryEmails : List String
  deriving DecidableEq, Repr

/-- What a chunk finds beside the database: the time, and the mailboxes whose
rows other sessions hold locked. -/
structure ChunkView where
  now : ℕ
  locked : String → Bool

section

variable [Platform]

/-! ## The chunk loop -/

/-- The first INVALID mailboxes that are not locked elsewhere, by id. -/
def Database.lockInvalidMailboxes (db : Database) (view : ChunkView) (batchSize : ℕ) :
    List Mailbox :=
  ((db.mailboxes.select fun m => m.status = .invalid && !view.locked m.id).insertionSort
    fun a b => a.id ≤ b.id).take batchSize

structure ChunkState where
  db : Database
  result : AdminDeleteInvalidResult

def ChunkState.deleteChunk (s : ChunkState) (now : ℕ) (forceReleaseActiveLeases : Bool)
    (chunk : List Mailbox) : ChunkState :=
  let chunkMailboxIds := chunk.map Mailbox.id
  let released :=
    if forceReleaseActiveLeases then
      chunkMailboxIds.foldl (fun db id => forceReleaseClaimsAndLeases db now id) s.db
    else s.db
  { db := released.deleteMailboxes chunkMailboxIds
    result :=
      { deletedMailboxIds := s.result.deletedMailboxIds ++ chunkMailboxIds
        deletedPrimaryEmails :=
          s.result.deletedPrimaryEmails ++ chunk.map Mailbox.primaryEmail } }

/-- One round of `delete_invalid_mailboxes_in_chunks`. -/
def deleteInvalidChunk (views : ℕ → ChunkView) (batchSize : ℕ)
    (forceReleaseActiveLeases : Bool) (chunkIndex : ℕ) (s : ChunkState) :
    Round ChunkState (Except ActiveLeaseClaimConflict (AdminDeleteInvalidResult × Database)) :=
  let view := views chunkIndex
  let lockedRows := s.db.lockInvalidMailboxes view batchSize
  if lockedRows = [] then .leave (.ok (s.result, s.db))
  else
    let chunkIds := lockedRows.map Mailbox.id
    -- the status is confirmed under the lock
    let stillInvalid := s.db.mailboxes.select fun m =>
      chunkIds.contains m.id && m.status = .invalid
    let chunkMailboxIds := stillInvalid.map Mailbox.id
    if chunkMailboxIds = [] then .leave (.ok (s.result, s.db))
    else
      let blocked := s.db.activeClaimMailboxIds view.now chunkMailboxIds
      if blocked ≠ [] ∧ forceReleaseActiveLeases = false then .leave (.error ⟨blocked⟩)
      else
        let next := s.deleteChunk view.now forceReleaseActiveLeases stillInvalid
        if lockedRows.length < batchSize then .leave (.ok (next.result, next.db))
        else .again next

/-- `delete_invalid_mailboxes_in_chunks`, for a number of rounds. -/
def deleteInvalidMailboxesInChunks (db : Database) (views : ℕ → ChunkView) (batchSize : ℕ)
    (forceReleaseActiveLeases : Bool) (rounds : ℕ) :
    Option (Except ActiveLeaseClaimConflict (AdminDeleteInvalidResult × Database)) :=
  loop (deleteInvalidChunk views batchSize forceReleaseActiveLeases) rounds 0 ⟨db, [], []⟩

/-! ## The endpoints -/

/-- The request's session commits a result and rolls an exception back. -/
def settleDeletion {α : Type} (db : Database) :
    Except ActiveLeaseClaimConflict (α × Database) →
      Except ActiveLeaseClaimConflict α × Database
  | .ok (result, db') => (.ok result, db')
  | .error conflict => (.error conflict, db)

def deleteMailboxes (db : Database) (now : ℕ) (mailboxIds : List String)
    (forceReleaseActiveLeases : Bool) :
    Except ActiveLeaseClaimConflict AdminDeleteResult × Database :=
  settleDeletion db (deleteMailboxesByIds db now mailboxIds forceReleaseActiveLeases)

/-- `delete_invalid_mailboxes`, whose batch size is 25. -/
def deleteInvalidMailboxes (db : Database) (views : ℕ → ChunkView) (batchSize : ℕ)
    (forceReleaseActiveLeases : Bool) (rounds : ℕ) :
    Option (Except ActiveLeaseClaimConflict AdminDeleteInvalidResult × Database) :=
  (deleteInvalidMailboxesInChunks db views batchSize forceReleaseActiveLeases rounds).map
    (settleDeletion db)

/-! ## What a deletion does -/

def Database.Claimed (db : Database) (now : ℕ) (mailboxId : String) : Prop :=
  ∃ c ∈ db.leaseClaims, c.mailboxId = some mailboxId ∧ c.liveAt now = true

/-- **Removal** of exactly these mailboxes with all their leases and claims. -/
structure Removes (ids : List String) (db db' : Database) : Prop where
  mailboxes : ∀ m, m ∈ db'.mailboxes ↔ m ∈ db.mailboxes ∧ m.id ∉ ids
  leases : ∀ l, l ∈ db'.leases ↔ l ∈ db.leases ∧ ∀ id ∈ l.mailboxId, id ∉ ids
  leaseClaims : ∀ c, c ∈ db'.leaseClaims ↔ c ∈ db.leaseClaims ∧ ∀ id ∈ c.mailboxId, id ∉ ids
  others : db'.providerResources = db.providerResources ∧
    db'.providerOperations = db.providerOperations ∧ db'.usageSites = db.usageSites

def DeletesByIds (db : Database) (now : ℕ) (mailboxIds : List String) (force : Bool) :
    Except ActiveLeaseClaimConflict AdminDeleteResult × Database → Prop
  | (.error conflict, db') =>
      db' = db ∧ force = false ∧ ∃ id ∈ conflict.mailboxIds, id ∈ mailboxIds ∧ db.Claimed now id
  | (.ok result, db') =>
      Removes result.deletedMailboxIds db db' ∧
        (∀ id, id ∈ result.deletedMailboxIds ↔ id ∈ mailboxIds ∧ ∃ m ∈ db.mailboxes, m.id = id) ∧
        (force = false → ∀ id ∈ result.deletedMailboxIds, ¬ db.Claimed now id)

/-- What the deletion of INVALID mailboxes comes to: those that are deleted are
INVALID and not locked when their chunk is; those that no chunk finds locked
are deleted. -/
def DeletesInvalid (db : Database) (views : ℕ → ChunkView) (force : Bool) :
    Except ActiveLeaseClaimConflict AdminDeleteInvalidResult × Database → Prop
  | (.error conflict, db') =>
      db' = db ∧ force = false ∧ ∃ id ∈ conflict.mailboxIds,
        (∃ m ∈ db.mailboxes, m.id = id ∧ m.status = .invalid) ∧
          ∃ k, db.Claimed (views k).now id
  | (.ok result, db') =>
      Removes result.deletedMailboxIds db db' ∧
        (∀ id ∈ result.deletedMailboxIds,
          (∃ m ∈ db.mailboxes, m.id = id ∧ m.status = .invalid) ∧
          ∃ k, (views k).locked id = false ∧ (force = false → ¬ db.Claimed (views k).now id)) ∧
        (∀ m ∈ db.mailboxes, m.status = .invalid → (∀ k, (views k).locked m.id = false) →
          m.id ∈ result.deletedMailboxIds)

/-! ## Removal -/

theorem Removes.refl (db : Database) : Removes [] db db := by
  constructor <;> simp

theorem Removes.trans {ids ids' : List String} {db db' db'' : Database}
    (h : Removes ids db db') (h' : Removes ids' db' db'') : Removes (ids ++ ids') db db'' := by
  constructor
  · intro m
    rw [h'.mailboxes, h.mailboxes, List.mem_append, not_or, and_assoc]
  · intro l
    rw [h'.leases, h.leases, and_assoc]
    simp only [List.mem_append, not_or, forall_and]
  · intro c
    rw [h'.leaseClaims, h.leaseClaims, and_assoc]
    simp only [List.mem_append, not_or, forall_and]
  · obtain ⟨hresources, hoperations, hsites⟩ := h.others
    obtain ⟨hresources', hoperations', hsites'⟩ := h'.others
    exact ⟨hresources'.trans hresources, hoperations'.trans hoperations, hsites'.trans hsites⟩

theorem Removes.claimed_iff {ids : List String} {db db' : Database} (h : Removes ids db db')
    {now : ℕ} {id : String} (hid : id ∉ ids) : db'.Claimed now id ↔ db.Claimed now id := by
  constructor
  · rintro ⟨c, hc, hmailbox, hlive⟩
    exact ⟨c, ((h.leaseClaims c).mp hc).1, hmailbox, hlive⟩
  · rintro ⟨c, hc, hmailbox, hlive⟩
    refine ⟨c, (h.leaseClaims c).mpr ⟨hc, ?_⟩, hmailbox, hlive⟩
    intro k hk
    rw [hmailbox, Option.mem_some] at hk
    exact hk ▸ hid

omit [Platform] in
theorem any_contains_eq_false {ids : List String} {o : Option String} :
    o.any (ids.contains ·) = false ↔ ∀ id ∈ o, id ∉ ids := by
  cases o <;> simp

theorem removes_deleteMailboxes (db : Database) (ids : List String) :
    Removes ids db (db.deleteMailboxes ids) := by
  constructor
  · intro m
    show m ∈ db.mailboxes.deleteWhere _ ↔ _
    rw [Table.mem_deleteWhere, ← Bool.not_eq_true, List.contains_iff_mem]
  · intro l
    show l ∈ db.leases.deleteWhere _ ↔ _
    rw [Table.mem_deleteWhere, any_contains_eq_false]
  · intro c
    show c ∈ db.leaseClaims.deleteWhere _ ↔ _
    rw [Table.mem_deleteWhere, any_contains_eq_false]
  · exact ⟨rfl, rfl, rfl⟩

theorem Removes.of_forceRelease {db db' : Database} {now : ℕ} {id : String} {ids : List String}
    (hid : id ∈ ids) (h : Removes ids (forceReleaseClaimsAndLeases db now id) db') :
    Removes ids db db' := by
  constructor
  · exact h.mailboxes
  · intro l
    rw [h.leases]
    refine and_congr_left fun hl => ?_
    show l ∈ db.leases.updateWhere _ _ (lease_keeps_releasedAt now) ↔ _
    rw [Table.mem_updateWhere]
    constructor
    · rintro ⟨r, hr, rfl⟩
      split at hl
      · rename_i hp
        rw [Bool.and_eq_true, decide_eq_true_eq] at hp
        exact absurd hid (hl id hp.1)
      · rename_i hp
        rw [if_neg hp]
        exact hr
    · intro hmem
      refine ⟨l, hmem, (if_neg ?_).symm⟩
      intro hp
      rw [Bool.and_eq_true, decide_eq_true_eq] at hp
      exact hl id hp.1 hid
  · intro c
    rw [h.leaseClaims]
    refine and_congr_left fun hc => ?_
    show c ∈ db.leaseClaims.deleteWhere _ ↔ _
    rw [Table.mem_deleteWhere, decide_eq_false_iff_not]
    exact and_iff_left fun hmailbox => hc id hmailbox hid
  · exact h.others

theorem removes_forced (now : ℕ) (ids : List String) (db : Database) :
    Removes ids db ((ids.foldl (fun db id => forceReleaseClaimsAndLeases db now id)
      db).deleteMailboxes ids) := by
  have hall : ∀ (some : List String) (db : Database), some ⊆ ids →
      Removes ids db ((some.foldl (fun db id => forceReleaseClaimsAndLeases db now id)
        db).deleteMailboxes ids) := by
    intro some
    induction some with
    | nil => exact fun db _ => removes_deleteMailboxes db ids
    | cons id some ih =>
        intro db hsub
        have hrest := ih (forceReleaseClaimsAndLeases db now id)
          fun x hx => hsub (List.mem_cons_of_mem _ hx)
        exact hrest.of_forceRelease (hsub (List.mem_cons_self ..))
  exact hall ids db (List.Subset.refl _)

theorem removes_released (now : ℕ) (ids : List String) (force : Bool) (db : Database) :
    Removes ids db ((if force then
      ids.foldl (fun db id => forceReleaseClaimsAndLeases db now id) db else db).deleteMailboxes
        ids) := by
  cases force with
  | false => exact removes_deleteMailboxes db ids
  | true => exact removes_forced now ids db

theorem mem_activeClaimMailboxIds {db : Database} {now : ℕ} {ids : List String} {id : String} :
    id ∈ db.activeClaimMailboxIds now ids ↔ id ∈ ids ∧ db.Claimed now id := by
  unfold Database.activeClaimMailboxIds
  rw [List.mem_filterMap]
  constructor
  · rintro ⟨c, hc, hmailbox⟩
    rw [Table.mem_select, hmailbox, Option.any_some, Bool.and_eq_true,
      List.contains_iff_mem] at hc
    exact ⟨hc.2.1, c, hc.1, hmailbox, hc.2.2⟩
  · rintro ⟨hid, c, hc, hmailbox, hlive⟩
    refine ⟨c, ?_, hmailbox⟩
    rw [Table.mem_select, hmailbox, Option.any_some, Bool.and_eq_true, List.contains_iff_mem]
    exact ⟨hc, hid, hlive⟩

/-- No mailbox that the check lets through is claimed. -/
theorem not_claimed_of_unblocked {db : Database} {now : ℕ} {ids : List String} {force : Bool}
    (h : ¬ (db.activeClaimMailboxIds now ids ≠ [] ∧ force = false)) (hforce : force = false)
    {id : String} (hid : id ∈ ids) : ¬ db.Claimed now id := by
  intro hclaimed
  refine h ⟨?_, hforce⟩
  exact List.ne_nil_of_mem (mem_activeClaimMailboxIds.mpr ⟨hid, hclaimed⟩)

/-! ## By ids -/

theorem deletesByIds (db : Database) (now : ℕ) (mailboxIds : List String) (force : Bool) :
    DeletesByIds db now mailboxIds force (deleteMailboxes db now mailboxIds force) := by
  have hfound : ∀ id, id ∈ (mailboxIds.eraseDups.filter fun id =>
      (db.mailboxes.get? id).isSome).insertionSort (· ≤ ·) ↔
      id ∈ mailboxIds ∧ ∃ m ∈ db.mailboxes, m.id = id := by
    intro id
    rw [List.mem_insertionSort, List.mem_filter, List.mem_eraseDups, Option.isSome_iff_exists]
    refine and_congr_right fun _ => exists_congr fun m => ?_
    exact Table.get?_eq_some
  unfold deleteMailboxes deleteMailboxesByIds
  simp only
  split
  · rename_i hblocked
    refine ⟨rfl, hblocked.2, ?_⟩
    obtain ⟨id, hid⟩ := List.exists_mem_of_ne_nil _ hblocked.1
    obtain ⟨hmem, hclaimed⟩ := mem_activeClaimMailboxIds.mp hid
    exact ⟨id, hid, ((hfound id).mp hmem).1, hclaimed⟩
  · rename_i hfree
    refine ⟨removes_released now _ force db, hfound, ?_⟩
    intro hforce id hid
    exact not_claimed_of_unblocked hfree hforce hid

/-! ## In chunks -/

theorem mem_lockInvalidMailboxes {db : Database} {view : ChunkView} {batchSize : ℕ}
    {m : Mailbox} (h : m ∈ db.lockInvalidMailboxes view batchSize) :
    m ∈ db.mailboxes ∧ m.status = .invalid ∧ view.locked m.id = false := by
  have hmem := List.mem_of_mem_take h
  rw [List.mem_insertionSort, Table.mem_select, Bool.and_eq_true, decide_eq_true_eq,
    Bool.not_eq_true'] at hmem
  exact hmem

theorem mem_lockInvalidMailboxes_of_short {db : Database} {view : ChunkView} {batchSize : ℕ}
    (hshort : (db.lockInvalidMailboxes view batchSize).length < batchSize) {m : Mailbox}
    (hm : m ∈ db.mailboxes) (hinvalid : m.status = .invalid) (hfree : view.locked m.id = false) :
    m ∈ db.lockInvalidMailboxes view batchSize := by
  unfold Database.lockInvalidMailboxes at hshort ⊢
  rw [List.length_take] at hshort
  rw [List.take_of_length_le (by omega), List.mem_insertionSort, Table.mem_select,
    Bool.and_eq_true, decide_eq_true_eq, Bool.not_eq_true']
  exact ⟨hm, hinvalid, hfree⟩

section

variable {views : ℕ → ChunkView} {batchSize : ℕ} {force : Bool} {k : ℕ} {s : ChunkState}

/-- A round finds no mailbox, or one with a live claim, or it deletes the
mailboxes that it has locked. -/
theorem deleteInvalidChunk_cases (views : ℕ → ChunkView) (batchSize : ℕ) (force : Bool) (k : ℕ)
    (s : ChunkState) :
    (s.db.lockInvalidMailboxes (views k) batchSize = [] ∧
      deleteInvalidChunk views batchSize force k s = .leave (.ok (s.result, s.db))) ∨
    (force = false ∧ ∃ blocked, deleteInvalidChunk views batchSize force k s =
        .leave (.error ⟨blocked⟩) ∧
      ∃ m ∈ s.db.lockInvalidMailboxes (views k) batchSize,
        m.id ∈ blocked ∧ s.db.Claimed (views k).now m.id) ∨
    ∃ chunk : List Mailbox, chunk ≠ [] ∧
      (∀ m, m ∈ chunk ↔ m ∈ s.db.lockInvalidMailboxes (views k) batchSize) ∧
      (force = false → ∀ m ∈ chunk, ¬ s.db.Claimed (views k).now m.id) ∧
      deleteInvalidChunk views batchSize force k s =
        let next := s.deleteChunk (views k).now force chunk
        if (s.db.lockInvalidMailboxes (views k) batchSize).length < batchSize then
          .leave (.ok (next.result, next.db))
        else .again next := by
  set rows := s.db.lockInvalidMailboxes (views k) batchSize with hrows
  by_cases hnone : rows = []
  · exact Or.inl ⟨hnone, if_pos hnone⟩
  · refine Or.inr ?_
    set chunk := s.db.mailboxes.select fun m =>
      (rows.map Mailbox.id).contains m.id && m.status = .invalid with hchunk
    -- the status is what it was when the rows were locked
    have hmem : ∀ m, m ∈ chunk ↔ m ∈ rows := by
      intro m
      rw [hchunk, Table.mem_select, Bool.and_eq_true, List.contains_iff_mem, decide_eq_true_eq]
      constructor
      · rintro ⟨hm, hid, -⟩
        obtain ⟨r, hr, hrid⟩ := List.mem_map.mp hid
        have heq := Table.eq_of_key (mem_lockInvalidMailboxes hr).1 hm hrid
        exact heq ▸ hr
      · intro hm
        obtain ⟨hmailbox, hinvalid, -⟩ := mem_lockInvalidMailboxes hm
        exact ⟨hmailbox, List.mem_map_of_mem hm, hinvalid⟩
    obtain ⟨r, hr⟩ := List.exists_mem_of_ne_nil _ hnone
    have hne : chunk ≠ [] := List.ne_nil_of_mem ((hmem r).mpr hr)
    have hids : chunk.map Mailbox.id ≠ [] := fun h => hne (List.map_eq_nil_iff.mp h)
    have hround : deleteInvalidChunk views batchSize force k s =
        if s.db.activeClaimMailboxIds (views k).now (chunk.map Mailbox.id) ≠ [] ∧
            force = false then
          .leave (.error ⟨s.db.activeClaimMailboxIds (views k).now (chunk.map Mailbox.id)⟩)
        else if rows.length < batchSize then
          .leave (.ok ((s.deleteChunk (views k).now force chunk).result,
            (s.deleteChunk (views k).now force chunk).db))
        else .again (s.deleteChunk (views k).now force chunk) :=
      (if_neg hnone).trans (if_neg hids)
    by_cases hblocked : s.db.activeClaimMailboxIds (views k).now (chunk.map Mailbox.id) ≠ [] ∧
        force = false
    · left
      refine ⟨hblocked.2, _, hround.trans (if_pos hblocked), ?_⟩
      obtain ⟨id, hid⟩ := List.exists_mem_of_ne_nil _ hblocked.1
      obtain ⟨hchunkId, hclaimed⟩ := mem_activeClaimMailboxIds.mp hid
      obtain ⟨m, hm, rfl⟩ := List.mem_map.mp hchunkId
      exact ⟨m, (hmem m).mp hm, hid, hclaimed⟩
    · right
      refine ⟨chunk, hne, hmem, ?_, hround.trans (if_neg hblocked)⟩
      intro hforce m hm
      exact not_claimed_of_unblocked hblocked hforce (List.mem_map_of_mem hm)

/-- The chunks so far: what they have deleted is gone, and rightly so. -/
structure ChunksDone (db : Database) (views : ℕ → ChunkView) (force : Bool)
    (s : ChunkState) : Prop where
  removes : Removes s.result.deletedMailboxIds db s.db
  deleted : ∀ id ∈ s.result.deletedMailboxIds,
    (∃ m ∈ db.mailboxes, m.id = id ∧ m.status = .invalid) ∧
      ∃ k, (views k).locked id = false ∧ (force = false → ¬ db.Claimed (views k).now id)

/-- **Chunk lemma**: one more chunk. -/
theorem ChunksDone.deleteChunk {db : Database} (h : ChunksDone db views force s)
    {chunk : List Mailbox}
    (hmem : ∀ m, m ∈ chunk ↔ m ∈ s.db.lockInvalidMailboxes (views k) batchSize)
    (hfree : force = false → ∀ m ∈ chunk, ¬ s.db.Claimed (views k).now m.id) :
    ChunksDone db views force (s.deleteChunk (views k).now force chunk) := by
  constructor
  · exact h.removes.trans (removes_released (views k).now (chunk.map Mailbox.id) force s.db)
  · intro id hid
    rcases List.mem_append.mp hid with hid | hid
    · exact h.deleted id hid
    · obtain ⟨m, hm, rfl⟩ := List.mem_map.mp hid
      obtain ⟨hmailbox, hinvalid, hunlocked⟩ := mem_lockInvalidMailboxes ((hmem m).mp hm)
      obtain ⟨hold, hleft⟩ := (h.removes.mailboxes m).mp hmailbox
      refine ⟨⟨m, hold, rfl, hinvalid⟩, k, hunlocked, ?_⟩
      intro hforce hclaimed
      exact hfree hforce m hm ((h.removes.claimed_iff hleft).mpr hclaimed)

/-- A chunk makes the table of mailboxes smaller. -/
theorem deleteChunk_rows {chunk : List Mailbox} (hne : chunk ≠ [])
    (hmem : ∀ m ∈ chunk, m ∈ s.db.mailboxes) (now : ℕ) :
    (s.deleteChunk now force chunk).db.mailboxes.rows.length < s.db.mailboxes.rows.length := by
  have hrows : (s.deleteChunk now force chunk).db.mailboxes =
      s.db.mailboxes.deleteWhere fun m => (chunk.map Mailbox.id).contains m.id := by
    have hforced : ∀ (ids : List String) (db : Database),
        (ids.foldl (fun db id => forceReleaseClaimsAndLeases db now id) db).mailboxes =
          db.mailboxes := by
      intro ids
      induction ids with
      | nil => exact fun db => rfl
      | cons id ids ih => exact fun db => ih _
    unfold ChunkState.deleteChunk Database.deleteMailboxes
    cases force with
    | false => rfl
    | true =>
        simp only [if_true]
        rw [hforced]
  rw [hrows]
  obtain ⟨m, hm⟩ := List.exists_mem_of_ne_nil _ hne
  refine List.length_filter_lt_length_iff_exists.mpr ⟨m, hmem m hm, ?_⟩
  rw [Bool.not_eq_true', Bool.not_eq_false, List.contains_iff_mem]
  exact List.mem_map_of_mem hm

/-- What is left when a chunk is not full is locked elsewhere. -/
theorem ChunksDone.complete {db : Database} (h : ChunksDone db views force s) (k : ℕ)
    (hshort : (s.db.lockInvalidMailboxes (views k) batchSize).length < batchSize) {m : Mailbox}
    (hm : m ∈ db.mailboxes) (hinvalid : m.status = .invalid)
    (hfree : ∀ k, (views k).locked m.id = false) :
    m.id ∈ s.result.deletedMailboxIds ∨
      m ∈ s.db.lockInvalidMailboxes (views k) batchSize := by
  by_cases hid : m.id ∈ s.result.deletedMailboxIds
  · exact Or.inl hid
  · right
    exact mem_lockInvalidMailboxes_of_short hshort ((h.removes.mailboxes m).mpr ⟨hm, hid⟩)
      hinvalid (hfree k)

theorem deleteInvalidChunk_again {db : Database} (h : ChunksDone db views force s)
    {s' : ChunkState} (hround : deleteInvalidChunk views batchSize force k s = .again s') :
    ChunksDone db views force s' ∧
      s'.db.mailboxes.rows.length < s.db.mailboxes.rows.length := by
  rcases deleteInvalidChunk_cases views batchSize force k s with
    ⟨-, hleave⟩ | ⟨-, blocked, hleave, -⟩ | ⟨chunk, hne, hmem, hfree, hnext⟩
  · rw [hleave] at hround
    cases hround
  · rw [hleave] at hround
    cases hround
  · rw [hnext] at hround
    simp only at hround
    split at hround
    · cases hround
    · cases hround
      refine ⟨h.deleteChunk hmem hfree, deleteChunk_rows hne ?_ _⟩
      intro m hm
      exact (mem_lockInvalidMailboxes ((hmem m).mp hm)).1

theorem deleteInvalidChunk_leave {db : Database} (hbatch : 0 < batchSize)
    (h : ChunksDone db views force s)
    {outcome : Except ActiveLeaseClaimConflict (AdminDeleteInvalidResult × Database)}
    (hround : deleteInvalidChunk views batchSize force k s = .leave outcome) :
    DeletesInvalid db views force (settleDeletion db outcome) := by
  rcases deleteInvalidChunk_cases views batchSize force k s with
    ⟨hnone, hleave⟩ | ⟨hforce, blocked, hleave, m, hm, hblocked, hclaimed⟩ |
      ⟨chunk, hne, hmem, hfree, hnext⟩
  · rw [hleave] at hround
    cases hround
    refine ⟨h.removes, h.deleted, ?_⟩
    intro m hm hinvalid hunlocked
    have hshort : (s.db.lockInvalidMailboxes (views k) batchSize).length < batchSize := by
      rw [hnone]
      exact hbatch
    rcases h.complete k hshort hm hinvalid hunlocked with hid | hmem
    · exact hid
    · rw [hnone] at hmem
      cases hmem
  · rw [hleave] at hround
    cases hround
    obtain ⟨hmailbox, hinvalid, -⟩ := mem_lockInvalidMailboxes hm
    obtain ⟨hold, hleft⟩ := (h.removes.mailboxes m).mp hmailbox
    exact ⟨rfl, hforce, m.id, hblocked, ⟨m, hold, rfl, hinvalid⟩, k,
      (h.removes.claimed_iff hleft).mp hclaimed⟩
  · rw [hnext] at hround
    simp only at hround
    split at hround
    · rename_i hshort
      cases hround
      have hdone := h.deleteChunk hmem hfree
      refine ⟨hdone.removes, hdone.deleted, ?_⟩
      intro m hm hinvalid hunlocked
      rcases h.complete k hshort hm hinvalid hunlocked with hid | hlocked
      · exact List.mem_append_left _ hid
      · exact List.mem_append_right _ (List.mem_map_of_mem ((hmem m).mpr hlocked))
    · cases hround

theorem deletesInvalid (db : Database) (views : ℕ → ChunkView) (hbatch : 0 < batchSize)
    (force : Bool) :
    ∃ outcome, DeletesInvalid db views force outcome ∧
      ∀ rounds, db.mailboxes.rows.length < rounds →
        deleteInvalidMailboxes db views batchSize force rounds = some outcome := by
  have hstart : ChunksDone db views force ⟨db, [], []⟩ := ⟨Removes.refl db, by simp⟩
  obtain ⟨outcome, hlawful, hloop⟩ := loop_leaves (deleteInvalidChunk views batchSize force)
    (fun s => s.db.mailboxes.rows.length)
    (fun _ _ _ h hround => deleteInvalidChunk_again h hround)
    (fun _ _ _ h hround => deleteInvalidChunk_leave hbatch h hround) hstart
  refine ⟨settleDeletion db outcome, hlawful, ?_⟩
  intro rounds hrounds
  unfold deleteInvalidMailboxes deleteInvalidMailboxesInChunks
  rw [hloop rounds hrounds]
  rfl

end

/-- **Deletions.** Whatever the database, the ids, the clock, the rows that
other sessions hold locked and the size of a chunk: a deletion ends, and either
raises a conflict with a live claim and leaves the database as it was, or
removes exactly the mailboxes it is to remove with all their leases and claims;
without force none of them has a live claim. -/
theorem deletions_safe (db : Database) (batchSize : ℕ) (h : 0 < batchSize) :
    (∀ now mailboxIds force,
      DeletesByIds db now mailboxIds force (deleteMailboxes db now mailboxIds force)) ∧
    ∀ views force, ∃ outcome, DeletesInvalid db views force outcome ∧
      ∀ rounds, db.mailboxes.rows.length < rounds →
        deleteInvalidMailboxes db views batchSize force rounds = some outcome :=
  ⟨deletesByIds db, fun views force => deletesInvalid db views h force⟩

end

/-! ## A claim in the second chunk -/

section Sample

attribute [local instance] asciiPlatform

def freeInvalid : Mailbox :=
  { id := "m-1", primaryEmail := "free@outlook.com", status := .invalid }

def claimedInvalid : Mailbox :=
  { id := "m-2", primaryEmail := "claimed@outlook.com", status := .invalid }

theorem invalidMailboxes_distinct :
    [claimedInvalid, freeInvalid].Pairwise mailboxSchema.Distinct := by
  decide +kernel

def invalidClaim : MailboxLeaseClaim :=
  { leaseId := "l", mailboxId := some "m-2", providerResourceId := none, clientKeyId := none
    mode := .mailRead, allocatedEmail := none, expiresAt := seconds 10 }

def invalidDatabase : Database where
  mailboxes := ⟨[claimedInvalid, freeInvalid], invalidMailboxes_distinct⟩
  leaseClaims := ⟨[invalidClaim], List.pairwise_singleton _ _⟩

def unlockedAt (now : ℕ) : ℕ → ChunkView := fun _ => ⟨now, fun _ => false⟩

theorem deletions_safe_sample :
    (∀ now mailboxIds force, DeletesByIds invalidDatabase now mailboxIds force
      (deleteMailboxes invalidDatabase now mailboxIds force)) ∧
    ∀ views force, ∃ outcome, DeletesInvalid invalidDatabase views force outcome ∧
      ∀ rounds, invalidDatabase.mailboxes.rows.length < rounds →
        deleteInvalidMailboxes invalidDatabase views 25 force rounds = some outcome :=
  deletions_safe invalidDatabase 25 (by decide)

-- the conflict comes after the first chunk
example : (deleteInvalidMailboxes invalidDatabase (unlockedAt 0) 1 false 3).map Prod.fst =
    some (.error ⟨["m-2"]⟩) := by
  decide +kernel

example : (deleteInvalidMailboxes invalidDatabase (unlockedAt 0) 1 true 3).map Prod.fst =
    some (.ok ⟨["m-1", "m-2"], ["free@outlook.com", "claimed@outlook.com"]⟩) := by
  decide +kernel

end Sample

end MailboxService
