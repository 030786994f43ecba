import MailboxService.Ascii
import MailboxService.Foundation.Paging

/-!
# Pages of leases

`list_leases` counts the leases in one query and reads a page of them in
another, which joins them with their mailboxes and orders them by creation time
alone. A lease on a provider resource is counted and has no mailbox; and equal
creation times come in another order for each page.

`lease_pages_cover_iff` says when the pages show every lease once.
-/

namespace MailboxService

open Foundation

/-! ## Responses -/

structure LeaseListItemResponse where
  id : String
  /-- The join leaves no null. -/
  mailboxId : Option String
  primaryEmail : String
  allocatedEmail : Option String := none
  clientKeyId : Option String := none
  clientTag : Option String := none
  purpose : Option String := none
  mode : LeaseMode
  status : String
  expiresAt : ℕ
  releasedAt : Option ℕ := none
  createdAt : ℕ
  deriving DecidableEq, Repr

structure LeaseListResponse where
  total : ℕ
  page : ℕ
  pageSize : ℕ
  totalPages : ℕ
  items : List LeaseListItemResponse
  deriving DecidableEq, Repr

section

variable [Collation]

/-! ## Queries -/

/-- Each lease with the address of its mailbox, by an inner join. -/
def Database.leaseRows (db : Database) : List (Lease × String) :=
  db.leases.rows.filterMap fun lease =>
    (lease.mailboxId.bind db.mailboxes.get?).map fun mailbox => (lease, mailbox.primaryEmail)

def Lease.listedStatus (lease : Lease) (now : ℕ) : String :=
  if lease.releasedAt.isSome then "released"
  else if isExpired lease.expiresAt now then "expired"
  else "active"

def leaseListItem (now : ℕ) (row : Lease × String) : LeaseListItemResponse where
  id := row.1.id
  mailboxId := row.1.mailboxId
  primaryEmail := row.2
  allocatedEmail := row.1.allocatedEmail
  clientKeyId := row.1.clientKeyId
  clientTag := row.1.clientTag
  purpose := row.1.purpose
  mode := row.1.mode
  status := row.1.listedStatus now
  expiresAt := row.1.expiresAt
  releasedAt := row.1.releasedAt
  createdAt := row.1.createdAt

/-- `list_leases`, on the rows in the order that the database returns them in. -/
def listLeases (db : Database) (ordered : List (Lease × String)) (now page pageSize : ℕ) :
    LeaseListResponse :=
  let totalLeaseCount := db.leases.rows.length
  { total := totalLeaseCount
    page
    pageSize
    totalPages := max 1 ((totalLeaseCount + pageSize - 1) / pageSize)
    items := (pageOf pageSize page ordered).map (leaseListItem now) }

/-- What `ORDER BY created_at DESC` may return. -/
def LeaseOrdering (db : Database) (ordered : List (Lease × String)) : Prop :=
  IsOrdering (fun row => row.1.createdAt) db.leaseRows ordered

/-- Pages 1 to `total_pages`, each queried at a time of its own. -/
def leasePages (db : Database) (orderings : ℕ → List (Lease × String)) (now : ℕ → ℕ)
    (pageSize : ℕ) : List LeaseListItemResponse :=
  (List.range (listLeases db (orderings 1) (now 1) 1 pageSize).totalPages).flatMap fun i =>
    (listLeases db (orderings (i + 1)) (now (i + 1)) (i + 1) pageSize).items

/-- **The pages cover the leases**: whatever order the queries return, every
lease is shown once, and the reported total is their number. -/
def PagesCoverLeases (db : Database) (pageSize : ℕ) : Prop :=
  ∀ (orderings : ℕ → List (Lease × String)) (now : ℕ → ℕ),
    (∀ page, LeaseOrdering db (orderings page)) →
    ((leasePages db orderings now pageSize).map (·.id)).Perm (db.leases.rows.map Lease.id) ∧
      ∀ page, (leasePages db orderings now pageSize).length =
        (listLeases db (orderings page) (now page) page pageSize).total

def Database.HasMailbox (db : Database) (lease : Lease) : Prop :=
  ∃ mailboxId ∈ lease.mailboxId, (db.mailboxes.get? mailboxId).isSome

/-! ## Rows and leases -/

variable {db : Database} {pageSize : ℕ} {orderings : ℕ → List (Lease × String)} {now : ℕ → ℕ}

omit [Collation] in
/-- What an inner join keeps of its left side. -/
theorem join_fst {α β γ : Type} (f : α → Option β) (g : β → γ) (l : List α) :
    (l.filterMap fun a => (f a).map fun b => (a, g b)).map Prod.fst =
      l.filter fun a => (f a).isSome := by
  induction l with
  | nil => rfl
  | cons a rest ih =>
      cases h : f a with
      | none => simp [h, ih]
      | some b => simp [h, ih]

theorem leaseRows_fst : db.leaseRows.map Prod.fst =
    db.leases.rows.filter fun lease => (lease.mailboxId.bind db.mailboxes.get?).isSome :=
  join_fst _ _ _

theorem hasMailbox_iff {lease : Lease} :
    db.HasMailbox lease ↔ (lease.mailboxId.bind db.mailboxes.get?).isSome = true := by
  unfold Database.HasMailbox
  cases lease.mailboxId <;> simp

theorem leaseRows_fst_eq (h : ∀ lease ∈ db.leases, db.HasMailbox lease) :
    db.leaseRows.map Prod.fst = db.leases.rows := by
  rw [leaseRows_fst]
  apply List.filter_eq_self.mpr
  intro lease hlease
  exact hasMailbox_iff.mp (h lease hlease)

theorem splitsTie_leaseRows (h : ∀ lease ∈ db.leases, db.HasMailbox lease) (n : ℕ) :
    SplitsTie (fun row => row.1.createdAt) db.leaseRows n ↔
      SplitsTie Lease.createdAt db.leases.rows n := by
  unfold SplitsTie
  rw [← leaseRows_fst_eq h]
  simp only [List.countP_map]
  rfl

/-! ## Pages -/

def Database.leasePageCount (db : Database) (pageSize : ℕ) : ℕ :=
  max 1 ((db.leases.rows.length + pageSize - 1) / pageSize)

theorem map_leasePages {β : Type} (f : LeaseListItemResponse → β) (g : Lease × String → β)
    (h : ∀ now row, f (leaseListItem now row) = g row) :
    (leasePages db orderings now pageSize).map f =
      (pagesUpTo pageSize (db.leasePageCount pageSize) orderings).map g := by
  unfold leasePages pagesUpTo listLeases Database.leasePageCount
  simp only [List.map_flatMap, List.map_map]
  congr 1
  funext i
  apply List.map_congr_left
  intro row _
  exact h (now (i + 1)) row

theorem ids_leasePages : (leasePages db orderings now pageSize).map (·.id) =
    (pagesUpTo pageSize (db.leasePageCount pageSize) orderings).map fun row => row.1.id :=
  map_leasePages (·.id) (fun row => row.1.id) fun _ _ => rfl

theorem length_le_leasePageCount (hsize : 1 ≤ pageSize) :
    db.leases.rows.length ≤ db.leasePageCount pageSize * pageSize := by
  have hceil : db.leases.rows.length ≤
      (db.leases.rows.length + pageSize - 1) / pageSize * pageSize := by
    have h := Nat.div_add_mod (db.leases.rows.length + pageSize - 1) pageSize
    have hmod := Nat.mod_lt (db.leases.rows.length + pageSize - 1) hsize
    rw [Nat.mul_comm] at h
    omega
  exact hceil.trans (Nat.mul_le_mul_right _ (le_max_right _ _))

theorem hasMailbox_of_shown {lease : Lease} (horder : ∀ page, LeaseOrdering db (orderings page))
    (hlease : lease ∈ db.leases)
    (h : lease.id ∈ (leasePages db orderings now pageSize).map (·.id)) : db.HasMailbox lease := by
  rw [ids_leasePages, List.mem_map] at h
  obtain ⟨row, hrow, hid⟩ := h
  obtain ⟨i, -, hpage⟩ := List.mem_flatMap.mp hrow
  have hordered : row ∈ orderings (i + 1) := List.mem_of_mem_drop (List.mem_of_mem_take hpage)
  have hjoined : row.1 ∈ db.leaseRows.map Prod.fst :=
    List.mem_map_of_mem ((horder (i + 1)).perm.mem_iff.mp hordered)
  rw [leaseRows_fst, List.mem_filter] at hjoined
  have hsame : row.1 = lease := Table.eq_of_key hjoined.1 hlease hid
  rw [← hsame]
  exact hasMailbox_iff.mpr hjoined.2

theorem exists_leaseOrderings (db : Database) :
    ∃ orderings : ℕ → List (Lease × String), ∀ page, LeaseOrdering db (orderings page) := by
  obtain ⟨ordered, h⟩ := exists_ordering (fun row : Lease × String => row.1.createdAt) db.leaseRows
  exact ⟨fun _ => ordered, fun _ => h⟩

theorem pagesCoverLeases_of (hsize : 1 ≤ pageSize) (hmailbox : ∀ lease ∈ db.leases, db.HasMailbox lease)
    (htie : ∀ k, ¬ SplitsTie Lease.createdAt db.leases.rows (k * pageSize)) :
    PagesCoverLeases db pageSize := by
  intro orderings now horder
  have hperm : (pagesUpTo pageSize (db.leasePageCount pageSize) orderings).Perm db.leaseRows := by
    apply pagesUpTo_perm orderings horder
    · intro k
      rw [splitsTie_leaseRows hmailbox]
      exact htie k
    · rw [← List.length_map Prod.fst, leaseRows_fst_eq hmailbox]
      exact length_le_leasePageCount hsize
  have hids : ((leasePages db orderings now pageSize).map (·.id)).Perm
      (db.leases.rows.map Lease.id) := by
    rw [ids_leasePages, ← leaseRows_fst_eq hmailbox, List.map_map]
    exact hperm.map _
  refine ⟨hids, fun page => ?_⟩
  have hlength := hids.length_eq
  rw [List.length_map, List.length_map] at hlength
  exact hlength

theorem hasMailbox_of_pagesCover (h : PagesCoverLeases db pageSize) :
    ∀ lease ∈ db.leases, db.HasMailbox lease := by
  intro lease hlease
  obtain ⟨orderings, horder⟩ := exists_leaseOrderings db
  obtain ⟨hids, -⟩ := h orderings (fun _ => 0) horder
  apply hasMailbox_of_shown horder hlease
  exact hids.mem_iff.mpr (List.mem_map_of_mem hlease)

theorem not_splitsTie_of_pagesCover (hsize : 1 ≤ pageSize) (h : PagesCoverLeases db pageSize)
    (k : ℕ) : ¬ SplitsTie Lease.createdAt db.leases.rows (k * pageSize) := by
  intro hsplit
  have hmailbox := hasMailbox_of_pagesCover h
  rw [← splitsTie_leaseRows hmailbox] at hsplit
  have hpages : db.leaseRows.length ≤ db.leasePageCount pageSize * pageSize := by
    rw [← List.length_map Prod.fst, leaseRows_fst_eq hmailbox]
    exact length_le_leasePageCount hsize
  obtain ⟨orderings, horder, hrepeat⟩ := exists_pagesUpTo_repeat hsize hpages hsplit
  obtain ⟨hids, -⟩ := h orderings (fun _ => 0) horder
  -- a row that is shown twice is a lease that is there once
  apply hrepeat
  apply List.Nodup.of_map fun row : Lease × String => row.1.id
  rw [← ids_leasePages, hids.nodup_iff]
  exact List.pairwise_map.mpr (db.leases.distinct.imp fun hdistinct => hdistinct.1)

/-- **Lease pages.** Whatever the leases, their mailboxes and the page size: the
pages cover the leases exactly if each lease has its mailbox and no page ends
between leases of one creation time. -/
theorem lease_pages_cover_iff (db : Database) (pageSize : ℕ) (hsize : 1 ≤ pageSize) :
    PagesCoverLeases db pageSize ↔
      (∀ lease ∈ db.leases, db.HasMailbox lease) ∧
        ∀ page, ¬ SplitsTie Lease.createdAt db.leases.rows (page * pageSize) := by
  constructor
  · intro h
    exact ⟨hasMailbox_of_pagesCover h, not_splitsTie_of_pagesCover hsize h⟩
  · rintro ⟨hmailbox, htie⟩
    exact pagesCoverLeases_of hsize hmailbox htie

end

section Sample

attribute [local instance] asciiPlatform

def pagedLease (id : String) (mailboxId : Option String) (createdAt : ℕ) : Lease where
  id := id
  mailboxId := mailboxId
  providerResourceId := none
  clientKeyId := none
  allocatedEmail := none
  mode := .mailRead
  expiresAt := createdAt + 60
  createdAt := createdAt

def pagedDatabase : Database where
  mailboxes := ⟨[{ id := "mailbox", primaryEmail := "paged@x.org" }], List.pairwise_singleton _ _⟩
  leases :=
    ⟨[pagedLease "first" (some "mailbox") 1, pagedLease "second" (some "mailbox") 2], by decide⟩

theorem lease_pages_cover_sample : PagesCoverLeases pagedDatabase 1 := by
  refine (lease_pages_cover_iff pagedDatabase 1 le_rfl).mpr ⟨?_, ?_⟩
  · intro lease hlease
    simp only [pagedDatabase, Table.mem_def, List.mem_cons, List.not_mem_nil, or_false] at hlease
    rcases hlease with rfl | rfl
    · exact ⟨"mailbox", rfl, by decide⟩
    · exact ⟨"mailbox", rfl, by decide⟩
  · rintro page ⟨t, hahead, hlevel⟩
    simp only [pagedDatabase, pagedLease, List.countP_cons, List.countP_nil,
      decide_eq_true_eq] at hahead hlevel
    split_ifs at hahead hlevel <;> omega

def resourceDatabase : Database where
  leases := ⟨[pagedLease "resource" none 1], List.pairwise_singleton _ _⟩

def tiedDatabase : Database where
  mailboxes := pagedDatabase.mailboxes
  leases :=
    ⟨[pagedLease "first" (some "mailbox") 1, pagedLease "second" (some "mailbox") 1], by decide⟩

/-- A lease on a provider resource is counted, and is on no page; and of two
leases of one moment, one may be on both pages of size 1. -/
theorem lease_pages_miss_leases :
    ¬ PagesCoverLeases resourceDatabase 20 ∧ ¬ PagesCoverLeases tiedDatabase 1 := by
  constructor
  · intro h
    obtain ⟨mailboxId, hmailbox, -⟩ :=
      hasMailbox_of_pagesCover h (pagedLease "resource" none 1) (List.mem_singleton_self _)
    cases hmailbox
  · intro h
    exact not_splitsTie_of_pagesCover le_rfl h 1 ⟨1, by decide, by decide⟩

end Sample

end MailboxService
