import Mathlib.Data.List.Nodup
import Mathlib.Data.List.Perm.Basic
import Mathlib.Data.List.Sort
import Mathlib.Order.Basic

/-!
# Paging by offset

`ORDER BY key DESC LIMIT size OFFSET offset`, one query for each page. Rows with
equal keys come in any order, and in another one for the next query.

So the pages together have every row once exactly if no group of equal keys lies
on both sides of the end of a page.
-/

namespace MailboxService.Foundation

variable {α κ : Type*} [LinearOrder κ]

/-- What `ORDER BY key DESC` may return. -/
structure IsOrdering (key : α → κ) (rows ordered : List α) : Prop where
  perm : ordered.Perm rows
  descending : ordered.Pairwise fun a b => key b ≤ key a

/-- Page `n`, counted from 1. -/
def pageOf (size n : ℕ) (ordered : List α) : List α :=
  (ordered.drop ((n - 1) * size)).take size

/-- The first `m` pages, each from an ordering of its own. -/
def pagesUpTo (size m : ℕ) (orderings : ℕ → List α) : List α :=
  (List.range m).flatMap fun i => pageOf size (i + 1) (orderings (i + 1))

/-- The first `n` rows end within a group of equal keys. -/
def SplitsTie (key : α → κ) (rows : List α) (n : ℕ) : Prop :=
  ∃ t, rows.countP (t < key ·) < n ∧ n < rows.countP (t ≤ key ·)

variable {key : α → κ} {rows ordered ordered' : List α} {size m n : ℕ} {a b : α}

/-! ## Where no tie is split -/

theorem SplitsTie.lt_length (h : SplitsTie key rows n) : n < rows.length := by
  obtain ⟨t, -, hn⟩ := h
  exact hn.trans_le List.countP_le_length

theorem splitsTie_perm (h : ordered.Perm rows) : SplitsTie key ordered n ↔ SplitsTie key rows n := by
  unfold SplitsTie
  simp only [h.countP_eq]

theorem ahead_lt_of_mem_take (hdesc : ordered.Pairwise fun a b => key b ≤ key a)
    (ha : a ∈ ordered.take n) : ordered.countP (key a < key ·) < n := by
  have hsplit := List.take_append_drop n ordered
  rw [← hsplit] at hdesc ⊢
  have hcross := (List.pairwise_append.mp hdesc).2.2
  have hbehind : (ordered.drop n).countP (key a < key ·) = 0 := by
    apply List.countP_eq_zero.mpr
    intro b hb
    simpa using hcross a ha b hb
  have hself : (ordered.take n).countP (key a < key ·) < (ordered.take n).length := by
    apply lt_of_le_of_ne List.countP_le_length
    intro hall
    have hlt := List.countP_eq_length.mp hall a ha
    simp at hlt
  rw [List.countP_append, hbehind, Nat.add_zero]
  exact hself.trans_le (List.length_take_le _ _)

/-- More rows than `n` are level with one behind the first `n`, or ahead of it. -/
theorem lt_level_of_mem_drop (hdesc : ordered.Pairwise fun a b => key b ≤ key a)
    (ha : a ∈ ordered.drop n) : n < ordered.countP (key a ≤ key ·) := by
  have hsplit := List.take_append_drop n ordered
  have hlength : (ordered.take n).length = n := by
    have hpos := List.length_pos_of_mem ha
    rw [List.length_drop] at hpos
    rw [List.length_take]
    omega
  rw [← hsplit] at hdesc ⊢
  have hcross := (List.pairwise_append.mp hdesc).2.2
  have hbefore : (ordered.take n).countP (key a ≤ key ·) = n := by
    refine Eq.trans ?_ hlength
    apply List.countP_eq_length.mpr
    intro b hb
    simpa using hcross b hb a ha
  have hself : 0 < (ordered.drop n).countP (key a ≤ key ·) := by
    apply List.countP_pos_iff.mpr
    exact ⟨a, ha, by simp⟩
  rw [List.countP_append, hbefore]
  omega

theorem take_eq_filter (h : IsOrdering key rows ordered) (hsplit : ¬ SplitsTie key rows n) :
    ordered.take n = ordered.filter fun a => ordered.countP (key a < key ·) < n := by
  have hfirst : (ordered.take n).filter (fun a => ordered.countP (key a < key ·) < n) =
      ordered.take n := by
    apply List.filter_eq_self.mpr
    intro a ha
    exact decide_eq_true (ahead_lt_of_mem_take h.descending ha)
  have hrest : (ordered.drop n).filter (fun a => ordered.countP (key a < key ·) < n) = [] := by
    apply List.filter_eq_nil_iff.mpr
    intro a ha hahead
    apply hsplit
    rw [← splitsTie_perm h.perm]
    exact ⟨key a, of_decide_eq_true hahead, lt_level_of_mem_drop h.descending ha⟩
  conv_rhs => rw [← List.take_append_drop n ordered]
  rw [List.filter_append, List.take_append_drop, hfirst, hrest, List.append_nil]

theorem take_perm_take (h : IsOrdering key rows ordered) (h' : IsOrdering key rows ordered')
    (hsplit : ¬ SplitsTie key rows n) : (ordered.take n).Perm (ordered'.take n) := by
  have hperm := h.perm.trans h'.perm.symm
  rw [take_eq_filter h hsplit, take_eq_filter h' hsplit]
  simp only [hperm.countP_eq]
  exact hperm.filter _

theorem take_succ_pages (ordered : List α) : ordered.take ((m + 1) * size) =
    ordered.take (m * size) ++ pageOf size (m + 1) ordered := by
  unfold pageOf
  rw [Nat.add_mul, Nat.one_mul, List.take_add, Nat.add_sub_cancel]

theorem pageOf_perm (h : IsOrdering key rows ordered) (h' : IsOrdering key rows ordered')
    (hstart : ¬ SplitsTie key rows (m * size)) (hend : ¬ SplitsTie key rows ((m + 1) * size)) :
    (pageOf size (m + 1) ordered).Perm (pageOf size (m + 1) ordered') := by
  have hbefore := take_perm_take h h' hstart
  have hall := take_perm_take h h' hend
  rw [take_succ_pages, take_succ_pages] at hall
  exact (List.perm_append_left_iff _).mp (hall.trans (hbefore.symm.append_right _))

theorem pagesUpTo_const (ordered : List α) :
    pagesUpTo size m (fun _ => ordered) = ordered.take (m * size) := by
  induction m with
  | zero => simp [pagesUpTo]
  | succ m ih =>
      have hlast : pagesUpTo size (m + 1) (fun _ => ordered) =
          pagesUpTo size m (fun _ => ordered) ++ pageOf size (m + 1) ordered := by
        simp [pagesUpTo, List.range_succ]
      rw [hlast, ih, take_succ_pages]

theorem exists_ordering (key : α → κ) (rows : List α) : ∃ ordered, IsOrdering key rows ordered := by
  refine ⟨rows.insertionSort fun a b => key b ≤ key a, List.perm_insertionSort _ _, ?_⟩
  have htrans : IsTrans α fun a b => key b ≤ key a := ⟨fun a b c hab hbc => hbc.trans hab⟩
  have htotal : Std.Total fun a b : α => key b ≤ key a := ⟨fun a b => le_total (key b) (key a)⟩
  exact List.pairwise_insertionSort _ rows

/-- **The pages cover the rows** where no page ends within a tie. -/
theorem pagesUpTo_perm (orderings : ℕ → List α) (h : ∀ n, IsOrdering key rows (orderings n))
    (hsplit : ∀ k, ¬ SplitsTie key rows (k * size)) (hpages : rows.length ≤ m * size) :
    (pagesUpTo size m orderings).Perm rows := by
  obtain ⟨ordered, hordered⟩ := exists_ordering key rows
  have hsame : (pagesUpTo size m orderings).Perm (pagesUpTo size m fun _ => ordered) := by
    apply List.Perm.flatMap_left
    intro i _
    exact pageOf_perm (h (i + 1)) hordered (hsplit i) (hsplit (i + 1))
  rw [pagesUpTo_const, List.take_of_length_le (hordered.perm.length_eq ▸ hpages)] at hsame
  exact hsame.trans hordered.perm

/-! ## Where a tie is split -/

/-- The rows on both sides of a split have equal keys. -/
theorem key_eq_of_splitsTie {before after : List α}
    (hdesc : (before ++ a :: b :: after).Pairwise fun a b => key b ≤ key a)
    (hsplit : SplitsTie key (before ++ a :: b :: after) (before.length + 1)) : key a = key b := by
  obtain ⟨t, hahead, hlevel⟩ := hsplit
  obtain ⟨-, hrest, hcross⟩ := List.pairwise_append.mp hdesc
  obtain ⟨hafterA, hrest⟩ := List.pairwise_cons.mp hrest
  obtain ⟨hafterB, -⟩ := List.pairwise_cons.mp hrest
  have hab : key b ≤ key a := hafterA b (List.mem_cons_self ..)
  have ha : key a ≤ t := by
    by_contra hlt
    rw [not_le] at hlt
    have hbefore : before.countP (t < key ·) = before.length := by
      apply List.countP_eq_length.mpr
      intro x hx
      exact decide_eq_true (hlt.trans_le (hcross x hx a (List.mem_cons_self ..)))
    rw [List.countP_append, List.countP_cons, hbefore, if_pos (decide_eq_true hlt)] at hahead
    omega
  have hb : t ≤ key b := by
    by_contra hlt
    rw [not_le] at hlt
    have hafter : after.countP (t ≤ key ·) = 0 := by
      apply List.countP_eq_zero.mpr
      intro x hx
      simpa using (hafterB x hx).trans_lt hlt
    have hnot : ¬ decide (t ≤ key b) = true := by simpa using hlt
    have hbefore := List.countP_le_length (p := fun x => decide (t ≤ key x)) (l := before)
    have ha1 : (if decide (t ≤ key a) = true then 1 else 0) ≤ 1 := by split <;> omega
    rw [List.countP_append, List.countP_cons, List.countP_cons, hafter, if_neg hnot] at hlevel
    omega
  exact le_antisymm (ha.trans hb) hab

theorem isOrdering_swap {before after : List α} (h : IsOrdering key rows (before ++ a :: b :: after))
    (hkey : key a = key b) : IsOrdering key rows (before ++ b :: a :: after) := by
  refine ⟨((List.Perm.swap a b after).append_left before).trans h.perm, ?_⟩
  obtain ⟨hbefore, hrest, hcross⟩ := List.pairwise_append.mp h.descending
  obtain ⟨hafterA, hrest⟩ := List.pairwise_cons.mp hrest
  obtain ⟨hafterB, hafter⟩ := List.pairwise_cons.mp hrest
  refine List.pairwise_append.mpr ⟨hbefore, ?_, ?_⟩
  · refine List.pairwise_cons.mpr ⟨?_, List.pairwise_cons.mpr ⟨?_, hafter⟩⟩
    · rw [List.forall_mem_cons]
      exact ⟨hkey.le, hafterB⟩
    · exact fun x hx => hafterA x (List.mem_cons_of_mem _ hx)
  · intro x hx y hy
    apply hcross x hx y
    simp only [List.mem_cons] at hy ⊢
    tauto

theorem mem_pageOf {before after : List α} (hstart : m * size ≤ before.length)
    (hend : before.length < (m + 1) * size) : a ∈ pageOf size (m + 1) (before ++ a :: after) := by
  unfold pageOf
  rw [Nat.add_sub_cancel, List.drop_append_of_le_length hstart]
  apply List.mem_iff_getElem?.mpr
  refine ⟨before.length - m * size, ?_⟩
  rw [Nat.add_mul, Nat.one_mul] at hend
  rw [List.getElem?_take_of_lt (by omega), List.getElem?_append_right (by simp)]
  simp

theorem not_nodup_pagesUpTo {orderings : ℕ → List α} {i j : ℕ} (hij : i < j) (hj : j < m)
    (hi : a ∈ pageOf size (i + 1) (orderings (i + 1)))
    (ha : a ∈ pageOf size (j + 1) (orderings (j + 1))) :
    ¬ (pagesUpTo size m orderings).Nodup := by
  intro hnodup
  have hdisjoint := List.pairwise_iff_getElem.mp (List.nodup_flatMap.mp hnodup).2 i j
    (by simpa using hij.trans hj) (by simpa using hj) hij
  simp only [List.getElem_range] at hdisjoint
  exact hdisjoint hi ha

/-- **A page that ends within a tie** may show a row that the next one shows again. -/
theorem exists_pagesUpTo_repeat (hsize : 0 < size) (hpages : rows.length ≤ m * size) {k : ℕ}
    (hsplit : SplitsTie key rows (k * size)) :
    ∃ orderings : ℕ → List α, (∀ n, IsOrdering key rows (orderings n)) ∧
      ¬ (pagesUpTo size m orderings).Nodup := by
  obtain ⟨ordered, h⟩ := exists_ordering key rows
  have hsplit' := (splitsTie_perm h.perm).mpr hsplit
  have hlength := hsplit'.lt_length
  have hpos : 0 < k * size := by
    obtain ⟨t, ht, -⟩ := hsplit
    exact (Nat.zero_le _).trans_lt ht
  have hk : k < m := Nat.lt_of_mul_lt_mul_right
    (((h.perm.length_eq ▸ hlength : k * size < rows.length)).trans_le hpages)
  -- the rows on both sides of the end of page `i + 1`
  obtain ⟨i, rfl⟩ := Nat.exists_eq_succ_of_ne_zero (Nat.pos_of_mul_pos_right hpos).ne'
  obtain ⟨n, hn⟩ := Nat.exists_eq_succ_of_ne_zero hpos.ne'
  have hrows : ordered = ordered.take n ++ ordered[n] :: ordered[n + 1] :: ordered.drop (n + 2) := by
    rw [← List.drop_eq_getElem_cons, ← List.drop_eq_getElem_cons, List.take_append_drop]
  have hbefore : (ordered.take n).length = n := by
    rw [List.length_take]
    omega
  generalize ordered.take n = before at hrows hbefore
  generalize ordered[n] = a at hrows
  generalize ordered[n + 1] = b at hrows
  generalize ordered.drop (n + 2) = after at hrows
  subst hrows
  rw [hn, Nat.succ_eq_add_one, ← hbefore] at hsplit'
  have hswap := isOrdering_swap h (key_eq_of_splitsTie h.descending hsplit')
  refine ⟨Function.update (fun _ => before ++ b :: a :: after) (i + 1)
    (before ++ a :: b :: after), ?_,
    not_nodup_pagesUpTo (a := a) (Nat.lt_succ_self i) hk ?_ ?_⟩
  · intro j
    by_cases hj : j = i + 1
    · rw [hj, Function.update_self]
      exact h
    · rw [Function.update_of_ne hj]
      exact hswap
  · rw [Function.update_self]
    rw [Nat.succ_mul] at hn
    exact mem_pageOf (by omega) (by rw [Nat.succ_mul]; omega)
  · rw [Function.update_of_ne (by omega)]
    have hassoc : before ++ b :: a :: after = (before ++ [b]) ++ a :: after := by simp
    have hlast : (before ++ [b]).length = (i + 1) * size := by
      rw [List.length_append, hbefore]
      exact hn.symm
    rw [hassoc]
    exact mem_pageOf hlast.ge (by rw [Nat.succ_mul]; omega)

end MailboxService.Foundation
