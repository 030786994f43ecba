import MailboxService.Foundation.FirstMatch
import Mathlib.Data.List.DropRight
import Mathlib.Data.List.TakeWhile
import Mathlib.Order.Basic

/-!
# Stretches of a class

The maximal parts of a list whose elements are all of one class, first to last.
A scan that reads a stretch to its end, and a pattern that looks at what stands
before and behind it, find the same parts of a text.
-/

namespace MailboxService.Foundation

variable {α : Type}

def stretchesFrom (p : α → Bool) (current : List α) : List α → List (List α)
  | [] => if current = [] then [] else [current]
  | x :: rest =>
      if p x then stretchesFrom p (current ++ [x]) rest
      else (if current = [] then [] else [current]) ++ stretchesFrom p [] rest

def stretches (p : α → Bool) (l : List α) : List (List α) := stretchesFrom p [] l

/-- A part of a list that is all of the class, between others that are not. -/
structure IsStretch (p : α → Bool) (before s after : List α) : Prop where
  ne_nil : s ≠ []
  all : ∀ x ∈ s, p x = true
  starts : before.getLast?.any p = false
  ends : after.head?.any p = false

variable {p q : α → Bool}

/-! ## Reading a list -/

@[simp] theorem stretches_nil : stretches p [] = [] := rfl

theorem stretchesFrom_of_all {s : List α} (hs : ∀ x ∈ s, p x = true) (current l : List α) :
    stretchesFrom p current (s ++ l) = stretchesFrom p (current ++ s) l := by
  induction s generalizing current with
  | nil => rw [List.nil_append, List.append_nil]
  | cons x rest ih =>
      have hx : p x = true := hs x (List.mem_cons_self ..)
      have hrest : ∀ y ∈ rest, p y = true := fun y hy => hs y (List.mem_cons_of_mem x hy)
      rw [List.cons_append, stretchesFrom, if_pos hx, ih hrest, List.append_assoc,
        List.singleton_append]

theorem stretches_cons_of_neg {x : α} (hx : p x = false) (l : List α) :
    stretches p (x :: l) = stretches p l := by
  unfold stretches
  rw [stretchesFrom, if_neg (by rw [hx]; exact Bool.false_ne_true)]
  rfl

/-- Where a stretch cannot go on, the list is read anew. -/
theorem stretchesFrom_of_head {l : List α} (hl : l.head?.any p = false) (current : List α) :
    stretchesFrom p current l =
      (if current = [] then [] else [current]) ++ stretches p l := by
  cases l with
  | nil => rw [stretches_nil, List.append_nil, stretchesFrom]
  | cons x rest =>
      have hx : p x = false := by simpa using hl
      rw [stretches_cons_of_neg hx, stretchesFrom,
        if_neg (by rw [hx]; exact Bool.false_ne_true)]
      rfl

/-- **Stretches do not reach over a gap.** -/
theorem stretchesFrom_append {b : List α} (hb : b.head?.any p = false) (current a : List α) :
    stretchesFrom p current (a ++ b) = stretchesFrom p current a ++ stretches p b := by
  induction a generalizing current with
  | nil =>
      rw [List.nil_append, stretchesFrom_of_head hb]
      rfl
  | cons x rest ih =>
      rw [List.cons_append, stretchesFrom, stretchesFrom]
      split
      · exact ih _
      · rw [ih, List.append_assoc]

theorem stretches_append {b : List α} (hb : b.head?.any p = false) (a : List α) :
    stretches p (a ++ b) = stretches p a ++ stretches p b :=
  stretchesFrom_append hb [] a

theorem stretches_append_cons {x : α} (hx : p x = false) (a b : List α) :
    stretches p (a ++ x :: b) = stretches p a ++ stretches p b := by
  rw [stretches_append (by simpa using hx), stretches_cons_of_neg hx]

theorem stretches_append_of_last {a : List α} (ha : a.getLast?.any p = false) (b : List α) :
    stretches p (a ++ b) = stretches p a ++ stretches p b := by
  rcases List.eq_nil_or_concat a with rfl | ⟨init, x, rfl⟩
  · rw [stretches_nil, List.nil_append, List.nil_append]
  · have hx : p x = false := by simpa using ha
    rw [List.concat_eq_append, List.append_assoc, List.singleton_append,
      stretches_append_cons hx, stretches_append_cons hx, stretches_nil, List.append_nil]

theorem stretches_of_isStretch {s : List α} (hne : s ≠ []) (hs : ∀ x ∈ s, p x = true)
    {after : List α} (ha : after.head?.any p = false) :
    stretches p (s ++ after) = s :: stretches p after := by
  unfold stretches
  rw [stretchesFrom_of_all hs, List.nil_append, stretchesFrom_of_head ha, if_neg hne]
  rfl

/-! ## What the stretches are -/

theorem isStretch_of_mem {current l s : List α} (hcurrent : ∀ x ∈ current, p x = true)
    (h : s ∈ stretchesFrom p current l) :
    ∃ before after, current ++ l = before ++ (s ++ after) ∧ IsStretch p before s after := by
  -- the stretch that is being read, once it has ended in front of `rest`
  have hended : ∀ (current rest : List α), (∀ x ∈ current, p x = true) →
      rest.head?.any p = false → s ∈ (if current = [] then [] else [current]) →
      ∃ before after, current ++ rest = before ++ (s ++ after) ∧ IsStretch p before s after := by
    intro current rest hall hrest hs
    split at hs
    · cases hs
    · rename_i hne
      rw [List.mem_singleton] at hs
      subst hs
      exact ⟨[], rest, rfl, hne, hall, rfl, hrest⟩
  induction l generalizing current with
  | nil =>
      rw [stretchesFrom] at h
      exact hended current [] hcurrent rfl h
  | cons x rest ih =>
      rw [stretchesFrom] at h
      by_cases hx : p x = true
      · rw [if_pos hx] at h
        have hnext : ∀ y ∈ current ++ [x], p y = true := by
          intro y hy
          rcases List.mem_append.mp hy with hy | hy
          · exact hcurrent y hy
          · rw [List.mem_singleton.mp hy]
            exact hx
        obtain ⟨before, after, heq, hstretch⟩ := ih hnext h
        rw [List.append_assoc, List.singleton_append] at heq
        exact ⟨before, after, heq, hstretch⟩
      · rw [if_neg hx] at h
        have hx : p x = false := by simpa using hx
        rcases List.mem_append.mp h with h | h
        · exact hended current (x :: rest) hcurrent (by simpa using hx) h
        · obtain ⟨before, after, heq, hne, hall, hstarts, hends⟩ := ih (List.forall_mem_nil _) h
          refine ⟨current ++ x :: before, after, ?_, hne, hall, ?_, hends⟩
          · rw [List.nil_append] at heq
            rw [heq, List.append_assoc, List.cons_append]
          · rw [List.getLast?_append_of_ne_nil _ (List.cons_ne_nil x before)]
            cases before with
            | nil => simpa using hx
            | cons y more =>
                rw [List.getLast?_cons_cons]
                exact hstarts

/-- **The stretches of a list** are its parts of the class that none of its
neighbours belongs to. -/
theorem mem_stretches {l s : List α} :
    s ∈ stretches p l ↔
      ∃ before after, l = before ++ (s ++ after) ∧ IsStretch p before s after := by
  constructor
  · exact isStretch_of_mem (List.forall_mem_nil _)
  · rintro ⟨before, after, rfl, hne, hall, hstarts, hends⟩
    rw [stretches_append_of_last hstarts, stretches_of_isStretch hne hall hends]
    exact List.mem_append_right _ (List.mem_cons_self ..)

theorem all_of_mem_stretches {l s : List α} (h : s ∈ stretches p l) : ∀ x ∈ s, p x = true := by
  obtain ⟨_, _, _, hstretch⟩ := mem_stretches.mp h
  exact hstretch.all

theorem any_of_smaller (hpq : ∀ x, q x = true → p x = true) {o : Option α}
    (h : o.any p = false) : o.any q = false := by
  cases o with
  | none => rfl
  | some x =>
      by_contra hx
      have hqx : q x = true := by simpa using hx
      rw [Option.any_some, hpq x hqx] at h
      cases h

/-- A stretch of a class is one of each smaller class that it is of. -/
theorem mem_stretches_of_subclass {l s : List α} (hpq : ∀ x, q x = true → p x = true)
    (h : s ∈ stretches p l) (hs : ∀ x ∈ s, q x = true) : s ∈ stretches q l := by
  obtain ⟨before, after, heq, hstretch⟩ := mem_stretches.mp h
  exact mem_stretches.mpr ⟨before, after, heq, hstretch.ne_nil, hs,
    any_of_smaller hpq hstretch.starts, any_of_smaller hpq hstretch.ends⟩

theorem head?_dropWhile (l : List α) : (l.dropWhile p).head?.any p = false := by
  have := List.head?_dropWhile_not p l
  cases hd : (l.dropWhile p).head? with
  | none => rfl
  | some x =>
      rw [hd] at this
      simpa using this

theorem stretches_takeWhile {l : List α} (h : l.takeWhile p ≠ []) :
    stretches p l = l.takeWhile p :: stretches p (l.dropWhile p) := by
  have hsplit := stretches_of_isStretch h (fun x hx => List.mem_takeWhile_imp hx)
    (head?_dropWhile l)
  rw [List.takeWhile_append_dropWhile] at hsplit
  exact hsplit

/-! ## Gaps -/

theorem any_eq_false_iff {o : Option α} : o.any p = false ↔ ∀ x ∈ o, p x = false := by
  cases o <;> simp

theorem stretches_of_gap {s : List α} (hs : ∀ x ∈ s, p x = false) : stretches p s = [] := by
  induction s with
  | nil => rfl
  | cons x rest ih =>
      rw [stretches_cons_of_neg (hs x (List.mem_cons_self ..))]
      exact ih fun y hy => hs y (List.mem_cons_of_mem x hy)

theorem stretches_gap_append {s : List α} (hs : ∀ x ∈ s, p x = false) (l : List α) :
    stretches p (s ++ l) = stretches p l := by
  rw [stretches_append_of_last, stretches_of_gap hs, List.nil_append]
  exact any_eq_false_iff.mpr fun x hx => hs x (List.mem_of_getLast? hx)

theorem stretches_append_gap {s : List α} (hs : ∀ x ∈ s, p x = false) (l : List α) :
    stretches p (l ++ s) = stretches p l := by
  rw [stretches_append, stretches_of_gap hs, List.append_nil]
  exact any_eq_false_iff.mpr fun x hx => hs x (List.mem_of_mem_head? hx)

/-! ## Parts that stand apart -/

/-- A part of a list whose neighbours are not of the class, whatever it is of
itself. -/
def StandsApart (q : α → Bool) (s l : List α) : Prop :=
  ∃ before after, l = before ++ (s ++ after) ∧ before.getLast?.any q = false ∧
    after.head?.any q = false

theorem StandsApart.of_append {s a l b : List α} (h : StandsApart q s l)
    (ha : a.getLast?.any q = false) (hb : b.head?.any q = false) :
    StandsApart q s (a ++ (l ++ b)) := by
  obtain ⟨before, after, rfl, hbefore, hafter⟩ := h
  refine ⟨a ++ before, after ++ b, by simp, ?_, ?_⟩
  · rcases List.eq_nil_or_concat before with rfl | ⟨init, x, rfl⟩
    · rwa [List.append_nil]
    · rwa [List.getLast?_append_of_ne_nil _ (by simp)]
  · cases after with
    | nil => exact hb
    | cons x after => exact hafter

/-- **What stands apart in a list** stands apart in one of its stretches, of a larger
class that it is of. -/
theorem standsApart_iff (hpq : ∀ x, q x = true → p x = true) {s l : List α} (hne : s ≠ [])
    (hs : ∀ x ∈ s, p x = true) :
    StandsApart q s l ↔ ∃ t ∈ stretches p l, StandsApart q s t := by
  constructor
  · rintro ⟨before, after, rfl, hbefore, hafter⟩
    -- the stretch goes on to both sides of the part
    have hfront : (before.reverse.dropWhile p).reverse ++ (before.reverse.takeWhile p).reverse =
        before := by
      rw [← List.reverse_append, List.takeWhile_append_dropWhile, List.reverse_reverse]
    have hback := List.takeWhile_append_dropWhile (p := p) (l := after)
    have hends := head?_dropWhile (p := p) after
    have hstarts := head?_dropWhile (p := p) before.reverse
    rw [← List.getLast?_reverse] at hstarts
    generalize (before.reverse.dropWhile p).reverse = b₀ at hfront hstarts
    have hb : ∀ x ∈ (before.reverse.takeWhile p).reverse, p x = true :=
      fun x hx => List.mem_takeWhile_imp (List.mem_reverse.mp hx)
    have ha : ∀ x ∈ after.takeWhile p, p x = true := fun x hx => List.mem_takeWhile_imp hx
    generalize (before.reverse.takeWhile p).reverse = b at hfront hb
    generalize after.takeWhile p = a at hback ha
    generalize after.dropWhile p = a₀ at hback hends
    subst hfront hback
    refine ⟨b ++ (s ++ a), mem_stretches.mpr ⟨b₀, a₀, by simp, ?_, ?_, hstarts, hends⟩,
      b, a, rfl, ?_, ?_⟩
    · simp [hne]
    · intro x hx
      rw [List.mem_append, List.mem_append] at hx
      rcases hx with hx | hx | hx
      · exact hb x hx
      · exact hs x hx
      · exact ha x hx
    · rcases List.eq_nil_or_concat b with rfl | ⟨init, x, rfl⟩
      · rfl
      · rwa [List.getLast?_append_of_ne_nil _ (by simp)] at hbefore
    · cases a with
      | nil => rfl
      | cons x a => exact hafter
  · rintro ⟨t, ht, happart⟩
    obtain ⟨before, after, rfl, hstretch⟩ := mem_stretches.mp ht
    exact happart.of_append (any_of_smaller hpq hstretch.starts) (any_of_smaller hpq hstretch.ends)

/-! ## Stretches as matches -/

/-- The stretch that starts at a position, if it is allowed. -/
def stretchAt (p : α → Bool) (allows : List α → Bool) (past rest : List α) : Option (List α) :=
  let s := rest.takeWhile p
  if past.head?.any p = false ∧ s ≠ [] ∧ allows s = true then some s else none

theorem takeWhile_of_isStretch {s after : List α} (hs : ∀ x ∈ s, p x = true)
    (hafter : after.head?.any p = false) : (s ++ after).takeWhile p = s := by
  rw [List.takeWhile_append_of_pos hs]
  cases after with
  | nil => rw [List.takeWhile_nil, List.append_nil]
  | cons x rest =>
      have hx : p x = false := by simpa using hafter
      rw [List.takeWhile_cons, hx, if_neg Bool.false_ne_true, List.append_nil]

theorem stretchAt_eq_some {allows : List α → Bool} {past rest s : List α} :
    stretchAt p allows past rest = some s ↔
      ∃ after, rest = s ++ after ∧ IsStretch p past.reverse s after ∧ allows s = true := by
  unfold stretchAt
  dsimp only
  constructor
  · intro h
    split at h
    · rename_i hallowed
      cases h
      refine ⟨rest.dropWhile p, List.takeWhile_append_dropWhile.symm, ⟨hallowed.2.1, ?_, ?_, ?_⟩,
        hallowed.2.2⟩
      · exact fun x hx => List.mem_takeWhile_imp hx
      · rw [List.getLast?_reverse]
        exact hallowed.1
      · exact head?_dropWhile rest
    · cases h
  · rintro ⟨after, rfl, ⟨hne, hall, hstarts, hends⟩, hallows⟩
    rw [takeWhile_of_isStretch hall hends]
    rw [List.getLast?_reverse] at hstarts
    rw [if_pos ⟨hstarts, hne, hallows⟩]

/-- Only the elements of the list and the one before it are looked at. -/
theorem stretchAt_congr {allows : List α → Bool} {past rest : List α}
    (hpast : ∀ x ∈ past, p x = q x) (hrest : ∀ x ∈ rest, p x = q x) :
    stretchAt p allows past rest = stretchAt q allows past rest := by
  have hhead : past.head?.any p = past.head?.any q := by
    cases past with
    | nil => rfl
    | cons x _ => exact hpast x (List.mem_cons_self ..)
  have htake : rest.takeWhile p = rest.takeWhile q := by
    induction rest with
    | nil => rfl
    | cons x rest ih =>
        rw [List.takeWhile_cons, List.takeWhile_cons, hrest x (List.mem_cons_self ..),
          ih fun y hy => hrest y (List.mem_cons_of_mem x hy)]
  unfold stretchAt
  rw [hhead, htake]

/-- A stretch of a class that is of a smaller class is a stretch of that as well. -/
theorem stretchAt_of_larger (hpq : ∀ x, q x = true → p x = true) {allows : List α → Bool}
    {past rest s : List α} (h : stretchAt p (fun s => s.all q && allows s) past rest = some s) :
    stretchAt q allows past rest = some s := by
  obtain ⟨after, hrest, ⟨hne, -, hstarts, hends⟩, hallows⟩ := stretchAt_eq_some.mp h
  rw [Bool.and_eq_true, List.all_eq_true] at hallows
  exact stretchAt_eq_some.mpr ⟨after, hrest,
    ⟨hne, hallows.1, any_of_smaller hpq hstarts, any_of_smaller hpq hends⟩, hallows.2⟩

theorem stretchAt_larger_iff (hpq : ∀ x, q x = true → p x = true) {allows : List α → Bool}
    {past rest s : List α} (h : stretchAt q allows past rest = some s) :
    stretchAt p (fun s => s.all q && allows s) past rest = some s ↔
      past.head?.any p = false ∧ (rest.drop s.length).head?.any p = false := by
  obtain ⟨after, rfl, ⟨hne, hall, -, -⟩, hallows⟩ := stretchAt_eq_some.mp h
  rw [List.drop_left]
  constructor
  · intro hlarger
    obtain ⟨after', hafter, ⟨-, -, hstarts, hends⟩, -⟩ := stretchAt_eq_some.mp hlarger
    rw [List.getLast?_reverse] at hstarts
    rw [List.append_cancel_left hafter]
    exact ⟨hstarts, hends⟩
  · rintro ⟨hstarts, hends⟩
    refine stretchAt_eq_some.mpr ⟨after, rfl, ⟨hne, fun x hx => hpq x (hall x hx), ?_, hends⟩, ?_⟩
    · rw [List.getLast?_reverse]
      exact hstarts
    · rw [Bool.and_eq_true, List.all_eq_true]
      exact ⟨hall, hallows⟩

/-- **The leftmost match is the first stretch that is allowed.** -/
theorem firstMatch_stretchAt (allows : List α → Bool) (past rest : List α) :
    firstMatch (stretchAt p allows) past rest =
      (stretches p (if past.head?.any p then rest.dropWhile p else rest)).find? allows := by
  induction rest generalizing past with
  | nil => simp [firstMatch, stretchAt]
  | cons x rest ih =>
      rw [firstMatch, ih, List.head?_cons, Option.any_some]
      by_cases hx : p x = true
      · have hstretch : (x :: rest).takeWhile p = x :: rest.takeWhile p := by
          rw [List.takeWhile_cons, if_pos hx]
        have hdrop : (x :: rest).dropWhile p = rest.dropWhile p := by
          rw [List.dropWhile_cons, if_pos hx]
        rw [if_pos hx, hdrop]
        by_cases hpast : past.head?.any p = true
        · rw [if_pos hpast]
          unfold stretchAt
          simp only [hpast, Bool.true_eq_false, false_and, if_false, Option.none_or]
        · have hne : (x :: rest).takeWhile p ≠ [] := by
            rw [hstretch]
            exact List.cons_ne_nil _ _
          rw [if_neg hpast, stretches_takeWhile hne, hdrop, List.find?_cons]
          unfold stretchAt
          have hpast : past.head?.any p = false := by simpa using hpast
          cases hallows : allows ((x :: rest).takeWhile p) with
          | true => simp only [hpast, hne, hallows, ne_eq, not_false_eq_true, and_self, if_true,
              Option.some_or]
          | false => simp only [hallows, Bool.false_eq_true, and_false, if_false, Option.none_or]
      · -- no stretch starts here, and none goes on
        have hx : p x = false := by simpa using hx
        have hnone : stretchAt p allows past (x :: rest) = none := by
          unfold stretchAt
          rw [List.takeWhile_cons, hx]
          simp
        have hdrop : (x :: rest).dropWhile p = x :: rest := by
          rw [List.dropWhile_cons, hx, if_neg Bool.false_ne_true]
        rw [hnone, Option.none_or, hx, if_neg Bool.false_ne_true, hdrop, ite_self,
          stretches_cons_of_neg hx]

/-- The first of the stretches that are allowed, with what stands before and behind
it. -/
structure IsFirstStretch (p : α → Bool) (allows : List α → Bool) (l before s after : List α) :
    Prop where
  list_eq : l = before ++ (s ++ after)
  isStretch : IsStretch p before s after
  allowed : allows s = true
  first : ∀ before' s' after', l = before' ++ (s' ++ after') → IsStretch p before' s' after' →
    allows s' = true → before.length ≤ before'.length

/-- **What a search for stretches takes** is the first one that is allowed. -/
theorem firstMatch_stretchAt_eq_some {allows : List α → Bool} {l s : List α} :
    firstMatch (stretchAt p allows) [] l = some s ↔
      ∃ before after, IsFirstStretch p allows l before s after := by
  rw [firstMatch_eq_some]
  constructor
  · rintro ⟨before, rest, hl, hhere, hfirst⟩
    obtain ⟨after, rfl, hstretch, hallows⟩ := stretchAt_eq_some.mp hhere
    rw [List.reverse_reverse] at hstretch
    refine ⟨before, after, hl, hstretch, hallows, ?_⟩
    intro before' s' after' hl' hstretch' hallows'
    by_contra hlt
    have hnone := hfirst before' (s' ++ after') hl' (by omega)
    rw [← before'.reverse_reverse] at hstretch'
    rw [stretchAt_eq_some.mpr ⟨after', rfl, hstretch', hallows'⟩] at hnone
    cases hnone
  · rintro ⟨before, after, hl, hstretch, hallows, hfirst⟩
    rw [← before.reverse_reverse] at hstretch
    refine ⟨before, s ++ after, hl, stretchAt_eq_some.mpr ⟨after, rfl, hstretch, hallows⟩, ?_⟩
    intro before' rest' hl' hlt
    -- an earlier stretch would come first
    cases hearly : stretchAt p allows before'.reverse rest' with
    | none => rfl
    | some s' =>
        obtain ⟨after', rfl, hstretch', hallows'⟩ := stretchAt_eq_some.mp hearly
        rw [List.reverse_reverse] at hstretch'
        have hle := hfirst before' s' after' hl' hstretch' hallows'
        omega

theorem firstMatch_stretchAt_eq_none {allows : List α → Bool} {l : List α} :
    firstMatch (stretchAt p allows) [] l = none ↔
      ∀ before s after, l = before ++ (s ++ after) → IsStretch p before s after →
        allows s = false := by
  constructor
  · intro h before s after hl hstretch
    have hnone := eq_none_of_firstMatch h hl
    rw [List.append_nil] at hnone
    rw [← before.reverse_reverse] at hstretch
    by_contra hallows
    rw [stretchAt_eq_some.mpr ⟨after, rfl, hstretch, by simpa using hallows⟩] at hnone
    cases hnone
  · intro h
    cases hfound : firstMatch (stretchAt p allows) [] l with
    | none => rfl
    | some s =>
        obtain ⟨before, after, hfirst⟩ := firstMatch_stretchAt_eq_some.mp hfound
        have hnot := h before s after hfirst.list_eq hfirst.isStretch
        rw [hfirst.allowed] at hnot
        cases hnot

/-! ## Isolated parts of a length -/

/-- What the pattern `(?<!p)(p{n})(?!p)` reads at a position. -/
def isolatedAt (p : α → Bool) (n : ℕ) (past rest : List α) : Option (List α) :=
  if !past.head?.any p &&
      ((rest.take n).length == n && (rest.take n).all p && !(rest.drop n).head?.any p) then
    some (rest.take n)
  else none

/-- What the pattern finds. -/
def isolated (p : α → Bool) (n : ℕ) (l : List α) : Option (List α) :=
  firstMatch (isolatedAt p n) [] l

/-- The text that a pattern of `n` elements reads is a stretch if it is isolated. -/
theorem take_isolated_iff {n : ℕ} {l : List α} :
    ((l.take n).length == n && (l.take n).all p && !(l.drop n).head?.any p) = true ↔
      (l.takeWhile p).length = n := by
  induction l generalizing n with
  | nil => cases n <;> simp
  | cons x rest ih =>
      cases n with
      | zero => simp [List.takeWhile_cons, apply_ite]
      | succ k =>
          rw [List.take_succ_cons, List.drop_succ_cons, List.all_cons, List.takeWhile_cons,
            List.length_cons]
          by_cases hx : p x = true
          · rw [if_pos hx, List.length_cons, hx, Bool.true_and, Nat.add_right_cancel_iff, ← ih]
            simp
          · rw [if_neg hx]
            simp [hx]

theorem isolatedAt_eq {n : ℕ} (hn : 0 < n) (past rest : List α) :
    isolatedAt p n past rest = stretchAt p (fun s => s.length == n) past rest := by
  unfold isolatedAt stretchAt
  dsimp only
  by_cases hlength : (rest.takeWhile p).length = n
  · have hne : rest.takeWhile p ≠ [] := List.ne_nil_of_length_pos (hlength ▸ hn)
    have htake : rest.take n = rest.takeWhile p := by
      rw [← hlength]
      exact (List.prefix_iff_eq_take.mp (List.takeWhile_prefix p)).symm
    rw [take_isolated_iff.mpr hlength, htake, Bool.and_true]
    simp [hne, hlength]
  · rw [Bool.eq_false_iff.mpr (take_isolated_iff.not.mpr hlength), Bool.and_false]
    simp [hlength]

/-- **An isolated part is the first stretch of its length.** -/
theorem isolated_eq_find? {n : ℕ} (hn : 0 < n) (l : List α) :
    isolated p n l = (stretches p l).find? fun s => s.length == n := by
  unfold isolated
  rw [firstMatch_congr fun _ _ _ => isolatedAt_eq hn _ _, firstMatch_stretchAt]
  rfl

end MailboxService.Foundation
