import Mathlib.Data.List.Infix

/-!
# Sequences with a separator

`split` cuts a sequence at a separator, from the left and without overlaps;
`List.intercalate` joins parts by one. What is joined is cut into the same
parts exactly if no part but the last lets the separator begin too early
(`Uncut`), and the last one does not contain it (`split_eq_iff`). For a
separator that repeats one element, a part is cut too early if it contains the
separator or ends with the element (`uncut_replicate_iff`).
-/

namespace MailboxService.Foundation

namespace Delimited

variable {α : Type*} [DecidableEq α]

/-- The parts of what is left after `skip` elements. -/
def splitFrom (sep : List α) : ℕ → List α → List (List α)
  | _, [] => [[]]
  | skip + 1, _ :: l => splitFrom sep skip l
  | 0, c :: l =>
      if sep.isPrefixOf (c :: l) then [] :: splitFrom sep (sep.length - 1) l
      else (splitFrom sep 0 l).modifyHead (c :: ·)

/-- The parts between the occurrences of a separator. -/
def split (sep l : List α) : List (List α) := splitFrom sep 0 l

omit [DecidableEq α] in
/-- No occurrence of the separator begins inside the part, when the separator
follows it. -/
def Uncut (sep part : List α) : Prop :=
  ∀ y, y <:+ part → y ≠ [] → ¬ sep <+: y ++ sep

variable {sep : List α}

theorem splitFrom_eq_split_drop (skip : ℕ) (l : List α) :
    splitFrom sep skip l = split sep (l.drop skip) := by
  induction l generalizing skip with
  | nil =>
      cases skip with
      | zero => rfl
      | succ skip => rfl
  | cons c l ih =>
      cases skip with
      | zero => rfl
      | succ skip => exact ih skip

@[simp] theorem split_nil : split sep [] = [[]] := rfl

theorem split_separator (hsep : sep ≠ []) (l : List α) :
    split sep (sep ++ l) = [] :: split sep l := by
  cases hs : sep with
  | nil => exact absurd hs hsep
  | cons c rest =>
      have hfront : (c :: rest).isPrefixOf (c :: (rest ++ l)) = true :=
        List.isPrefixOf_iff_prefix.mpr (List.prefix_append (c :: rest) l)
      show (if (c :: rest).isPrefixOf (c :: (rest ++ l)) then _ else _) = _
      rw [if_pos hfront, splitFrom_eq_split_drop]
      simp

theorem split_cons {c : α} {l : List α} (h : ¬ sep <+: c :: l) :
    split sep (c :: l) = (split sep l).modifyHead (c :: ·) := by
  show (if sep.isPrefixOf (c :: l) then _ else _) = _
  rw [if_neg]
  · rfl
  · rw [List.isPrefixOf_iff_prefix]
    exact h

theorem split_ne_nil (l : List α) : split sep l ≠ [] := by
  induction l with
  | nil => exact List.cons_ne_nil _ _
  | cons c l ih =>
      show (if sep.isPrefixOf (c :: l) then _ else (split sep l).modifyHead (c :: ·)) ≠ []
      split
      · exact List.cons_ne_nil _ _
      · intro hnil
        rw [List.modifyHead_eq_nil_iff] at hnil
        exact ih hnil

omit [DecidableEq α] in
theorem Uncut.tail {c : α} {part : List α} (h : Uncut sep (c :: part)) : Uncut sep part := by
  intro y hy
  exact h y (hy.trans (List.suffix_cons c part))

omit [DecidableEq α] in
theorem Uncut.free {part : List α} (hsep : sep ≠ []) (h : Uncut sep part) :
    ¬ sep <:+: part := by
  rintro ⟨x, y, rfl⟩
  refine h (sep ++ y) ?_ ?_ ?_
  · exact ⟨x, (List.append_assoc x sep y).symm⟩
  · exact List.append_ne_nil_of_left_ne_nil hsep y
  · rw [List.append_assoc]
    exact List.prefix_append sep _

theorem split_append {part : List α} (hsep : sep ≠ []) (h : Uncut sep part) (l : List α) :
    split sep (part ++ (sep ++ l)) = part :: split sep l := by
  induction part with
  | nil => exact split_separator hsep l
  | cons c part ih =>
      have hnot : ¬ sep <+: c :: (part ++ (sep ++ l)) := by
        intro hfront
        -- an occurrence at the front ends before `l`
        have hwhole : sep <+: (c :: part ++ sep) ++ l := by
          simpa using hfront
        have hlength : sep.length ≤ (c :: part ++ sep).length := by
          simp only [List.length_append, List.length_cons]
          omega
        have hpart : sep <+: c :: part ++ sep :=
          List.prefix_of_prefix_length_le hwhole (List.prefix_append _ l) hlength
        exact h (c :: part) List.suffix_rfl (List.cons_ne_nil c part) hpart
      rw [List.cons_append, split_cons hnot, ih h.tail, List.modifyHead_cons]

theorem split_of_free {l : List α} (h : ¬ sep <:+: l) : split sep l = [l] := by
  induction l with
  | nil => rfl
  | cons c l ih =>
      rw [List.infix_cons_iff, not_or] at h
      rw [split_cons h.1, ih h.2, List.modifyHead_cons]

/-- A sequence is one part without the separator, or begins with a part that the
separator ends. -/
theorem split_cases (hsep : sep ≠ []) (l : List α) :
    (split sep l = [l] ∧ ¬ sep <:+: l) ∨
      ∃ part rest, Uncut sep part ∧ l = part ++ (sep ++ rest) ∧
        split sep l = part :: split sep rest := by
  induction l with
  | nil =>
      refine Or.inl ⟨rfl, ?_⟩
      intro hempty
      exact hsep (List.eq_nil_of_infix_nil hempty)
  | cons c l ih =>
      by_cases hfront : sep <+: c :: l
      · obtain ⟨rest, hrest⟩ := hfront
        refine Or.inr ⟨[], rest, ?_, hrest.symm, ?_⟩
        · intro y hy hne
          exact absurd (List.suffix_nil.mp hy) hne
        · rw [← hrest]
          exact split_separator hsep rest
      · rcases ih with ⟨hsplit, hfree⟩ | ⟨part, rest, huncut, rfl, hsplit⟩
        · refine Or.inl ⟨?_, ?_⟩
          · rw [split_cons hfront, hsplit, List.modifyHead_cons]
          · rw [List.infix_cons_iff]
            exact not_or.mpr ⟨hfront, hfree⟩
        · refine Or.inr ⟨c :: part, rest, ?_, rfl, ?_⟩
          · intro y hy hne hy'
            rcases List.suffix_cons_iff.mp hy with rfl | hy
            · apply hfront
              refine hy'.trans ⟨rest, ?_⟩
              simp
            · exact huncut y hy hne hy'
          · rw [split_cons hfront, hsplit, List.modifyHead_cons]

/-- **Splitting inverts joining** exactly for parts that are not cut too early. -/
theorem split_eq_iff (hsep : sep ≠ []) {l last : List α} {parts : List (List α)} :
    split sep l = parts ++ [last] ↔
      l = sep.intercalate (parts ++ [last]) ∧ (∀ part ∈ parts, Uncut sep part) ∧
        ¬ sep <:+: last := by
  induction parts generalizing l with
  | nil =>
      simp only [List.nil_append, List.intercalate_singleton, List.not_mem_nil,
        false_imp_iff, implies_true, true_and]
      constructor
      · intro h
        rcases split_cases hsep l with ⟨hsplit, hfree⟩ | ⟨part, rest, -, -, hsplit⟩
        · rw [hsplit] at h
          cases h
          exact ⟨rfl, hfree⟩
        · rw [hsplit, List.cons.injEq] at h
          exact absurd h.2 (split_ne_nil rest)
      · rintro ⟨rfl, hfree⟩
        exact split_of_free hfree
  | cons part parts ih =>
      have hne : parts ++ [last] ≠ [] := by simp
      rw [List.cons_append, List.intercalate_cons_of_ne_nil hne, List.append_assoc]
      constructor
      · intro h
        rcases split_cases hsep l with ⟨hsplit, -⟩ | ⟨part', rest, huncut, rfl, hsplit⟩
        · rw [hsplit, List.cons.injEq] at h
          exact absurd h.2.symm hne
        · rw [hsplit, List.cons.injEq] at h
          obtain ⟨rfl, h⟩ := h
          obtain ⟨rfl, hparts, hlast⟩ := ih.mp h
          exact ⟨rfl, List.forall_mem_cons.mpr ⟨huncut, hparts⟩, hlast⟩
      · rintro ⟨rfl, hparts, hlast⟩
        rw [List.forall_mem_cons] at hparts
        rw [split_append hsep hparts.1, ih.mpr ⟨rfl, hparts.2, hlast⟩]

theorem subset_of_mem_splitFrom {skip : ℕ} {l part : List α}
    (h : part ∈ splitFrom sep skip l) : part ⊆ l := by
  induction l generalizing skip part with
  | nil =>
      have hpart : part = [] := by
        cases skip <;> exact List.mem_singleton.mp h
      rw [hpart]
      exact List.nil_subset _
  | cons c l ih =>
      cases skip with
      | succ skip => exact List.subset_cons_of_subset c (ih h)
      | zero =>
          rw [splitFrom] at h
          split at h
          · rcases List.mem_cons.mp h with rfl | h
            · exact List.nil_subset _
            · exact List.subset_cons_of_subset c (ih h)
          · cases hparts : splitFrom sep 0 l with
            | nil =>
                rw [hparts] at h
                cases h
            | cons first parts =>
                rw [hparts, List.modifyHead_cons, List.mem_cons] at h
                rcases h with rfl | h
                · have hfirst : first ⊆ l := by
                    apply ih
                    rw [hparts]
                    exact List.mem_cons_self
                  exact List.cons_subset_cons c hfirst
                · apply List.subset_cons_of_subset
                  apply ih
                  rw [hparts]
                  exact List.mem_cons_of_mem _ h

theorem subset_of_mem_split {l part : List α} (h : part ∈ split sep l) : part ⊆ l :=
  subset_of_mem_splitFrom h

theorem free_of_mem_split (hsep : sep ≠ []) {l part : List α}
    (h : part ∈ split sep l) : ¬ sep <:+: part := by
  rcases List.eq_nil_or_concat (split sep l) with hnil | ⟨parts, last, hparts⟩
  · exact absurd hnil (split_ne_nil l)
  · rw [List.concat_eq_append] at hparts
    obtain ⟨-, huncut, hlast⟩ := (split_eq_iff hsep).mp hparts
    rw [hparts, List.mem_append, List.mem_singleton] at h
    rcases h with h | rfl
    · exact (huncut part h).free hsep
    · exact hlast

omit [DecidableEq α] in
/-- A separator that repeats one element is found too early in a part that
contains it or ends with the element. -/
theorem uncut_replicate_iff {n : ℕ} {d : α} {part : List α} :
    Uncut (List.replicate (n + 1) d) part ↔
      ¬ List.replicate (n + 1) d <:+: part ∧ part.getLast? ≠ some d := by
  have hsep : List.replicate (n + 1) d ≠ [] := by simp
  constructor
  · intro h
    refine ⟨h.free hsep, ?_⟩
    intro hlast
    obtain ⟨init, rfl⟩ := List.getLast?_eq_some_iff.mp hlast
    refine h [d] (List.suffix_append init [d]) (List.cons_ne_nil d []) ⟨[d], ?_⟩
    rw [← List.replicate_succ', List.singleton_append, ← List.replicate_succ]
  · rintro ⟨hfree, hlast⟩ y hy hne hfront
    rcases Nat.le_total (List.replicate (n + 1) d).length y.length with hle | hle
    · have hy' : List.replicate (n + 1) d <+: y :=
        List.prefix_of_prefix_length_le hfront (List.prefix_append y _) hle
      exact hfree (hy'.isInfix.trans hy.isInfix)
    · -- the separator covers the rest of the part
      have hy' : y <+: List.replicate (n + 1) d :=
        List.prefix_of_prefix_length_le (List.prefix_append y _) hfront hle
      have hd : y.getLast hne = d :=
        List.eq_of_mem_replicate (hy'.subset (List.getLast_mem hne))
      apply hlast
      obtain ⟨x, rfl⟩ := hy
      rw [List.getLast?_append_of_ne_nil _ hne, List.getLast?_eq_some_getLast hne, hd]

/-! ## What joined parts contain -/

omit [DecidableEq α] in
/-- What a separator is not in lies on one side of it. -/
theorem infix_around {d : α} {p : List α} (hd : d ∉ p) (l m : List α) :
    p <:+: l ++ d :: m ↔ p <:+: l ∨ p <:+: m := by
  constructor
  · rintro ⟨before, after, h⟩
    rcases List.append_eq_append_iff.mp h with ⟨rest, rfl, -⟩ | ⟨rest, hbefore, hafter⟩
    · exact Or.inl ⟨before, rest, rfl⟩
    · cases rest with
      | nil =>
          rw [List.append_nil] at hbefore
          exact Or.inl ⟨before, [], by rw [List.append_nil, hbefore]⟩
      | cons c rest =>
          cases hafter
          rcases List.append_eq_append_iff.mp hbefore with ⟨start, -, hp⟩ | ⟨start, -, hrest⟩
          · rw [hp] at hd
            exact absurd (List.mem_append_right start List.mem_cons_self) hd
          · cases start with
            | nil =>
                rw [List.nil_append] at hrest
                rw [← hrest] at hd
                exact absurd List.mem_cons_self hd
            | cons c' start =>
                cases hrest
                exact Or.inr ⟨start, after, rfl⟩
  · rintro (h | h)
    · exact h.trans (List.prefix_append l _).isInfix
    · exact h.trans ((List.suffix_cons d m).trans (List.suffix_append l _)).isInfix

omit [DecidableEq α] in
/-- What a separator is not in lies in one of the parts. -/
theorem infix_intercalate {d : α} {p : List α} (hd : d ∉ p) (hp : p ≠ [])
    (parts : List (List α)) :
    p <:+: [d].intercalate parts ↔ ∃ part ∈ parts, p <:+: part := by
  induction parts with
  | nil =>
      constructor
      · intro h
        exact absurd (List.eq_nil_of_infix_nil h) hp
      · rintro ⟨part, hpart, -⟩
        cases hpart
  | cons part parts ih =>
      cases parts with
      | nil =>
          rw [List.intercalate_singleton]
          simp only [List.mem_singleton, exists_eq_left]
      | cons next parts =>
          rw [List.intercalate_cons_cons, List.append_assoc, List.singleton_append,
            infix_around hd, ih, List.exists_mem_cons_iff _ part]

end Delimited

end MailboxService.Foundation
