import MailboxService.PythonText
import MailboxService.Foundation.Delimited

/-!
# Lines and segments of Python text

`str.splitlines` and `str.split` with a separator. A line ends at any of
Python's line boundaries, which are more than the line feed, and all of them
white space; `"\r\n"` is a single one.
-/

namespace MailboxService

open Foundation

namespace Text

/-- The characters at which `str.splitlines` ends a line. -/
def isLineBoundary (c : Char) : Bool :=
  [10, 11, 12, 13, 28, 29, 30, 133, 8232, 8233].contains c.toNat

/-- `s.split(sep)`. -/
def split (s sep : String) : List String :=
  (Delimited.split sep.toList s.toList).map .ofList

/-- `s.lstrip(c)` for a single character. -/
def lstripChar (s : String) (c : Char) : String :=
  .ofList (s.toList.dropWhile (· = c))

/-! ## Lines -/

/-- Put a character in front of the first line, which it begins if there is none. -/
def consLine (c : Char) : List (List Char) → List (List Char)
  | [] => [[c]]
  | line :: lines => (c :: line) :: lines

/-- The lines of a text, where a line feed right after a carriage return belongs
to it. -/
def cutLines (afterReturn : Bool) : List Char → List (List Char)
  | [] => []
  | c :: l =>
      if afterReturn && c = '\n' then cutLines false l
      else if isLineBoundary c then [] :: cutLines (c = '\r') l
      else consLine c (cutLines false l)

/-- `s.splitlines()`. -/
def splitlines (s : String) : List String := (cutLines false s.toList).map .ofList

theorem consLine_append {c : Char} {lines : List (List Char)} (h : lines ≠ [])
    (more : List (List Char)) : consLine c (lines ++ more) = consLine c lines ++ more := by
  cases lines with
  | nil => exact absurd rfl h
  | cons line lines => rfl

theorem cutLines_ne_nil {l : List Char} (h : l ≠ []) : cutLines false l ≠ [] := by
  cases l with
  | nil => exact absurd rfl h
  | cons c l =>
      rw [cutLines, Bool.false_and, if_neg Bool.false_ne_true]
      split
      · exact List.cons_ne_nil _ _
      · cases cutLines false l with
        | nil => exact List.cons_ne_nil _ _
        | cons line lines => exact List.cons_ne_nil _ _

theorem cutLines_append_boundary {b : Char} (hb : isLineBoundary b = true) (l rest : List Char)
    (afterReturn : Bool) :
    cutLines afterReturn (l ++ b :: rest) =
      cutLines afterReturn (l ++ [b]) ++ cutLines (b = '\r') rest := by
  induction l generalizing afterReturn with
  | nil =>
      simp only [List.nil_append, cutLines, hb, if_true]
      split
      · rename_i hfeed
        rw [Bool.and_eq_true, decide_eq_true_eq] at hfeed
        rw [hfeed.2]
        rfl
      · rfl
  | cons c l ih =>
      simp only [List.cons_append, cutLines]
      split
      · exact ih false
      · split
        · rw [ih]
          rfl
        · rw [ih, consLine_append]
          exact cutLines_ne_nil (by simp)

theorem cutLines_feed {l : List Char} (h : ∀ c ∈ l, isLineBoundary c = false) :
    cutLines false (l ++ ['\n']) = [l] := by
  induction l with
  | nil => rfl
  | cons c l ih =>
      rw [List.forall_mem_cons] at h
      rw [List.cons_append, cutLines, ih h.2, Bool.false_and, h.1]
      rfl

theorem not_boundary_of_mem_cutLines {l line : List Char} {afterReturn : Bool}
    (h : line ∈ cutLines afterReturn l) : ∀ c ∈ line, isLineBoundary c = false := by
  induction l generalizing afterReturn line with
  | nil => cases h
  | cons d l ih =>
      rw [cutLines] at h
      split at h
      · exact ih h
      split at h
      · rcases List.mem_cons.mp h with rfl | h
        · intro c hc
          cases hc
        · exact ih h
      · rename_i hd
        intro c hc
        cases hlines : cutLines false l with
        | nil =>
            rw [hlines, consLine, List.mem_singleton] at h
            rw [h, List.mem_singleton] at hc
            rw [hc]
            simpa using hd
        | cons first lines =>
            rw [hlines, consLine, List.mem_cons] at h
            rcases h with rfl | h
            · rcases List.mem_cons.mp hc with rfl | hc
              · simpa using hd
              · have hfirst : first ∈ cutLines false l := by
                  rw [hlines]
                  exact List.mem_cons_self
                exact ih hfirst c hc
            · have hline : line ∈ cutLines false l := by
                rw [hlines]
                exact List.mem_cons_of_mem _ h
              exact ih hline c hc

theorem exists_mem_cutLines {l : List Char} {c : Char} (hc : c ∈ l)
    (hboundary : isLineBoundary c = false) (afterReturn : Bool) :
    ∃ line ∈ cutLines afterReturn l, c ∈ line := by
  induction l generalizing afterReturn with
  | nil => cases hc
  | cons d l ih =>
      rw [cutLines]
      rcases List.mem_cons.mp hc with rfl | hc
      · have hfeed : c ≠ '\n' := by
          rintro rfl
          cases hboundary
        rw [if_neg (by simp [hfeed]), hboundary, if_neg Bool.false_ne_true]
        cases cutLines false l with
        | nil => exact ⟨[c], List.mem_singleton_self _, List.mem_cons_self⟩
        | cons line lines => exact ⟨c :: line, List.mem_cons_self, List.mem_cons_self⟩
      · split
        · exact ih hc false
        split
        · obtain ⟨line, hline, hmem⟩ := ih hc (d = '\r')
          exact ⟨line, List.mem_cons_of_mem _ hline, hmem⟩
        · obtain ⟨line, hline, hmem⟩ := ih hc false
          cases hlines : cutLines false l with
          | nil =>
              rw [hlines] at hline
              cases hline
          | cons first lines =>
              rw [hlines] at hline
              rcases List.mem_cons.mp hline with rfl | hline
              · exact ⟨d :: line, List.mem_cons_self, List.mem_cons_of_mem _ hmem⟩
              · exact ⟨line, List.mem_cons_of_mem _ hline, hmem⟩

/-! ## Segments -/

theorem mem_split {s sep part : String} :
    part ∈ split s sep ↔ part.toList ∈ Delimited.split sep.toList s.toList := by
  unfold split
  rw [List.mem_map]
  constructor
  · rintro ⟨l, hl, rfl⟩
    rw [String.toList_ofList]
    exact hl
  · intro h
    exact ⟨part.toList, h, String.ofList_toList⟩

theorem subset_lstripChar (s : String) (c : Char) : (lstripChar s c).toList ⊆ s.toList := by
  unfold lstripChar
  rw [String.toList_ofList]
  exact (List.dropWhile_suffix _).subset

theorem lstripChar_of_head {s : String} {c : Char} (h : s.toList.head? ≠ some c) :
    lstripChar s c = s := by
  unfold lstripChar
  cases hs : s.toList with
  | nil => rw [List.dropWhile_nil, ← hs, String.ofList_toList]
  | cons d rest =>
      rw [hs, List.head?_cons] at h
      have hd : decide (d = c) = false := by
        rw [decide_eq_false_iff_not]
        rintro rfl
        exact h rfl
      rw [List.dropWhile_cons, hd, ← hs]
      exact String.ofList_toList

section Strip

variable [PythonText]

theorem exists_strip (s : String) :
    ∃ before after, s.toList = before ++ ((strip s).toList ++ after) ∧
      (∀ c ∈ before, PythonText.isSpace c = true) ∧
        ∀ c ∈ after, PythonText.isSpace c = true := by
  refine ⟨s.toList.takeWhile PythonText.isSpace,
    (s.toList.dropWhile PythonText.isSpace).rtakeWhile PythonText.isSpace, ?_, ?_, ?_⟩
  · unfold strip
    rw [String.toList_ofList, List.rdropWhile_append_rtakeWhile,
      List.takeWhile_append_dropWhile]
  · intro c hc
    exact List.mem_takeWhile_imp hc
  · intro c hc
    exact List.mem_rtakeWhile_imp hc

theorem strip_part (s : String) : (strip s).toList <:+: s.toList := by
  obtain ⟨before, after, hs, -, -⟩ := exists_strip s
  exact ⟨before, after, by rw [hs, List.append_assoc]⟩

theorem strip_eq_empty {s : String} :
    strip s = "" ↔ ∀ c ∈ s.toList, PythonText.isSpace c = true := by
  obtain ⟨before, after, hs, hbefore, hafter⟩ := exists_strip s
  constructor
  · intro h c hc
    rw [hs, h, List.mem_append] at hc
    rcases hc with hc | hc
    · exact hbefore c hc
    · exact hafter c hc
  · intro h
    unfold strip
    have hdrop : s.toList.dropWhile PythonText.isSpace = [] := List.dropWhile_eq_nil_iff.mpr h
    rw [hdrop]
    rfl

/-- Trimmed text in front of and behind anything makes trimmed text. -/
theorem trimmed_between {l m : List Char} (hl : Trimmed l) (hm : Trimmed m) (hl' : l ≠ [])
    (hm' : m ≠ []) (middle : List Char) : Trimmed (l ++ (middle ++ m)) := by
  constructor
  · intro c hc
    rw [List.head?_append_of_ne_nil _ hl'] at hc
    exact hl.1 c hc
  · intro c hc
    rw [List.getLast?_append_of_ne_nil _ (List.append_ne_nil_of_right_ne_nil _ hm'),
      List.getLast?_append_of_ne_nil _ hm'] at hc
    exact hm.2 c hc

/-- The last segment of a text, and what is in front of it, if the segment is
known up to white space and the separator does not end with any. -/
theorem last_segment_eq {x y sep : List Char} {s : String}
    (hsep : ∃ c ∈ sep.getLast?, PythonText.isSpace c = false) (hs : strip s ≠ "")
    (h : x ++ (sep ++ (strip s).toList) = y ++ (sep ++ s.toList)) :
    s = strip s ∧ x = y := by
  obtain ⟨before, after, hparts, hbefore, hafter⟩ := exists_strip s
  have hne : (strip s).toList ≠ [] := by simpa using hs
  rw [hparts] at h
  have hafter' : after = [] := by
    by_contra hne'
    -- the left side ends with the text, the right side with white space
    have hlast := congrArg List.getLast? h
    rw [List.getLast?_append_of_ne_nil _ (List.append_ne_nil_of_right_ne_nil _ hne),
      List.getLast?_append_of_ne_nil _ hne] at hlast
    simp only [List.getLast?_append, List.getLast?_eq_some_getLast hne',
      Option.some_or] at hlast
    have hspace := hafter _ (List.getLast_mem hne')
    have hnot := (trimmed_strip s).2 _ hlast
    rw [hspace] at hnot
    cases hnot
  subst hafter'
  rw [List.append_nil] at hparts h
  have hfront : x ++ sep = y ++ (sep ++ before) := by
    have h' : (x ++ sep) ++ (strip s).toList = (y ++ (sep ++ before)) ++ (strip s).toList := by
      simpa only [List.append_assoc] using h
    exact List.append_cancel_right h'
  have hbefore' : before = [] := by
    by_contra hne'
    obtain ⟨c, hc, hnot⟩ := hsep
    have hsep' : sep ≠ [] := by
      rintro rfl
      cases hc
    have hlast := congrArg List.getLast? hfront
    rw [List.getLast?_append_of_ne_nil _ hsep', hc,
      List.getLast?_append_of_ne_nil _ (List.append_ne_nil_of_right_ne_nil _ hne'),
      List.getLast?_append_of_ne_nil _ hne', List.getLast?_eq_some_getLast hne'] at hlast
    have hspace := hbefore _ (List.getLast_mem hne')
    rw [← Option.some.inj hlast, hnot] at hspace
    cases hspace
  subst hbefore'
  rw [List.append_nil] at hfront
  rw [List.nil_append] at hparts
  exact ⟨String.toList_inj.mp hparts, List.append_cancel_right hfront⟩

end Strip

end Text

end MailboxService
