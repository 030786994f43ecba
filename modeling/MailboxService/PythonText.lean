import Mathlib.Data.List.DropRight

/-!
# Python text

The operations on `str` that the service uses, on Lean strings. What depends
on the Unicode tables, `str.lower` and `str.isspace`, is taken character by
character from `PythonText`, with the facts of the tables that are used.
-/

namespace MailboxService

/-- The Unicode tables behind `str.lower` and `str.strip`: lowering is done
once and for all, never empties a character, and neither makes nor changes
white space. -/
class PythonText where
  lowerChar : Char → List Char
  isSpace : Char → Bool
  lowerChar_ne_nil : ∀ c, lowerChar c ≠ []
  lowerChar_lower : ∀ c, ∀ d ∈ lowerChar c, lowerChar d = [d]
  lowerChar_space : ∀ c, ∀ d ∈ lowerChar c, isSpace d = isSpace c
  plus_not_space : isSpace '+' = false

/-- A text of Python may hold half of a surrogate pair, which a `Char` cannot be. Some
characters stand for such halves, none of them in ASCII. -/
class LoneSurrogates where
  isLoneSurrogate : Char → Bool
  isLoneSurrogate_ascii : ∀ c : Char, c.toNat < 128 → isLoneSurrogate c = false

/-- What `s.encode("utf-8")` raises. -/
inductive UnicodeEncodeError where
  | surrogatesNotAllowed
  deriving DecidableEq, Repr

/-- `s.encode("utf-8")` raises nothing. -/
def encodable [LoneSurrogates] (s : String) : Bool :=
  !s.toList.any LoneSurrogates.isLoneSurrogate

/-- What is made of a text that has to be encoded first. -/
def whenEncodable [LoneSurrogates] {α : Type} (s : String) (made : α) :
    Except UnicodeEncodeError α :=
  if encodable s then .ok made else .error .surrogatesNotAllowed

namespace Text

variable [PythonText]

/-- `s.lower()`. -/
def lower (s : String) : String :=
  .ofList (s.toList.flatMap PythonText.lowerChar)

/-- `s.strip()`. -/
def strip (s : String) : String :=
  .ofList ((s.toList.dropWhile PythonText.isSpace).rdropWhile PythonText.isSpace)

/-- `s.strip().lower()`, the normal form of an address or a code. -/
def normalize (s : String) : String := lower (strip s)

/-- `s.strip()` on a nullable text, with the empty text read as missing. -/
def stripOrNone (s : Option String) : Option String :=
  (s.map strip).filter (· ≠ "")

omit [PythonText] in
/-- `s.partition(c)`: the parts around the first `c`, if there is one. -/
def partition (s : String) (c : Char) : String × Bool × String :=
  match s.toList.dropWhile (· ≠ c) with
  | [] => (s, false, "")
  | _ :: rest => (.ofList (s.toList.takeWhile (· ≠ c)), true, .ofList rest)

omit [PythonText] in
/-- `c in s` for a single character. -/
def containsChar (s : String) (c : Char) : Bool := s.toList.contains c

/-! ## Trimmed text -/

/-- Neither end is white space. -/
def Trimmed (l : List Char) : Prop :=
  (∀ c ∈ l.head?, PythonText.isSpace c = false) ∧
    ∀ c ∈ l.getLast?, PythonText.isSpace c = false

theorem trimmed_strip (s : String) : Trimmed (strip s).toList := by
  unfold strip
  rw [String.toList_ofList]
  refine ⟨?_, ?_⟩
  · intro c hc
    -- the head of a prefix is the head of the list
    have hprefix := List.rdropWhile_prefix PythonText.isSpace
      (s.toList.dropWhile PythonText.isSpace)
    have hhead : c ∈ (s.toList.dropWhile PythonText.isSpace).head? := by
      obtain ⟨rest, hrest⟩ := hprefix
      rw [← hrest, List.head?_append, Option.mem_def.mp hc]
      rfl
    have := List.head?_dropWhile_not PythonText.isSpace s.toList
    rw [Option.mem_def.mp hhead] at this
    simpa using this
  · intro c hc
    have hne : (s.toList.dropWhile PythonText.isSpace).rdropWhile PythonText.isSpace ≠ [] := by
      intro hnil
      rw [hnil] at hc
      cases hc
    have hlast := List.rdropWhile_last_not PythonText.isSpace _ hne
    rw [List.getLast?_eq_some_getLast hne, Option.mem_some_iff] at hc
    rw [hc] at hlast
    simpa using hlast

theorem strip_of_trimmed {s : String} (h : Trimmed s.toList) : strip s = s := by
  have hdrop : s.toList.dropWhile PythonText.isSpace = s.toList := by
    cases hl : s.toList with
    | nil => rfl
    | cons c rest =>
        have hc : PythonText.isSpace c = false := h.1 c (by rw [hl]; rfl)
        rw [List.dropWhile_cons, hc]
        rfl
  unfold strip
  rw [hdrop, List.rdropWhile_eq_self_iff.mpr, String.ofList_toList]
  intro hne
  rw [h.2 _ (List.getLast?_eq_some_getLast hne)]
  exact Bool.false_ne_true

omit [PythonText] in
/-- The two parts around a separator that is there. -/
theorem toList_of_partition {s a b : String} {c : Char} (h : partition s c = (a, true, b)) :
    s.toList = a.toList ++ c :: b.toList := by
  unfold partition at h
  split at h
  · cases h
  · rename_i d rest hrest
    obtain ⟨rfl, -, rfl⟩ := h
    have hd : d = c := by
      have := List.head?_dropWhile_not (fun x => decide (x ≠ c)) s.toList
      rw [hrest] at this
      simpa using this
    subst hd
    rw [String.toList_ofList, String.toList_ofList, ← hrest, List.takeWhile_append_dropWhile]

omit [PythonText] in
theorem partition_fst_prefix (s : String) (c : Char) :
    (partition s c).1.toList <+: s.toList := by
  unfold partition
  split
  · exact List.prefix_refl _
  · rw [String.toList_ofList]
    exact List.takeWhile_prefix _

omit [PythonText] in
theorem partition_of_not_mem {s : String} {c : Char} (h : c ∉ s.toList) :
    partition s c = (s, false, "") := by
  unfold partition
  have hdrop : s.toList.dropWhile (· ≠ c) = [] := by
    rw [List.dropWhile_eq_nil_iff]
    intro d hd
    simp only [ne_eq, decide_eq_true_eq]
    rintro rfl
    exact h hd
  rw [hdrop]

omit [PythonText] in
theorem partition_of_toList {s a b : String} {c : Char} (h : c ∉ a.toList)
    (hs : s.toList = a.toList ++ c :: b.toList) : partition s c = (a, true, b) := by
  have hne : ∀ d ∈ a.toList, decide (d ≠ c) = true := by
    intro d hd
    rw [decide_eq_true_eq]
    rintro rfl
    exact h hd
  unfold partition
  rw [hs, List.dropWhile_append_of_pos hne, List.takeWhile_append_of_pos hne]
  simp

omit [PythonText] in
theorem not_mem_partition_fst (s : String) (c : Char) : c ∉ (partition s c).1.toList := by
  unfold partition
  split
  · rename_i hdrop
    rw [List.dropWhile_eq_nil_iff] at hdrop
    intro hc
    simpa using hdrop c hc
  · intro hc
    rw [String.toList_ofList] at hc
    simpa using List.mem_takeWhile_imp hc

/-! ## Lowering -/

theorem lower_append (s t : String) : lower (s ++ t) = lower s ++ lower t := by
  unfold lower
  rw [String.toList_append, List.flatMap_append, String.ofList_append]

theorem mem_lower {s : String} {d : Char} :
    d ∈ (lower s).toList ↔ ∃ c ∈ s.toList, d ∈ PythonText.lowerChar c := by
  unfold lower
  rw [String.toList_ofList, List.mem_flatMap]

theorem lower_eq_self {s : String} (h : ∀ c ∈ s.toList, PythonText.lowerChar c = [c]) :
    lower s = s := by
  unfold lower
  rw [List.flatMap_congr h, List.flatMap_singleton', String.ofList_toList]

theorem lower_eq_empty {s : String} : lower s = "" ↔ s = "" := by
  constructor
  · intro h
    by_contra hne
    obtain ⟨c, hc⟩ := List.exists_mem_of_ne_nil s.toList (by simpa using hne)
    obtain ⟨d, hd⟩ := List.exists_mem_of_ne_nil _ (PythonText.lowerChar_ne_nil c)
    have hmem : d ∈ (lower s).toList := mem_lower.mpr ⟨c, hc, hd⟩
    rw [h] at hmem
    cases hmem
  · rintro rfl
    rfl

theorem lower_lower (s : String) : lower (lower s) = lower s := by
  unfold lower
  rw [String.toList_ofList]
  congr 1
  rw [List.flatMap_assoc]
  apply List.flatMap_congr
  intro c _
  conv_rhs => rw [← List.flatMap_singleton' (PythonText.lowerChar c)]
  apply List.flatMap_congr
  intro d hd
  exact PythonText.lowerChar_lower c d hd

theorem mem_head?_lower {s : String} {d : Char} (h : d ∈ (lower s).toList.head?) :
    ∃ c ∈ s.toList.head?, d ∈ PythonText.lowerChar c := by
  unfold lower at h
  rw [String.toList_ofList] at h
  cases hs : s.toList with
  | nil =>
      rw [hs] at h
      cases h
  | cons c rest =>
      refine ⟨c, rfl, ?_⟩
      rw [hs, List.flatMap_cons, List.head?_append_of_ne_nil _ (PythonText.lowerChar_ne_nil c)]
        at h
      exact List.mem_of_mem_head? h

theorem mem_getLast?_lower {s : String} {d : Char} (h : d ∈ (lower s).toList.getLast?) :
    ∃ c ∈ s.toList.getLast?, d ∈ PythonText.lowerChar c := by
  unfold lower at h
  rw [String.toList_ofList] at h
  rcases List.eq_nil_or_concat s.toList with hs | ⟨init, c, hs⟩
  · rw [hs] at h
    cases h
  · refine ⟨c, by rw [hs]; simp, ?_⟩
    rw [hs, List.concat_eq_append, List.flatMap_append, List.flatMap_singleton,
      List.getLast?_append_of_ne_nil _ (PythonText.lowerChar_ne_nil c)] at h
    exact List.mem_of_mem_getLast? h

theorem trimmed_lower {s : String} (h : Trimmed s.toList) : Trimmed (lower s).toList := by
  refine ⟨?_, ?_⟩
  · intro d hd
    obtain ⟨c, hc, hdc⟩ := mem_head?_lower hd
    rw [PythonText.lowerChar_space c d hdc]
    exact h.1 c hc
  · intro d hd
    obtain ⟨c, hc, hdc⟩ := mem_getLast?_lower hd
    rw [PythonText.lowerChar_space c d hdc]
    exact h.2 c hc

theorem trimmed_normalize (s : String) : Trimmed (normalize s).toList :=
  trimmed_lower (trimmed_strip s)

theorem strip_normalize (s : String) : strip (normalize s) = normalize s :=
  strip_of_trimmed (trimmed_normalize s)

@[simp] theorem normalize_empty : normalize "" = "" := rfl

@[simp] theorem normalize_normalize (s : String) :
    normalize (normalize s) = normalize s := by
  show lower (strip (normalize s)) = normalize s
  rw [strip_normalize]
  exact lower_lower _

end Text

end MailboxService
