import MailboxService.Foundation.Loop
import MailboxService.VerificationCode.TokenScan

/-!
# The search behind a prefix

`_search_with_prefix` looks for the lowered prefix in the lowered text, and reads the
code at the same place of the text itself, behind as many characters as the prefix
has. The places are the same where every character is lowered to one; behind a
character like `U+0130`, which is lowered to two, the search reads further on.

What it should read is said without the lowered text: the code behind the leftmost
part of the text that is lowered like the prefix and has a code behind it.
-/

namespace MailboxService

open Foundation

/-- `text.find(pattern, start)`. -/
def Text.find (text pattern : List Char) (start : ℕ) : Option ℕ :=
  (List.range' start (text.length + 1 - start)).find? fun index =>
    pattern.isPrefixOf (text.drop index)

section

variable [PythonText]

def lowered (text : List Char) : List Char := text.flatMap PythonText.lowerChar

/-- What is left of a text behind the characters that are lowered to the given ones. -/
def behindLowered : List Char → List Char → Option (List Char)
  | [], rest => some rest
  | _, [] => none
  | expected, c :: rest =>
      if (PythonText.lowerChar c).isPrefixOf expected then
        behindLowered (expected.drop (PythonText.lowerChar c).length) rest
      else none

variable [CodeText]

/-! ## The loop -/

/-- A round of `_search_with_prefix`, from an index of the lowered text on. -/
def prefixRound (m : SafeVerificationCodeMatcher) (text codePrefix : List Char) (_ searchFrom : ℕ) :
    Round ℕ (Option (List Char)) :=
  match Text.find (lowered text) (lowered codePrefix) searchFrom with
  | none => .leave none
  | some prefixIndex =>
      match m.readCodeAt (text.drop (prefixIndex + codePrefix.length)) with
      | some code => .leave (some code)
      | none => .again (prefixIndex + 1)

/-- `_search_with_prefix`, for so many rounds. -/
def searchWithPrefixLoop (m : SafeVerificationCodeMatcher) (text codePrefix : List Char)
    (rounds : ℕ) : Option (Option (List Char)) :=
  loop (prefixRound m text codePrefix) rounds 0 0

/-! ## The specification -/

/-- **A code behind a prefix**: at a place of the text, a part that is lowered like the
prefix, white space if there is any, and a maximal run of code characters of an allowed
length. -/
structure CodeBehind (m : SafeVerificationCodeMatcher) (codePrefix text before code : List Char) :
    Prop where
  exists_parts : ∃ occurrence spaces after,
    text = before ++ (occurrence ++ (spaces ++ (code ++ after))) ∧
      lowered occurrence = lowered codePrefix ∧
      (∀ c ∈ spaces, PythonText.isSpace c = true) ∧
      (code ++ after).head?.any PythonText.isSpace = false ∧
      (∀ c ∈ code, m.isCodeChar c = true) ∧ after.head?.any m.isCodeChar = false
  bounded : m.minimumLength ≤ code.length ∧ code.length ≤ m.maximumLength

structure IsFirstCodeBehind (m : SafeVerificationCodeMatcher)
    (codePrefix text before code : List Char) : Prop
    extends CodeBehind m codePrefix text before code where
  first : ∀ before' code', CodeBehind m codePrefix text before' code' →
    before.length ≤ before'.length

/-- **A sound search** ends, with one result for any sufficient number of rounds; and a
code that it returns is the one behind the leftmost prefix that has a code behind it. -/
def PrefixSearchSound (m : SafeVerificationCodeMatcher) (text codePrefix : List Char) : Prop :=
  ∃ found, (∀ rounds, (lowered text).length + 1 < rounds →
      searchWithPrefixLoop m text codePrefix rounds = some found) ∧
    ∀ code, found = some code → ∃ before, IsFirstCodeBehind m codePrefix text before code

/-- The code that is read for the prefix at an index of the lowered text. -/
def hitAt (m : SafeVerificationCodeMatcher) (text codePrefix past rest : List Char) :
    Option (List Char) :=
  if (lowered codePrefix).isPrefixOf rest then
    m.readCodeAt (text.drop (past.length + codePrefix.length))
  else none

/-- The code behind a prefix that starts at a place of the text. -/
def codeBehindAt (m : SafeVerificationCodeMatcher) (codePrefix _past rest : List Char) :
    Option (List Char) :=
  (behindLowered (lowered codePrefix) rest).bind m.readCodeAt

/-- **The condition**, on the first index of the lowered text with a code to read for it:
the text has the prefix at that index as well, as long as it is given, and no code
stands behind a prefix before it; or the leftmost code behind a prefix is the same. -/
def PlaceKept (m : SafeVerificationCodeMatcher) (text codePrefix : List Char) : Prop :=
  ∀ before after code,
    IsFirstMatch (hitAt m text codePrefix) (lowered text) before after code →
      (lowered ((text.drop before.length).take codePrefix.length) = lowered codePrefix ∧
        ∀ before' code', CodeBehind m codePrefix text before' code' →
          before.length ≤ before'.length) ∨
      ∃ before', IsFirstCodeBehind m codePrefix text before' code

/-! ## What is read -/

variable {m : SafeVerificationCodeMatcher}

omit [CodeText] in
@[simp] theorem lowered_append (a b : List Char) : lowered (a ++ b) = lowered a ++ lowered b :=
  List.flatMap_append

omit [CodeText] in
theorem lowered_eq_nil {text : List Char} : lowered text = [] ↔ text = [] := by
  constructor
  · intro h
    cases text with
    | nil => rfl
    | cons c text =>
        rw [lowered, List.flatMap_cons, List.append_eq_nil_iff] at h
        exact absurd h.1 (PythonText.lowerChar_ne_nil c)
  · rintro rfl
    rfl

omit [CodeText] in
/-- What is left is what stands behind a part that is lowered to the given text. -/
theorem behindLowered_eq_some {expected rest after : List Char} :
    behindLowered expected rest = some after ↔
      ∃ occurrence, rest = occurrence ++ after ∧ lowered occurrence = expected := by
  induction rest generalizing expected with
  | nil =>
      cases expected with
      | nil =>
          constructor
          · intro h
            cases h
            exact ⟨[], rfl, rfl⟩
          · rintro ⟨occurrence, hrest, -⟩
            obtain ⟨-, rfl⟩ := List.append_eq_nil_iff.mp hrest.symm
            rfl
      | cons d expected =>
          constructor
          · intro h
            cases h
          · rintro ⟨occurrence, hrest, hlowered⟩
            obtain ⟨rfl, -⟩ := List.append_eq_nil_iff.mp hrest.symm
            cases hlowered
  | cons c rest ih =>
      cases expected with
      | nil =>
          constructor
          · intro h
            cases h
            exact ⟨[], rfl, rfl⟩
          · rintro ⟨occurrence, hrest, hlowered⟩
            obtain rfl := lowered_eq_nil.mp hlowered
            exact congrArg some hrest
      | cons d expected =>
          show (if (PythonText.lowerChar c).isPrefixOf (d :: expected) then
            behindLowered ((d :: expected).drop (PythonText.lowerChar c).length) rest
            else none) = _ ↔ _
          -- a character may be lowered to several, which are all taken at once
          by_cases hstarts : (PythonText.lowerChar c).isPrefixOf (d :: expected) = true
          · obtain ⟨more, hmore⟩ := List.isPrefixOf_iff_prefix.mp hstarts
            rw [if_pos hstarts, ← hmore, List.drop_left, ih]
            constructor
            · rintro ⟨occurrence, rfl, rfl⟩
              exact ⟨c :: occurrence, rfl, rfl⟩
            · rintro ⟨occurrence, hrest, hlowered⟩
              cases occurrence with
              | nil =>
                  rw [hmore] at hlowered
                  cases hlowered
              | cons e occurrence =>
                  obtain ⟨rfl, rfl⟩ := List.cons.inj hrest
                  exact ⟨occurrence, rfl, List.append_cancel_left hlowered⟩
          · rw [if_neg hstarts]
            constructor
            · intro h
              cases h
            · rintro ⟨occurrence, hrest, hlowered⟩
              cases occurrence with
              | nil => cases hlowered
              | cons e occurrence =>
                  obtain ⟨rfl, rfl⟩ := List.cons.inj hrest
                  refine absurd (List.isPrefixOf_iff_prefix.mpr ?_) hstarts
                  exact ⟨lowered occurrence, hlowered⟩

/-- **Reading a code**: white space, and a maximal run of code characters of an allowed
length. -/
theorem readCodeAt_eq_some {text code : List Char} :
    m.readCodeAt text = some code ↔
      (∃ spaces after, text = spaces ++ (code ++ after) ∧
        (∀ c ∈ spaces, PythonText.isSpace c = true) ∧
        (code ++ after).head?.any PythonText.isSpace = false ∧
        (∀ c ∈ code, m.isCodeChar c = true) ∧ after.head?.any m.isCodeChar = false) ∧
      m.minimumLength ≤ code.length ∧ code.length ≤ m.maximumLength := by
  have hallows : ∀ token : List Char, m.allows token = true ↔
      m.minimumLength ≤ token.length ∧ token.length ≤ m.maximumLength := by
    intro token
    simp [SafeVerificationCodeMatcher.allows]
  unfold SafeVerificationCodeMatcher.readCodeAt
  dsimp only
  rw [← hallows]
  constructor
  · intro h
    split at h
    · rename_i hallowed
      cases h
      refine ⟨⟨text.takeWhile PythonText.isSpace,
        (text.dropWhile PythonText.isSpace).dropWhile m.isCodeChar, ?_, ?_, ?_, ?_, ?_⟩, hallowed⟩
      · rw [List.takeWhile_append_dropWhile, List.takeWhile_append_dropWhile]
      · exact fun c hc => List.mem_takeWhile_imp hc
      · rw [List.takeWhile_append_dropWhile]
        exact head?_dropWhile text
      · exact fun c hc => List.mem_takeWhile_imp hc
      · exact head?_dropWhile _
    · cases h
  · rintro ⟨⟨spaces, after, rfl, hspaces, hhead, hcode, hafter⟩, hallowed⟩
    have hdrop : (spaces ++ (code ++ after)).dropWhile PythonText.isSpace = code ++ after := by
      rw [List.dropWhile_append_of_pos hspaces]
      cases hrest : code ++ after with
      | nil => rfl
      | cons c rest =>
          rw [hrest] at hhead
          have hc : PythonText.isSpace c = false := by simpa using hhead
          rw [List.dropWhile_cons, hc, if_neg Bool.false_ne_true]
    rw [hdrop, takeWhile_of_isStretch hcode hafter, if_pos hallowed]

theorem codeBehindAt_eq_some {codePrefix text before rest past code : List Char}
    (h : text = before ++ rest) :
    codeBehindAt m codePrefix past rest = some code ↔
      CodeBehind m codePrefix text before code := by
  subst h
  unfold codeBehindAt
  rw [Option.bind_eq_some_iff]
  constructor
  · rintro ⟨behind, hbehind, hread⟩
    obtain ⟨occurrence, rfl, hlowered⟩ := behindLowered_eq_some.mp hbehind
    obtain ⟨⟨spaces, after, rfl, hrun⟩, hbounded⟩ := readCodeAt_eq_some.mp hread
    exact ⟨⟨occurrence, spaces, after, rfl, hlowered, hrun⟩, hbounded⟩
  · rintro ⟨⟨occurrence, spaces, after, htext, hlowered, hrun⟩, hbounded⟩
    obtain rfl := List.append_cancel_left htext
    exact ⟨_, behindLowered_eq_some.mpr ⟨occurrence, rfl, hlowered⟩,
      readCodeAt_eq_some.mpr ⟨⟨spaces, after, rfl, hrun⟩, hbounded⟩⟩

theorem firstMatch_codeBehindAt {codePrefix text code : List Char} :
    firstMatch (codeBehindAt m codePrefix) [] text = some code ↔
      ∃ before, IsFirstCodeBehind m codePrefix text before code := by
  rw [firstMatch_eq_some]
  constructor
  · rintro ⟨before, rest, htext, hhere, hfirst⟩
    refine ⟨before, (codeBehindAt_eq_some htext).mp hhere, ?_⟩
    intro before' code' hcode'
    by_contra hlt
    obtain ⟨occurrence, spaces, after, htext', -⟩ := hcode'.exists_parts
    have hnone := hfirst before' _ htext' (Nat.lt_of_not_le hlt)
    rw [(codeBehindAt_eq_some htext').mpr hcode'] at hnone
    cases hnone
  · rintro ⟨before, hcode, hfirst⟩
    obtain ⟨occurrence, spaces, after, htext, -⟩ := hcode.exists_parts
    refine ⟨before, _, htext, (codeBehindAt_eq_some htext).mpr hcode, ?_⟩
    intro before' rest' htext' hlt
    cases hearly : codeBehindAt m codePrefix before'.reverse rest' with
    | none => rfl
    | some code' =>
        have hle := hfirst before' code' ((codeBehindAt_eq_some htext').mp hearly)
        omega

/-! ## The loop as a search -/

omit [PythonText] [CodeText] in
theorem find_eq_some {text pattern : List Char} {start index : ℕ}
    (h : Text.find text pattern start = some index) :
    start ≤ index ∧ index ≤ text.length ∧ pattern.isPrefixOf (text.drop index) = true ∧
      ∀ j, start ≤ j → j < index → pattern.isPrefixOf (text.drop j) = false := by
  obtain ⟨hstarts, hmem, hbefore⟩ := List.find?_range'_eq_some.mp h
  rw [List.mem_range'_1] at hmem
  refine ⟨hmem.1, by omega, hstarts, ?_⟩
  intro j hj hlt
  simpa using hbefore j hj hlt

omit [PythonText] [CodeText] in
theorem find_eq_none {text pattern : List Char} {start : ℕ}
    (h : Text.find text pattern start = none) {j : ℕ} (hj : start ≤ j) (hlt : j ≤ text.length) :
    pattern.isPrefixOf (text.drop j) = false := by
  have := List.find?_range'_eq_none.mp h j hj (by omega)
  simpa using this

theorem firstMatch_hitAt_skip {text codePrefix : List Char} {start index : ℕ}
    (hle : start ≤ index) (hindex : index ≤ (lowered text).length)
    (h : ∀ j, start ≤ j → j < index →
      (lowered codePrefix).isPrefixOf ((lowered text).drop j) = false) :
    firstMatch (hitAt m text codePrefix) ((lowered text).take start).reverse
        ((lowered text).drop start) =
      firstMatch (hitAt m text codePrefix) ((lowered text).take index).reverse
        ((lowered text).drop index) := by
  induction index, hle using Nat.le_induction with
  | base => rfl
  | succ index hle ih =>
      have hlt : index < (lowered text).length := hindex
      rw [ih (by omega) fun j hj hj' => h j hj (by omega)]
      have hcons : (lowered text).drop index =
          (lowered text)[index] :: (lowered text).drop (index + 1) :=
        List.drop_eq_getElem_cons hlt
      have hnone : hitAt m text codePrefix ((lowered text).take index).reverse
          ((lowered text).drop index) = none := by
        unfold hitAt
        rw [h index hle (by omega), if_neg Bool.false_ne_true]
      rw [hcons] at hnone ⊢
      rw [firstMatch_of_none hnone, List.take_succ_eq_append_getElem hlt, List.reverse_append]
      rfl

/-- **The loop ends**, with what the leftmost index of the lowered text has to give. By the
loop rule: the indices before the one that the round starts from have nothing. -/
theorem searchWithPrefixLoop_eq {codePrefix : List Char} (hne : codePrefix ≠ [])
    (text : List Char) {rounds : ℕ} (hrounds : (lowered text).length + 1 < rounds) :
    searchWithPrefixLoop m text codePrefix rounds =
      some (firstMatch (hitAt m text codePrefix) [] (lowered text)) := by
  let left (start : ℕ) : Option (List Char) :=
    firstMatch (hitAt m text codePrefix) ((lowered text).take start).reverse
      ((lowered text).drop start)
  let variant (start : ℕ) : ℕ := (lowered text).length + 1 - start
  have hpattern : lowered codePrefix ≠ [] := fun h => hne (lowered_eq_nil.mp h)
  -- what a prefix at an index gives
  have hhit : ∀ index, index ≤ (lowered text).length →
      (lowered codePrefix).isPrefixOf ((lowered text).drop index) = true →
      hitAt m text codePrefix ((lowered text).take index).reverse ((lowered text).drop index) =
        m.readCodeAt (text.drop (index + codePrefix.length)) := by
    intro index hindex hstarts
    unfold hitAt
    rw [if_pos hstarts, List.length_reverse, List.length_take, Nat.min_eq_left hindex]
  have hloop := loop_leaves (prefixRound m text codePrefix)
    (I := fun _ start => start ≤ (lowered text).length ∧
      firstMatch (hitAt m text codePrefix) [] (lowered text) = left start)
    (Q := fun found => found = firstMatch (hitAt m text codePrefix) [] (lowered text))
    variant ?_ ?_ (k := 0) (s := 0) ⟨Nat.zero_le _, rfl⟩
  · obtain ⟨found, rfl, hfound⟩ := hloop
    exact hfound rounds hrounds
  · rintro k start next ⟨-, hleft⟩ hround
    unfold prefixRound at hround
    split at hround
    · cases hround
    · rename_i index hfind
      obtain ⟨hle, hindex, hstarts, hbefore⟩ := find_eq_some hfind
      split at hround
      · cases hround
      · rename_i hread
        cases hround
        -- the prefix is not empty, so that the index is not the end of the text
        have hlt : index < (lowered text).length := by
          by_contra hge
          rw [List.drop_eq_nil_of_le (Nat.le_of_not_lt hge)] at hstarts
          exact hpattern (List.isPrefixOf_iff_prefix.mp hstarts |> List.prefix_nil.mp)
        have hnone := hhit index hindex hstarts
        rw [hread] at hnone
        refine ⟨⟨hlt, ?_⟩, by simp only [variant]; omega⟩
        rw [hleft]
        show firstMatch _ _ _ = firstMatch _ _ _
        rw [firstMatch_hitAt_skip hle hindex hbefore]
        have hcons : (lowered text).drop index =
            (lowered text)[index] :: (lowered text).drop (index + 1) :=
          List.drop_eq_getElem_cons hlt
        rw [hcons] at hnone ⊢
        rw [firstMatch_of_none hnone, List.take_succ_eq_append_getElem hlt, List.reverse_append]
        rfl
  · rintro k start found ⟨hstart, hleft⟩ hround
    rw [hleft]
    unfold prefixRound at hround
    split at hround
    · rename_i hfind
      cases hround
      show none = firstMatch _ _ _
      rw [firstMatch_hitAt_skip hstart le_rfl fun j hj hj' => find_eq_none hfind hj hj'.le,
        List.drop_length, firstMatch]
      have hend := find_eq_none hfind hstart le_rfl
      rw [List.drop_length] at hend
      unfold hitAt
      rw [hend, if_neg Bool.false_ne_true]
    · rename_i index hfind
      obtain ⟨hle, hindex, hstarts, hbefore⟩ := find_eq_some hfind
      split at hround
      · rename_i code hread
        cases hround
        show some code = firstMatch _ _ _
        rw [firstMatch_hitAt_skip hle hindex hbefore]
        exact (firstMatch_of_some ((hhit index hindex hstarts).trans hread)).symm
      · cases hround

theorem searchWithPrefixFrom_eq {codePrefix : List Char} (hne : codePrefix ≠ [])
    (text past rest : List Char) :
    m.searchWithPrefixFrom codePrefix text past.length rest =
      firstMatch (hitAt m text codePrefix) past rest := by
  induction rest generalizing past with
  | nil =>
      have hend : (lowered codePrefix).isPrefixOf [] = false := by
        cases hcodePrefix : lowered codePrefix with
        | nil => exact absurd (lowered_eq_nil.mp hcodePrefix) hne
        | cons d expected => rfl
      rw [firstMatch, hitAt, hend, if_neg Bool.false_ne_true]
      rfl
  | cons c rest ih =>
      have hnext := ih (c :: past)
      rw [List.length_cons] at hnext
      rw [SafeVerificationCodeMatcher.searchWithPrefixFrom, firstMatch, hnext, hitAt]
      show (if (lowered codePrefix).isPrefixOf (c :: rest) then _ else _) = _
      split <;> simp

theorem searchWithPrefixLoop_searchWithPrefix {codePrefix : List Char} (hne : codePrefix ≠ [])
    (text : List Char) {rounds : ℕ} (hrounds : (lowered text).length + 1 < rounds) :
    searchWithPrefixLoop m text codePrefix rounds = some (m.searchWithPrefix text codePrefix) := by
  rw [searchWithPrefixLoop_eq hne text hrounds]
  exact congrArg some (searchWithPrefixFrom_eq hne text [] (lowered text)).symm

/-! ## Soundness -/

/-- A search that ends is sound exactly if what it returns is what is specified. -/
theorem prefixSearchSound_iff {codePrefix : List Char} (hne : codePrefix ≠ [])
    (text : List Char) :
    PrefixSearchSound m text codePrefix ↔
      ∀ code, firstMatch (hitAt m text codePrefix) [] (lowered text) = some code →
        ∃ before, IsFirstCodeBehind m codePrefix text before code := by
  constructor
  · rintro ⟨found, hfound, hsound⟩ code hcode
    have hloop := hfound ((lowered text).length + 2) (by omega)
    rw [searchWithPrefixLoop_eq hne text (by omega)] at hloop
    exact hsound code ((Option.some.inj hloop).symm.trans hcode)
  · intro hsound
    exact ⟨_, fun rounds hrounds => searchWithPrefixLoop_eq hne text hrounds, hsound⟩

theorem codeBehind_of_kept {text codePrefix code : List Char} {index : ℕ}
    (hne : codePrefix ≠ [])
    (hkept : lowered ((text.drop index).take codePrefix.length) = lowered codePrefix)
    (hread : m.readCodeAt (text.drop (index + codePrefix.length)) = some code) :
    (text.take index).length = index ∧ CodeBehind m codePrefix text (text.take index) code := by
  have hlt : index < text.length := by
    by_contra hge
    rw [List.drop_eq_nil_of_le (Nat.le_of_not_lt hge), List.take_nil] at hkept
    exact hne (lowered_eq_nil.mp hkept.symm)
  have hsplit : text.drop index =
      (text.drop index).take codePrefix.length ++ text.drop (index + codePrefix.length) := by
    rw [← List.drop_drop, List.take_append_drop]
  have hhere : codeBehindAt m codePrefix [] (text.drop index) = some code := by
    unfold codeBehindAt
    rw [behindLowered_eq_some.mpr ⟨_, hsplit, hkept⟩]
    exact hread
  exact ⟨List.length_take_of_le hlt.le,
    (codeBehindAt_eq_some (List.take_append_drop index text).symm).mp hhere⟩

/-- **The search behind a prefix is sound** exactly if the place of the first index that
gives a code is kept, or the specified code is the same. -/
theorem prefix_search_sound_iff (m : SafeVerificationCodeMatcher) (text : List Char)
    {codePrefix : List Char} (hne : codePrefix ≠ []) :
    PrefixSearchSound m text codePrefix ↔ PlaceKept m text codePrefix := by
  rw [prefixSearchSound_iff hne]
  constructor
  · intro hsound before after code hfirst
    exact Or.inr (hsound code (firstMatch_eq_some.mpr ⟨before, after, hfirst⟩))
  · intro hplace code hcode
    obtain ⟨before, after, hfirst⟩ := firstMatch_eq_some.mp hcode
    rcases hplace before after code hfirst with ⟨hkept, hearliest⟩ | hsame
    · have hhere := hfirst.here
      unfold hitAt at hhere
      split at hhere
      · rw [List.length_reverse] at hhere
        obtain ⟨hlength, hbehind⟩ := codeBehind_of_kept hne hkept hhere
        refine ⟨_, hbehind, ?_⟩
        rw [hlength]
        exact hearliest
      · cases hhere
    · exact hsame

/-! ## Characters that keep their length -/

/-- Every character is lowered to one. -/
def KeepsLength (text : List Char) : Prop := ∀ c ∈ text, (PythonText.lowerChar c).length = 1

omit [CodeText] in
theorem KeepsLength.length_lowered {text : List Char} (h : KeepsLength text) :
    (lowered text).length = text.length := by
  induction text with
  | nil => rfl
  | cons c text ih =>
      have hrest := ih fun d hd => h d (List.mem_cons_of_mem c hd)
      rw [lowered, List.flatMap_cons, List.length_append, h c (List.mem_cons_self ..)]
      exact (Nat.add_comm _ _).trans (congrArg (· + 1) hrest)

omit [CodeText] in
theorem KeepsLength.append {a b : List Char} (h : KeepsLength (a ++ b)) :
    KeepsLength a ∧ KeepsLength b :=
  ⟨fun c hc => h c (List.mem_append_left b hc), fun c hc => h c (List.mem_append_right a hc)⟩

omit [CodeText] in
theorem KeepsLength.take_lowered {text : List Char} (h : KeepsLength text) (n : ℕ) :
    (lowered text).take n = lowered (text.take n) := by
  rw [← List.take_append_drop n text] at h
  have hlength := h.append.1.length_lowered
  conv_lhs => rw [← List.take_append_drop n text, lowered_append]
  rcases Nat.le_total n text.length with hle | hle
  · rw [List.length_take_of_le hle] at hlength
    exact List.take_left' hlength
  · rw [List.take_of_length_le hle] at hlength ⊢
    rw [List.drop_eq_nil_of_le hle]
    have hnil : lowered [] = [] := rfl
    rw [hnil, List.append_nil, List.take_of_length_le (by omega)]

omit [CodeText] in
theorem KeepsLength.drop_lowered {text : List Char} (h : KeepsLength text) (n : ℕ) :
    (lowered text).drop n = lowered (text.drop n) := by
  have hsplit := lowered_append (text.take n) (text.drop n)
  rw [List.take_append_drop, ← h.take_lowered n] at hsplit
  exact List.append_cancel_left ((List.take_append_drop n _).trans hsplit)

/-- **Where lowering keeps the length of the text and of the prefix**, every place is
kept. -/
theorem placeKept_of_keepsLength {text codePrefix : List Char} (htext : KeepsLength text)
    (hkeeps : KeepsLength codePrefix) : PlaceKept m text codePrefix := by
  intro before after code hfirst
  refine Or.inl ⟨?_, ?_⟩
  · have hhere := hfirst.here
    unfold hitAt at hhere
    split at hhere
    · rename_i hfound
      have hafter : after = lowered (text.drop before.length) := by
        rw [← htext.drop_lowered, hfirst.text_eq, List.drop_left]
      have hrest : KeepsLength (text.drop before.length) := by
        rw [← List.take_append_drop before.length text] at htext
        exact htext.append.2
      rw [← hrest.take_lowered, ← hafter, ← hkeeps.length_lowered]
      exact (List.prefix_iff_eq_take.mp (List.isPrefixOf_iff_prefix.mp hfound)).symm
    · cases hhere
  · intro before' code' hcode'
    by_contra hlt
    obtain ⟨occurrence, spaces, after', rfl, hlowered, hrun⟩ := hcode'.exists_parts
    obtain ⟨hbefore, hrest⟩ := htext.append
    have hlength : occurrence.length = codePrefix.length := by
      rw [← hrest.append.1.length_lowered, hlowered, hkeeps.length_lowered]
    -- the index of that prefix would come first
    have hnone := hfirst.first (lowered before') _ (lowered_append _ _)
      (by rw [hbefore.length_lowered]; omega)
    have hread := readCodeAt_eq_some.mpr ⟨⟨spaces, after', rfl, hrun⟩, hcode'.bounded⟩
    unfold hitAt at hnone
    rw [lowered_append, hlowered, if_pos (List.isPrefixOf_iff_prefix.mpr (List.prefix_append _ _)),
      List.length_reverse, hbefore.length_lowered, ← hlength, ← List.length_append,
      ← List.append_assoc, List.drop_left, hread] at hnone
    cases hnone

end

/-! ## A character that is lowered to two -/

section Sample

/-- ASCII text, and `U+0130`, which is lowered to an `i` and a dot above it. -/
@[reducible] def dottedText : PythonText where
  lowerChar c := if c = '\u0130' then ['i', '\u0307'] else [c.toLower]
  isSpace := Ascii.isSpace
  lowerChar_ne_nil c := by split <;> exact List.cons_ne_nil _ _
  lowerChar_lower c d hd := by
    split at hd
    · rcases List.mem_cons.mp hd with rfl | hd
      · decide
      · rw [List.mem_singleton.mp hd]
        decide
    · rename_i hc
      rw [List.mem_singleton] at hd
      have hne : c.toLower ≠ '\u0130' := by
        intro heq
        have hnat := Ascii.toNat_toLower c
        rw [heq] at hnat
        have hdot : ('\u0130' : Char).toNat = 304 := by decide
        split at hnat
        · omega
        · exact hc (Char.ext (UInt32.toNat_inj.mp hnat.symm))
      rw [hd, if_neg hne, Ascii.toLower_toLower]
  lowerChar_space c d hd := by
    split at hd
    · rename_i hc
      rw [hc]
      rcases List.mem_cons.mp hd with rfl | hd
      · decide
      · rw [List.mem_singleton.mp hd]
        decide
    · rw [List.mem_singleton.mp hd, Ascii.isSpace_toLower]
  plus_not_space := asciiText.plus_not_space

@[reducible] def dottedCodeText : @CodeText dottedText :=
  letI := dottedText
  { isDigit := Char.isDigit
    isDecimal := Char.isDigit
    isWord := fun c => c.isAlphanum || c = '_'
    upperChar := fun c => [c.toUpper]
    isDigit_ascii := asciiCodeText.isDigit_ascii
    isDecimal_ascii := asciiCodeText.isDecimal_ascii
    isWord_ascii := asciiCodeText.isWord_ascii
    upperChar_ascii := asciiCodeText.upperChar_ascii
    isSpace_ascii := asciiCodeText.isSpace_ascii }

attribute [local instance] dottedText dottedCodeText

def prefixMatcher : SafeVerificationCodeMatcher := ⟨.digits, 4, 8, some "code"⟩

/-- Without such letters the code that is read is the specified one. -/
theorem prefix_search_sound_sample :
    PrefixSearchSound prefixMatcher "Your Code: 4821".toList "code:".toList := by
  refine (prefix_search_sound_iff prefixMatcher "Your Code: 4821".toList (by decide)).mpr ?_
  intro before after code hfirst
  have hhit : firstMatch (hitAt prefixMatcher "Your Code: 4821".toList "code:".toList) []
      (lowered "Your Code: 4821".toList) = some "4821".toList := by decide +kernel
  have hspecified : firstMatch (codeBehindAt prefixMatcher "code:".toList) []
      "Your Code: 4821".toList = some "4821".toList := by decide +kernel
  have hcode := firstMatch_eq_some.mpr ⟨before, after, hfirst⟩
  rw [hhit] at hcode
  rw [← Option.some.inj hcode]
  exact Or.inr (firstMatch_codeBehindAt.mp hspecified)

/-- **The first digit is lost**: behind `İcode` the search reads one character further
on, and the code that it returns is no maximal run. -/
theorem first_digit_lost :
    prefixMatcher.search "" "İcode123456" = some "23456" ∧
      ¬ PrefixSearchSound prefixMatcher "İcode123456".toList "code".toList := by
  refine ⟨by decide +kernel, ?_⟩
  have hhit : firstMatch (hitAt prefixMatcher "İcode123456".toList "code".toList) []
      (lowered "İcode123456".toList) = some "23456".toList := by decide +kernel
  have hspecified : firstMatch (codeBehindAt prefixMatcher "code".toList) []
      "İcode123456".toList = some "123456".toList := by decide +kernel
  rw [prefixSearchSound_iff (by decide)]
  intro hsound
  have hsame := firstMatch_codeBehindAt.mpr (hsound _ hhit)
  rw [hspecified] at hsame
  exact absurd hsame (by decide)

end Sample

end MailboxService
