import MailboxService.VerificationCode.Polling

/-!
# Matchers of verification codes

`verification_code_matcher`: the search of a matcher for a code in a subject and
a body, and the byte budget that a text is cut to. A scan goes over a text once,
from left to right, and remembers the run of characters that it is in.
-/

namespace MailboxService

open Foundation

/-- The Unicode tables behind `str.isdigit`, `\d`, `\w` and `str.upper`, with what
they say about the ASCII characters. -/
class CodeText [PythonText] where
  isDigit : Char → Bool
  isDecimal : Char → Bool
  isWord : Char → Bool
  upperChar : Char → List Char
  isDigit_ascii : ∀ c : Char, c.toNat < 128 → isDigit c = c.isDigit
  isDecimal_ascii : ∀ c : Char, c.toNat < 128 → isDecimal c = c.isDigit
  isWord_ascii : ∀ c : Char, c.toNat < 128 → isWord c = (c.isAlphanum || c = '_')
  upperChar_ascii : ∀ c : Char, c.toNat < 128 → upperChar c = [c.toUpper]
  isSpace_ascii : ∀ c : Char, c.toNat < 128 → PythonText.isSpace c = true → c.toNat ≤ 32

def isAlphanumeric (c : Char) : Bool :=
  ('0' ≤ c && c ≤ '9') || ('A' ≤ c && c ≤ 'Z') || ('a' ≤ c && c ≤ 'z')

theorem isAlphanumeric_iff {c : Char} :
    isAlphanumeric c = true ↔
      (48 ≤ c.toNat ∧ c.toNat ≤ 57) ∨ (65 ≤ c.toNat ∧ c.toNat ≤ 90) ∨
        (97 ≤ c.toNat ∧ c.toNat ≤ 122) := by
  unfold isAlphanumeric
  simp only [Bool.or_eq_true, Bool.and_eq_true, decide_eq_true_eq, Char.le_def,
    UInt32.le_iff_toNat_le, or_assoc]
  rfl

theorem toNat_toUpper (c : Char) :
    c.toUpper.toNat = if 97 ≤ c.toNat ∧ c.toNat ≤ 122 then c.toNat - 32 else c.toNat := by
  unfold Char.toUpper
  have ha : ('a'.val ≤ c.val) ↔ 97 ≤ c.toNat := by
    rw [UInt32.le_iff_toNat_le]
    rfl
  have hz : (c.val ≤ 'z'.val) ↔ c.toNat ≤ 122 := by
    rw [UInt32.le_iff_toNat_le]
    rfl
  simp only [ha, hz]
  split
  · rename_i h
    show (c.val + ('A'.val - 'a'.val)).toNat = _
    rw [UInt32.toNat_add]
    have : c.val.toNat = c.toNat := rfl
    have h32 : ('A'.val - 'a'.val).toNat = 2 ^ 32 - 32 := rfl
    rw [this, h32]
    omega
  · rfl

theorem toUpper_toUpper (c : Char) : c.toUpper.toUpper = c.toUpper := by
  have h : c.toUpper.toUpper.toNat = c.toUpper.toNat := by
    rw [toNat_toUpper c.toUpper, toNat_toUpper c]
    split_ifs <;> omega
  exact Char.ext (UInt32.toNat_inj.mp h)

theorem isAlphanumeric_newline : isAlphanumeric '\n' = false := by decide

theorem isAlphanumeric_dash : isAlphanumeric '-' = false := by decide

/-- Two characters that are equal up to case are what a pattern under
`re.IGNORECASE` takes for the same, and so are the letters that fold to an ASCII
one. -/
def ignoringCase (letter c : Char) : Bool :=
  c.toLower = letter.toLower ||
    (letter.toLower = 'i' && (c = '\u0130' || c = '\u0131')) ||
    (letter.toLower = 'k' && c = '\u212A') ||
    (letter.toLower = 's' && c = '\u017F')

/-- `"\n".join(part for part in parts if part)` of a subject and a body. -/
def joinParts (subject body : List Char) : List Char :=
  if subject = [] then body
  else if body = [] then subject
  else subject ++ '\n' :: body

/-! ## Budgets -/

/-- The characters of a text that is too long for its budget. Where the bytes
are cut behind a character of several bytes, that character is dropped as well. -/
def truncateFrom : ℕ → List Char → List Char
  | _, [] => []
  | budget, c :: rest =>
      if c.utf8Size < budget ∨ c.utf8Size = budget ∧ budget = 1 then
        c :: truncateFrom (budget - c.utf8Size) rest
      else []

/-- `truncate_text_to_byte_budget`, of a text that can be encoded. -/
def truncateTextToByteBudget (text : String) (maximumBytes : ℕ) : String :=
  if text.utf8ByteSize ≤ maximumBytes then text
  else .ofList (truncateFrom maximumBytes text.toList)

/-- `truncate_text_to_byte_budget`, which encodes the whole of a text. -/
def truncateTextToByteBudget? [LoneSurrogates] (text : String) (maximumBytes : ℕ) :
    Except UnicodeEncodeError String :=
  if maximumBytes = 0 then .ok ""
  else whenEncodable text (truncateTextToByteBudget text maximumBytes)

section

variable [PythonText] [CodeText]

open Text

/-- `text.upper()`. -/
def upper (text : List Char) : List Char := text.flatMap CodeText.upperChar

/-! ## The tokens of xAI -/

/-- Where a scan for `ABC-123` stands: outside of a token, in its first segment,
or behind the dash. -/
inductive XaiScan where
  | outside
  | first (segment : List Char)
  | second (firstSegment segment : List Char)

/-- `xAI` comes next, and no letter or digit after it. -/
def followedByXai (text : List Char) : Bool :=
  let remaining := text.dropWhile PythonText.isSpace
  "XAI".toList.isPrefixOf (upper remaining) && upper (remaining.take 3) = "XAI".toList &&
    !(remaining.drop 3).head?.any isAlphanumeric

/-- The token that ends in front of `text`. -/
def xaiToken (requireXaiLabel : Bool) (firstSegment segment text : List Char) :
    Option (List Char) :=
  if segment.length = 3 ∧ (requireXaiLabel = true → followedByXai text = true) then
    some (upper firstSegment ++ '-' :: upper segment)
  else none

/-- The loop of `_match_xai_token`. A segment is read to its end, so that none is
embedded in a longer run. -/
def matchXaiFrom (requireXaiLabel : Bool) : XaiScan → List Char → Option (List Char)
  | .second firstSegment segment, [] => xaiToken requireXaiLabel firstSegment segment []
  | _, [] => none
  | .outside, c :: rest =>
      matchXaiFrom requireXaiLabel (if isAlphanumeric c then .first [c] else .outside) rest
  | .first segment, c :: rest =>
      matchXaiFrom requireXaiLabel
        (if isAlphanumeric c then .first (segment ++ [c])
        else if segment.length = 3 ∧ c = '-' then .second segment []
        else .outside) rest
  | .second firstSegment segment, c :: rest =>
      if isAlphanumeric c then
        matchXaiFrom requireXaiLabel (.second firstSegment (segment ++ [c])) rest
      else
        (xaiToken requireXaiLabel firstSegment segment (c :: rest)).or
          (matchXaiFrom requireXaiLabel .outside rest)

def matchXaiToken (requireXaiLabel : Bool) (text : List Char) : Option (List Char) :=
  matchXaiFrom requireXaiLabel .outside text

def searchXai (subject body : List Char) : Option (List Char) :=
  (matchXaiToken true subject).or (matchXaiToken false (joinParts subject body))

/-! ## Tokens of one kind of characters -/

namespace SafeVerificationCodeMatcher

def isCodeChar (m : SafeVerificationCodeMatcher) (c : Char) : Bool :=
  match m.patternType with
  | .digits => CodeText.isDigit c
  | _ => isAlphanumeric c

def allows (m : SafeVerificationCodeMatcher) (token : List Char) : Bool :=
  m.minimumLength ≤ token.length && token.length ≤ m.maximumLength

/-- The loop of `_search_token`, with the run of code characters that it is in.
The run is read to its end, so that it is not embedded in a longer one. -/
def searchTokenFrom (m : SafeVerificationCodeMatcher) (run : List Char) :
    List Char → Option (List Char)
  | [] => if run ≠ [] ∧ m.allows run then some run else none
  | c :: rest =>
      if m.isCodeChar c then m.searchTokenFrom (run ++ [c]) rest
      else if run ≠ [] ∧ m.allows run then some run
      else m.searchTokenFrom [] rest

def searchToken (m : SafeVerificationCodeMatcher) (text : List Char) : Option (List Char) :=
  m.searchTokenFrom [] text

/-- `_read_code_at`, with the text from there on. -/
def readCodeAt (m : SafeVerificationCodeMatcher) (text : List Char) : Option (List Char) :=
  let token := (text.dropWhile PythonText.isSpace).takeWhile m.isCodeChar
  if m.allows token then some token else none

/-- The loop of `_search_with_prefix`: the prefix is looked for in the lowered
text, and the code behind it at the same place of the text itself. -/
def searchWithPrefixFrom (m : SafeVerificationCodeMatcher) (codePrefix text : List Char) :
    ℕ → List Char → Option (List Char)
  | _, [] => none
  | index, c :: rest =>
      if (codePrefix.flatMap PythonText.lowerChar).isPrefixOf (c :: rest) then
        (m.readCodeAt (text.drop (index + codePrefix.length))).or
          (m.searchWithPrefixFrom codePrefix text (index + 1) rest)
      else m.searchWithPrefixFrom codePrefix text (index + 1) rest

def searchWithPrefix (m : SafeVerificationCodeMatcher) (text codePrefix : List Char) :
    Option (List Char) :=
  m.searchWithPrefixFrom codePrefix text 0 (text.flatMap PythonText.lowerChar)

def searchText (m : SafeVerificationCodeMatcher) (subject body : List Char) :
    Option (List Char) :=
  match m.patternType, m.codePrefix.bind orNone with
  | .xai, _ => searchXai subject body
  | _, some codePrefix => m.searchWithPrefix (joinParts subject body) codePrefix.toList
  | _, none => m.searchToken (joinParts subject body)

/-- `matcher.search(subject, body)`. -/
def search (m : SafeVerificationCodeMatcher) (subject body : String) : Option String :=
  (m.searchText subject.toList body.toList).map .ofList

end SafeVerificationCodeMatcher

/-! ## What is found -/

/-- A run of letters and digits is told from white space. -/
theorem isAlphanumeric_of_isSpace {c : Char} (h : PythonText.isSpace c = true) :
    isAlphanumeric c = false := by
  by_contra hc
  have hrange := isAlphanumeric_iff.mp (Bool.eq_true_of_not_eq_false hc)
  have hlow := CodeText.isSpace_ascii c (by omega) h
  omega

theorem upperChar_of_isAlphanumeric {c : Char} (h : isAlphanumeric c = true) :
    CodeText.upperChar c = [c.toUpper] ∧ c.toNat < 128 := by
  have hrange := isAlphanumeric_iff.mp h
  have hascii : c.toNat < 128 := by omega
  exact ⟨CodeText.upperChar_ascii c hascii, hascii⟩

def Capital (text : List Char) : Prop := ∀ c ∈ text, c.toNat < 128 ∧ c.toUpper = c

omit [PythonText] [CodeText] in
theorem capital_toUpper {c : Char} (h : c.toNat < 128) :
    c.toUpper.toNat < 128 ∧ c.toUpper.toUpper = c.toUpper := by
  refine ⟨?_, toUpper_toUpper c⟩
  rw [toNat_toUpper]
  split_ifs <;> omega

theorem capital_upper {text : List Char} (h : ∀ c ∈ text, isAlphanumeric c = true) :
    Capital (upper text) := by
  intro d hd
  obtain ⟨c, hc, hd⟩ := List.mem_flatMap.mp hd
  obtain ⟨hupper, hascii⟩ := upperChar_of_isAlphanumeric (h c hc)
  rw [hupper, List.mem_singleton] at hd
  subst hd
  exact capital_toUpper hascii

theorem upper_of_capital {text : List Char} (h : Capital text) : upper text = text := by
  induction text with
  | nil => rfl
  | cons c rest ih =>
      obtain ⟨hascii, hupper⟩ := h c (List.mem_cons_self ..)
      have hrest := ih fun d hd => h d (List.mem_cons_of_mem c hd)
      unfold upper at hrest ⊢
      rw [List.flatMap_cons, hrest, CodeText.upperChar_ascii c hascii, hupper]
      rfl

/-- The segments that a scan has read are runs of letters and digits. -/
def XaiScan.Alphanumeric : XaiScan → Prop
  | .outside => True
  | .first segment => ∀ c ∈ segment, isAlphanumeric c = true
  | .second firstSegment segment =>
      (∀ c ∈ firstSegment, isAlphanumeric c = true) ∧ ∀ c ∈ segment, isAlphanumeric c = true

omit [PythonText] [CodeText] in
theorem alphanumeric_outside : XaiScan.outside.Alphanumeric := trivial

omit [PythonText] [CodeText] in
theorem alphanumeric_append {segment : List Char} {c : Char}
    (h : ∀ d ∈ segment, isAlphanumeric d = true) (hc : isAlphanumeric c = true) :
    ∀ d ∈ segment ++ [c], isAlphanumeric d = true := by
  intro d hd
  rcases List.mem_append.mp hd with hd | hd
  · exact h d hd
  · rw [List.mem_singleton.mp hd]
    exact hc

theorem capital_xaiToken {requireXaiLabel : Bool} {firstSegment segment text token : List Char}
    (h : (XaiScan.second firstSegment segment).Alphanumeric)
    (htoken : xaiToken requireXaiLabel firstSegment segment text = some token) :
    Capital token := by
  unfold xaiToken at htoken
  split at htoken
  · cases htoken
    intro c hc
    rcases List.mem_append.mp hc with hc | hc
    · exact capital_upper h.1 c hc
    · rcases List.mem_cons.mp hc with rfl | hc
      · exact ⟨by decide, by decide⟩
      · exact capital_upper h.2 c hc
  · cases htoken

/-- **A token of xAI is found in capital letters.** -/
theorem capital_matchXaiFrom {requireXaiLabel : Bool} {scan : XaiScan} {text token : List Char}
    (hscan : scan.Alphanumeric) (h : matchXaiFrom requireXaiLabel scan text = some token) :
    Capital token := by
  induction text generalizing scan with
  | nil =>
      cases scan with
      | outside => cases h
      | first segment => cases h
      | second firstSegment segment => exact capital_xaiToken hscan h
  | cons c rest ih =>
      cases scan with
      | outside =>
          unfold matchXaiFrom at h
          refine ih ?_ h
          split
          · rename_i hc
            exact alphanumeric_append (List.forall_mem_nil _) hc
          · trivial
      | first segment =>
          unfold matchXaiFrom at h
          refine ih ?_ h
          split
          · rename_i hc
            exact alphanumeric_append hscan hc
          · split
            · exact ⟨hscan, nofun⟩
            · trivial
      | second firstSegment segment =>
          unfold matchXaiFrom at h
          split at h
          · rename_i hc
            have hnext : (XaiScan.second firstSegment (segment ++ [c])).Alphanumeric :=
              ⟨hscan.1, alphanumeric_append hscan.2 hc⟩
            exact ih hnext h
          · rcases Option.or_eq_some_iff.mp h with h | ⟨-, h⟩
            · exact capital_xaiToken hscan h
            · exact ih alphanumeric_outside h

theorem capital_searchXai {subject body token : List Char}
    (h : searchXai subject body = some token) : Capital token := by
  unfold searchXai at h
  rcases Option.or_eq_some_iff.mp h with h | ⟨-, h⟩
  · exact capital_matchXaiFrom alphanumeric_outside h
  · exact capital_matchXaiFrom alphanumeric_outside h

/-- Without a label to look for, the text behind a token does not matter. -/
theorem xaiToken_unlabelled (firstSegment segment text text' : List Char) :
    xaiToken false firstSegment segment text = xaiToken false firstSegment segment text' := by
  unfold xaiToken
  simp only [Bool.false_eq_true, false_implies]

/-- **A new line ends every token**: of two texts, the first one's token is found. -/
theorem matchXaiFrom_append (scan : XaiScan) (a b : List Char) :
    matchXaiFrom false scan (a ++ '\n' :: b) =
      (matchXaiFrom false scan a).or (matchXaiFrom false .outside b) := by
  induction a generalizing scan with
  | nil =>
      have hdash : ¬ '\n' = '-' := by decide
      cases scan with
      | outside =>
          simp only [List.nil_append, matchXaiFrom, isAlphanumeric_newline, Bool.false_eq_true,
            if_false, Option.none_or]
      | first segment =>
          simp only [List.nil_append, matchXaiFrom, isAlphanumeric_newline, Bool.false_eq_true,
            if_false, hdash, and_false, Option.none_or]
      | second firstSegment segment =>
          simp only [List.nil_append, matchXaiFrom, isAlphanumeric_newline, Bool.false_eq_true,
            if_false]
          rw [xaiToken_unlabelled _ _ _ []]
  | cons c rest ih =>
      cases scan with
      | outside => exact ih _
      | first segment => exact ih _
      | second firstSegment segment =>
          simp only [List.cons_append, matchXaiFrom]
          split
          · exact ih _
          · rw [ih, Option.or_assoc, xaiToken_unlabelled _ _ _ (c :: rest)]

theorem matchXaiToken_joinParts (subject body : List Char) :
    matchXaiToken false (joinParts subject body) =
      (matchXaiToken false subject).or (matchXaiToken false body) := by
  unfold joinParts
  split
  · rename_i hsubject
    rw [hsubject]
    rfl
  · split
    · rename_i hbody
      rw [hbody]
      exact (Option.or_none).symm
    · exact matchXaiFrom_append .outside subject body

namespace SafeVerificationCodeMatcher

variable {m : SafeVerificationCodeMatcher}

theorem isCodeChar_newline (m : SafeVerificationCodeMatcher) : m.isCodeChar '\n' = false := by
  unfold isCodeChar
  split
  · rw [CodeText.isDigit_ascii '\n' (by decide)]
    decide
  · exact isAlphanumeric_newline

theorem isCodeChar_dash (m : SafeVerificationCodeMatcher) : m.isCodeChar '-' = false := by
  unfold isCodeChar
  split
  · rw [CodeText.isDigit_ascii '-' (by decide)]
    decide
  · exact isAlphanumeric_dash

/-- What a scan finds consists of code characters. -/
theorem isCodeChar_of_searchTokenFrom {run text token : List Char}
    (hrun : ∀ c ∈ run, m.isCodeChar c = true) (h : m.searchTokenFrom run text = some token) :
    ∀ c ∈ token, m.isCodeChar c = true := by
  induction text generalizing run with
  | nil =>
      unfold searchTokenFrom at h
      split at h
      · cases h
        exact hrun
      · cases h
  | cons c rest ih =>
      unfold searchTokenFrom at h
      split at h
      · rename_i hc
        refine ih ?_ h
        intro d hd
        rcases List.mem_append.mp hd with hd | hd
        · exact hrun d hd
        · rw [List.mem_singleton.mp hd]
          exact hc
      · split at h
        · cases h
          exact hrun
        · have hnil : ∀ d ∈ ([] : List Char), m.isCodeChar d = true := fun _ hd => by cases hd
          exact ih hnil h

theorem searchTokenFrom_append (run a b : List Char) :
    m.searchTokenFrom run (a ++ '\n' :: b) =
      (m.searchTokenFrom run a).or (m.searchTokenFrom [] b) := by
  induction a generalizing run with
  | nil =>
      simp only [List.nil_append, searchTokenFrom, isCodeChar_newline, Bool.false_eq_true,
        if_false]
      split <;> rfl
  | cons c rest ih =>
      simp only [List.cons_append, searchTokenFrom]
      split
      · exact ih _
      · split
        · rfl
        · exact ih _

theorem searchToken_joinParts (m : SafeVerificationCodeMatcher) (subject body : List Char) :
    m.searchToken (joinParts subject body) = (m.searchToken subject).or (m.searchToken body) := by
  unfold joinParts
  split
  · rename_i hsubject
    rw [hsubject]
    rfl
  · split
    · rename_i hbody
      rw [hbody]
      exact (Option.or_none).symm
    · exact searchTokenFrom_append [] subject body

/-! ## Matchers without a prefix -/

def subjectCode (m : SafeVerificationCodeMatcher) (subject : String) : Option (List Char) :=
  match m.patternType with
  | .xai => (matchXaiToken true subject.toList).or (matchXaiToken false subject.toList)
  | _ => m.searchToken subject.toList

def bodyCode (m : SafeVerificationCodeMatcher) (body : String) : Option (List Char) :=
  match m.patternType with
  | .xai => matchXaiToken false body.toList
  | _ => m.searchToken body.toList

/-- **A code of the subject goes before a code of the body.** -/
theorem search_unprefixed (hbare : m.codePrefix = none) (subject body : String) :
    m.search subject body = ((m.subjectCode subject).or (m.bodyCode body)).map .ofList := by
  unfold search searchText subjectCode bodyCode
  rw [hbare]
  cases m.patternType with
  | digits => exact congrArg _ (m.searchToken_joinParts _ _)
  | alphanumeric => exact congrArg _ (m.searchToken_joinParts _ _)
  | xai =>
      show (searchXai subject.toList body.toList).map String.ofList = _
      unfold searchXai
      rw [matchXaiToken_joinParts, Option.or_assoc]

end SafeVerificationCodeMatcher

end

end MailboxService
