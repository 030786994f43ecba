import MailboxService.VerificationCode.MailSanitizer
import MailboxService.VerificationCode.CheckedCodes

/-!
# What the two loops take from a message

`extract_verification_code` looks for the code of an xAI subject before it asks
a matcher, and shows the matcher the cleaned body. The loop of the Microsoft
mailboxes calls it with the matcher of the caller, if there is one. The loop of
the on-demand inboxes calls it without one, and asks the matcher itself, about
the body as it is.
-/

namespace MailboxService

open Foundation

/-! ## Patterns -/

/-- A character of `[A-Z0-9]` under `re.IGNORECASE`. -/
def isCodeLetter (c : Char) : Bool :=
  isAlphanumeric c || c = '\u0130' || c = '\u0131' || c = '\u212A' || c = '\u017F'

/-- `[A-Z0-9]{3}-[A-Z0-9]{3}` under `re.IGNORECASE`. -/
def xaiCodePattern : Regex :=
  .seq (.many (.char isCodeLetter) 3 (some 3))
    (.seq (.char (· = '-')) (.many (.char isCodeLetter) 3 (some 3)))

section

variable [PythonText]

/-- What follows the code in an xAI subject. -/
def xaiLabelPattern : Regex := .seq MailBody.whitespace (.literal ignoringCase "xAI")

def xaiSubjectCodeRegex : Regex := .seq .atStart (.seq (.group xaiCodePattern) xaiLabelPattern)

def xaiBodyCodeRegex : Regex := .seq .boundary (.seq (.group xaiCodePattern) .boundary)

variable [CodeText]

/-- `(\d{4,8})`. -/
def digitsGroup : Regex := .group (.many (.char CodeText.isDecimal) 4 (some 8))

/-- `code[:\s]+(\d{4,8})`. -/
def codeKeywordPattern : Regex :=
  .seq (.literal ignoringCase "code")
    (.seq (.many (.char fun c => c = ':' || PythonText.isSpace c) 1 none) digitsGroup)

def digitKeywordCodePatterns : List Regex :=
  [.seq (.literal ignoringCase "verification") (.seq MailBody.whitespace codeKeywordPattern),
    .seq (.literal ignoringCase "your") (.seq MailBody.whitespace codeKeywordPattern),
    .seq (.literal ignoringCase "confirm")
      (.seq (.many (.literal ignoringCase "ation") 0 (some 1))
        (.seq MailBody.whitespace codeKeywordPattern)),
    .seq (.literal (· == ·) "验证码")
      (.seq (.many (.char fun c => c = '：' || c = ':' || PythonText.isSpace c) 0 none)
        digitsGroup)]

def defaultVerificationCodeRegex : Regex := .seq .boundary (.seq digitsGroup .boundary)

/-! ## Extraction -/

/-- The body that a code is looked for in. -/
def cleanedBody (bodyText : String) : String :=
  truncateTextToByteBudget (MailBody.sanitizeMailText bodyText) maxMessageBodyBytes

def xaiSubjectCode (subject : String) : Option String :=
  xaiSubjectCodeRegex.searchGroup CodeText.isWord subject

def defaultCode (subject body : String) : Option String :=
  let searchable := String.ofList (joinParts subject.toList body.toList)
  (xaiBodyCodeRegex :: digitKeywordCodePatterns ++ [defaultVerificationCodeRegex]).findSome?
    fun pattern => pattern.searchGroup CodeText.isWord searchable

/-- The code of a message whose body is cleaned. -/
def codeOfCleaned (subject body : String)
    (customMatcher : Option SafeVerificationCodeMatcher) : Option String :=
  match xaiSubjectCode subject, customMatcher with
  | some code, _ => some code
  | none, some matcher => matcher.search subject body
  | none, none => defaultCode subject body

/-- `extract_verification_code`, of a body that can be encoded. -/
def extractVerificationCode (subject bodyText : String)
    (customMatcher : Option SafeVerificationCodeMatcher) : Option String :=
  codeOfCleaned subject (cleanedBody bodyText) customMatcher

@[reducible] def codeSearch : CodeSearch where
  search := SafeVerificationCodeMatcher.search
  extractVerificationCode := extractVerificationCode
  truncateTextToByteBudget := truncateTextToByteBudget

end

/-- The code that the on-demand loop takes from a message with a body that can be
encoded. -/
def onDemandCode [CodeSearch] (customMatcher : Option SafeVerificationCodeMatcher)
    (subject body : String) : Option String :=
  match customMatcher with
  | some matcher => CodeSearch.search matcher subject body
  | none => CodeSearch.extractVerificationCode subject body none

theorem takeCode_eq [Platform] [MailText] [CodeSearch] {request : PollRequest} {attempts : ℕ}
    {evidence : VerificationEvidence} (h : evidence.directCode = none) :
    PollState.takeCode request attempts evidence =
      evidence.messages.findSome? fun message =>
        ((onDemandCode request.customMatcher (message.subject.getD "")
          (message.bodyText.getD "")).bind orNone).map fun code =>
            { found := true
              code := some code
              matchedFrom := message.fromAddress
              matchedSubject := message.subject
              messageReceivedAt := message.receivedAt
              attempts := attempts } := by
  unfold PollState.takeCode
  rw [h]
  rfl

/-! ## Bodies that cannot be encoded -/

section

variable [PythonText] [CodeText] [LoneSurrogates]

/-- The cleaned body cannot be cut off if half of a surrogate pair is left in it. -/
def cleanedBody? (bodyText : String) : Except UnicodeEncodeError String :=
  truncateTextToByteBudget? (MailBody.sanitizeMailText bodyText) maxMessageBodyBytes

/-- `extract_verification_code`, which cleans the body before anything else. -/
def extractVerificationCode? (subject bodyText : String)
    (customMatcher : Option SafeVerificationCodeMatcher) :
    Except UnicodeEncodeError (Option String) := do
  let body ← cleanedBody? bodyText
  return codeOfCleaned subject body customMatcher

/-- What the on-demand loop takes from a message: a matcher is shown the body as it is. -/
def onDemandCode? (customMatcher : Option SafeVerificationCodeMatcher)
    (subject body : String) : Except UnicodeEncodeError (Option String) :=
  match customMatcher with
  | some matcher => .ok (matcher.search subject body)
  | none => extractVerificationCode? subject body none

theorem cleanedBody?_eq (body : String) :
    cleanedBody? body = whenEncodable (MailBody.sanitizeMailText body) (cleanedBody body) := by
  have hpositive : maxMessageBodyBytes ≠ 0 := by decide
  unfold cleanedBody? truncateTextToByteBudget?
  rw [if_neg hpositive]
  rfl

theorem extractVerificationCode?_eq (subject body : String)
    (customMatcher : Option SafeVerificationCodeMatcher) :
    extractVerificationCode? subject body customMatcher =
      whenEncodable (MailBody.sanitizeMailText body)
        (extractVerificationCode subject body customMatcher) := by
  unfold extractVerificationCode?
  rw [cleanedBody?_eq]
  unfold whenEncodable
  cases encodable (MailBody.sanitizeMailText body) with
  | true => rfl
  | false => rfl

/-- Where the cleaned body can be encoded, nothing is raised. -/
theorem onDemandCode?_eq {customMatcher : Option SafeVerificationCodeMatcher}
    {subject body : String} (h : encodable (MailBody.sanitizeMailText body) = true) :
    onDemandCode? customMatcher subject body =
      .ok (@onDemandCode codeSearch customMatcher subject body) := by
  cases customMatcher with
  | some m => rfl
  | none =>
      show extractVerificationCode? subject body none = _
      rw [extractVerificationCode?_eq, whenEncodable, if_pos h]
      rfl

end

/-! ## The code of an xAI subject -/

/-- A token of three characters, a dash and three characters, read up to where
it ends. -/
structure XaiText (text token rest : List Char) : Prop where
  reads : ∃ a b, a.length = 3 ∧ b.length = 3 ∧ (∀ c ∈ a, isCodeLetter c = true) ∧
    (∀ c ∈ b, isCodeLetter c = true) ∧ token = a ++ '-' :: b
  text_eq : text = token ++ rest

/-- Two segments of three code letters with a dash between them. -/
def IsCodeToken (s : List Char) : Prop :=
  ∃ a b, a.length = 3 ∧ b.length = 3 ∧ (∀ c ∈ a, isCodeLetter c = true) ∧
    (∀ c ∈ b, isCodeLetter c = true) ∧ s = a ++ '-' :: b

theorem mem_xaiCodePattern {isWord : Char → Bool} {past rest captured : List Char}
    {d : Regex.Cursor} :
    d ∈ xaiCodePattern.results isWord ⟨past, rest, captured⟩ ↔
      ∃ s after, rest = s ++ after ∧ IsCodeToken s ∧ d = ⟨s.reverse ++ past, after, captured⟩ := by
  constructor
  · intro h
    obtain ⟨e₁, ha, h⟩ := List.mem_flatMap.mp h
    obtain ⟨a, tail, rfl, halls, hamin, hamax, rfl⟩ := Regex.mem_greedy.mp ha
    obtain ⟨e₂, hdash, hb⟩ := List.mem_flatMap.mp h
    obtain ⟨x, tail', htail, hx, rfl⟩ := Regex.mem_next.mp hdash
    obtain rfl : x = '-' := of_decide_eq_true hx
    obtain rfl : tail = '-' :: tail' := htail
    obtain ⟨b, after, rfl, hblls, hbmin, hbmax, rfl⟩ := Regex.mem_greedy.mp hb
    exact ⟨a ++ '-' :: b, after, by simp, ⟨a, b, Nat.le_antisymm hamax hamin,
      Nat.le_antisymm hbmax hbmin, halls, hblls, rfl⟩, by simp⟩
  · rintro ⟨s, after, rfl, ⟨a, b, ha, hb, halls, hblls, rfl⟩, rfl⟩
    refine List.mem_flatMap.mpr ⟨⟨a.reverse ++ past, '-' :: (b ++ after), captured⟩, ?_,
      List.mem_flatMap.mpr ⟨⟨'-' :: (a.reverse ++ past), b ++ after, captured⟩, ?_, ?_⟩⟩
    · exact Regex.mem_greedy.mpr ⟨a, '-' :: (b ++ after), by simp, halls, ha.ge, ha.le, rfl⟩
    · exact Regex.mem_next.mpr ⟨'-', b ++ after, rfl, by decide, rfl⟩
    · exact Regex.mem_greedy.mpr ⟨b, after, rfl, hblls, hb.ge, hb.le, by simp⟩

theorem xaiText_of_mem {isWord : Char → Bool} {c d : Regex.Cursor}
    (h : d ∈ (Regex.group xaiCodePattern).results isWord c) : XaiText c.rest d.captured d.rest := by
  obtain ⟨e, he, rfl⟩ := List.mem_map.mp h
  obtain ⟨token, after, hrest, htoken, rfl⟩ := mem_xaiCodePattern.mp he
  rw [Regex.textTo_append rfl]
  exact ⟨htoken, hrest⟩

section

variable [PythonText] [CodeText]

/-- **An xAI subject** starts with a token that white space follows. -/
theorem xaiSubjectCode_eq_some {subject code : String} (h : xaiSubjectCode subject = some code) :
    ∃ c rest, PythonText.isSpace c = true ∧ XaiText subject.toList code.toList (c :: rest) := by
  unfold xaiSubjectCode Regex.searchGroup at h
  obtain ⟨found, hsearch, rfl⟩ := Option.map_eq_some_iff.mp h
  obtain ⟨d, htoken, hlabel⟩ := List.mem_flatMap.mp (Regex.search_atStart hsearch)
  have hxai := xaiText_of_mem htoken
  obtain ⟨e, hspace, hlabel⟩ := List.mem_flatMap.mp hlabel
  obtain ⟨spaces, hmin, -, hall, hrest, -, hcaptured⟩ := Regex.ahead_of_mem_greedy hspace
  obtain ⟨e₁, hx, hlabel⟩ := List.mem_flatMap.mp hlabel
  obtain ⟨e₂, ha, hi⟩ := List.mem_flatMap.mp hlabel
  obtain ⟨_, _, -, -, rfl⟩ := Regex.mem_next.mp hx
  obtain ⟨_, _, -, -, rfl⟩ := Regex.mem_next.mp ha
  obtain ⟨_, _, -, -, hfound⟩ := Regex.mem_next.mp hi
  have hcode : found.2.captured = d.captured := by
    rw [hfound]
    exact hcaptured
  cases spaces with
  | nil => cases hmin
  | cons c spaces =>
      refine ⟨c, spaces ++ e.rest, hall c (List.mem_cons_self ..), ?_⟩
      rw [String.toList_ofList, hcode, ← List.cons_append, ← hrest]
      exact hxai

/-! ## An xAI subject and a matcher -/

/-- The matcher finds the code of an xAI subject: it looks for tokens of xAI,
the code is in capital letters, and no other labelled token of the subject comes
first. -/
def SafeVerificationCodeMatcher.FindsXaiCode (m : SafeVerificationCodeMatcher)
    (subject code : String) : Prop :=
  m.patternType = .xai ∧ Capital code.toList ∧
    ∀ token, matchXaiToken true subject.toList = some token → token = code.toList

omit [PythonText] [CodeText] in
theorem isAlphanumeric_of_capital {c : Char} (h : isCodeLetter c = true) (hascii : c.toNat < 128) :
    isAlphanumeric c = true := by
  unfold isCodeLetter at h
  simp only [Bool.or_eq_true, decide_eq_true_eq] at h
  rcases h with (((h | rfl) | rfl) | rfl) | rfl
  · exact h
  all_goals exact absurd hascii (by decide)

/-- A token in capital letters is the first one of a text that it starts. -/
theorem matchXaiToken_of_xaiText {text token rest : List Char} {c : Char}
    (h : XaiText text token (c :: rest)) (hspace : PythonText.isSpace c = true)
    (hcapital : Capital token) : matchXaiToken false text = some token := by
  obtain ⟨a, b, ha, hb, halls, hblls, rfl⟩ := h.reads
  have ha' : Capital a := fun d hd => hcapital d (List.mem_append_left _ hd)
  have hb' : Capital b := fun d hd =>
    hcapital d (List.mem_append_right _ (List.mem_cons_of_mem _ hd))
  have hc : isAlphanumeric c = false := isAlphanumeric_of_isSpace hspace
  have hdash : isAlphanumeric '-' = false := isAlphanumeric_dash
  obtain ⟨a₁, a₂, a₃, rfl⟩ := List.length_eq_three.mp ha
  obtain ⟨b₁, b₂, b₃, rfl⟩ := List.length_eq_three.mp hb
  have halnum : ∀ d ∈ [a₁, a₂, a₃], isAlphanumeric d = true := fun d hd =>
    isAlphanumeric_of_capital (halls d hd) (ha' d hd).1
  have hblnum : ∀ d ∈ [b₁, b₂, b₃], isAlphanumeric d = true := fun d hd =>
    isAlphanumeric_of_capital (hblls d hd) (hb' d hd).1
  simp only [List.mem_cons, List.not_mem_nil, or_false, forall_eq_or_imp, forall_eq]
    at halnum hblnum
  obtain ⟨h₁, h₂, h₃⟩ := halnum
  obtain ⟨k₁, k₂, k₃⟩ := hblnum
  rw [h.text_eq]
  simp only [matchXaiToken, List.cons_append, List.nil_append, matchXaiFrom, h₁, h₂, h₃, hdash,
    k₁, k₂, k₃, hc, xaiToken, if_true, if_false, Bool.false_eq_true, List.length_cons,
    List.length_nil, false_implies, and_self, Option.some_or]
  rw [upper_of_capital ha', upper_of_capital hb']
  rfl

/-- **A matcher takes the code of an xAI subject** exactly if it finds it. -/
theorem search_xaiSubject_iff {m : SafeVerificationCodeMatcher} {subject code : String}
    (hbare : m.codePrefix = none) (h : xaiSubjectCode subject = some code) (body : String) :
    m.search subject body = some code ↔ m.FindsXaiCode subject code := by
  obtain ⟨c, rest, hspace, htext⟩ := xaiSubjectCode_eq_some h
  constructor
  · intro hsearch
    unfold SafeVerificationCodeMatcher.search at hsearch
    obtain ⟨token, htoken, rfl⟩ := Option.map_eq_some_iff.mp hsearch
    rw [String.toList_ofList] at htext
    by_cases hxai : m.patternType = .xai
    · have hfound : searchXai subject.toList body.toList = some token := by
        unfold SafeVerificationCodeMatcher.searchText at htoken
        rw [hxai] at htoken
        exact htoken
      refine ⟨hxai, ?_, ?_⟩
      · rw [String.toList_ofList]
        exact capital_searchXai hfound
      · intro token' htoken'
        unfold searchXai at hfound
        rw [htoken', Option.some_or] at hfound
        rw [String.toList_ofList]
        exact Option.some.inj hfound
    · -- a token of code characters has no dash
      have hfound : m.searchToken (joinParts subject.toList body.toList) = some token := by
        unfold SafeVerificationCodeMatcher.searchText at htoken
        rw [hbare] at htoken
        cases htype : m.patternType with
        | xai => exact absurd htype hxai
        | digits =>
            rw [htype] at htoken
            exact htoken
        | alphanumeric =>
            rw [htype] at htoken
            exact htoken
      obtain ⟨a, b, -, -, -, -, hdash⟩ := htext.reads
      have hmem : '-' ∈ token := by
        rw [hdash]
        exact List.mem_append_right _ (List.mem_cons_self ..)
      have hcode := SafeVerificationCodeMatcher.isCodeChar_of_searchTokenFrom
        (fun _ hd => by cases hd) hfound '-' hmem
      rw [m.isCodeChar_dash] at hcode
      cases hcode
  · rintro ⟨hxai, hcapital, hfirst⟩
    have hunlabelled := matchXaiToken_of_xaiText htext hspace hcapital
    have hsubject : m.subjectCode subject = some code.toList := by
      unfold SafeVerificationCodeMatcher.subjectCode
      rw [hxai]
      show (matchXaiToken true subject.toList).or (matchXaiToken false subject.toList) = _
      rw [hunlabelled]
      cases hlabelled : matchXaiToken true subject.toList with
      | none => rfl
      | some token =>
          rw [hfirst token hlabelled]
          rfl
    rw [SafeVerificationCodeMatcher.search_unprefixed hbare, hsubject]
    show some (String.ofList code.toList) = some code
    rw [String.ofList_toList]

/-! ## Agreement -/

/-- The two loops read a message alike with a matcher: where the subject has a
code of xAI, the matcher finds it, and elsewhere cleaning the body leaves its
first code unchanged, unless the subject has one. -/
structure ReadsAlike (m : SafeVerificationCodeMatcher) (subject body : String) : Prop where
  xaiSubject : ∀ code, xaiSubjectCode subject = some code → m.FindsXaiCode subject code
  otherSubject : xaiSubjectCode subject = none → m.subjectCode subject = none →
    m.bodyCode body = m.bodyCode (cleanedBody body)

omit [CodeText] in
theorem customMatcher_unprefixed {options : VerificationCodeLookupOptions}
    {m : SafeVerificationCodeMatcher} (h : options.customMatcher = .ok (some m)) :
    m.codePrefix = none := by
  unfold VerificationCodeLookupOptions.customMatcher at h
  split at h
  · cases h
  · unfold fromDeprecatedCodeRegex at h
    dsimp only at h
    split at h
    · cases h
    · split at h
      · cases h
      · cases h
        rfl
      · cases h
        rfl

theorem search_agrees_iff {m : SafeVerificationCodeMatcher} (hbare : m.codePrefix = none)
    (subject body : String) :
    m.search subject body = extractVerificationCode subject body (some m) ↔
      ReadsAlike m subject body := by
  unfold extractVerificationCode codeOfCleaned
  cases hxai : xaiSubjectCode subject with
  | some code =>
      dsimp only
      rw [search_xaiSubject_iff hbare hxai]
      constructor
      · intro hfinds
        refine ⟨?_, ?_⟩
        · intro code' hcode'
          rw [hxai] at hcode'
          cases hcode'
          exact hfinds
        · intro hnone
          rw [hxai] at hnone
          cases hnone
      · intro halike
        exact halike.xaiSubject code hxai
  | none =>
      dsimp only
      rw [SafeVerificationCodeMatcher.search_unprefixed hbare,
        SafeVerificationCodeMatcher.search_unprefixed hbare]
      have hinj : Function.Injective (Option.map String.ofList) :=
        Option.map_injective fun _ _ => String.ofList_injective
      rw [hinj.eq_iff]
      cases hsubject : m.subjectCode subject with
      | some token =>
          -- both find it in the subject, whatever the body
          refine iff_of_true rfl ⟨?_, ?_⟩
          · intro code hcode
            rw [hxai] at hcode
            cases hcode
          · intro _ hnone
            rw [hsubject] at hnone
            cases hnone
      | none =>
          rw [Option.none_or, Option.none_or]
          constructor
          · intro hbody
            refine ⟨?_, fun _ _ => hbody⟩
            intro code hcode
            rw [hxai] at hcode
            cases hcode
          · intro halike
            exact halike.otherSubject hxai hsubject

/-- **Extraction agrees**: what the on-demand loop takes from a message is what
`extract_verification_code` makes of it with the same matcher, exactly if there
is no matcher, or the cleaned body can be encoded and the message is read alike with it. -/
theorem extraction_agrees_iff [LoneSurrogates] {options : VerificationCodeLookupOptions}
    {customMatcher : Option SafeVerificationCodeMatcher}
    (h : options.customMatcher = .ok customMatcher) (subject body : String) :
    onDemandCode? customMatcher subject body =
        extractVerificationCode? subject body customMatcher ↔
      ∀ m, customMatcher = some m →
        encodable (MailBody.sanitizeMailText body) = true ∧ ReadsAlike m subject body := by
  cases customMatcher with
  | none => exact iff_of_true rfl fun m hm => by cases hm
  | some m =>
      have hbare := customMatcher_unprefixed h
      rw [extractVerificationCode?_eq]
      unfold onDemandCode? whenEncodable
      dsimp only
      simp only [Option.some.injEq, forall_eq']
      rw [← search_agrees_iff hbare]
      cases encodable (MailBody.sanitizeMailText body) with
      | true => simp
      | false => simp

end

/-! ## A digit matcher and an xAI subject -/

section Sample

theorem Ascii.isSpace_le {c : Char} (h : Ascii.isSpace c = true) : c.toNat ≤ 32 := by
  unfold Ascii.isSpace at h
  simp only [Bool.or_eq_true, Bool.and_eq_true, decide_eq_true_eq] at h
  omega

@[reducible] def asciiCodeText : @CodeText asciiText :=
  letI := asciiText
  { isDigit := Char.isDigit
    isDecimal := Char.isDigit
    isWord := fun c => c.isAlphanum || c = '_'
    upperChar := fun c => [c.toUpper]
    isDigit_ascii := fun _ _ => rfl
    isDecimal_ascii := fun _ _ => rfl
    isWord_ascii := fun _ _ => rfl
    upperChar_ascii := fun _ _ => rfl
    isSpace_ascii := fun _ _ => Ascii.isSpace_le }

attribute [local instance] asciiText asciiCodeText replacementSurrogates

def digitsOptions : VerificationCodeLookupOptions where
  codeRegex := some "digits"

def digitsMatcher : SafeVerificationCodeMatcher := ⟨.digits, 4, 8, none⟩

theorem customMatcher_digitsOptions : digitsOptions.customMatcher = .ok (some digitsMatcher) := by
  decide +kernel

/-- A message without an xAI subject is read alike. -/
theorem extraction_agrees_sample :
    onDemandCode? (some digitsMatcher) "Code" "482913" =
      extractVerificationCode? "Code" "482913" (some digitsMatcher) := by
  refine (extraction_agrees_iff customMatcher_digitsOptions "Code" "482913").mpr ?_
  rintro m ⟨⟩
  refine ⟨by decide +kernel, ?_⟩
  have hsubject : xaiSubjectCode "Code" = none := by decide +kernel
  refine ⟨?_, ?_⟩
  · intro code hcode
    rw [hsubject] at hcode
    cases hcode
  · intro _ _
    decide +kernel

/-- **The two loops take different codes** from a message with an xAI subject. -/
theorem xai_subject_read_apart :
    digitsOptions.customMatcher = .ok (some digitsMatcher) ∧
      onDemandCode? (some digitsMatcher) "ABC-123 xAI" "482913" = .ok (some "482913") ∧
      extractVerificationCode? "ABC-123 xAI" "482913" (some digitsMatcher) =
        .ok (some "ABC-123") := by
  decide +kernel

end Sample

end MailboxService
