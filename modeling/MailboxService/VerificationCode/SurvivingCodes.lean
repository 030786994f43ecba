import MailboxService.VerificationCode.PresetTemplates
import MailboxService.VerificationCode.SanitizerIdempotence

/-!
# Codes that survive the sanitiser

A code of digits that a mail shows once is what is taken from it, whatever happens to
the white space around it. But the sanitiser undoes escapes in every text, also in one
that has been decoded before, and of `=204829` it leaves `4829`. So the mail is read
with its escapes undone; and a token of xAI in the subject goes before every code of
the body.
-/

namespace MailboxService

open Foundation Foundation.Regex

namespace MailBody

section

variable [PythonText] [CodeText]

/-! ## Mails with one code -/

/-- The kept body with its line breaks joined and its escapes undone. -/
def undoneBody (text : String) : String := undoEscapes (joinedBody text)

/-- A mail with one code: its subject has no digits, and its body has no markup, no
token of xAI, and a single run of digits. That has the length of a code, and is a word
of its own. -/
structure ShowsOneCode (isDigit : Char → Bool) (subject body code : String) : Prop where
  subject : ∀ c ∈ subject.toList, isDigit c = false
  noTag : htmlTag.search CodeText.isWord body = none
  noToken : xaiBodyCodeRegex.search CodeText.isWord body = none
  single : stretches isDigit body.toList = [code.toList]
  word : code.toList ∈ stretches CodeText.isWord body.toList
  length : codeLength code.toList = true

/-- Facts of the Unicode tables: white space is in no word, every digit is, and so is
every letter of a token; what stands in front of the digits in a Chinese mail is no
digit. -/
structure CodeCharacters : Prop where
  space : PythonText.isSpace ' ' = true
  newline : PythonText.isSpace '\n' = true
  space_not_word : ∀ c, PythonText.isSpace c = true → CodeText.isWord c = false
  decimal_word : ∀ c, CodeText.isDecimal c = true → CodeText.isWord c = true
  letter_word : ∀ c, isCodeLetter c = true → CodeText.isWord c = true
  ideograph : CodeText.isDecimal '码' = false
  colon : CodeText.isDecimal '：' = false

variable {p : Char → Bool} {text : String}

/-- A class that no white space is of. -/
def Visible (p : Char → Bool) : Prop := ∀ c, PythonText.isSpace c = true → p c = false

omit [CodeText] in
theorem visible_not_isSpace : Visible fun c => !PythonText.isSpace c := by
  intro c hc
  show (!PythonText.isSpace c) = false
  rw [hc]
  rfl

theorem CodeCharacters.visible_isWord (h : CodeCharacters) : Visible CodeText.isWord :=
  h.space_not_word

theorem CodeCharacters.visible_isDecimal (h : CodeCharacters) : Visible CodeText.isDecimal := by
  intro c hc
  cases hdecimal : CodeText.isDecimal c with
  | false => rfl
  | true =>
      have hword := h.decimal_word c hdecimal
      rw [h.space_not_word c hc] at hword
      cases hword

/-! ## Stretches of the sanitised body -/

omit [CodeText] in
theorem stretches_strip (hp : Visible p) (s : String) :
    stretches p (Text.strip s).toList = stretches p s.toList := by
  have hfront : ∀ c ∈ s.toList.takeWhile PythonText.isSpace, p c = false :=
    fun c hc => hp c (List.mem_takeWhile_imp hc)
  have hback : ∀ c ∈ (s.toList.dropWhile PythonText.isSpace).rtakeWhile PythonText.isSpace,
      p c = false := fun c hc => hp c (List.mem_rtakeWhile_imp hc)
  calc stretches p (Text.strip s).toList
      = stretches p ((s.toList.dropWhile PythonText.isSpace).rdropWhile PythonText.isSpace) := by
        rw [Text.strip, String.toList_ofList]
    _ = stretches p (s.toList.dropWhile PythonText.isSpace) := by
        rw [← stretches_append_gap hback, List.rdropWhile_append_rtakeWhile]
    _ = stretches p s.toList := by
        rw [← stretches_gap_append hfront, List.takeWhile_append_dropWhile]

theorem stretches_collapse (hspace : PythonText.isSpace ' ' = true) (hp : Visible p)
    (raw : String) : stretches p (collapse raw).toList = stretches p raw.toList := by
  rw [toList_collapse]
  apply Rule.stretches_rewrite (List.cons_ne_nil ' ' [])
  · intro c hc
    rw [List.mem_singleton.mp hc]
    exact hp ' ' hspace
  · exact fun s after hmatch c hc => hp c (isSpace_of_whitespace_match hmatch c hc)

theorem tagFree_of_search (h : htmlTag.search CodeText.isWord text = none) :
    TagFree text.toList :=
  fun _ hs => htmlTag_none_iff.mp (misses_of_search htmlTag_anchorFree h _ hs)

/-- **The sanitiser keeps the stretches** of every class that no white space is of, in
a body without markup. -/
theorem stretches_sanitizeMailText (hspace : PythonText.isSpace ' ' = true) (hp : Visible p)
    (htag : htmlTag.search CodeText.isWord (undoneBody text) = none) :
    stretches p (sanitizeMailText text).toList = stretches p (undoneBody text).toList := by
  rw [sanitizeMailText_eq, stretches_strip hp, stretches_collapse hspace hp]
  show stretches p (shownText (undoneBody text)).toList = _
  rw [shownText_of_tagFree fun _ => tagFree_of_search htag]

omit [PythonText] [CodeText] in
theorem stretches_joinParts (hp : p '\n' = false) (subject body : List Char) :
    stretches p (joinParts subject body) = stretches p subject ++ stretches p body := by
  unfold joinParts
  split
  · rename_i hsubject
    rw [hsubject, stretches_nil, List.nil_append]
  · split
    · rename_i hbody
      rw [hbody, stretches_nil, List.append_nil]
    · exact stretches_append_cons hp subject body

/-! ## Tokens -/

theorem IsCodeToken.isWord_ends (hchars : CodeCharacters) {token : List Char}
    (h : IsCodeToken token) : token.head?.any CodeText.isWord = true ∧
      token.getLast?.any CodeText.isWord = true := by
  obtain ⟨a, b, ha, hb, halls, hblls, rfl⟩ := h
  have hane : a ≠ [] := List.ne_nil_of_length_pos (by omega)
  have hbne : b ≠ [] := List.ne_nil_of_length_pos (by omega)
  rw [List.head?_append_of_ne_nil _ hane, List.head?_eq_some_head hane,
    List.getLast?_append_of_ne_nil _ (List.cons_ne_nil _ _), List.getLast?_cons_of_ne_nil hbne,
    List.getLast?_eq_some_getLast hbne]
  exact ⟨hchars.letter_word _ (halls _ (List.head_mem _)),
    hchars.letter_word _ (hblls _ (List.getLast_mem _))⟩

theorem IsCodeToken.not_isSpace (hchars : CodeCharacters) {token : List Char}
    (h : IsCodeToken token) : ∀ c ∈ token, PythonText.isSpace c = false := by
  obtain ⟨a, b, -, -, halls, hblls, rfl⟩ := h
  have hletter : ∀ c, isCodeLetter c = true → PythonText.isSpace c = false := by
    intro c hc
    cases hspace : PythonText.isSpace c with
    | false => rfl
    | true =>
        have hword := hchars.letter_word c hc
        rw [hchars.space_not_word c hspace] at hword
        cases hword
  intro c hc
  rcases List.mem_append.mp hc with hc | hc
  · exact hletter c (halls c hc)
  · rcases List.mem_cons.mp hc with rfl | hc
    · exact isSpace_eq_false (by decide) (by decide)
    · exact hletter c (hblls c hc)

theorem search_xaiBody_iff (hchars : CodeCharacters) :
    xaiBodyCodeRegex.search CodeText.isWord text = none ↔
      ∀ token, IsCodeToken token → ¬ StandsApart CodeText.isWord token text.toList := by
  rw [search_eq_none_iff]
  constructor
  · rintro h token htoken ⟨before, after, htext, hbefore, hafter⟩
    obtain ⟨hhead, hlast⟩ := IsCodeToken.isWord_ends hchars htoken
    rw [← List.head?_reverse] at hbefore
    have hmem : (⟨token.reverse ++ before.reverse, after, token⟩ : Cursor) ∈
        xaiBodyCodeRegex.results CodeText.isWord ⟨before.reverse, token ++ after, []⟩ := by
      refine mem_results_delimited.mpr ⟨?_, ?_, _,
        mem_xaiCodePattern.mpr ⟨token, after, rfl, htoken, rfl⟩, ?_⟩
      · rw [atBoundary_start hhead, hbefore]
        rfl
      · rw [atBoundary_end hlast, hafter]
        rfl
      · rw [textTo_append rfl]
    rw [h before _ htext] at hmem
    cases hmem
  · intro h a b htext
    rw [List.eq_nil_iff_forall_not_mem]
    intro d hd
    obtain ⟨hstart, hend, e, he, rfl⟩ := mem_results_delimited.mp hd
    obtain ⟨token, after, rfl, htoken, rfl⟩ := mem_xaiCodePattern.mp he
    obtain ⟨hhead, hlast⟩ := IsCodeToken.isWord_ends hchars htoken
    rw [atBoundary_start hhead, List.head?_reverse] at hstart
    rw [textTo_append rfl, atBoundary_end hlast] at hend
    exact h token htoken ⟨a, after, htext, by simpa using hstart, by simpa using hend⟩

/-- Tokens are found in the same stretches of what is not white space. -/
theorem search_xaiBody_of_stretches (hchars : CodeCharacters) (texts : List String)
    (h : ∀ text' ∈ texts, xaiBodyCodeRegex.search CodeText.isWord text' = none)
    (hstretches : ∀ s ∈ stretches (fun c => !PythonText.isSpace c) text.toList,
      ∃ text' ∈ texts, s ∈ stretches (fun c => !PythonText.isSpace c) text'.toList) :
    xaiBodyCodeRegex.search CodeText.isWord text = none := by
  have hword : ∀ c, CodeText.isWord c = true → (!PythonText.isSpace c) = true := by
    intro c hc
    cases hspace : PythonText.isSpace c with
    | false => rfl
    | true =>
        rw [hchars.space_not_word c hspace] at hc
        cases hc
  rw [search_xaiBody_iff hchars]
  intro token htoken happart
  have hne : token ≠ [] := by
    rintro rfl
    obtain ⟨hhead, -⟩ := IsCodeToken.isWord_ends hchars htoken
    cases hhead
  have hvisible : ∀ c ∈ token, (!PythonText.isSpace c) = true := by
    intro c hc
    rw [IsCodeToken.not_isSpace hchars htoken c hc]
    rfl
  obtain ⟨s, hs, happart⟩ := (standsApart_iff hword hne hvisible).mp happart
  obtain ⟨text', htext', hs⟩ := hstretches s hs
  exact (search_xaiBody_iff hchars).mp (h text' htext') token htoken
    ((standsApart_iff hword hne hvisible).mpr ⟨s, hs, happart⟩)

/-- A subject that starts with a token has one. -/
theorem xaiSubjectCode_eq_none (hchars : CodeCharacters)
    (h : xaiBodyCodeRegex.search CodeText.isWord text = none) : xaiSubjectCode text = none := by
  cases hcode : xaiSubjectCode text with
  | none => rfl
  | some code =>
      obtain ⟨c, rest, hspace, htext⟩ := xaiSubjectCode_eq_some hcode
      refine absurd ⟨[], c :: rest, htext.text_eq, rfl, ?_⟩
        ((search_xaiBody_iff hchars).mp h code.toList htext.reads)
      exact hchars.space_not_word c hspace

/-! ## Digits -/

/-- The only run of digits is the only one that a pattern can take. -/
structure OnlyCode (text code : List Char) : Prop where
  single : stretches CodeText.isDecimal text = [code]
  word : code ∈ stretches CodeText.isWord text
  length : codeLength code = true

variable {l code : List Char}

/-- **The last pattern** takes the code. -/
theorem searchGroup_defaultRegex (hchars : CodeCharacters) (h : OnlyCode l code) :
    defaultVerificationCodeRegex.searchGroup CodeText.isWord (.ofList l) = some (.ofList code) := by
  have hat : ∀ past rest, defaultVerificationCodeRegex.groupAt CodeText.isWord past rest =
      stretchAt CodeText.isWord (fun s => s.all CodeText.isDecimal && codeLength s) past rest := by
    intro past rest
    apply groupAt_delimited fun s => s.all CodeText.isDecimal = true ∧ codeLength s = true
    · intro e
      refine mem_greedy.trans (exists_congr fun s => exists_congr fun after =>
        and_congr_right fun _ => ?_)
      unfold codeLength
      rw [List.all_eq_true, Bool.and_eq_true, decide_eq_true_eq, decide_eq_true_eq]
      tauto
    · rintro s after - ⟨hall, hlength⟩
      have hne : s ≠ [] := by
        rintro rfl
        exact absurd hlength (by decide)
      rw [List.all_eq_true] at hall
      rw [List.head?_eq_some_head hne, List.getLast?_eq_some_getLast hne]
      exact ⟨hchars.decimal_word _ (hall _ (List.head_mem _)),
        hchars.decimal_word _ (hall _ (List.getLast_mem _))⟩
    · intro s
      rw [stretchAt_eq_some]
      refine exists_congr fun after => and_congr_right fun _ => ?_
      rw [Bool.and_eq_true]
      constructor
      · rintro ⟨hstretch, hall⟩
        have hstarts := hstretch.starts
        rw [List.getLast?_reverse] at hstarts
        exact ⟨hall, hstarts, hstretch.ends⟩
      · rintro ⟨hall, hstarts, hends⟩
        rw [← List.getLast?_reverse] at hstarts
        refine ⟨⟨?_, ?_, hstarts, hends⟩, hall⟩
        · rintro rfl
          exact absurd hall.2 (by decide)
        · exact fun c hc => hchars.decimal_word c (List.all_eq_true.mp hall.1 c hc)
  rw [searchGroup_eq_firstMatch, String.toList_ofList, funext₂ hat, firstMatch_stretchAt]
  show ((stretches CodeText.isWord l).find? _).map _ = _
  -- the pattern takes a word of digits, and the only run of digits is such a word
  have hdigits : ∀ c ∈ code, CodeText.isDecimal c = true :=
    all_of_mem_stretches (h.single ▸ List.mem_singleton_self code)
  cases hfind : (stretches CodeText.isWord l).find? _ with
  | none =>
      have hnot := List.find?_eq_none.mp hfind code h.word
      rw [h.length, Bool.and_true, List.all_eq_true] at hnot
      exact absurd hdigits hnot
  | some s =>
      have hs := List.find?_some hfind
      rw [Bool.and_eq_true, List.all_eq_true] at hs
      have hdecimal := mem_stretches_of_subclass hchars.decimal_word
        (List.mem_of_find?_eq_some hfind) hs.1
      rw [h.single] at hdecimal
      rw [List.mem_singleton.mp hdecimal, Option.map_some]

/-- A pattern whose matches end with digits that nothing of the match in front of them
goes on with. -/
def EndsInDigits (r : Regex) : Prop :=
  ∀ c d, (r.results CodeText.isWord c).head? = some d → ∃ e, Reaches c e ∧
    e.past.head?.any CodeText.isDecimal = false ∧
    (digitsGroup.results CodeText.isWord e).head? = some d

theorem EndsInDigits.seq {b : Regex} (h : EndsInDigits b) (a : Regex) :
    EndsInDigits (.seq a b) := by
  intro c d hd
  rw [results, List.head?_flatMap] at hd
  obtain ⟨e, he, hd⟩ := List.exists_of_findSome?_eq_some hd
  obtain ⟨f, hf, hpast, hd⟩ := h e d hd
  exact ⟨f, (reaches_of_mem_results he).trans hf, hpast, hd⟩

theorem exists_of_separated {q : Char → Bool} {minimum : ℕ} {c d : Cursor}
    (hq : ∀ x, q x = true → CodeText.isDecimal x = false)
    (hc : 0 < minimum ∨ c.past.head?.any CodeText.isDecimal = false)
    (hd : ((Regex.seq (.many (.char q) minimum none) digitsGroup).results
      CodeText.isWord c).head? = some d) :
    ∃ e, Reaches c e ∧ e.past.head?.any CodeText.isDecimal = false ∧
      (digitsGroup.results CodeText.isWord e).head? = some d := by
  rw [results, List.head?_flatMap] at hd
  obtain ⟨e, he, hd⟩ := List.exists_of_findSome?_eq_some hd
  refine ⟨e, reaches_of_mem_results he, ?_, hd⟩
  obtain ⟨s, hmin, -, hs, -, hpast, -⟩ := ahead_of_mem_greedy he
  rw [hpast]
  rcases List.eq_nil_or_concat s with rfl | ⟨init, x, rfl⟩
  · exact hc.resolve_left (Nat.not_lt.mpr hmin)
  · have hx := hq x (hs x (by simp))
    simpa using hx

theorem isDecimal_of_ascii {c : Char} (hc : c.toNat < 128) (hdigit : c.isDigit = false) :
    CodeText.isDecimal c = false := by
  rw [CodeText.isDecimal_ascii c hc, hdigit]

theorem endsInDigits_codeKeyword (hchars : CodeCharacters) : EndsInDigits codeKeywordPattern := by
  apply EndsInDigits.seq
  intro c d hd
  refine exists_of_separated ?_ (Or.inl one_pos) hd
  intro x hx
  rcases (Bool.or_eq_true _ _).mp hx with hx | hx
  · rw [of_decide_eq_true hx]
    exact isDecimal_of_ascii (by decide) (by decide)
  · exact hchars.visible_isDecimal x hx

/-- **Every keyword pattern** ends in digits. -/
theorem endsInDigits_of_mem (hchars : CodeCharacters) {r : Regex}
    (hr : r ∈ digitKeywordCodePatterns) : EndsInDigits r := by
  have hcode := endsInDigits_codeKeyword hchars
  unfold digitKeywordCodePatterns at hr
  simp only [List.mem_cons, List.not_mem_nil, or_false] at hr
  rcases hr with rfl | rfl | rfl | rfl
  · exact (hcode.seq _).seq _
  · exact (hcode.seq _).seq _
  · exact ((hcode.seq _).seq _).seq _
  · intro c d hd
    rw [results, List.head?_flatMap] at hd
    obtain ⟨e, he, hd⟩ := List.exists_of_findSome?_eq_some hd
    obtain ⟨after, -, rfl⟩ := (mem_results_literal_eq (by decide)).mp he
    have hseparator : ∀ x, (x = '：' || x = ':' || PythonText.isSpace x) = true →
        CodeText.isDecimal x = false := by
      intro x hx
      rw [Bool.or_eq_true, Bool.or_eq_true, decide_eq_true_eq, decide_eq_true_eq] at hx
      rcases hx with (rfl | rfl) | hx
      · exact hchars.colon
      · exact isDecimal_of_ascii (by decide) (by decide)
      · exact hchars.visible_isDecimal x hx
    have hbehind : ("验证码".toList.reverse ++ c.past).head?.any CodeText.isDecimal = false :=
      hchars.ideograph
    obtain ⟨f, hf, hpast, hd⟩ := exists_of_separated hseparator (Or.inr hbehind) hd
    exact ⟨f, (reaches_of_mem_results he).trans hf, hpast, hd⟩

theorem EndsInDigits.searchGroup_eq {r : Regex} (hr : EndsInDigits r) (h : OnlyCode l code)
    {found : String} (hfound : r.searchGroup CodeText.isWord (.ofList l) = some found) :
    found = .ofList code := by
  rw [searchGroup_eq_firstMatch, String.toList_ofList, Option.map_eq_some_iff] at hfound
  obtain ⟨s, hs, rfl⟩ := hfound
  obtain ⟨a, b, rfl, hhere, -⟩ := exists_of_firstMatch hs
  obtain ⟨d, hd, rfl⟩ := Option.map_eq_some_iff.mp hhere
  obtain ⟨e, ⟨t, hb, hpast⟩, hstarts, hd⟩ := hr _ _ hd
  rw [digitsGroup, results, List.head?_map, Option.map_eq_some_iff] at hd
  obtain ⟨f, hf, rfl⟩ := hd
  -- the digits that are there are the only ones
  have hdigits : e.rest.takeWhile CodeText.isDecimal = code := by
    obtain ⟨w, hmin, -, hw, hrest, -, -⟩ := ahead_of_mem_greedy (List.mem_of_mem_head? hf)
    have hne : e.rest.takeWhile CodeText.isDecimal ≠ [] := by
      rw [hrest, List.takeWhile_append_of_pos hw]
      apply List.append_ne_nil_of_left_ne_nil
      exact List.ne_nil_of_length_pos (by omega)
    have hstretch : e.rest.takeWhile CodeText.isDecimal ∈
        stretches CodeText.isDecimal (a ++ b) := by
      refine mem_stretches.mpr ⟨e.past.reverse, e.rest.dropWhile CodeText.isDecimal, ?_, hne,
        fun c hc => List.mem_takeWhile_imp hc, ?_, head?_dropWhile _⟩
      · rw [List.takeWhile_append_dropWhile, hpast]
        simpa using hb
      · rw [List.getLast?_reverse]
        exact hstarts
    rw [h.single] at hstretch
    exact List.mem_singleton.mp hstretch
  have hlength := h.length
  unfold codeLength at hlength
  rw [Bool.and_eq_true, decide_eq_true_eq, decide_eq_true_eq] at hlength
  have hall : f = ⟨code.reverse ++ e.past, e.rest.dropWhile CodeText.isDecimal, e.captured⟩ := by
    have hgreedy : (greedy (Cursor.next CodeText.isDecimal) 4 8 e).head? = _ :=
      head?_greedy (by rw [hdigits]; exact hlength.2)
    rw [hdigits, if_pos hlength.1] at hgreedy
    exact Option.some.inj (hf.symm.trans hgreedy)
  rw [hall, textTo_append rfl]

/-- **The default patterns take the only code** of a text without a token. -/
theorem defaultCode_of_onlyCode (hchars : CodeCharacters) {subject body : String}
    (htoken : xaiBodyCodeRegex.search CodeText.isWord
      (.ofList (joinParts subject.toList body.toList)) = none)
    (h : OnlyCode (joinParts subject.toList body.toList) code) :
    defaultCode subject body = some (.ofList code) := by
  unfold defaultCode
  have hxai : xaiBodyCodeRegex.searchGroup CodeText.isWord
      (.ofList (joinParts subject.toList body.toList)) = none := by
    unfold searchGroup
    rw [htoken, Option.map_none]
  rw [List.cons_append, List.findSome?_cons_of_isNone (by rw [hxai]; rfl), List.findSome?_append]
  cases hkeyword : digitKeywordCodePatterns.findSome? _ with
  | none =>
      rw [Option.none_or, List.findSome?_singleton]
      exact searchGroup_defaultRegex hchars h
  | some found =>
      obtain ⟨r, hr, hfound⟩ := List.exists_of_findSome?_eq_some hkeyword
      rw [Option.some_or, (endsInDigits_of_mem hchars hr).searchGroup_eq h hfound]

/-- **Codes survive the sanitiser**: of a mail that shows one code when its escapes are
undone, and no token of xAI in its subject, that code is taken. -/
theorem code_survives (hchars : CodeCharacters) {subject body code : String}
    (h : ShowsOneCode CodeText.isDecimal subject (undoneBody body) code)
    (hsubject : xaiBodyCodeRegex.search CodeText.isWord subject = none)
    (hfits : (sanitizeMailText body).utf8ByteSize ≤ maxMessageBodyBytes) :
    extractVerificationCode subject body none = some code := by
  have hcleaned : cleanedBody body = sanitizeMailText body := if_pos hfits
  have hnewline : ∀ p, Visible p → p '\n' = false := fun p hp => hp '\n' hchars.newline
  have hstretches : ∀ p, Visible p →
      stretches p (joinParts subject.toList (cleanedBody body).toList) =
        stretches p subject.toList ++ stretches p (undoneBody body).toList := by
    intro p hp
    rw [stretches_joinParts (hnewline p hp), hcleaned,
      stretches_sanitizeMailText hchars.space hp h.noTag]
  have honly : OnlyCode (joinParts subject.toList (cleanedBody body).toList) code.toList := by
    refine ⟨?_, ?_, h.length⟩
    · rw [hstretches _ hchars.visible_isDecimal, stretches_of_gap h.subject, h.single]
      rfl
    · rw [hstretches _ hchars.visible_isWord]
      exact List.mem_append_right _ h.word
  have htoken : xaiBodyCodeRegex.search CodeText.isWord
      (.ofList (joinParts subject.toList (cleanedBody body).toList)) = none := by
    apply search_xaiBody_of_stretches hchars [subject, undoneBody body]
    · simp [hsubject, h.noToken]
    · rw [String.toList_ofList, hstretches _ visible_not_isSpace]
      simp
  unfold extractVerificationCode codeOfCleaned
  rw [xaiSubjectCode_eq_none hchars hsubject]
  show defaultCode subject (cleanedBody body) = some code
  rw [defaultCode_of_onlyCode hchars htoken honly, String.ofList_toList]

end

section Sample

theorem foldedLetter_ascii (c : Char) (hc : c.toNat < 128) :
    (isCodeLetter c || c = '_') = (c.isAlphanum || c = '_') := by
  rw [isCodeLetter_eq hc, isAlphanum_eq]

@[reducible] def foldedCodeText : @CodeText asciiText :=
  letI := asciiText
  { asciiCodeText with
    isWord := fun c => isCodeLetter c || c = '_'
    isWord_ascii := foldedLetter_ascii }

attribute [local instance] asciiText foldedCodeText

theorem not_codeLetter_of_isSpace {c : Char} (h : Ascii.isSpace c = true) :
    (isCodeLetter c || c = '_') = false := by
  have hle := Ascii.isSpace_le h
  rw [foldedLetter_ascii c (by omega), isAlphanum_eq]
  have halnum : isAlphanumeric c = false := isAlphanumeric_of_isSpace h
  rw [halnum, Bool.false_or, decide_eq_false_iff_not]
  rintro rfl
  exact absurd hle (by decide)

theorem codeCharacters_folded : CodeCharacters where
  space := by decide
  newline := by decide
  space_not_word := fun _ => not_codeLetter_of_isSpace
  decimal_word := by
    intro c hc
    have hdigit : c.isDigit = true := hc
    have halnum : isAlphanumeric c = true := by
      rw [← isAlphanum_eq, Char.isAlphanum, hdigit, Bool.or_true]
    show (isCodeLetter c || c = '_') = true
    unfold isCodeLetter
    simp [halnum]
  letter_word := by
    intro c hc
    show (isCodeLetter c || c = '_') = true
    rw [hc, Bool.true_or]
  ideograph := by decide
  colon := by decide

/-- The white space around a code is not in its way. -/
theorem code_survives_sample :
    extractVerificationCode "Sign in" "Your code:\n\n   482913 \t." none = some "482913" := by
  have hsubject : "Sign in".toList.any CodeText.isDecimal = false := by decide
  refine code_survives codeCharacters_folded
    ⟨by simpa only [List.any_eq_false, Bool.not_eq_true] using hsubject, ?_, ?_, ?_, ?_,
      by decide⟩ ?_ ?_
  all_goals decide +kernel

/-- What looks like an escape is undone in front of a code. -/
example : extractVerificationCode "" "=204829" none = some "4829" := by decide +kernel

end Sample

end MailBody

end MailboxService
