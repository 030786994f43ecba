import MailboxService.Foundation.Stretches
import MailboxService.VerificationCode.Extraction

/-!
# The presets and their templates

A deprecated `code_regex` names a template, and the matcher that stands in for
it is a scan of its own. The scan and the template take the leftmost code of a
text, but not of the same codes: the template wants a word of its own, and an
underscore or a letter next to the code is part of the word.
-/

namespace MailboxService

open Foundation

/-! ## Codes of a text -/

def isWordChar (c : Char) : Bool := isAlphanumeric c || c = '_'

def codeLength (s : List Char) : Bool := 4 ≤ s.length && s.length ≤ 8

def segmentLength (s : List Char) : Bool := s.length == 3

/-- A run of 4 to 8 digits that starts at a position. -/
def digitRunAt : List Char → List Char → Option (List Char) := stretchAt Char.isDigit codeLength

/-- A word of 4 to 8 digits that starts at a position. -/
def digitWordAt : List Char → List Char → Option (List Char) :=
  stretchAt isWordChar fun s => s.all Char.isDigit && codeLength s

/-- Two stretches of a class with a dash between them. -/
def hyphenatedAt (p : Char → Bool) (allows : List Char → Bool) (past rest : List Char) :
    Option (List Char) :=
  (stretchAt p allows past rest).bind fun a =>
    match rest.drop a.length with
    | '-' :: after => (stretchAt p allows ('-' :: a.reverse ++ past) after).map (a ++ '-' :: ·)
    | _ => none

/-- A token of xAI that starts at a position. -/
def xaiTokenAt : List Char → List Char → Option (List Char) :=
  hyphenatedAt isAlphanumeric segmentLength

def xaiWordsAt : List Char → List Char → Option (List Char) :=
  hyphenatedAt isWordChar fun s => s.all isAlphanumeric && segmentLength s

/-- Neither a letter nor a digit nor an underscore stands next to a code. -/
def StandsAlone (before after : List Char) : Prop :=
  before.getLast?.any isWordChar = false ∧ after.head?.any isWordChar = false

/-- The first run of digits stands alone, or the first one that does repeats
it. -/
def DigitsStandAlone (text : List Char) : Prop :=
  ∀ before after code, IsFirstMatch digitRunAt text before after code →
    StandsAlone before (after.drop code.length) ∨ firstMatch digitWordAt [] text = some code

/-- The first token of xAI stands alone, or the first one that does repeats it,
up to case. -/
def TokenStandsAlone [PythonText] [CodeText] (text : List Char) : Prop :=
  ∀ before after code, IsFirstMatch xaiTokenAt text before after code →
    StandsAlone before (after.drop code.length) ∨
      (firstMatch xaiWordsAt [] text).map upper = some (upper code)

/-- A token of the text is followed by the label of xAI. -/
def XaiLabelled [PythonText] [CodeText] (text : List Char) : Prop :=
  ∃ before a b after, text = before ++ (a ++ '-' :: (b ++ after)) ∧ a.length = 3 ∧
    b.length = 3 ∧ (∀ c ∈ a ++ b, isAlphanumeric c = true) ∧ followedByXai after = true

theorem isDigit_isWordChar {c : Char} (h : c.isDigit = true) : isWordChar c = true := by
  unfold Char.isDigit at h
  simp only [ge_iff_le, Bool.and_eq_true, decide_eq_true_eq, UInt32.le_iff_toNat_le] at h
  unfold isWordChar
  rw [Bool.or_eq_true, isAlphanumeric_iff]
  exact Or.inl (Or.inl h)

theorem isAlphanumeric_isWordChar {c : Char} (h : isAlphanumeric c = true) :
    isWordChar c = true := by
  unfold isWordChar
  rw [h, Bool.true_or]

/-! ## Two stretches with a dash -/

section

variable {p q : Char → Bool} {allows : List Char → Bool} {past rest : List Char}

theorem hyphenatedAt_eq_some {token : List Char} :
    hyphenatedAt p allows past rest = some token ↔
      ∃ a b after, token = a ++ '-' :: b ∧ rest = a ++ '-' :: (b ++ after) ∧
        IsStretch p past.reverse a ('-' :: (b ++ after)) ∧ allows a = true ∧
        IsStretch p (past.reverse ++ (a ++ ['-'])) b after ∧ allows b = true := by
  have hreverse : ∀ a : List Char,
      ('-' :: a.reverse ++ past).reverse = past.reverse ++ (a ++ ['-']) := by
    intro a
    simp
  unfold hyphenatedAt
  constructor
  · intro h
    obtain ⟨a, ha, h⟩ := Option.bind_eq_some_iff.mp h
    obtain ⟨tail, rfl, hstretch, hallows⟩ := stretchAt_eq_some.mp ha
    rw [List.drop_left] at h
    split at h
    · rename_i after
      obtain ⟨b, hb, rfl⟩ := Option.map_eq_some_iff.mp h
      obtain ⟨after', rfl, hstretch', hallows'⟩ := stretchAt_eq_some.mp hb
      rw [hreverse] at hstretch'
      exact ⟨a, b, after', rfl, rfl, hstretch, hallows, hstretch', hallows'⟩
    · cases h
  · rintro ⟨a, b, after, rfl, rfl, hstretch, hallows, hstretch', hallows'⟩
    have ha := stretchAt_eq_some.mpr ⟨_, rfl, hstretch, hallows⟩
    rw [ha, Option.bind_some, List.drop_left]
    rw [← hreverse] at hstretch'
    have hb := stretchAt_eq_some.mpr ⟨_, rfl, hstretch', hallows'⟩
    show (stretchAt p allows ('-' :: a.reverse ++ past) (b ++ after)).map _ = _
    rw [hb, Option.map_some]

theorem drop_token (a b after : List Char) :
    (a ++ '-' :: (b ++ after)).drop (a ++ '-' :: b).length = after := by
  have happend : a ++ '-' :: (b ++ after) = (a ++ '-' :: b) ++ after := by
    rw [List.append_assoc, List.cons_append]
  rw [happend, List.drop_left]

theorem hyphenatedAt_of_larger (hpq : ∀ c, q c = true → p c = true) {token : List Char}
    (h : hyphenatedAt p (fun s => s.all q && allows s) past rest = some token) :
    hyphenatedAt q allows past rest = some token := by
  obtain ⟨a, b, after, rfl, rfl, ha, hallows, hb, hallows'⟩ := hyphenatedAt_eq_some.mp h
  rw [Bool.and_eq_true, List.all_eq_true] at hallows hallows'
  exact hyphenatedAt_eq_some.mpr ⟨a, b, after, rfl, rfl,
    ⟨ha.ne_nil, hallows.1, any_of_smaller hpq ha.starts, any_of_smaller hpq ha.ends⟩, hallows.2,
    ⟨hb.ne_nil, hallows'.1, any_of_smaller hpq hb.starts, any_of_smaller hpq hb.ends⟩, hallows'.2⟩

/-- A token is one of words exactly if no word goes on next to it. -/
theorem hyphenatedAt_larger_iff (hpq : ∀ c, q c = true → p c = true) (hdash : p '-' = false)
    {token : List Char} (h : hyphenatedAt q allows past rest = some token) :
    hyphenatedAt p (fun s => s.all q && allows s) past rest = some token ↔
      past.head?.any p = false ∧ (rest.drop token.length).head?.any p = false := by
  constructor
  · intro hlarger
    obtain ⟨a, b, after, rfl, rfl, ha, -, hb, -⟩ := hyphenatedAt_eq_some.mp hlarger
    rw [drop_token]
    have hstarts := ha.starts
    rw [List.getLast?_reverse] at hstarts
    exact ⟨hstarts, hb.ends⟩
  · rintro ⟨hstarts, hends⟩
    obtain ⟨a, b, after, rfl, rfl, ha, hallows, hb, hallows'⟩ := hyphenatedAt_eq_some.mp h
    rw [drop_token] at hends
    have hall : ∀ s : List Char, (∀ c ∈ s, q c = true) → allows s = true →
        (s.all q && allows s) = true := by
      intro s hs hsallows
      rw [Bool.and_eq_true, List.all_eq_true]
      exact ⟨hs, hsallows⟩
    refine hyphenatedAt_eq_some.mpr ⟨a, b, after, rfl, rfl,
      ⟨ha.ne_nil, fun c hc => hpq c (ha.all c hc), ?_, ?_⟩, hall a ha.all hallows,
      ⟨hb.ne_nil, fun c hc => hpq c (hb.all c hc), ?_, hends⟩, hall b hb.all hallows'⟩
    · rw [List.getLast?_reverse]
      exact hstarts
    · rw [List.head?_cons, Option.any_some]
      exact hdash
    · rw [← List.append_assoc, List.getLast?_append_of_ne_nil _ (List.cons_ne_nil _ _)]
      exact hdash

end

/-! ## The scans -/

section

variable [PythonText] [CodeText]

theorem searchTokenFrom_eq (m : SafeVerificationCodeMatcher) (run text : List Char) :
    m.searchTokenFrom run text = (stretchesFrom m.isCodeChar run text).find? m.allows := by
  induction text generalizing run with
  | nil =>
      rw [SafeVerificationCodeMatcher.searchTokenFrom, stretchesFrom]
      by_cases hrun : run = []
      · simp [hrun]
      · cases hallows : m.allows run <;> simp [hrun, hallows]
  | cons c rest ih =>
      rw [SafeVerificationCodeMatcher.searchTokenFrom, stretchesFrom]
      by_cases hc : m.isCodeChar c = true
      · rw [if_pos hc, if_pos hc]
        exact ih _
      · rw [if_neg hc, if_neg hc, ih]
        by_cases hrun : run = []
        · simp [hrun]
        · cases hallows : m.allows run <;> simp [hrun, hallows]

/-- **A scan for one kind of characters** takes the leftmost run of an allowed
length. -/
theorem searchToken_eq (m : SafeVerificationCodeMatcher) (text : List Char) :
    m.searchToken text = firstMatch (stretchAt m.isCodeChar m.allows) [] text := by
  rw [firstMatch_stretchAt]
  exact searchTokenFrom_eq m [] text

def XaiScan.read : XaiScan → List Char
  | .outside => []
  | .first segment => segment
  | .second firstSegment segment => firstSegment ++ '-' :: segment

/-- The segments are runs, and the first one has its three characters. -/
def XaiScan.Reading : XaiScan → Prop
  | .outside => True
  | .first segment => segment ≠ [] ∧ ∀ c ∈ segment, isAlphanumeric c = true
  | .second firstSegment segment =>
      firstSegment.length = 3 ∧ (∀ c ∈ firstSegment, isAlphanumeric c = true) ∧
        ∀ c ∈ segment, isAlphanumeric c = true

omit [PythonText] [CodeText] in
theorem xaiTokenAt_inside {past rest : List Char} (h : past.head?.any isAlphanumeric = true) :
    xaiTokenAt past rest = none := by
  unfold xaiTokenAt hyphenatedAt stretchAt
  simp [h]

omit [PythonText] [CodeText] in
theorem xaiTokenAt_of_neg {past rest : List Char} (h : rest.head?.any isAlphanumeric = false) :
    xaiTokenAt past rest = none := by
  have htake : rest.takeWhile isAlphanumeric = [] := by
    cases rest with
    | nil => rfl
    | cons c rest =>
        have hc : isAlphanumeric c = false := by simpa using h
        rw [List.takeWhile_cons, hc, if_neg Bool.false_ne_true]
  unfold xaiTokenAt hyphenatedAt stretchAt
  simp [htake]

def FindsTokensOnly (f : List Char → List Char → Option (List Char)) : Prop :=
  ∀ past rest, xaiTokenAt past rest = none → f past rest = none

omit [PythonText] [CodeText] in
theorem firstMatch_pass {f : List Char → List Char → Option (List Char)}
    (hf : FindsTokensOnly f) {past segment rest : List Char}
    (hsegment : ∀ c ∈ segment, isAlphanumeric c = true) (hnone : f past (segment ++ rest) = none) :
    firstMatch f past (segment ++ rest) = firstMatch f (segment.reverse ++ past) rest := by
  apply firstMatch_append
  intro a b hab _
  cases hlast : a.getLast? with
  | none =>
      rw [List.getLast?_eq_none_iff] at hlast
      subst hlast
      rw [hab] at hnone
      exact hnone
  | some c =>
      -- inside of the segment
      apply hf
      apply xaiTokenAt_inside
      have hne : a.reverse ≠ [] := by
        rw [ne_eq, List.reverse_eq_nil_iff]
        rintro rfl
        cases hlast
      rw [List.head?_append_of_ne_nil _ hne, List.head?_reverse, hlast, Option.any_some]
      exact hsegment c (hab ▸ List.mem_append_left b (List.mem_of_getLast? hlast))

omit [PythonText] [CodeText] in
/-- A segment that is too long or too short, or is not followed by a dash. -/
theorem xaiTokenAt_first {past segment rest : List Char}
    (hsegment : ∀ c ∈ segment, isAlphanumeric c = true)
    (hend : rest.head?.any isAlphanumeric = false)
    (h : segment.length ≠ 3 ∨ rest.head? ≠ some '-') :
    xaiTokenAt past (segment ++ rest) = none := by
  unfold xaiTokenAt hyphenatedAt stretchAt
  rw [takeWhile_of_isStretch hsegment hend]
  dsimp only
  split
  · rename_i hallowed
    have hlength : segment.length = 3 := by simpa [segmentLength] using hallowed.2.2
    have hdash : rest.head? ≠ some '-' := h.resolve_left (not_not.mpr hlength)
    rw [Option.bind_some, List.drop_left]
    split
    · exact absurd rfl hdash
    · rfl
  · rfl

omit [PythonText] [CodeText] in
theorem xaiTokenAt_second {past firstSegment segment rest : List Char}
    (hscan : (XaiScan.second firstSegment segment).Reading)
    (hpast : past.head?.any isAlphanumeric = false)
    (hend : rest.head?.any isAlphanumeric = false) :
    xaiTokenAt past (firstSegment ++ '-' :: (segment ++ rest)) =
      if segment.length = 3 then some (firstSegment ++ '-' :: segment) else none := by
  obtain ⟨hlength, hfirst, hsegment⟩ := hscan
  have hdash : (('-' : Char) :: (segment ++ rest)).head?.any isAlphanumeric = false :=
    isAlphanumeric_dash
  have hne : firstSegment ≠ [] := List.ne_nil_of_length_pos (by omega)
  have hallows : segmentLength firstSegment = true := beq_iff_eq.mpr hlength
  unfold xaiTokenAt hyphenatedAt
  rw [stretchAt_eq_some.mpr ⟨_, rfl, ⟨hne, hfirst, by rw [List.getLast?_reverse]; exact hpast,
    hdash⟩, hallows⟩, Option.bind_some, List.drop_left]
  show (stretchAt isAlphanumeric segmentLength ('-' :: firstSegment.reverse ++ past)
    (segment ++ rest)).map _ = _
  by_cases h3 : segment.length = 3
  · have hne' : segment ≠ [] := List.ne_nil_of_length_pos (by omega)
    have hallows' : segmentLength segment = true := beq_iff_eq.mpr h3
    rw [if_pos h3, stretchAt_eq_some.mpr ⟨rest, rfl, ⟨hne', hsegment, ?_, hend⟩, hallows'⟩]
    · rfl
    · rw [List.getLast?_reverse]
      exact isAlphanumeric_dash
  · rw [if_neg h3]
    unfold stretchAt
    rw [takeWhile_of_isStretch hsegment hend]
    simp [segmentLength, h3]

theorem upper_token {a b : List Char} : upper (a ++ '-' :: b) = upper a ++ '-' :: upper b := by
  unfold upper
  rw [List.flatMap_append, List.flatMap_cons, CodeText.upperChar_ascii '-' (by decide)]
  rfl

theorem xaiToken_eq (requireXaiLabel : Bool) (firstSegment segment rest : List Char) :
    xaiToken requireXaiLabel firstSegment segment rest =
      (if segment.length = 3 ∧ (requireXaiLabel = true → followedByXai rest = true) then
        some (firstSegment ++ '-' :: segment) else none).map upper := by
  unfold xaiToken
  split
  · rw [Option.map_some, upper_token]
  · rfl

/-- **What a scan finds**, as a search: with the labels it wants, and among the
positions that the scan comes to with no segment read yet. -/
structure ScansFor (requireXaiLabel : Bool) (ready : List Char → Prop)
    (f : List Char → List Char → Option (List Char)) : Prop where
  tokensOnly : FindsTokensOnly f
  /-- Two segments are found, or are passed with the dash between them. -/
  segments : ∀ past firstSegment segment rest, ready past →
    (XaiScan.second firstSegment segment).Reading → past.head?.any isAlphanumeric = false →
    rest.head?.any isAlphanumeric = false →
    firstMatch f past (firstSegment ++ '-' :: (segment ++ rest)) =
      if segment.length = 3 ∧ (requireXaiLabel = true → followedByXai rest = true) then
        some (firstSegment ++ '-' :: segment)
      else firstMatch f (segment.reverse ++ '-' :: (firstSegment.reverse ++ past)) rest
  /-- Behind a segment that starts no token, the scan is ready again. -/
  behindSegment : ∀ past (segment : List Char) c, ready past → (∀ d ∈ segment, isAlphanumeric d = true) →
    past.head?.any isAlphanumeric = false → isAlphanumeric c = false →
    ¬ (segment.length = 3 ∧ c = '-') → ready (c :: (segment.reverse ++ past))
  /-- And so it is behind two segments. -/
  behindSegments : ∀ past firstSegment segment c, ready past →
    (XaiScan.second firstSegment segment).Reading → past.head?.any isAlphanumeric = false →
    isAlphanumeric c = false →
    ready (c :: (segment.reverse ++ '-' :: (firstSegment.reverse ++ past)))

omit [PythonText] [CodeText] in
theorem reading_append {segment : List Char} {c : Char}
    (h : ∀ d ∈ segment, isAlphanumeric d = true) (hc : isAlphanumeric c = true) :
    segment ++ [c] ≠ [] ∧ ∀ d ∈ segment ++ [c], isAlphanumeric d = true :=
  ⟨List.append_ne_nil_of_right_ne_nil _ (List.cons_ne_nil c []), alphanumeric_append h hc⟩

/-- **The scan for a token of xAI** is a search. By induction on the text that is
left: what the scan has read of a token stands in front of it. -/
theorem matchXaiFrom_eq {requireXaiLabel : Bool} {ready : List Char → Prop}
    {f : List Char → List Char → Option (List Char)} (hf : ScansFor requireXaiLabel ready f)
    {scan : XaiScan} {past text : List Char} (hscan : scan.Reading) (hready : ready past)
    (hpast : past.head?.any isAlphanumeric = false) :
    matchXaiFrom requireXaiLabel scan text =
      (firstMatch f past (scan.read ++ text)).map upper := by
  have hempty : ∀ past, f past [] = none := fun past =>
    hf.tokensOnly past [] (xaiTokenAt_of_neg rfl)
  have hnext : ∀ past rest, rest.head?.any isAlphanumeric = false → f past rest = none :=
    fun past rest h => hf.tokensOnly past rest (xaiTokenAt_of_neg h)
  induction text generalizing scan past with
  | nil =>
      cases scan with
      | outside =>
          show none = (f past []).map upper
          rw [hempty, Option.map_none]
      | first segment =>
          -- the text ends inside the first segment
          have hnone : f past (segment ++ []) = none :=
            hf.tokensOnly _ _ (xaiTokenAt_first hscan.2 rfl (Or.inr nofun))
          show none = (firstMatch f past (segment ++ [])).map upper
          rw [firstMatch_pass hf.tokensOnly hscan.2 hnone, firstMatch, hempty, Option.map_none]
      | second firstSegment segment =>
          show xaiToken requireXaiLabel firstSegment segment [] = _
          have hread : (XaiScan.second firstSegment segment).read ++ [] =
              firstSegment ++ '-' :: (segment ++ []) := by
            rw [XaiScan.read, List.append_assoc, List.cons_append]
          rw [hread, hf.segments past firstSegment segment [] hready hscan hpast rfl, xaiToken_eq,
            firstMatch, hempty]
  | cons c rest ih =>
      have hstart : XaiScan.outside.Reading := trivial
      cases scan with
      | outside =>
          rw [matchXaiFrom]
          by_cases hc : isAlphanumeric c = true
          · rw [if_pos hc]
            exact ih (reading_append (List.forall_mem_nil _) hc) hready hpast
          · have hc : isAlphanumeric c = false := by simpa using hc
            have hready' : ready (c :: past) := by
              apply hf.behindSegment past [] c hready (List.forall_mem_nil _) hpast hc
              simp
            rw [hc, if_neg Bool.false_ne_true, ih hscan hready' hc]
            show _ = (firstMatch f past (c :: rest)).map upper
            rw [firstMatch_of_none (hnext past (c :: rest) hc)]
            rfl
      | first segment =>
          rw [matchXaiFrom]
          by_cases hc : isAlphanumeric c = true
          · have hreading : (XaiScan.first (segment ++ [c])).Reading := reading_append hscan.2 hc
            rw [if_pos hc, ih hreading hready hpast]
            show (firstMatch f past (segment ++ [c] ++ rest)).map upper = _
            rw [List.append_assoc]
            rfl
          · have hc : isAlphanumeric c = false := by simpa using hc
            rw [hc, if_neg Bool.false_ne_true]
            by_cases hdash : segment.length = 3 ∧ c = '-'
            · have hreading : (XaiScan.second segment []).Reading :=
                ⟨hdash.1, hscan.2, List.forall_mem_nil _⟩
              rw [if_pos hdash, ih hreading hready hpast, hdash.2]
              show (firstMatch f past (segment ++ ['-'] ++ rest)).map upper = _
              rw [List.append_assoc]
              rfl
            · have hnone : f past (segment ++ c :: rest) = none := by
                apply hf.tokensOnly
                have hend : (c :: rest).head?.any isAlphanumeric = false := hc
                apply xaiTokenAt_first hscan.2 hend
                by_cases h3 : segment.length = 3
                · refine Or.inr ?_
                  rintro ⟨⟩
                  exact hdash ⟨h3, rfl⟩
                · exact Or.inl h3
              -- no token starts in the segment, and the scan starts again behind it
              have hready' := hf.behindSegment past segment c hready hscan.2 hpast hc hdash
              rw [if_neg hdash, ih hstart hready' hc]
              show _ = (firstMatch f past (segment ++ c :: rest)).map upper
              rw [firstMatch_pass hf.tokensOnly hscan.2 hnone,
                firstMatch_of_none (hnext _ (c :: rest) hc)]
              rfl
      | second firstSegment segment =>
          rw [matchXaiFrom]
          by_cases hc : isAlphanumeric c = true
          · have hreading : (XaiScan.second firstSegment (segment ++ [c])).Reading :=
              ⟨hscan.1, hscan.2.1, alphanumeric_append hscan.2.2 hc⟩
            rw [if_pos hc, ih hreading hready hpast]
            show (firstMatch f past (firstSegment ++ '-' :: (segment ++ [c]) ++ rest)).map
              upper = (firstMatch f past (firstSegment ++ '-' :: segment ++ c :: rest)).map upper
            simp only [List.append_assoc, List.cons_append, List.nil_append]
          · have hc : isAlphanumeric c = false := by simpa using hc
            have hread : (XaiScan.second firstSegment segment).read ++ c :: rest =
                firstSegment ++ '-' :: (segment ++ c :: rest) := by
              rw [XaiScan.read, List.append_assoc, List.cons_append]
            -- the second segment ends here: it makes a token, or the scan starts again
            rw [hc, if_neg Bool.false_ne_true, hread,
              hf.segments past firstSegment segment (c :: rest) hready hscan hpast hc, xaiToken_eq]
            split
            · rfl
            · have hready' := hf.behindSegments past firstSegment segment c hready hscan hpast hc
              rw [Option.map_none, Option.none_or, firstMatch_of_none (hnext _ (c :: rest) hc)]
              exact ih hstart hready' hc

omit [PythonText] [CodeText] in
/-- Where two segments are not found at their first one, nothing is found at their
dash. -/
theorem firstMatch_segments {f : List Char → List Char → Option (List Char)}
    (hf : FindsTokensOnly f) {past firstSegment segment rest : List Char}
    (hscan : (XaiScan.second firstSegment segment).Reading)
    (hfirst : f past (firstSegment ++ '-' :: (segment ++ rest)) = none)
    (hsecond : f ('-' :: (firstSegment.reverse ++ past)) (segment ++ rest) = none) :
    firstMatch f past (firstSegment ++ '-' :: (segment ++ rest)) =
      firstMatch f (segment.reverse ++ '-' :: (firstSegment.reverse ++ past)) rest := by
  have hdash : f (firstSegment.reverse ++ past) ('-' :: (segment ++ rest)) = none :=
    hf _ _ (xaiTokenAt_of_neg isAlphanumeric_dash)
  rw [firstMatch_pass hf hscan.2.1 hfirst, firstMatch_of_none hdash,
    firstMatch_pass hf hscan.2.2 hsecond]

/-- A scan without labels takes the leftmost token. -/
theorem scansFor_token : ScansFor false (fun _ => True) xaiTokenAt where
  tokensOnly _ _ h := h
  segments past firstSegment segment rest _ hscan hpast hend := by
    have hhere := xaiTokenAt_second hscan hpast hend
    by_cases h3 : segment.length = 3
    · rw [if_pos h3] at hhere
      rw [if_pos ⟨h3, nofun⟩, firstMatch_of_some hhere]
    · rw [if_neg h3] at hhere
      rw [if_neg fun h => h3 h.1]
      exact firstMatch_segments (fun _ _ h => h) hscan hhere
        (xaiTokenAt_first hscan.2.2 hend (Or.inl h3))
  behindSegment _ _ _ _ _ _ _ _ := trivial
  behindSegments _ _ _ _ _ _ _ _ := trivial

theorem matchXaiToken_eq (text : List Char) :
    matchXaiToken false text = (firstMatch xaiTokenAt [] text).map upper := by
  have hstart : XaiScan.outside.Reading := trivial
  exact matchXaiFrom_eq scansFor_token hstart trivial rfl

/-! ## The templates -/

omit [PythonText] [CodeText] in
theorem isAlphanum_eq (c : Char) : c.isAlphanum = isAlphanumeric c := by
  rw [Bool.eq_iff_iff, isAlphanumeric_iff]
  unfold Char.isAlphanum Char.isAlpha Char.isUpper Char.isLower Char.isDigit
  simp only [ge_iff_le, Bool.or_eq_true, Bool.and_eq_true, decide_eq_true_eq,
    UInt32.le_iff_toNat_le]
  have hval : c.val.toNat = c.toNat := rfl
  have h0 : '0'.val.toNat = 48 := rfl
  have h9 : '9'.val.toNat = 57 := rfl
  have hA : 'A'.val.toNat = 65 := rfl
  have hZ : 'Z'.val.toNat = 90 := rfl
  have ha : 'a'.val.toNat = 97 := rfl
  have hz : 'z'.val.toNat = 122 := rfl
  omega

theorem isWord_eq {c : Char} (h : c.toNat < 128) : CodeText.isWord c = isWordChar c := by
  rw [CodeText.isWord_ascii c h, isAlphanum_eq]
  rfl

theorem any_isWord {o : Option Char} (h : ∀ c ∈ o, c.toNat < 128) :
    o.any CodeText.isWord = o.any isWordChar := by
  cases o with
  | none => rfl
  | some c =>
      rw [Option.any_some, Option.any_some]
      exact isWord_eq (h c rfl)

omit [PythonText] [CodeText] in
theorem isCodeLetter_eq {c : Char} (h : c.toNat < 128) : isCodeLetter c = isAlphanumeric c := by
  rw [Bool.eq_iff_iff]
  constructor
  · intro hc
    exact isAlphanumeric_of_capital hc h
  · intro hc
    unfold isCodeLetter
    rw [hc]
    rfl

theorem groupAt_ascii (Reads : List Char → Prop) {a : Regex} {past rest : List Char}
    {o : Option (List Char)} (hpast : ∀ c ∈ past, c.toNat < 128)
    (hrest : ∀ c ∈ rest, c.toNat < 128)
    (hreads : ∀ e, e ∈ a.results CodeText.isWord ⟨past, rest, []⟩ ↔ ∃ s after, rest = s ++ after ∧
      Reads s ∧ e = ⟨s.reverse ++ past, after, []⟩)
    (hword : ∀ s, Reads s → s.head?.any isWordChar = true ∧ s.getLast?.any isWordChar = true)
    (ho : ∀ s, o = some s ↔ ∃ after, rest = s ++ after ∧ Reads s ∧
      past.head?.any isWordChar = false ∧ after.head?.any isWordChar = false) :
    (Regex.seq .boundary (.seq (.group a) .boundary)).groupAt CodeText.isWord past rest = o := by
  refine Regex.groupAt_delimited Reads hreads ?_ ?_
  · rintro s after rfl hs
    have hascii : ∀ c ∈ s, c.toNat < 128 := fun c hc => hrest c (List.mem_append_left _ hc)
    rw [any_isWord fun c hc => hascii c (List.mem_of_mem_head? hc),
      any_isWord fun c hc => hascii c (List.mem_of_getLast? hc)]
    exact hword s hs
  · intro s
    rw [ho, any_isWord fun c hc => hpast c (List.mem_of_mem_head? hc)]
    refine exists_congr fun after => and_congr_right fun hsplit => and_congr_right fun _ =>
      and_congr_right fun _ => ?_
    rw [any_isWord fun c hc =>
      hrest c (hsplit ▸ List.mem_append_right s (List.mem_of_mem_head? hc))]

/-- **The template of digits** reads a word of 4 to 8 digits. -/
theorem groupAt_digits {past rest : List Char} (hpast : ∀ c ∈ past, c.toNat < 128)
    (hrest : ∀ c ∈ rest, c.toNat < 128) :
    defaultVerificationCodeRegex.groupAt CodeText.isWord past rest = digitWordAt past rest := by
  let reads (s : List Char) : Prop := (∀ c ∈ s, c.isDigit = true) ∧ codeLength s = true
  have hne : ∀ s, reads s → s ≠ [] := by
    rintro s ⟨-, hlength⟩ rfl
    exact absurd hlength (by decide)
  refine groupAt_ascii reads hpast hrest ?_ ?_ ?_
  · intro e
    refine Regex.mem_greedy.trans ?_
    constructor
    · rintro ⟨s, after, rfl, hall, hmin, hmax, rfl⟩
      refine ⟨s, after, rfl, ⟨?_, ?_⟩, rfl⟩
      · intro c hc
        rw [← CodeText.isDecimal_ascii c (hrest c (List.mem_append_left _ hc))]
        exact hall c hc
      · unfold codeLength
        rw [Bool.and_eq_true, decide_eq_true_eq, decide_eq_true_eq]
        exact ⟨hmin, hmax⟩
    · rintro ⟨s, after, rfl, ⟨hall, hlength⟩, rfl⟩
      unfold codeLength at hlength
      rw [Bool.and_eq_true, decide_eq_true_eq, decide_eq_true_eq] at hlength
      refine ⟨s, after, rfl, ?_, hlength.1, hlength.2, rfl⟩
      intro c hc
      rw [CodeText.isDecimal_ascii c (hrest c (List.mem_append_left _ hc))]
      exact hall c hc
  · intro s hs
    rw [List.head?_eq_some_head (hne s hs), List.getLast?_eq_some_getLast (hne s hs)]
    exact ⟨isDigit_isWordChar (hs.1 _ (List.head_mem _)),
      isDigit_isWordChar (hs.1 _ (List.getLast_mem _))⟩
  · intro s
    unfold digitWordAt
    rw [stretchAt_eq_some]
    constructor
    · rintro ⟨after, hsplit, ⟨-, -, hstarts, hends⟩, hallows⟩
      rw [Bool.and_eq_true, List.all_eq_true] at hallows
      rw [List.getLast?_reverse] at hstarts
      exact ⟨after, hsplit, hallows, hstarts, hends⟩
    · rintro ⟨after, hsplit, hs, hstarts, hends⟩
      rw [← List.getLast?_reverse] at hstarts
      refine ⟨after, hsplit, ⟨hne s hs, fun c hc => isDigit_isWordChar (hs.1 c hc), hstarts, hends⟩,
        ?_⟩
      rw [Bool.and_eq_true, List.all_eq_true]
      exact hs

/-- Two segments of three characters with a dash between them. -/
def IsXaiToken (s : List Char) : Prop :=
  ∃ a b, s = a ++ '-' :: b ∧ a.length = 3 ∧ b.length = 3 ∧
    (∀ c ∈ a, isAlphanumeric c = true) ∧ ∀ c ∈ b, isAlphanumeric c = true

theorem mem_xaiCodePattern_ascii {past rest : List Char} (hrest : ∀ c ∈ rest, c.toNat < 128)
    (e : Regex.Cursor) :
    e ∈ xaiCodePattern.results CodeText.isWord ⟨past, rest, []⟩ ↔
      ∃ s after, rest = s ++ after ∧ IsXaiToken s ∧ e = ⟨s.reverse ++ past, after, []⟩ := by
  rw [mem_xaiCodePattern]
  refine exists_congr fun s => exists_congr fun after => and_congr_right fun hsplit =>
    and_congr_left' ?_
  have hletters : ∀ a : List Char, a ⊆ s →
      ((∀ c ∈ a, isCodeLetter c = true) ↔ ∀ c ∈ a, isAlphanumeric c = true) := by
    intro a ha
    refine forall₂_congr fun c hc => ?_
    rw [isCodeLetter_eq (hrest c (hsplit ▸ List.mem_append_left after (ha hc)))]
  constructor
  · rintro ⟨a, b, ha, hb, halls, hblls, rfl⟩
    exact ⟨a, b, rfl, ha, hb, (hletters a (by simp)).mp halls,
      (hletters b fun c hc => by simp [hc]).mp hblls⟩
  · rintro ⟨a, b, rfl, ha, hb, halls, hblls⟩
    exact ⟨a, b, ha, hb, (hletters a (by simp)).mpr halls,
      (hletters b fun c hc => by simp [hc]).mpr hblls, rfl⟩

/-- **The template of xAI** reads a token of two words. -/
theorem groupAt_xai {past rest : List Char} (hpast : ∀ c ∈ past, c.toNat < 128)
    (hrest : ∀ c ∈ rest, c.toNat < 128) :
    xaiBodyCodeRegex.groupAt CodeText.isWord past rest = xaiWordsAt past rest := by
  have hdash : isWordChar '-' = false := by decide
  refine groupAt_ascii IsXaiToken hpast hrest (mem_xaiCodePattern_ascii hrest) ?_ ?_
  · rintro s ⟨a, b, rfl, ha, hb, halls, hblls⟩
    have hane : a ≠ [] := List.ne_nil_of_length_pos (by omega)
    have hbne : b ≠ [] := List.ne_nil_of_length_pos (by omega)
    rw [List.head?_append_of_ne_nil _ hane, List.head?_eq_some_head hane,
      List.getLast?_append_of_ne_nil _ (List.cons_ne_nil _ _), List.getLast?_cons_of_ne_nil hbne,
      List.getLast?_eq_some_getLast hbne]
    exact ⟨isAlphanumeric_isWordChar (halls _ (List.head_mem _)),
      isAlphanumeric_isWordChar (hblls _ (List.getLast_mem _))⟩
  · intro s
    unfold xaiWordsAt
    rw [hyphenatedAt_eq_some]
    constructor
    · rintro ⟨a, b, after, rfl, hsplit, ha, hallows, hb, hallows'⟩
      rw [Bool.and_eq_true, List.all_eq_true] at hallows hallows'
      have hstarts := ha.starts
      rw [List.getLast?_reverse] at hstarts
      refine ⟨after, ?_, ⟨a, b, rfl, beq_iff_eq.mp hallows.2, beq_iff_eq.mp hallows'.2, hallows.1,
        hallows'.1⟩, hstarts, hb.ends⟩
      rw [hsplit, List.append_assoc, List.cons_append]
    · rintro ⟨after, hsplit, ⟨a, b, rfl, ha, hb, halls, hblls⟩, hstarts, hends⟩
      have hane : a ≠ [] := List.ne_nil_of_length_pos (by omega)
      have hbne : b ≠ [] := List.ne_nil_of_length_pos (by omega)
      rw [← List.getLast?_reverse] at hstarts
      have hallows : ∀ s : List Char, s.length = 3 → (∀ c ∈ s, isAlphanumeric c = true) →
          (s.all isAlphanumeric && segmentLength s) = true := by
        intro s hlength hs
        rw [Bool.and_eq_true, List.all_eq_true]
        exact ⟨hs, beq_iff_eq.mpr hlength⟩
      refine ⟨a, b, after, rfl, ?_,
        ⟨hane, fun c hc => isAlphanumeric_isWordChar (halls c hc), hstarts, hdash⟩,
        hallows a ha halls,
        ⟨hbne, fun c hc => isAlphanumeric_isWordChar (hblls c hc), ?_, hends⟩, hallows b hb hblls⟩
      · rw [hsplit, List.append_assoc, List.cons_append]
      · rw [← List.append_assoc, List.getLast?_append_of_ne_nil _ (List.cons_ne_nil _ _)]
        exact hdash

/-! ## Labels -/

omit [PythonText] [CodeText] in
theorem read_step {scan : XaiScan} {c : Char} {rest : List Char} (next : XaiScan)
    (h : next.read = scan.read ++ [c]) : next.read ++ rest = scan.read ++ c :: rest := by
  rw [h, List.append_assoc, List.singleton_append]

theorem xaiLabelled_append {text : List Char} (skipped : List Char) (h : XaiLabelled text) :
    XaiLabelled (skipped ++ text) := by
  obtain ⟨before, a, b, after, rfl, hrest⟩ := h
  exact ⟨skipped ++ before, a, b, after, by rw [List.append_assoc], hrest⟩

theorem xaiLabelled_of_token {firstSegment segment rest token : List Char}
    (hscan : (XaiScan.second firstSegment segment).Reading)
    (h : xaiToken true firstSegment segment rest = some token) :
    XaiLabelled (firstSegment ++ '-' :: (segment ++ rest)) := by
  unfold xaiToken at h
  split at h
  · rename_i hlabel
    refine ⟨[], firstSegment, segment, rest, rfl, hscan.1, hlabel.1, ?_, hlabel.2 rfl⟩
    intro c hc
    rcases List.mem_append.mp hc with hc | hc
    · exact hscan.2.1 c hc
    · exact hscan.2.2 c hc
  · cases h

theorem xaiLabelled_of_matchXaiFrom {scan : XaiScan} {text token : List Char}
    (hscan : scan.Reading) (h : matchXaiFrom true scan text = some token) :
    XaiLabelled (scan.read ++ text) := by
  have hstart : XaiScan.outside.Reading := trivial
  induction text generalizing scan with
  | nil =>
      cases scan with
      | outside => cases h
      | first segment => cases h
      | second firstSegment segment =>
          have hlabelled := xaiLabelled_of_token hscan h
          rwa [← List.cons_append, ← List.append_assoc] at hlabelled
  | cons c rest ih =>
      cases scan with
      | outside =>
          rw [matchXaiFrom] at h
          by_cases hc : isAlphanumeric c = true
          · rw [if_pos hc] at h
            have hnext : (XaiScan.first [c]).Reading := reading_append (List.forall_mem_nil _) hc
            exact ih hnext h
          · rw [if_neg hc] at h
            exact xaiLabelled_append [c] (ih hstart h)
      | first segment =>
          rw [matchXaiFrom] at h
          by_cases hc : isAlphanumeric c = true
          · rw [if_pos hc] at h
            have hnext : (XaiScan.first (segment ++ [c])).Reading := reading_append hscan.2 hc
            rw [← read_step (.first (segment ++ [c])) rfl]
            exact ih hnext h
          · rw [if_neg hc] at h
            by_cases hdash : segment.length = 3 ∧ c = '-'
            · rw [if_pos hdash] at h
              have hnext : (XaiScan.second segment []).Reading :=
                ⟨hdash.1, hscan.2, List.forall_mem_nil _⟩
              rw [hdash.2, ← read_step (.second segment []) rfl]
              exact ih hnext h
            -- the scan starts again behind the segment
            · rw [if_neg hdash] at h
              have hlabelled := xaiLabelled_append (segment ++ [c]) (ih hstart h)
              rwa [List.append_assoc] at hlabelled
      | second firstSegment segment =>
          rw [matchXaiFrom] at h
          by_cases hc : isAlphanumeric c = true
          · rw [if_pos hc] at h
            have hnext : (XaiScan.second firstSegment (segment ++ [c])).Reading :=
              ⟨hscan.1, hscan.2.1, alphanumeric_append hscan.2.2 hc⟩
            rw [← read_step (.second firstSegment (segment ++ [c]))
              (by rw [XaiScan.read, XaiScan.read, List.append_assoc, List.cons_append])]
            exact ih hnext h
          · rw [if_neg hc] at h
            rcases Option.or_eq_some_iff.mp h with h | ⟨-, h⟩
            · have hlabelled := xaiLabelled_of_token hscan h
              rwa [← List.cons_append, ← List.append_assoc] at hlabelled
            · have hlabelled := xaiLabelled_append (firstSegment ++ '-' :: segment ++ [c])
                (ih hstart h)
              rwa [List.append_assoc] at hlabelled

theorem searchXai_unlabelled {subject body : List Char} (h : ¬ XaiLabelled subject) :
    searchXai subject body = matchXaiToken false (joinParts subject body) := by
  unfold searchXai
  cases hlabelled : matchXaiToken true subject with
  | none => rfl
  | some token =>
      have hstart : XaiScan.outside.Reading := trivial
      exact absurd (xaiLabelled_of_matchXaiFrom hstart hlabelled) h

/-! ## Presets -/

/-- `\b(\d{4,8})\b`. -/
def digitsTemplate : String := "\\b(\\d\x7b4,8\x7d)\\b"

/-- `\b([A-Z0-9]{3}-[A-Z0-9]{3})\b`. -/
def xaiTemplate : String := "\\b([A-Z0-9]\x7b3\x7d-[A-Z0-9]\x7b3\x7d)\\b"

/-- `"\n".join(part for part in [subject, body] if part)`. -/
def searchableText (subject body : String) : String :=
  .ofList (joinParts subject.toList body.toList)

def isVisible (c : Char) : Bool := 32 < c.toNat && c.toNat < 128

theorem strip_template {template : String}
    (h : template.toList.head?.all isVisible = true ∧
      template.toList.getLast?.all isVisible = true) :
    Text.strip template = template := by
  have hspace : ∀ c : Char, isVisible c = true → PythonText.isSpace c = false := by
    intro c hc
    unfold isVisible at hc
    rw [Bool.and_eq_true, decide_eq_true_eq, decide_eq_true_eq] at hc
    by_contra hspace
    have := CodeText.isSpace_ascii c hc.2 (by simpa using hspace)
    omega
  rw [Option.all_eq_true, Option.all_eq_true] at h
  exact Text.strip_of_trimmed ⟨fun c hc => hspace c (h.1 c hc), fun c hc => hspace c (h.2 c hc)⟩

theorem preset_digits {m : SafeVerificationCodeMatcher}
    (h : fromDeprecatedCodeRegex digitsTemplate = .ok (some m)) : m = ⟨.digits, 4, 8, none⟩ := by
  unfold fromDeprecatedCodeRegex at h
  rw [strip_template (by decide +kernel)] at h
  cases h
  rfl

theorem preset_xai {m : SafeVerificationCodeMatcher}
    (h : fromDeprecatedCodeRegex xaiTemplate = .ok (some m)) : m = ⟨.xai, 7, 7, none⟩ := by
  unfold fromDeprecatedCodeRegex at h
  rw [strip_template (by decide +kernel)] at h
  cases h
  rfl

omit [PythonText] [CodeText] in
theorem ascii_of_all {text : List Char} (h : text.all (fun c => decide (c.toNat < 128)) = true) :
    ∀ c ∈ text, c.toNat < 128 :=
  fun c hc => of_decide_eq_true (List.all_eq_true.mp h c hc)

omit [PythonText] [CodeText] in
theorem ascii_joinParts {subject body : List Char} (hsubject : ∀ c ∈ subject, c.toNat < 128)
    (hbody : ∀ c ∈ body, c.toNat < 128) : ∀ c ∈ joinParts subject body, c.toNat < 128 := by
  unfold joinParts
  split
  · exact hbody
  · split
    · exact hsubject
    · intro c hc
      rcases List.mem_append.mp hc with hc | hc
      · exact hsubject c hc
      · rcases List.mem_cons.mp hc with rfl | hc
        · decide
        · exact hbody c hc

omit [PythonText] [CodeText] in
/-- A condition on the characters of a text holds before and behind each of its
positions. -/
theorem forall_split {P : Char → Prop} {text a b : List Char} (h : ∀ c ∈ text, P c)
    (hab : text = a ++ b) : (∀ c ∈ a.reverse ++ [], P c) ∧ ∀ c ∈ b, P c := by
  refine ⟨?_, ?_⟩
  · intro c hc
    rw [List.append_nil, List.mem_reverse] at hc
    exact h c (hab ▸ List.mem_append_left b hc)
  · intro c hc
    exact h c (hab ▸ List.mem_append_right a hc)

theorem searchToken_digits {text : List Char} (h : ∀ c ∈ text, c.toNat < 128) :
    SafeVerificationCodeMatcher.searchToken ⟨.digits, 4, 8, none⟩ text =
      firstMatch digitRunAt [] text := by
  rw [searchToken_eq]
  refine firstMatch_congr fun a b hab => ?_
  obtain ⟨hpast, hrest⟩ := forall_split h hab
  exact stretchAt_congr (fun c hc => CodeText.isDigit_ascii c (hpast c hc))
    (fun c hc => CodeText.isDigit_ascii c (hrest c hc))

theorem searchGroup_digits {text : List Char} (h : ∀ c ∈ text, c.toNat < 128) :
    defaultVerificationCodeRegex.searchGroup CodeText.isWord (.ofList text) =
      (firstMatch digitWordAt [] text).map .ofList := by
  rw [Regex.searchGroup_eq_firstMatch, String.toList_ofList]
  refine congrArg _ (firstMatch_congr fun a b hab => ?_)
  obtain ⟨hpast, hrest⟩ := forall_split h hab
  exact groupAt_digits hpast hrest

theorem searchGroup_xai {text : List Char} (h : ∀ c ∈ text, c.toNat < 128) :
    xaiBodyCodeRegex.searchGroup CodeText.isWord (.ofList text) =
      (firstMatch xaiWordsAt [] text).map .ofList := by
  rw [Regex.searchGroup_eq_firstMatch, String.toList_ofList]
  refine congrArg _ (firstMatch_congr fun a b hab => ?_)
  obtain ⟨hpast, hrest⟩ := forall_split h hab
  exact groupAt_xai hpast hrest

omit [PythonText] [CodeText] in
/-- **Digits mean their template** exactly if the first run stands alone or is
repeated. -/
theorem digits_agree_iff (text : List Char) :
    (firstMatch digitRunAt [] text).map String.ofList =
        (firstMatch digitWordAt [] text).map String.ofList ↔ DigitsStandAlone text := by
  have hinj : Function.Injective (Option.map String.ofList) :=
    Option.map_injective fun _ _ => String.ofList_injective
  have hstrict : ∀ past rest code, digitWordAt past rest = some code →
      digitRunAt past rest = some code :=
    fun _ _ _ h => stretchAt_of_larger (fun _ => isDigit_isWordChar) h
  rw [firstMatch_map_eq_iff String.ofList hstrict]
  refine forall_congr' fun before => forall_congr' fun after => forall_congr' fun code =>
    forall_congr' fun hfirst => or_congr ?_ ?_
  · refine (stretchAt_larger_iff (fun _ => isDigit_isWordChar) hfirst.here).trans ?_
    rw [List.head?_reverse]
    rfl
  · rw [← hinj.eq_iff]
    rfl

/-- **A token means its template**, up to case, exactly if the first token stands
alone or is repeated. -/
theorem token_agrees_iff (text : List Char) :
    (firstMatch xaiTokenAt [] text).map upper = (firstMatch xaiWordsAt [] text).map upper ↔
      TokenStandsAlone text := by
  have hstrict : ∀ past rest token, xaiWordsAt past rest = some token →
      xaiTokenAt past rest = some token :=
    fun _ _ _ h => hyphenatedAt_of_larger (fun _ => isAlphanumeric_isWordChar) h
  rw [firstMatch_map_eq_iff upper hstrict]
  refine forall_congr' fun before => forall_congr' fun after => forall_congr' fun code =>
    forall_congr' fun hfirst => or_congr ?_ Iff.rfl
  refine (hyphenatedAt_larger_iff (fun _ => isAlphanumeric_isWordChar) (by decide)
    hfirst.here).trans ?_
  rw [List.head?_reverse]
  rfl

/-- **The presets mean their templates** on ASCII text, the one of xAI up to case
and on a subject without a label, exactly if the first code stands alone or the
first one that does repeats it. -/
theorem presets_mean_templates_iff {digits xai : SafeVerificationCodeMatcher}
    (hdigits : fromDeprecatedCodeRegex digitsTemplate = .ok (some digits))
    (hxai : fromDeprecatedCodeRegex xaiTemplate = .ok (some xai)) {subject body : String}
    (hsubject : ∀ c ∈ subject.toList, c.toNat < 128) (hbody : ∀ c ∈ body.toList, c.toNat < 128) :
    (digits.search subject body =
        defaultVerificationCodeRegex.searchGroup CodeText.isWord (searchableText subject body) ↔
      DigitsStandAlone (joinParts subject.toList body.toList)) ∧
    (¬ XaiLabelled subject.toList →
      (xai.search subject body =
          (xaiBodyCodeRegex.searchGroup CodeText.isWord (searchableText subject body)).map
            (fun code => .ofList (upper code.toList)) ↔
        TokenStandsAlone (joinParts subject.toList body.toList))) := by
  have hascii := ascii_joinParts hsubject hbody
  rw [preset_digits hdigits, preset_xai hxai]
  refine ⟨?_, ?_⟩
  · show (SafeVerificationCodeMatcher.searchToken ⟨.digits, 4, 8, none⟩
      (joinParts subject.toList body.toList)).map String.ofList = _ ↔ _
    unfold searchableText
    rw [searchToken_digits hascii, searchGroup_digits hascii]
    exact digits_agree_iff _
  · intro hlabel
    have hinj : Function.Injective (Option.map String.ofList) :=
      Option.map_injective fun _ _ => String.ofList_injective
    show (searchXai subject.toList body.toList).map String.ofList = _ ↔ _
    unfold searchableText
    have htemplate : ∀ found : Option (List Char),
        (found.map String.ofList).map (fun code => String.ofList (upper code.toList)) =
          (found.map upper).map String.ofList := by
      intro found
      cases found with
      | none => rfl
      | some token =>
          rw [Option.map_some, Option.map_some, String.toList_ofList]
          rfl
    rw [searchXai_unlabelled hlabel, matchXaiToken_eq, searchGroup_xai hascii, htemplate,
      hinj.eq_iff]
    exact token_agrees_iff _

end

/-! ## A letter in front of the digits -/

section Sample

attribute [local instance] asciiText asciiCodeText

def xaiMatcher : SafeVerificationCodeMatcher := ⟨.xai, 7, 7, none⟩

theorem fromDeprecatedCodeRegex_templates :
    fromDeprecatedCodeRegex digitsTemplate = .ok (some digitsMatcher) ∧
      fromDeprecatedCodeRegex xaiTemplate = .ok (some xaiMatcher) := by
  decide +kernel

/-- The presets find what their templates find between blanks, so the codes stand alone. -/
theorem presets_mean_templates_sample :
    DigitsStandAlone (joinParts "Code".toList "is ABC-123 or 4821 now".toList) ∧
      TokenStandsAlone (joinParts "Code".toList "is ABC-123 or 4821 now".toList) := by
  have hsubject : ∀ c ∈ "Code".toList, c.toNat < 128 := ascii_of_all (by decide +kernel)
  have hbody : ∀ c ∈ "is ABC-123 or 4821 now".toList, c.toNat < 128 :=
    ascii_of_all (by decide +kernel)
  have hiff := presets_mean_templates_iff fromDeprecatedCodeRegex_templates.1
    fromDeprecatedCodeRegex_templates.2 hsubject hbody
  have hlabel : ¬ XaiLabelled "Code".toList := by
    rintro ⟨before, a, b, after, htext, -⟩
    have hdash : '-' ∈ "Code".toList := by
      rw [htext]
      exact List.mem_append_right _ (List.mem_append_right _ List.mem_cons_self)
    revert hdash
    decide
  exact ⟨hiff.1.mp (by decide +kernel), (hiff.2 hlabel).mp (by decide +kernel)⟩

/-- **A digit run behind a letter** is found, and the template finds none: the run
is not a word. -/
theorem glued_digits_found :
    fromDeprecatedCodeRegex digitsTemplate = .ok (some digitsMatcher) ∧
      (∀ c ∈ "a1234".toList, c.toNat < 128) ∧
      digitsMatcher.search "" "a1234" = some "1234" ∧
      defaultVerificationCodeRegex.searchGroup CodeText.isWord (searchableText "" "a1234") =
        none :=
  ⟨fromDeprecatedCodeRegex_templates.1, ascii_of_all (by decide +kernel), by decide +kernel,
    by decide +kernel⟩

end Sample

end MailboxService
