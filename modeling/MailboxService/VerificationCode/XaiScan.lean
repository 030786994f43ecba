import Mathlib.Algebra.Group.Nat.Even
import MailboxService.VerificationCode.TokenScan

/-!
# The scan for a token of xAI

A token is a pair of segments, two maximal runs of three letters and digits with a
dash between them. In the subject the scan wants a label behind the token, and it
has read both segments when it looks for the label: the second one is not tried as
the first of a pair of its own. Of a row of segments `AAA-BBB-CCC` with the label
behind it, the scan comes to `AAA-BBB` only.

So a labelled token is found exactly if an even number of segments stands in front
of it (`scansFor_label`).
-/

namespace MailboxService

open Foundation

/-! ## Pairs of segments -/

/-- Two adjacent maximal runs of three letters and digits, joined by a dash. -/
structure IsPair (before a b after : List Char) : Prop where
  first : IsStretch isAlphanumeric before a ('-' :: (b ++ after))
  length_first : a.length = 3
  second : IsStretch isAlphanumeric (before ++ (a ++ ['-'])) b after
  length_second : b.length = 3

theorem xaiTokenAt_eq_some {past rest token : List Char} :
    xaiTokenAt past rest = some token ↔
      ∃ a b after, token = a ++ '-' :: b ∧ rest = a ++ '-' :: (b ++ after) ∧
        IsPair past.reverse a b after := by
  unfold xaiTokenAt
  rw [hyphenatedAt_eq_some]
  constructor
  · rintro ⟨a, b, after, htoken, hrest, ha, halength, hb, hblength⟩
    exact ⟨a, b, after, htoken, hrest, ha, beq_iff_eq.mp halength, hb, beq_iff_eq.mp hblength⟩
  · rintro ⟨a, b, after, htoken, hrest, ha, halength, hb, hblength⟩
    exact ⟨a, b, after, htoken, hrest, ha, beq_iff_eq.mpr halength, hb, beq_iff_eq.mpr hblength⟩

section

variable [PythonText] [CodeText]

/-- **A standalone `xAI`**, whatever its case, behind white space if there is any. -/
def StandaloneXai (text : List Char) : Prop :=
  let remaining := text.dropWhile PythonText.isSpace
  upper (remaining.take 3) = "XAI".toList ∧ (remaining.drop 3).head?.any isAlphanumeric = false

/-- A pair of segments of a text, with a label behind it if one is wanted. -/
structure IsPairOf (labelled : Bool) (text before a b after : List Char) : Prop where
  text_eq : text = before ++ (a ++ '-' :: (b ++ after))
  isPair : IsPair before a b after
  label : labelled = true → StandaloneXai after

structure IsFirstPairOf (labelled : Bool) (text before a b after : List Char) : Prop
    extends IsPairOf labelled text before a b after where
  first : ∀ before' a' b' after', IsPairOf labelled text before' a' b' after' →
    before.length ≤ before'.length

/-- **The specification** of the matcher of xAI: the leftmost labelled pair of the
subject in capital letters; where there is none, the leftmost pair of the joined
text; and otherwise nothing. -/
structure XaiSpecified (subject body : String) (found : Option String) : Prop where
  labelled : ∀ before a b after, IsFirstPairOf true subject.toList before a b after →
    found = some (.ofList (upper (a ++ '-' :: b)))
  unlabelled : (∀ before a b after, ¬ IsPairOf true subject.toList before a b after) →
    ∀ before a b after,
      IsFirstPairOf false (joinParts subject.toList body.toList) before a b after →
        found = some (.ofList (upper (a ++ '-' :: b)))
  nothing : (∀ before a b after, ¬ IsPairOf true subject.toList before a b after) →
    (∀ before a b after,
      ¬ IsPairOf false (joinParts subject.toList body.toList) before a b after) → found = none

/-! ## Pairs as matches -/

theorem followedByXai_iff (text : List Char) : followedByXai text = true ↔ StandaloneXai text := by
  unfold followedByXai StandaloneXai
  dsimp only
  rw [Bool.and_eq_true, Bool.and_eq_true, decide_eq_true_eq, Bool.not_eq_true']
  constructor
  · rintro ⟨⟨-, hlabel⟩, hend⟩
    exact ⟨hlabel, hend⟩
  · rintro ⟨hlabel, hend⟩
    refine ⟨⟨?_, hlabel⟩, hend⟩
    -- a text that starts with the label does so in capital letters
    rw [← List.take_append_drop 3 (text.dropWhile PythonText.isSpace)]
    unfold upper at hlabel ⊢
    rw [List.flatMap_append, hlabel]
    simp

/-- A token that starts at a position, with a label behind it if one is wanted. -/
def pairAt (labelled : Bool) (past rest : List Char) : Option (List Char) :=
  (xaiTokenAt past rest).filter fun token =>
    !labelled || followedByXai (rest.drop token.length)

theorem pairAt_unlabelled : pairAt false = xaiTokenAt := by
  ext past rest token
  simp [pairAt]

theorem pairAt_eq_some {labelled : Bool} {past rest token : List Char} :
    pairAt labelled past rest = some token ↔
      ∃ a b after, token = a ++ '-' :: b ∧ rest = a ++ '-' :: (b ++ after) ∧
        IsPair past.reverse a b after ∧ (labelled = true → StandaloneXai after) := by
  unfold pairAt
  rw [Option.filter_eq_some_iff, xaiTokenAt_eq_some]
  have hlabel : ∀ after : List Char, (!labelled || followedByXai after) = true ↔
      (labelled = true → StandaloneXai after) := by
    intro after
    rw [← followedByXai_iff]
    cases labelled <;> simp
  constructor
  · rintro ⟨⟨a, b, after, rfl, rfl, hpair⟩, h⟩
    rw [drop_token] at h
    exact ⟨a, b, after, rfl, rfl, hpair, (hlabel after).mp h⟩
  · rintro ⟨a, b, after, rfl, rfl, hpair, h⟩
    refine ⟨⟨a, b, after, rfl, rfl, hpair⟩, ?_⟩
    rw [drop_token]
    exact (hlabel after).mpr h

theorem isFirstMatch_pairAt {labelled : Bool} {text before rest token : List Char} :
    IsFirstMatch (pairAt labelled) text before rest token ↔
      ∃ a b after, token = a ++ '-' :: b ∧ rest = a ++ '-' :: (b ++ after) ∧
        IsFirstPairOf labelled text before a b after := by
  constructor
  · rintro ⟨htext, hhere, hfirst⟩
    obtain ⟨a, b, after, rfl, rfl, hpair, hlabel⟩ := pairAt_eq_some.mp hhere
    rw [List.reverse_reverse] at hpair
    refine ⟨a, b, after, rfl, rfl, ⟨htext, hpair, hlabel⟩, ?_⟩
    rintro before' a' b' after' ⟨htext', hpair', hlabel'⟩
    by_contra hlt
    have hnone := hfirst before' _ htext' (Nat.lt_of_not_le hlt)
    rw [← before'.reverse_reverse] at hpair'
    rw [pairAt_eq_some.mpr ⟨a', b', after', rfl, rfl, hpair', hlabel'⟩] at hnone
    cases hnone
  · rintro ⟨a, b, after, rfl, rfl, ⟨htext, hpair, hlabel⟩, hfirst⟩
    rw [← before.reverse_reverse] at hpair
    refine ⟨htext, pairAt_eq_some.mpr ⟨a, b, after, rfl, rfl, hpair, hlabel⟩, ?_⟩
    intro before' rest' htext' hlt
    cases hearly : pairAt labelled before'.reverse rest' with
    | none => rfl
    | some token' =>
        obtain ⟨a', b', after', -, rfl, hpair', hlabel'⟩ := pairAt_eq_some.mp hearly
        rw [List.reverse_reverse] at hpair'
        have hle := hfirst before' a' b' after' ⟨htext', hpair', hlabel'⟩
        omega

theorem firstMatch_pairAt_none {labelled : Bool} {text : List Char} :
    firstMatch (pairAt labelled) [] text = none ↔
      ∀ before a b after, ¬ IsPairOf labelled text before a b after := by
  constructor
  · rintro h before a b after ⟨htext, hpair, hlabel⟩
    have hnone := eq_none_of_firstMatch h htext
    rw [List.append_nil] at hnone
    rw [← before.reverse_reverse] at hpair
    rw [pairAt_eq_some.mpr ⟨a, b, after, rfl, rfl, hpair, hlabel⟩] at hnone
    cases hnone
  · intro h
    cases hfound : firstMatch (pairAt labelled) [] text with
    | none => rfl
    | some token =>
        obtain ⟨before, rest, hfirst⟩ := firstMatch_eq_some.mp hfound
        obtain ⟨a, b, after, -, -, hpair⟩ := isFirstMatch_pairAt.mp hfirst
        exact absurd hpair.toIsPairOf (h before a b after)

/-- What the specification wants, computed. -/
def specifiedToken (subject body : List Char) : Option (List Char) :=
  (firstMatch (pairAt true) [] subject).or (firstMatch (pairAt false) [] (joinParts subject body))

/-- **The specification has one answer.** -/
theorem xaiSpecified_iff {subject body : String} {found : Option String} :
    XaiSpecified subject body found ↔
      found = (specifiedToken subject.toList body.toList).map fun token =>
        .ofList (upper token) := by
  unfold specifiedToken
  have hsome : ∀ {labelled : Bool} {text token : List Char},
      firstMatch (pairAt labelled) [] text = some token → ∃ before a b after,
        token = a ++ '-' :: b ∧ IsFirstPairOf labelled text before a b after := by
    intro labelled text token h
    obtain ⟨before, rest, hfirst⟩ := firstMatch_eq_some.mp h
    obtain ⟨a, b, after, htoken, -, hpair⟩ := isFirstMatch_pairAt.mp hfirst
    exact ⟨before, a, b, after, htoken, hpair⟩
  have hfound : ∀ {labelled : Bool} {text before a b after : List Char},
      IsFirstPairOf labelled text before a b after →
        firstMatch (pairAt labelled) [] text = some (a ++ '-' :: b) := by
    intro labelled text before a b after h
    exact firstMatch_eq_some.mpr ⟨before, _, isFirstMatch_pairAt.mpr ⟨a, b, after, rfl, rfl, h⟩⟩
  constructor
  · rintro ⟨hlabelled, hunlabelled, hnothing⟩
    cases hsubject : firstMatch (pairAt true) [] subject.toList with
    | some token =>
        obtain ⟨before, a, b, after, rfl, hpair⟩ := hsome hsubject
        exact hlabelled before a b after hpair
    | none =>
        have hno := firstMatch_pairAt_none.mp hsubject
        rw [Option.none_or]
        cases hjoined : firstMatch (pairAt false) [] (joinParts subject.toList body.toList) with
        | some token =>
            obtain ⟨before, a, b, after, rfl, hpair⟩ := hsome hjoined
            exact hunlabelled hno before a b after hpair
        | none => exact hnothing hno (firstMatch_pairAt_none.mp hjoined)
  · rintro rfl
    refine ⟨?_, ?_, ?_⟩
    · intro before a b after hpair
      rw [hfound hpair]
      rfl
    · intro hno before a b after hpair
      rw [firstMatch_pairAt_none.mpr hno, hfound hpair]
      rfl
    · intro hno hno'
      rw [firstMatch_pairAt_none.mpr hno, firstMatch_pairAt_none.mpr hno']
      rfl

/-! ## Rows of segments -/

omit [PythonText] [CodeText] in
/-- The number of segments, each with its dash, that end in front of a position; the
nearest character is the first one. -/
def segmentsBefore : List Char → ℕ
  | d :: x :: y :: z :: past =>
      if d = '-' ∧ isAlphanumeric x = true ∧ isAlphanumeric y = true ∧ isAlphanumeric z = true ∧
          past.head?.any isAlphanumeric = false then
        segmentsBefore past + 1
      else 0
  | _ => 0

/-- The labelled tokens that the scan comes to. -/
def readPairAt (past rest : List Char) : Option (List Char) :=
  (pairAt true past rest).filter fun _ => segmentsBefore past % 2 == 0

/-- What the scan takes instead of a labelled pair that it passes: the next one that it
comes to, or the first pair of the joined text. -/
def takenInstead (subject body : List Char) : Option (List Char) :=
  (firstMatch readPairAt [] subject).or (firstMatch (pairAt false) [] (joinParts subject body))

/-- **The condition**: an even number of segments stands in front of the first labelled
pair of the subject, or what is taken instead of it is the same up to case. -/
def FirstPairRead (subject body : List Char) : Prop :=
  ∀ before a b after, IsFirstPairOf true subject before a b after →
    Even (segmentsBefore before.reverse) ∨
      (takenInstead subject body).map upper = some (upper (a ++ '-' :: b))

section

omit [PythonText] [CodeText]

theorem segmentsBefore_of_head {past : List Char} (h : past.head? ≠ some '-') :
    segmentsBefore past = 0 := by
  unfold segmentsBefore
  split
  · rename_i d x y z past
    have hd : d ≠ '-' := fun hd => h (by rw [hd]; rfl)
    rw [if_neg fun hall => hd hall.1]
  · rfl

theorem segmentsBefore_segment {segment past : List Char} (h3 : segment.length = 3)
    (hsegment : ∀ c ∈ segment, isAlphanumeric c = true)
    (hpast : past.head?.any isAlphanumeric = false) :
    segmentsBefore ('-' :: (segment.reverse ++ past)) = segmentsBefore past + 1 := by
  obtain ⟨x, y, z, rfl⟩ := List.length_eq_three.mp h3
  simp only [List.mem_cons, List.not_mem_nil, or_false, forall_eq_or_imp, forall_eq] at hsegment
  obtain ⟨hx, hy, hz⟩ := hsegment
  show segmentsBefore ('-' :: z :: y :: x :: past) = _
  rw [segmentsBefore, if_pos ⟨rfl, hz, hy, hx, hpast⟩]

/-- A run of another length is no segment, and the row ends. -/
theorem segmentsBefore_other {segment past : List Char} (h3 : segment.length ≠ 3)
    (hsegment : ∀ c ∈ segment, isAlphanumeric c = true)
    (hpast : past.head?.any isAlphanumeric = false) :
    segmentsBefore ('-' :: (segment.reverse ++ past)) = 0 := by
  have hreverse : segment.reverse.length ≠ 3 := by rwa [List.length_reverse]
  have hall : ∀ c ∈ segment.reverse, isAlphanumeric c = true :=
    fun c hc => hsegment c (List.mem_reverse.mp hc)
  generalize segment.reverse = run at hreverse hall
  unfold segmentsBefore
  split
  · rename_i d x y z more heq
    obtain ⟨rfl, heq⟩ := List.cons.inj heq
    refine if_neg ?_
    rintro ⟨-, hx, hy, hz, hmore⟩
    -- the run ends before the third character, or goes on behind it
    rcases run with _ | ⟨x', _ | ⟨y', _ | ⟨z', _ | ⟨w, run⟩⟩⟩⟩ <;>
      simp only [List.cons_append, List.nil_append, List.cons.injEq, true_and] at heq
    · rw [heq, List.head?_cons, Option.any_some, hx] at hpast
      cases hpast
    · rw [heq.2, List.head?_cons, Option.any_some, hy] at hpast
      cases hpast
    · rw [heq.2.2, List.head?_cons, Option.any_some, hz] at hpast
      cases hpast
    · exact hreverse rfl
    · have hw : isAlphanumeric w = true := hall w (by simp)
      rw [← heq.2.2.2, List.head?_cons, Option.any_some, hw] at hmore
      cases hmore
  · rfl

/-- Behind a run that is no segment in front of a dash, no segment stands. -/
theorem segmentsBefore_run {segment past : List Char} {c : Char}
    (hsegment : ∀ d ∈ segment, isAlphanumeric d = true)
    (hpast : past.head?.any isAlphanumeric = false)
    (h : ¬ (segment.length = 3 ∧ c = '-')) :
    segmentsBefore (c :: (segment.reverse ++ past)) = 0 := by
  by_cases hc : c = '-'
  · subst hc
    exact segmentsBefore_other (fun h3 => h ⟨h3, rfl⟩) hsegment hpast
  · exact segmentsBefore_of_head fun hhead => hc (Option.some.inj hhead)

end

/-! ## The scan -/

theorem pairAt_tokensOnly (labelled : Bool) : FindsTokensOnly (pairAt labelled) := by
  intro past rest h
  simp [pairAt, h]

theorem readPairAt_tokensOnly : FindsTokensOnly readPairAt := by
  intro past rest h
  simp [readPairAt, pairAt_tokensOnly true past rest h]

/-- **The scan for a labelled token** takes the leftmost one that an even number of
segments stands in front of. -/
theorem scansFor_label : ScansFor true (fun past => Even (segmentsBefore past)) readPairAt where
  tokensOnly := readPairAt_tokensOnly
  segments past firstSegment segment rest hready hscan hpast hend := by
    have hhere := xaiTokenAt_second hscan hpast hend
    have heven : segmentsBefore past % 2 = 0 := Nat.even_iff.mp hready
    have hlabelled : readPairAt past (firstSegment ++ '-' :: (segment ++ rest)) =
        if segment.length = 3 ∧ (true = true → followedByXai rest = true) then
          some (firstSegment ++ '-' :: segment) else none := by
      unfold readPairAt pairAt
      rw [hhere]
      by_cases h3 : segment.length = 3
      · rw [if_pos h3, Option.filter_some, drop_token]
        cases hlabel : followedByXai rest <;> simp [h3, heven]
      · simp [h3]
    by_cases hfound : segment.length = 3 ∧ (true = true → followedByXai rest = true)
    · rw [if_pos hfound] at hlabelled
      rw [if_pos hfound, firstMatch_of_some hlabelled]
    · rw [if_neg hfound] at hlabelled
      rw [if_neg hfound]
      apply firstMatch_segments readPairAt_tokensOnly hscan hlabelled
      -- one segment more stands in front of the second one
      have hodd : segmentsBefore ('-' :: (firstSegment.reverse ++ past)) % 2 = 1 := by
        rw [segmentsBefore_segment hscan.1 hscan.2.1 hpast]
        omega
      unfold readPairAt
      simp [hodd]
  behindSegment past segment c _ hsegment hpast _ h := by
    rw [segmentsBefore_run hsegment hpast h]
    exact Even.zero
  behindSegments past firstSegment segment c hready hscan hpast hc := by
    have hdash : ('-' :: (firstSegment.reverse ++ past)).head?.any isAlphanumeric = false :=
      isAlphanumeric_dash
    by_cases h : segment.length = 3 ∧ c = '-'
    · obtain ⟨h3, rfl⟩ := h
      rw [segmentsBefore_segment h3 hscan.2.2 hdash,
        segmentsBefore_segment hscan.1 hscan.2.1 hpast]
      exact hready.add (by decide : Even 2)
    · rw [segmentsBefore_run hscan.2.2 hdash h]
      exact Even.zero

theorem matchXaiToken_labelled (text : List Char) :
    matchXaiToken true text = (firstMatch readPairAt [] text).map upper := by
  have hstart : XaiScan.outside.Reading := trivial
  exact matchXaiFrom_eq scansFor_label hstart Even.zero rfl

theorem searchXai_eq (subject body : List Char) :
    searchXai subject body = (takenInstead subject body).map upper := by
  unfold searchXai takenInstead
  rw [matchXaiToken_labelled, matchXaiToken_eq, pairAt_unlabelled]
  cases firstMatch readPairAt [] subject <;> rfl

/-- What the scan takes is what is specified exactly if it comes to the first labelled
pair, or takes the same. -/
theorem takenInstead_iff (subject body : List Char) :
    (takenInstead subject body).map upper = (specifiedToken subject body).map upper ↔
      FirstPairRead subject body := by
  have hstrict : ∀ past rest token, readPairAt past rest = some token →
      pairAt true past rest = some token := by
    intro past rest token h
    exact (Option.filter_eq_some_iff.mp h).1
  unfold specifiedToken
  cases hsubject : firstMatch (pairAt true) [] subject with
  | none =>
      have hno := firstMatch_pairAt_none.mp hsubject
      have hread : firstMatch readPairAt [] subject = none := by
        cases hfound : firstMatch readPairAt [] subject with
        | none => rfl
        | some token =>
            obtain ⟨before, rest, htext, hhere, -⟩ := firstMatch_eq_some.mp hfound
            have hnone := eq_none_of_firstMatch hsubject htext
            rw [List.append_nil, hstrict _ _ _ hhere] at hnone
            cases hnone
      refine iff_of_true ?_ fun before a b after hpair => absurd hpair.toIsPairOf (hno _ _ _ _)
      unfold takenInstead
      rw [hread]
  | some token =>
      obtain ⟨before, rest, hfirst⟩ := firstMatch_eq_some.mp hsubject
      obtain ⟨a, b, after, rfl, rfl, hpair⟩ := isFirstMatch_pairAt.mp hfirst
      rw [Option.some_or, Option.map_some]
      constructor
      · intro htaken before' a' b' after' hpair'
        -- there is one leftmost pair
        have hsame := firstMatch_eq_some.mpr
          ⟨before', _, isFirstMatch_pairAt.mpr ⟨a', b', after', rfl, rfl, hpair'⟩⟩
        rw [hsubject] at hsame
        rw [← Option.some.inj hsame]
        exact Or.inr htaken
      · intro hread
        rcases hread before a b after hpair with heven | htaken
        · have hfound : firstMatch readPairAt [] subject = some (a ++ '-' :: b) := by
            refine firstMatch_eq_some.mpr ⟨before, _, hfirst.text_eq, ?_, ?_⟩
            · unfold readPairAt
              rw [hfirst.here, Option.filter_some, Nat.even_iff.mp heven]
              rfl
            · intro before' rest' htext hlt
              unfold readPairAt
              rw [hfirst.first before' rest' htext hlt]
              rfl
          unfold takenInstead
          rw [hfound]
          rfl
        · exact htaken

/-- **The matcher of xAI meets its specification** exactly if an even number of segments
stands in front of the first labelled pair of the subject, or it takes the same
instead. -/
theorem xai_specified_iff (minimumLength maximumLength : ℕ) (codePrefix : Option String)
    (subject body : String) :
    XaiSpecified subject body
        (SafeVerificationCodeMatcher.search ⟨.xai, minimumLength, maximumLength, codePrefix⟩
          subject body) ↔
      FirstPairRead subject.toList body.toList := by
  have hinj : Function.Injective (Option.map String.ofList) :=
    Option.map_injective fun _ _ => String.ofList_injective
  have hspecified : (specifiedToken subject.toList body.toList).map
      (fun token => String.ofList (upper token)) =
        ((specifiedToken subject.toList body.toList).map upper).map .ofList := by
    rw [Option.map_map]
    rfl
  rw [xaiSpecified_iff, hspecified, ← takenInstead_iff]
  show (searchXai subject.toList body.toList).map String.ofList = _ ↔ _
  rw [hinj.eq_iff, searchXai_eq]

end

/-! ## Three segments in a row -/

section Sample

attribute [local instance] asciiText asciiCodeText

/-- **The labelled pair is passed**: in front of `BBB-CCC` one segment stands. -/
theorem third_segment_passed :
    xaiMatcher.search "AAA-BBB-CCC xAI" "" = some "AAA-BBB" ∧
      ¬ XaiSpecified "AAA-BBB-CCC xAI" "" (xaiMatcher.search "AAA-BBB-CCC xAI" "") := by
  refine ⟨by decide +kernel, ?_⟩
  rw [xaiSpecified_iff]
  decide +kernel

end Sample

end MailboxService
