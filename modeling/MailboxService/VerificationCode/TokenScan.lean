import MailboxService.VerificationCode.PresetTemplates

/-!
# The scan for a token

A matcher of digits, or of letters and digits, reads the joined text run by run
and takes the first run whose length is within its bounds. A new line belongs to
no run, so that no code reaches from the subject into the body.
-/

namespace MailboxService

open Foundation

/-- A part of the joined text without a new line is one of the subject or one of the
body. -/
theorem inside_of_joinParts {subject body before s after : List Char}
    (h : joinParts subject body = before ++ (s ++ after)) (hs : '\n' ∉ s) :
    (∃ rest, subject = before ++ (s ++ rest)) ∨ ∃ skipped, body = skipped ++ (s ++ after) := by
  unfold joinParts at h
  split at h
  · exact Or.inr ⟨before, h⟩
  · split at h
    · exact Or.inl ⟨after, h⟩
    · rcases List.append_eq_append_iff.mp h with ⟨skipped, rfl, hbody⟩ | ⟨rest, rfl, hrest⟩
      · -- the part starts at the new line, or behind it
        cases skipped with
        | cons c skipped =>
            obtain ⟨-, rfl⟩ := List.cons.inj hbody
            exact Or.inr ⟨skipped, rfl⟩
        | nil =>
            cases s with
            | nil => exact Or.inl ⟨[], by simp⟩
            | cons c s =>
                obtain ⟨rfl, -⟩ := List.cons.inj hbody
                simp at hs
      · rcases List.append_eq_append_iff.mp hrest with ⟨rest', rfl, -⟩ | ⟨tail, rfl, hover⟩
        · exact Or.inl ⟨rest', rfl⟩
        · -- it would go on over the new line
          cases tail with
          | nil => exact Or.inl ⟨[], by simp⟩
          | cons c tail =>
              obtain ⟨rfl, -⟩ := List.cons.inj hover
              simp at hs

section

variable [PythonText] [CodeText]

/-- **An exact scan**: it finds the first run of code characters whose length is
within the bounds, nothing exactly if there is none, and no run that it finds
reaches from the subject into the body. -/
structure ScansExactly (m : SafeVerificationCodeMatcher) (subject body : String) : Prop where
  finds_iff : ∀ code, m.search subject body = some code ↔ ∃ before after,
    IsFirstStretch m.isCodeChar m.allows (joinParts subject.toList body.toList) before
      code.toList after
  none_iff : m.search subject body = none ↔ ∀ before s after,
    joinParts subject.toList body.toList = before ++ (s ++ after) →
      IsStretch m.isCodeChar before s after →
        ¬ (m.minimumLength ≤ s.length ∧ s.length ≤ m.maximumLength)
  inside : ∀ before s after,
    IsFirstStretch m.isCodeChar m.allows (joinParts subject.toList body.toList) before s after →
      (∃ rest, subject.toList = before ++ (s ++ rest)) ∨
        ∃ skipped, body.toList = skipped ++ (s ++ after)

namespace SafeVerificationCodeMatcher

variable {m : SafeVerificationCodeMatcher}

theorem search_scan (hkind : m.patternType ≠ .xai) (hbare : m.codePrefix.bind orNone = none)
    (subject body : String) :
    m.search subject body =
      (firstMatch (stretchAt m.isCodeChar m.allows) []
        (joinParts subject.toList body.toList)).map .ofList := by
  rw [← searchToken_eq]
  unfold search searchText
  rw [hbare]
  cases hm : m.patternType with
  | digits => rfl
  | alphanumeric => rfl
  | xai => exact absurd hm hkind

omit [PythonText] [CodeText] in
theorem allows_eq_false_iff {s : List Char} :
    m.allows s = false ↔ ¬ (m.minimumLength ≤ s.length ∧ s.length ≤ m.maximumLength) := by
  simp [allows]

theorem newline_not_mem {before s after : List Char} (h : IsStretch m.isCodeChar before s after) :
    '\n' ∉ s := by
  intro hmem
  have := h.all _ hmem
  rw [m.isCodeChar_newline] at this
  cases this

end SafeVerificationCodeMatcher

/-- **Token scan.** For every subject and body, a matcher of digits, or of letters
and digits, without a prefix scans exactly. -/
theorem scans_exactly {m : SafeVerificationCodeMatcher} (hkind : m.patternType ≠ .xai)
    (hbare : m.codePrefix.bind orNone = none) (subject body : String) :
    ScansExactly m subject body := by
  refine ⟨?_, ?_, ?_⟩
  · intro code
    rw [m.search_scan hkind hbare, Option.map_eq_some_iff]
    constructor
    · rintro ⟨s, hs, rfl⟩
      rw [String.toList_ofList]
      exact firstMatch_stretchAt_eq_some.mp hs
    · intro hfirst
      exact ⟨code.toList, firstMatch_stretchAt_eq_some.mpr hfirst, String.ofList_toList⟩
  · rw [m.search_scan hkind hbare, Option.map_eq_none_iff, firstMatch_stretchAt_eq_none]
    simp only [SafeVerificationCodeMatcher.allows_eq_false_iff]
  · intro before s after hfirst
    have hline := SafeVerificationCodeMatcher.newline_not_mem hfirst.isStretch
    exact inside_of_joinParts hfirst.list_eq hline

end

section Sample

attribute [local instance] asciiText asciiCodeText

/-- The run of three digits is passed, and so is the one of nine. -/
theorem scans_exactly_sample :
    digitsMatcher.search "123" "123456789 and 4821" = some "4821" ∧
      ScansExactly digitsMatcher "123" "123456789 and 4821" :=
  ⟨by decide +kernel, scans_exactly (by decide) (by decide +kernel) "123" "123456789 and 4821"⟩

end Sample

end MailboxService
