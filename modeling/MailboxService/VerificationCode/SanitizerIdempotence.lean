import MailboxService.VerificationCode.Extraction
import MailboxService.VerificationCode.MailEscapes

/-!
# Sanitising twice

The body of an on-demand mail is sanitised when it is read and again when a code
is looked for in it. The second time there are no headers, no line breaks and no
markup left, and nothing to collapse. But an escape may be left: `=3D3D` is the
quoted `=3D`, and the second time that is undone as well.

`sanitize_idempotent_iff` says that this is all.
-/

namespace MailboxService

open Foundation Foundation.Regex Text

namespace MailBody

section

variable [PythonText] [CodeText]

/-! ## The steps -/

def keptBody (text : String) : String :=
  if (headerLine.search CodeText.isWord text).isSome then afterHeaders text else text

/-- The kept text with its soft line breaks joined. -/
def joinedBody (text : String) : String :=
  softBreak.substitute CodeText.isWord "" (keptBody text)

def undoEscapes (raw : String) : String := replace "=20" " " (replace "=3D" "=" raw)

def htmlLike (raw : String) : Bool :=
  occursIn "<html" (lower raw) || occursIn "<body" (lower raw) || occursIn "<div" (lower raw)

def withoutMarkup (html : String) : String :=
  htmlTag.substitute CodeText.isWord " " (scriptStyle.substitute CodeText.isWord " " html)

/-- What is left of an undone body, before white space is collapsed. -/
def shownText (raw : String) : String := if htmlLike raw then withoutMarkup raw else raw

def collapse (raw : String) : String := whitespace.substitute CodeText.isWord " " raw

variable {text raw : String} {l w : List Char}

omit [CodeText] in
theorem strip_strip (s : String) : strip (strip s) = strip s :=
  strip_of_trimmed (trimmed_strip s)

theorem substitute_empty (r : Regex) (new : String) :
    r.substitute CodeText.isWord new "" = "" := rfl

theorem withoutMarkup_empty : withoutMarkup "" = "" := by
  unfold withoutMarkup
  rw [substitute_empty, substitute_empty]

theorem collapse_empty : collapse "" = "" := substitute_empty whitespace " "

theorem sanitizeMailText_eq (text : String) :
    sanitizeMailText text = strip (collapse (shownText (undoEscapes (joinedBody text)))) := by
  by_cases htext : text = ""
  · subst htext
    have hkept : keptBody "" = "" := by
      unfold keptBody
      split <;> rfl
    have hshown : shownText "" = "" := by
      unfold shownText
      rw [withoutMarkup_empty, ite_self]
    unfold joinedBody undoEscapes replace
    rw [hkept, substitute_empty, substitute_empty, substitute_empty, hshown, collapse_empty]
    rfl
  · unfold sanitizeMailText
    rw [if_neg htext]
    show strip (if htmlLike (undoEscapes (joinedBody text)) then
      htmlToVisibleText (undoEscapes (joinedBody text))
      else strip (collapse (undoEscapes (joinedBody text)))) = _
    generalize undoEscapes (joinedBody text) = raw
    unfold shownText
    by_cases hlike : htmlLike raw = true
    · rw [if_pos hlike, if_pos hlike]
      unfold htmlToVisibleText
      split
      · rename_i hempty
        rw [hempty, withoutMarkup_empty, collapse_empty]
      · exact strip_strip _
    · rw [if_neg hlike, if_neg hlike]
      exact strip_strip _

/-! ## Steps as passes -/

theorem toList_substitute {r : Regex} (hfree : r.AnchorFree) (new text : String) :
    (r.substitute CodeText.isWord new text).toList =
      (r.rule CodeText.isWord).rewrite new.toList text.toList := by
  rw [substitute_eq_rewrite hfree, String.toList_ofList]

theorem substitute_of_misses {r : Regex} (hfree : r.AnchorFree) {new text : String}
    (h : (r.rule CodeText.isWord).Misses text.toList) :
    r.substitute CodeText.isWord new text = text := by
  rw [substitute_eq_rewrite hfree, Rule.rewrite_of_misses h, String.ofList_toList]

omit [PythonText] [CodeText] in
theorem softBreak_anchorFree : softBreak.AnchorFree := ⟨trivial, trivial, trivial⟩

omit [PythonText] [CodeText] in
theorem htmlTag_anchorFree : htmlTag.AnchorFree := ⟨trivial, trivial, trivial⟩

omit [CodeText] in
theorem scriptStyle_anchorFree : scriptStyle.AnchorFree :=
  ⟨trivial, ⟨literal_anchorFree "script", literal_anchorFree "style"⟩, trivial, trivial, trivial,
    literal_anchorFree "</", trivial, trivial⟩

omit [CodeText] in
theorem whitespace_anchorFree : whitespace.AnchorFree := trivial

def escape (old : String) : Rule Char := (Regex.literal (· == ·) old).rule CodeText.isWord

theorem toList_replace (old new text : String) :
    (replace old new text).toList = (escape old).rewrite new.toList text.toList :=
  toList_substitute (literal_anchorFree old) new text

theorem escape_misses_iff {old : String} (hold : old ≠ "") :
    (escape old).Misses l ↔ ¬ old.toList <:+: l := by
  constructor
  · rintro h ⟨before, after, rfl⟩
    have hmatch : (escape old).match? (old.toList ++ after) = some after :=
      (literal_match?_iff hold).mpr rfl
    rw [h _ ⟨before, (List.append_assoc ..).symm⟩] at hmatch
    cases hmatch
  · intro h s hs
    cases hmatch : (escape old).match? s with
    | none => rfl
    | some after =>
        obtain rfl := (literal_match?_iff hold).mp hmatch
        exact absurd ((List.prefix_append ..).isInfix.trans hs.isInfix) h

theorem replace_of_absent {old new : String} (hold : old ≠ "")
    (h : ¬ old.toList <:+: text.toList) : replace old new text = text :=
  substitute_of_misses (literal_anchorFree old) ((escape_misses_iff hold).mpr h)

/-! ## What is left -/

structure Settled (text : String) : Prop where
  collapsed : Collapsed text.toList
  trimmed : Trimmed text.toList
  noSpaceEscape : ¬ "=20".toList <:+: text.toList
  tagFree : htmlLike text = true → TagFree text.toList

theorem not_infix_undoEscapes : ¬ "=20".toList <:+: (undoEscapes raw).toList := by
  unfold undoEscapes
  rw [toList_replace]
  apply Rule.not_infix_rewrite
  · decide
  · simp
  · decide
  · intro s hnone
    have hmatch : (escape "=20").match? ("=20".toList ++ s) = some s :=
      (literal_match?_iff (by decide)).mpr rfl
    rw [hnone] at hmatch
    cases hmatch

theorem infix_of_infix_shownText (hw : ∀ x ∈ w, x ∉ [' ']) (h : w <:+: (shownText raw).toList) :
    w <:+: raw.toList := by
  unfold shownText at h
  split at h
  · unfold withoutMarkup at h
    rw [toList_substitute htmlTag_anchorFree, toList_substitute scriptStyle_anchorFree] at h
    have hblocks := Rule.infix_of_infix_rewrite (List.cons_ne_nil ' ' []) hw h
    exact Rule.infix_of_infix_rewrite (List.cons_ne_nil ' ' []) hw hblocks
  · exact h

theorem toList_collapse (raw : String) : (collapse raw).toList =
    (whitespace.rule CodeText.isWord).rewrite [' '] raw.toList :=
  toList_substitute whitespace_anchorFree " " raw

theorem occursIn_lower_of_collapsed (hspace : PythonText.isSpace ' ' = true) {tag : String}
    (hne : tag ≠ "") (htag : ∀ x ∈ tag.toList, PythonText.isSpace x = false)
    (h : occursIn tag (lower (strip (collapse raw))) = true) : occursIn tag (lower raw) = true := by
  unfold occursIn lower at *
  rw [decide_eq_true_eq, String.toList_ofList] at *
  have hcollapse : tag.toList <:+: (collapse raw).toList.flatMap PythonText.lowerChar := by
    refine h.trans ?_
    obtain ⟨before, after, heq⟩ := infix_of_strip (collapse raw)
    rw [← heq, List.flatMap_append, List.flatMap_append]
    exact ⟨_, _, rfl⟩
  rw [toList_collapse] at hcollapse
  apply Rule.infix_flatMap_of_rewrite (PythonText.lowerChar_ne_nil ' ') (by simpa using hne)
    ?_ hcollapse
  intro y hy hmem
  have hblank := PythonText.lowerChar_space ' ' y hy
  rw [hspace, htag y hmem] at hblank
  cases hblank

theorem htmlLike_of_collapsed (hspace : PythonText.isSpace ' ' = true)
    (h : htmlLike (strip (collapse raw)) = true) : htmlLike raw = true := by
  have hvisible : ∀ tag ∈ ["<html", "<body", "<div"], ∀ x ∈ tag.toList,
      32 < x.toNat ∧ x.toNat < 128 := by simp
  have htag : ∀ tag ∈ ["<html", "<body", "<div"], ∀ x ∈ tag.toList,
      PythonText.isSpace x = false := by
    intro tag htag x hx
    obtain ⟨hlow, hhigh⟩ := hvisible tag htag x hx
    exact isSpace_eq_false hlow hhigh
  unfold htmlLike at *
  rw [Bool.or_eq_true, Bool.or_eq_true] at *
  refine h.imp (fun h => h.imp ?_ ?_) ?_
  · exact occursIn_lower_of_collapsed hspace (by decide) (htag _ (by decide))
  · exact occursIn_lower_of_collapsed hspace (by decide) (htag _ (by decide))
  · exact occursIn_lower_of_collapsed hspace (by decide) (htag _ (by decide))

/-- **What the sanitiser leaves** is settled. -/
theorem settled_sanitizeMailText (hspace : PythonText.isSpace ' ' = true) (text : String) :
    Settled (sanitizeMailText text) := by
  rw [sanitizeMailText_eq]
  generalize hraw : undoEscapes (joinedBody text) = raw
  have hinfix := infix_of_strip (collapse (shownText raw))
  have hcollapsed : Collapsed (collapse (shownText raw)).toList := by
    rw [toList_collapse]
    exact collapsed_whitespace
  refine ⟨hcollapsed.of_infix hinfix, trimmed_strip _, ?_, ?_⟩
  · intro h
    have hsingle : ∀ x ∈ "=20".toList, x ∉ [' '] := by simp
    have h := h.trans hinfix
    rw [toList_collapse] at h
    have hshown := Rule.infix_of_infix_rewrite (List.cons_ne_nil ' ' []) hsingle h
    have hbefore := infix_of_infix_shownText hsingle hshown
    rw [← hraw] at hbefore
    exact not_infix_undoEscapes hbefore
  · intro hlike
    by_cases hmarkup : htmlLike raw = true
    · -- the tags are gone before the white space is collapsed
      have hfree : TagFree (shownText raw).toList := by
        unfold shownText
        rw [if_pos hmarkup]
        unfold withoutMarkup
        rw [toList_substitute htmlTag_anchorFree]
        exact tagFree_htmlTag
      have hafter : TagFree (collapse (shownText raw)).toList := by
        rw [toList_collapse]
        exact hfree.whitespace
      exact hafter.of_infix hinfix
    · have hshown : shownText raw = raw := by
        unfold shownText
        exact if_neg hmarkup
      rw [hshown] at hlike
      exact absurd (htmlLike_of_collapsed hspace hlike) hmarkup

/-! ## The second time -/

omit [CodeText] in
theorem Settled.newline_not_mem (h : Settled text) (hnewline : PythonText.isSpace '\n' = true) :
    '\n' ∉ text.toList := by
  intro hmem
  obtain ⟨before, after, heq⟩ := List.append_of_mem hmem
  obtain ⟨heq, -⟩ := h.collapsed '\n' after ⟨before, heq.symm⟩ hnewline
  revert heq
  decide

omit [PythonText] [CodeText] in
theorem newline_mem_of_softBreak {isWord : Char → Bool} {c d : Cursor}
    (h : d ∈ softBreak.results isWord c) : '\n' ∈ c.rest := by
  obtain ⟨c₁, h₁, h⟩ := List.mem_flatMap.mp h
  obtain ⟨c₂, h₂, h⟩ := List.mem_flatMap.mp h
  obtain ⟨x, rest, hrest, hx, -⟩ := mem_next.mp h
  obtain rfl := of_decide_eq_true hx
  obtain ⟨u, hu, -⟩ := reaches_of_mem_next h₁
  obtain ⟨v, hv, -⟩ := reaches_of_mem_results h₂
  rw [hu, hv, hrest]
  simp

omit [PythonText] [CodeText] in
theorem newline_mem_of_blankLine {isWord : Char → Bool} {c d : Cursor}
    (h : d ∈ blankLine.results isWord c) : '\n' ∈ c.rest := by
  obtain ⟨c₁, h₁, h⟩ := List.mem_flatMap.mp h
  obtain ⟨c₂, h₂, -⟩ := List.mem_flatMap.mp h
  obtain ⟨x, rest, hrest, hx, -⟩ := mem_next.mp h₂
  obtain rfl := of_decide_eq_true hx
  obtain ⟨u, hu, -⟩ := reaches_of_mem_results h₁
  rw [hu, hrest]
  simp

omit [PythonText] [CodeText] in
/-- A pattern that matches at no position is not found. -/
theorem searchFrom_eq_none {isWord : Char → Bool} {r : Regex} {past rest : List Char}
    (h : ∀ past s d, s <:+ rest → d ∉ r.results isWord ⟨past, s, []⟩) :
    r.searchFrom isWord past rest = none := by
  induction rest generalizing past with
  | nil =>
      rw [searchFrom, List.eq_nil_iff_forall_not_mem.mpr fun d => h past [] d (List.suffix_refl _)]
      rfl
  | cons x rest ih =>
      rw [searchFrom, List.eq_nil_iff_forall_not_mem.mpr
        fun d => h past _ d (List.suffix_refl _)]
      exact ih fun past s d hs => h past s d (hs.trans (List.suffix_cons x rest))

/-- Without a line break there is nothing to keep and nothing to join. -/
theorem joinedBody_of_no_newline (h : '\n' ∉ text.toList) : joinedBody text = text := by
  have hkept : keptBody text = text := by
    have hblank : blankLine.search CodeText.isWord text = none := by
      apply searchFrom_eq_none
      intro past s d hs hd
      exact h (hs.subset (newline_mem_of_blankLine hd))
    unfold keptBody afterHeaders
    rw [hblank]
    split <;> rfl
  unfold joinedBody
  rw [hkept]
  apply substitute_of_misses softBreak_anchorFree
  intro s hs
  apply match?_eq_none
  intro d hd
  exact h (hs.subset (newline_mem_of_softBreak hd))

/-- Without tags there is nothing to take out. -/
theorem shownText_of_tagFree (h : htmlLike raw = true → TagFree raw.toList) :
    shownText raw = raw := by
  unfold shownText
  split
  · rename_i hlike
    have hfree := h hlike
    unfold withoutMarkup
    rw [substitute_of_misses scriptStyle_anchorFree hfree.misses_scriptStyle,
      substitute_of_misses htmlTag_anchorFree hfree.misses_htmlTag]
  · rfl

theorem Settled.collapse_eq (h : Settled text) : collapse text = text := by
  unfold collapse
  rw [substitute_eq_rewrite whitespace_anchorFree]
  show String.ofList ((whitespace.rule CodeText.isWord).rewrite [' '] text.toList) = text
  rw [whitespace_of_collapsed h.collapsed, String.ofList_toList]

theorem Settled.sanitize_eq (h : Settled text) (hnewline : PythonText.isSpace '\n' = true)
    (hescape : ¬ "=3D".toList <:+: text.toList) : sanitizeMailText text = text := by
  have hundo : undoEscapes text = text := by
    unfold undoEscapes
    rw [replace_of_absent (by decide) hescape,
      replace_of_absent (by decide) h.noSpaceEscape]
  rw [sanitizeMailText_eq, joinedBody_of_no_newline (h.newline_not_mem hnewline), hundo,
    shownText_of_tagFree h.tagFree, h.collapse_eq, strip_of_trimmed h.trimmed]

theorem length_shownText_le (raw : String) :
    (shownText raw).toList.length ≤ raw.toList.length := by
  unfold shownText
  split
  · unfold withoutMarkup
    rw [toList_substitute htmlTag_anchorFree, toList_substitute scriptStyle_anchorFree]
    exact (Rule.length_rewrite_le le_rfl).trans (Rule.length_rewrite_le le_rfl)
  · exact le_rfl

theorem Settled.sanitize_ne (h : Settled text) (hnewline : PythonText.isSpace '\n' = true)
    (hescape : "=3D".toList <:+: text.toList) : sanitizeMailText text ≠ text := by
  have hshortens : (escape "=3D").Shortens "=".toList := by
    intro l after hmatch
    obtain rfl := (literal_match?_iff (by decide)).mp hmatch
    simp
    omega
  have hfirst : (replace "=3D" "=" text).toList.length < text.toList.length := by
    rw [toList_replace]
    apply Rule.length_rewrite_lt hshortens (by decide)
    rw [escape_misses_iff (by decide), not_not]
    exact hescape
  have hundo : (undoEscapes text).toList.length ≤ (replace "=3D" "=" text).toList.length := by
    unfold undoEscapes
    rw [toList_replace]
    exact Rule.length_rewrite_le (by decide)
  have hcollapse : (collapse (shownText (undoEscapes text))).toList.length ≤
      (shownText (undoEscapes text)).toList.length := by
    rw [toList_collapse]
    exact Rule.length_rewrite_le le_rfl
  intro heq
  rw [sanitizeMailText_eq, joinedBody_of_no_newline (h.newline_not_mem hnewline)] at heq
  have hlength := (infix_of_strip (collapse (shownText (undoEscapes text)))).length_le
  rw [heq] at hlength
  have hshown := length_shownText_le (undoEscapes text)
  omega

/-- The second time is idle exactly if no escape is left. -/
theorem sanitize_sanitize_iff (hspace : PythonText.isSpace ' ' = true)
    (hnewline : PythonText.isSpace '\n' = true) (text : String) :
    sanitizeMailText (sanitizeMailText text) = sanitizeMailText text ↔
      ¬ "=3D".toList <:+: (sanitizeMailText text).toList := by
  have h := settled_sanitizeMailText hspace text
  constructor
  · intro heq hescape
    exact h.sanitize_ne hnewline hescape heq
  · exact h.sanitize_eq hnewline

theorem escape_left_iff (hspace : PythonText.isSpace ' ' = true) (text : String) :
    "=3D".toList <:+: (sanitizeMailText text).toList ↔
      "=3D".toList <:+: (shownText (undoEscapes (joinedBody text))).toList := by
  have hvisible : ∀ x ∈ "=3D".toList, 32 < x.toNat ∧ x.toNat < 128 := by simp
  have hblank : ∀ x ∈ "=3D".toList, PythonText.isSpace x = false := by
    intro x hx
    obtain ⟨hlow, hhigh⟩ := hvisible x hx
    exact isSpace_eq_false hlow hhigh
  rw [sanitizeMailText_eq, infix_strip_iff (by decide) hblank, toList_collapse,
    infix_whitespace_iff (by decide) hblank hspace]

/-! ## Escapes of escapes -/

theorem isEscape {old : String} {u : List Char} (hold : old.toList = '=' :: u) (hu : '=' ∉ u) :
    (escape old).IsEscape '=' u := by
  refine ⟨fun l after => ?_, hu⟩
  have hne : old ≠ "" := by
    rintro rfl
    cases hold
  unfold escape
  rw [literal_match?_iff hne, hold, List.cons_append]

theorem isEscape_equals : (escape "=3D").IsEscape '=' ['3', 'D'] :=
  isEscape rfl (by decide)

theorem isEscape_space : (escape "=20").IsEscape '=' ['2', '0'] :=
  isEscape rfl (by decide)

theorem toList_undoEscapes (raw : String) : (undoEscapes raw).toList =
    (escape "=20").rewrite [' '] ((escape "=3D").rewrite ['='] raw.toList) := by
  unfold undoEscapes
  rw [toList_replace, toList_replace]
  rfl

theorem infix_undoEscapes_iff (raw : String) :
    "=3D".toList <:+: (undoEscapes raw).toList ↔ "=3D3D".toList <:+: raw.toList := by
  rw [toList_undoEscapes]
  refine Iff.trans (isEscape_space.infix_rewrite_iff (by decide) (by decide) ?_)
    isEscape_equals.infix_rewrite_self_iff
  intro t ht
  have hfirst := (List.cons_prefix_cons.mp ht).1
  revert hfirst
  decide

theorem withoutMarkup_undoEscapes (hplain : PlainCharacters) (raw : String) :
    withoutMarkup (undoEscapes raw) = undoEscapes (withoutMarkup raw) := by
  have hlist : ∀ html : String, (withoutMarkup html).toList =
      (htmlTag.rule CodeText.isWord).rewrite [' ']
        ((scriptStyle.rule CodeText.isWord).rewrite [' '] html.toList) := by
    intro html
    unfold withoutMarkup
    rw [toList_substitute htmlTag_anchorFree, toList_substitute scriptStyle_anchorFree]
    rfl
  apply String.toList_injective
  rw [hlist, toList_undoEscapes, toList_undoEscapes, hlist,
    markup_rewrite_comm hplain isEscape_space (by decide) (by decide) (Or.inr rfl) (by decide),
    markup_rewrite_comm hplain isEscape_equals (by decide) (by decide) (Or.inl rfl) (by decide)]

/-- The kept body has the escape of an escape, in a mail with markup outside its
blocks and tags. -/
def EscapedTwice (text : String) : Prop :=
  "=3D3D".toList <:+: (if htmlLike (undoEscapes (joinedBody text)) then
    withoutMarkup (joinedBody text) else joinedBody text).toList

theorem escape_left_iff_escapedTwice (hplain : PlainCharacters) (text : String) :
    "=3D".toList <:+: (sanitizeMailText text).toList ↔ EscapedTwice text := by
  rw [escape_left_iff hplain.space]
  unfold shownText EscapedTwice
  rw [← infix_undoEscapes_iff]
  split
  · rw [withoutMarkup_undoEscapes hplain]
  · rfl

/-- **Exactly when sanitising twice is sanitising once**, for the text and for every
code that is looked for in it. -/
theorem sanitize_idempotent_iff (hplain : PlainCharacters) (text : String) :
    (sanitizeMailText (sanitizeMailText text) = sanitizeMailText text ∧
      ∀ subject customMatcher,
        extractVerificationCode subject (sanitizeMailText text) customMatcher =
          extractVerificationCode subject text customMatcher) ↔ ¬ EscapedTwice text := by
  rw [← escape_left_iff_escapedTwice hplain, ← sanitize_sanitize_iff hplain.space hplain.newline]
  constructor
  · exact fun h => h.1
  · intro heq
    refine ⟨heq, fun subject customMatcher => ?_⟩
    unfold extractVerificationCode codeOfCleaned cleanedBody
    rw [heq]

end

section Sample

attribute [local instance] asciiText asciiCodeText

theorem plainCharacters_ascii : PlainCharacters where
  space := by decide
  newline := by decide
  lower_space := fun _ hx =>
    eq_of_toLower_eq (by decide) (Option.some.inj (of_decide_eq_true hx))
  lower_equals := fun _ hx =>
    eq_of_toLower_eq (by decide) (Option.some.inj (of_decide_eq_true hx))

theorem sanitize_idempotent_sample :
    sanitizeMailText (sanitizeMailText "Code=3D482913") = sanitizeMailText "Code=3D482913" ∧
      ∀ subject customMatcher,
        extractVerificationCode subject (sanitizeMailText "Code=3D482913") customMatcher =
          extractVerificationCode subject "Code=3D482913" customMatcher := by
  refine (sanitize_idempotent_iff plainCharacters_ascii "Code=3D482913").mpr ?_
  unfold EscapedTwice
  decide +kernel

/-- **A code from the second time only**: the quoted `=3D` is undone as well. -/
theorem escaped_twice_read_apart :
    sanitizeMailText (sanitizeMailText "=3D3D482913") ≠ sanitizeMailText "=3D3D482913" ∧
      extractVerificationCode "" (sanitizeMailText "=3D3D482913") none = some "482913" ∧
      extractVerificationCode "" "=3D3D482913" none = none := by
  decide +kernel

end Sample

end MailBody

end MailboxService
