import MailboxService.Foundation.RegexRules
import MailboxService.VerificationCode.MailSanitizer

/-!
# Passes over a mail body

The substitutions of `sanitize_mail_text` as passes over its characters. The
last ones leave white space that is collapsed, and no markup that is closed
(`collapsed_whitespace`, `tagFree_htmlTag`), and what is left so is not changed
by them again.
-/

namespace MailboxService

open Foundation Foundation.Regex

namespace MailBody

/-! ## Tags -/

/-- A text has no tag: what opens is closed at once, or not at all. -/
def TagFree (l : List Char) : Prop :=
  ∀ s, '<' :: s <:+ l → s.head? = some '>' ∨ '>' ∉ s

variable {isWord : Char → Bool} {l w after : List Char} {c d : Cursor}

theorem TagFree.of_suffix (h : TagFree l) (hw : w <:+ l) : TagFree w :=
  fun s hs => h s (hs.trans hw)

theorem TagFree.of_front (h : TagFree l) (hw : w <+: l) : TagFree w := by
  rintro s ⟨before, rfl⟩
  obtain ⟨behind, rfl⟩ := hw
  have hs := h (s ++ behind) ⟨before, by simp⟩
  cases s with
  | nil => exact Or.inr List.not_mem_nil
  | cons x s =>
      refine hs.imp id fun hnot hmem => hnot ?_
      exact List.mem_append_left _ hmem

theorem TagFree.of_infix (h : TagFree l) (hw : w <:+: l) : TagFree w := by
  obtain ⟨before, behind, rfl⟩ := hw
  rw [List.append_assoc] at h
  exact (h.of_suffix (List.suffix_append ..)).of_front (List.prefix_append ..)

theorem mem_results_htmlTag :
    d ∈ htmlTag.results isWord ⟨[], l, []⟩ ↔
      ∃ s after, l = '<' :: s ++ '>' :: after ∧ s ≠ [] ∧ '>' ∉ s ∧
        d = ⟨'>' :: s.reverse ++ ['<'], after, []⟩ := by
  unfold htmlTag
  simp only [results, List.mem_flatMap]
  constructor
  · rintro ⟨e, he, f, hf, hd⟩
    obtain ⟨x, rest, hl, hx, rfl⟩ := mem_next.mp he
    obtain ⟨s, hmin, -, hs, hrest, hpast, hcaptured⟩ := ahead_of_mem_greedy hf
    obtain ⟨y, after, hafter, hy, rfl⟩ := mem_next.mp hd
    obtain rfl := of_decide_eq_true hx
    obtain rfl := of_decide_eq_true hy
    refine ⟨s, after, ?_, ?_, ?_, ?_⟩
    · rw [show l = '<' :: rest from hl, show rest = s ++ f.rest from hrest, hafter]
      rfl
    · rintro rfl
      cases hmin
    · intro hmem
      exact of_decide_eq_true (hs '>' hmem) rfl
    · rw [hpast, hcaptured]
      rfl
  · rintro ⟨s, after, rfl, hne, hs, rfl⟩
    refine ⟨⟨['<'], s ++ '>' :: after, []⟩, mem_next.mpr ⟨'<', _, rfl, rfl, rfl⟩,
      ⟨s.reverse ++ ['<'], '>' :: after, []⟩, ?_, ?_⟩
    · apply mem_greedy_of_all
      · intro x hx
        apply decide_eq_true
        rintro rfl
        exact hs hx
      · exact List.length_pos_of_ne_nil hne
      · simp
    · exact mem_next.mpr ⟨'>', after, rfl, rfl, rfl⟩

theorem htmlTag_match?_iff : (htmlTag.rule isWord).match? l = some after ↔
    ∃ s, l = '<' :: s ++ '>' :: after ∧ s ≠ [] ∧ '>' ∉ s := by
  constructor
  · intro h
    obtain ⟨d, hd, rfl⟩ := exists_of_match? h
    obtain ⟨s, after, hl, hne, hs, rfl⟩ := mem_results_htmlTag.mp hd
    exact ⟨s, hl, hne, hs⟩
  · rintro ⟨s, rfl, hne, hs⟩
    apply match?_eq_some
    · exact ⟨_, mem_results_htmlTag.mpr ⟨s, after, rfl, hne, hs, rfl⟩⟩
    · intro d hd
      obtain ⟨s', after', hl, -, hs', rfl⟩ := mem_results_htmlTag.mp hd
      -- both end at the first bracket
      have hsplit : ∀ u v : List Char, '>' ∉ u → (u ++ '>' :: v).dropWhile (· ≠ '>') = '>' :: v := by
        intro u v hu
        rw [List.dropWhile_append_of_pos]
        · rfl
        · intro x hx
          apply decide_eq_true
          rintro rfl
          exact hu hx
      rw [List.cons_append, List.cons_append] at hl
      have hboth := congrArg (List.dropWhile (· ≠ '>')) (List.cons.inj hl).2
      rw [hsplit s after hs, hsplit s' after' hs'] at hboth
      exact (List.cons.inj hboth).2.symm
    · simp
      omega

/-- A bracket that opens is kept where it is closed at once, or not at all. -/
theorem htmlTag_none_iff : (htmlTag.rule isWord).match? ('<' :: l) = none ↔
    l.head? = some '>' ∨ '>' ∉ l := by
  constructor
  · intro h
    by_cases hmem : '>' ∈ l
    · left
      obtain ⟨s, after, rfl, hs⟩ := List.eq_append_cons_of_mem hmem
      by_cases hne : s = []
      · rw [hne]
        rfl
      · have hmatch : (htmlTag.rule isWord).match? ('<' :: (s ++ '>' :: after)) = some after :=
          htmlTag_match?_iff.mpr ⟨s, rfl, hne, hs⟩
        rw [h] at hmatch
        cases hmatch
    · exact Or.inr hmem
  · intro h
    cases hmatch : (htmlTag.rule isWord).match? ('<' :: l) with
    | none => rfl
    | some after =>
        obtain ⟨s, hl, hne, hs⟩ := htmlTag_match?_iff.mp hmatch
        rw [List.cons_append] at hl
        obtain ⟨x, s, rfl⟩ := List.exists_cons_of_ne_nil hne
        rw [(List.cons.inj hl).2] at h
        rcases h with hhead | hnot
        · obtain rfl : x = '>' := by simpa using hhead
          exact absurd (List.mem_cons_self ..) hs
        · exact absurd (by simp) hnot

theorem htmlTag_match?_of_ne {x : Char} (hx : x ≠ '<') :
    (htmlTag.rule isWord).match? (x :: l) = none := by
  cases hmatch : (htmlTag.rule isWord).match? (x :: l) with
  | none => rfl
  | some after =>
      obtain ⟨s, hs, -⟩ := htmlTag_match?_iff.mp hmatch
      exact absurd (List.cons.inj hs).1 hx

theorem TagFree.misses_htmlTag (h : TagFree l) : (htmlTag.rule isWord).Misses l := by
  intro s hs
  cases s with
  | nil => rfl
  | cons x s =>
      by_cases hx : x = '<'
      · subst hx
        exact htmlTag_none_iff.mpr (h s hs)
      · exact htmlTag_match?_of_ne hx

/-- A pass that puts spaces leaves no tag, where it keeps no bracket that is closed
later. -/
theorem tagFree_rewrite {rule : Rule Char} (hkeep : ∀ rest, rule.match? ('>' :: rest) = none)
    (hopen : ∀ rest, '<' :: rest <:+ l → rule.match? ('<' :: rest) = none →
      rest.head? = some '>' ∨ '>' ∉ rest) : TagFree (rule.rewrite [' '] l) := by
  induction l using Rule.rewrite_induction rule with
  | nil =>
      intro s hs
      rw [Rule.rewrite_nil, List.suffix_nil] at hs
      cases hs
  | keep x rest hmatch ih =>
      intro s hs
      rw [Rule.rewrite_of_none hmatch] at hs
      rcases List.suffix_cons_iff.mp hs with heq | hs
      · obtain ⟨rfl, rfl⟩ := List.cons.inj heq
        rcases hopen rest (List.suffix_refl _) hmatch with hhead | hnot
        · left
          cases rest with
          | nil => cases hhead
          | cons y rest =>
              obtain rfl : y = '>' := by simpa using hhead
              rw [Rule.rewrite_of_none (hkeep rest)]
              rfl
        · right
          intro hmem
          rcases Rule.mem_of_mem_rewrite hmem with hmem | hmem
          · simp at hmem
          · exact hnot hmem
      · exact ih (fun rest' h => hopen rest' (h.trans (List.suffix_cons x rest))) s hs
  | replace x rest after hmatch ih =>
      intro s hs
      rw [Rule.rewrite_of_some hmatch, List.singleton_append] at hs
      rcases List.suffix_cons_iff.mp hs with heq | hs
      · cases (List.cons.inj heq).1
      · exact ih (fun rest' h => hopen rest' (h.trans (rule.proper _ _ hmatch).1)) s hs

theorem tagFree_htmlTag : TagFree ((htmlTag.rule isWord).rewrite [' '] l) :=
  tagFree_rewrite (fun _ => htmlTag_match?_of_ne (by decide))
    fun _ _ hnone => htmlTag_none_iff.mp hnone

/-! ## Scripts and styles -/

section

variable [PythonText]

/-- A block opens with a name, and is closed behind it. -/
theorem exists_of_scriptStyle (h : (scriptStyle.rule isWord).match? l = some after) :
    ∃ x s, l = '<' :: x :: s ∧ x ≠ '>' ∧ '>' ∈ s := by
  obtain ⟨d, hd, -⟩ := exists_of_match? h
  unfold scriptStyle at hd
  obtain ⟨c₁, h₁, hd⟩ := List.mem_flatMap.mp hd
  obtain ⟨c₂, h₂, hd⟩ := List.mem_flatMap.mp hd
  obtain ⟨c₃, h₃, hd⟩ := List.mem_flatMap.mp hd
  obtain ⟨c₄, h₄, -⟩ := List.mem_flatMap.mp hd
  obtain ⟨y, rest, hl, hy, rfl⟩ := mem_next.mp h₁
  obtain rfl := of_decide_eq_true hy
  obtain ⟨e, he, rfl⟩ := List.mem_map.mp h₂
  obtain ⟨text, htext, -⟩ := reaches_of_mem_results h₃
  obtain ⟨z, behind, hbehind, hz, -⟩ := mem_next.mp h₄
  obtain rfl := of_decide_eq_true hz
  -- both names start with the same letter
  have hname : ∃ x w, rest = x :: w ++ e.rest ∧ ignoringCase 's' x = true := by
    rcases List.mem_append.mp he with he | he
    · obtain ⟨w, after, hrest, hw, rfl⟩ := (mem_results_literal (by decide)).mp he
      obtain ⟨x, w', hx, -, rfl⟩ := List.forall₂_cons_left_iff.mp hw
      exact ⟨x, w', hrest, hx⟩
    · obtain ⟨w, after, hrest, hw, rfl⟩ := (mem_results_literal (by decide)).mp he
      obtain ⟨x, w', hx, -, rfl⟩ := List.forall₂_cons_left_iff.mp hw
      exact ⟨x, w', hrest, hx⟩
  obtain ⟨x, w, hrest, hx⟩ := hname
  refine ⟨x, w ++ e.rest, ?_, ?_, ?_⟩
  · rw [show l = '<' :: rest from hl, hrest]
    rfl
  · rintro rfl
    revert hx
    decide
  · have htail : e.rest = text ++ '>' :: behind := by
      rw [← hbehind]
      exact htext
    rw [htail]
    simp

theorem TagFree.misses_scriptStyle (h : TagFree l) : (scriptStyle.rule isWord).Misses l := by
  intro s hs
  cases hmatch : (scriptStyle.rule isWord).match? s with
  | none => rfl
  | some after =>
      obtain ⟨x, u, rfl, hx, hu⟩ := exists_of_scriptStyle hmatch
      rcases h _ hs with hhead | hnot
      · exact absurd (by simpa using hhead) hx
      · exact absurd (List.mem_cons_of_mem x hu) hnot

/-! ## White space -/

/-- Runs of white space are single spaces. -/
def Collapsed (l : List Char) : Prop :=
  ∀ x s, x :: s <:+ l → PythonText.isSpace x = true →
    x = ' ' ∧ ∀ y ∈ s.head?, PythonText.isSpace y = false

theorem Collapsed.of_suffix (h : Collapsed l) (hw : w <:+ l) : Collapsed w :=
  fun x s hs => h x s (hs.trans hw)

theorem Collapsed.of_front (h : Collapsed l) (hw : w <+: l) : Collapsed w := by
  rintro x s ⟨before, rfl⟩ hx
  obtain ⟨behind, rfl⟩ := hw
  obtain ⟨hspace, hnext⟩ := h x (s ++ behind) ⟨before, by simp⟩ hx
  refine ⟨hspace, fun y hy => hnext y ?_⟩
  cases s with
  | nil => cases hy
  | cons z s => exact hy

theorem Collapsed.of_infix (h : Collapsed l) (hw : w <:+: l) : Collapsed w := by
  obtain ⟨before, behind, rfl⟩ := hw
  rw [List.append_assoc] at h
  exact (h.of_suffix (List.suffix_append ..)).of_front (List.prefix_append ..)

theorem whitespace_match? (x : Char) (rest : List Char) :
    (whitespace.rule isWord).match? (x :: rest) =
      if PythonText.isSpace x then some (rest.dropWhile PythonText.isSpace) else none :=
  run_match? PythonText.isSpace x rest

theorem whitespace_match?_of_not {x : Char} (hx : PythonText.isSpace x = false)
    (rest : List Char) : (whitespace.rule isWord).match? (x :: rest) = none := by
  rw [whitespace_match?, hx]
  rfl

theorem collapsed_whitespace : Collapsed ((whitespace.rule isWord).rewrite [' '] l) := by
  induction l using Rule.rewrite_induction (whitespace.rule isWord) with
  | nil =>
      intro x s hs
      rw [Rule.rewrite_nil, List.suffix_nil] at hs
      cases hs
  | keep x rest hmatch ih =>
      intro y s hs hy
      rw [Rule.rewrite_of_none hmatch] at hs
      rcases List.suffix_cons_iff.mp hs with heq | hs
      · obtain ⟨rfl, -⟩ := List.cons.inj heq
        rw [whitespace_match?, hy] at hmatch
        cases hmatch
      · exact ih y s hs hy
  | replace x rest after hmatch ih =>
      intro y s hs hy
      rw [Rule.rewrite_of_some hmatch, List.singleton_append] at hs
      rcases List.suffix_cons_iff.mp hs with heq | hs
      · obtain ⟨rfl, rfl⟩ := List.cons.inj heq
        refine ⟨rfl, ?_⟩
        rw [whitespace_match?] at hmatch
        split at hmatch
        · obtain rfl := Option.some.inj hmatch
          -- what is behind a run does not go on with white space
          have hhead := List.head?_dropWhile_not PythonText.isSpace rest
          cases hdrop : rest.dropWhile PythonText.isSpace with
          | nil => simp
          | cons z after =>
              rw [hdrop] at hhead
              have hz : PythonText.isSpace z = false := by simpa using hhead
              rw [Rule.rewrite_of_none (whitespace_match?_of_not hz after)]
              simpa using hz
        · cases hmatch
      · exact ih y s hs hy

theorem whitespace_of_collapsed (h : Collapsed l) :
    (whitespace.rule isWord).rewrite [' '] l = l := by
  induction l with
  | nil => exact Rule.rewrite_nil
  | cons x rest ih =>
      have hrest := ih (h.of_suffix (List.suffix_cons x rest))
      by_cases hx : PythonText.isSpace x = true
      · obtain ⟨rfl, hnext⟩ := h x rest (List.suffix_refl _) hx
        have hdrop : rest.dropWhile PythonText.isSpace = rest := by
          cases rest with
          | nil => rfl
          | cons y rest =>
              have hy : PythonText.isSpace y = false := hnext y rfl
              rw [List.dropWhile_cons_of_neg (by rw [hy]; exact Bool.false_ne_true)]
        have hmatch : (whitespace.rule isWord).match? (' ' :: rest) = some rest := by
          rw [whitespace_match?, if_pos hx, hdrop]
        rw [Rule.rewrite_of_some hmatch, hrest]
        rfl
      · rw [Rule.rewrite_of_none (whitespace_match?_of_not (Bool.not_eq_true _ ▸ hx) rest), hrest]

variable [CodeText]

theorem isSpace_eq_false {x : Char} (hlow : 32 < x.toNat) (hhigh : x.toNat < 128) :
    PythonText.isSpace x = false := by
  by_contra h
  have := CodeText.isSpace_ascii x hhigh (by simpa using h)
  omega

theorem TagFree.whitespace (h : TagFree l) :
    TagFree ((whitespace.rule isWord).rewrite [' '] l) := by
  apply tagFree_rewrite
  · intro rest
    exact whitespace_match?_of_not (isSpace_eq_false (by decide) (by decide)) rest
  · intro rest hrest _
    exact h rest hrest

omit [CodeText] in
/-- A run of white space has nothing else. -/
theorem isSpace_of_whitespace_match {s : List Char}
    (h : (MailBody.whitespace.rule isWord).match? (s ++ after) = some after) :
    ∀ x ∈ s, PythonText.isSpace x = true := by
  cases s with
  | nil => exact List.forall_mem_nil _
  | cons y s =>
      rw [List.cons_append, whitespace_match?] at h
      split at h
      · rename_i hy
        have hdrop := Option.some.inj h
        have hboth := List.takeWhile_append_dropWhile (p := PythonText.isSpace) (l := s ++ after)
        rw [hdrop] at hboth
        have htake := List.append_cancel_right hboth
        intro x hx
        rcases List.mem_cons.mp hx with rfl | hx
        · exact hy
        · rw [← htake] at hx
          exact List.mem_takeWhile_imp hx
      · cases h

omit [CodeText] in
theorem infix_whitespace_iff (hne : w ≠ []) (hw : ∀ x ∈ w, PythonText.isSpace x = false)
    (hspace : PythonText.isSpace ' ' = true) :
    w <:+: (MailBody.whitespace.rule isWord).rewrite [' '] l ↔ w <:+: l := by
  have hsingle : ∀ x ∈ w, x ∉ [' '] := by
    intro x hx hmem
    rw [List.mem_singleton.mp hmem] at hx
    rw [hw ' ' hx] at hspace
    cases hspace
  have hstart : ∀ u : List Char, (∀ x ∈ u, PythonText.isSpace x = false) → ∀ l, u <+: l →
      (MailBody.whitespace.rule isWord).rewrite [' '] l =
        u ++ (MailBody.whitespace.rule isWord).rewrite [' '] (l.drop u.length) := by
    intro u
    induction u with
    | nil =>
        intro _ l _
        rfl
    | cons x u ih =>
        rintro hu l ⟨behind, rfl⟩
        have hx := hu x (List.mem_cons_self ..)
        rw [List.cons_append, Rule.rewrite_of_none (whitespace_match?_of_not hx _)]
        rw [ih (fun y hy => hu y (List.mem_cons_of_mem x hy)) _ (List.prefix_append ..)]
        rfl
  constructor
  · exact Rule.infix_of_infix_rewrite (List.cons_ne_nil _ _) hsingle
  · apply Rule.infix_rewrite_of_infix hne (hstart w hw)
    intro s after hmatch x hx hmem
    have hblank := isSpace_of_whitespace_match hmatch x hx
    rw [hw x hmem] at hblank
    cases hblank

omit [CodeText] in
theorem infix_of_strip (s : String) : (Text.strip s).toList <:+: s.toList := by
  unfold Text.strip
  rw [String.toList_ofList]
  exact (List.rdropWhile_prefix _ _).isInfix.trans (List.dropWhile_suffix _).isInfix

omit [CodeText] in
theorem infix_strip_iff {s : String} (hne : w ≠ [])
    (hw : ∀ x ∈ w, PythonText.isSpace x = false) :
    w <:+: (Text.strip s).toList ↔ w <:+: s.toList := by
  have hblank : ∀ u : List Char, (∀ x ∈ u, PythonText.isSpace x = true) → ∀ x ∈ u, x ∉ w := by
    intro u hu x hx hmem
    have := hu x hx
    rw [hw x hmem] at this
    cases this
  constructor
  · exact fun h => h.trans (infix_of_strip s)
  · intro h
    have hfront : w <:+: s.toList.dropWhile PythonText.isSpace := by
      rw [← List.takeWhile_append_dropWhile (p := PythonText.isSpace) (l := s.toList)] at h
      exact Rule.infix_of_infix_append_of_disjoint hne (hblank _ fun x hx => List.mem_takeWhile_imp hx) h
    unfold Text.strip
    rw [String.toList_ofList, ← List.reverse_infix]
    rw [← List.reverse_infix] at hfront
    unfold List.rdropWhile
    rw [List.reverse_reverse]
    rw [← List.takeWhile_append_dropWhile (p := PythonText.isSpace)
      (l := (s.toList.dropWhile PythonText.isSpace).reverse)] at hfront
    refine Rule.infix_of_infix_append_of_disjoint (by simpa using hne) ?_ hfront
    intro x hx hmem
    exact hblank _ (fun y hy => List.mem_takeWhile_imp hy) x hx (List.mem_reverse.mp hmem)

end

end MailBody

end MailboxService
