import MailboxService.Ascii
import MailboxService.VerificationCode.SanitizerPasses

/-!
# Escapes and markup

`sanitize_mail_text` undoes the escapes before it takes the markup out. No escape
has a bracket, so it comes to the same when the markup is taken out first
(`replace_withoutMarkup`).
-/

namespace MailboxService

open Foundation Foundation.Regex

namespace MailBody

variable {isWord : Char → Bool} {l w w' after rest : List Char} {c d : Cursor}

/-! ## Names of blocks -/

/-- `script` or `style`, whatever their case. -/
def IsBlockName (w : List Char) : Prop :=
  ∃ name ∈ ["script", "style"],
    List.Forall₂ (fun x y => ignoringCase x y = true) name.toList w

theorem mem_results_blockName :
    d ∈ (Regex.group (oneOf ["script", "style"])).results isWord c ↔
      ∃ w after, c.rest = w ++ after ∧ IsBlockName w ∧ d = ⟨w.reverse ++ c.past, after, w⟩ := by
  have hname : ∀ e : Cursor, e ∈ (oneOf ["script", "style"]).results isWord c ↔
      ∃ w after, c.rest = w ++ after ∧ IsBlockName w ∧
        e = ⟨w.reverse ++ c.past, after, c.captured⟩ := by
    intro e
    show e ∈ (literal ignoringCase "script").results isWord c ++
      (literal ignoringCase "style").results isWord c ↔ _
    rw [List.mem_append, mem_results_literal (by decide), mem_results_literal (by decide)]
    constructor
    · rintro (⟨w, after, hrest, hw, he⟩ | ⟨w, after, hrest, hw, he⟩)
      · exact ⟨w, after, hrest, ⟨"script", by simp, hw⟩, he⟩
      · exact ⟨w, after, hrest, ⟨"style", by simp, hw⟩, he⟩
    · rintro ⟨w, after, hrest, ⟨name, hname, hw⟩, he⟩
      simp only [List.mem_cons, List.not_mem_nil, or_false] at hname
      rcases hname with rfl | rfl
      · exact Or.inl ⟨w, after, hrest, hw, he⟩
      · exact Or.inr ⟨w, after, hrest, hw, he⟩
  constructor
  · intro h
    obtain ⟨e, he, rfl⟩ := List.mem_map.mp h
    obtain ⟨w, after, hrest, hw, rfl⟩ := (hname e).mp he
    refine ⟨w, after, hrest, hw, ?_⟩
    rw [textTo_append rfl]
  · rintro ⟨w, after, hrest, hw, rfl⟩
    refine List.mem_map.mpr ⟨_, (hname _).mpr ⟨w, after, hrest, hw, rfl⟩, ?_⟩
    rw [textTo_append rfl]

theorem IsBlockName.second (hw : IsBlockName w) : ∃ x y v, w = x :: y :: v ∧
    (List.Forall₂ (fun x y => ignoringCase x y = true) "script".toList w ∧
        ignoringCase 'c' y = true ∨
      List.Forall₂ (fun x y => ignoringCase x y = true) "style".toList w ∧
        ignoringCase 't' y = true) := by
  obtain ⟨name, hname, hw⟩ := hw
  simp only [List.mem_cons, List.not_mem_nil, or_false] at hname
  rcases hname with rfl | rfl
  · obtain ⟨x, u, -, hu, rfl⟩ := List.forall₂_cons_left_iff.mp hw
    obtain ⟨y, v, hy, -, rfl⟩ := List.forall₂_cons_left_iff.mp hu
    exact ⟨x, y, v, rfl, Or.inl ⟨hw, hy⟩⟩
  · obtain ⟨x, u, -, hu, rfl⟩ := List.forall₂_cons_left_iff.mp hw
    obtain ⟨y, v, hy, -, rfl⟩ := List.forall₂_cons_left_iff.mp hu
    exact ⟨x, y, v, rfl, Or.inr ⟨hw, hy⟩⟩

theorem not_c_and_t {x : Char} (hc : ignoringCase 'c' x = true) :
    ¬ ignoringCase 't' x = true := by
  intro ht
  have hc : x.toLower = 'c' := by simpa [ignoringCase] using hc
  have ht : x.toLower = 't' := by simpa [ignoringCase] using ht
  rw [hc] at ht
  revert ht
  decide

/-- A text begins with one name at most. -/
theorem IsBlockName.unique {t t' : List Char} (hw : IsBlockName w) (hw' : IsBlockName w')
    (h : w ++ t = w' ++ t') : w = w' ∧ t = t' := by
  obtain ⟨x, y, v, rfl, hname⟩ := hw.second
  obtain ⟨x', y', v', rfl, hname'⟩ := hw'.second
  have hy : y = y' := (List.cons.inj (List.cons.inj h).2).1
  subst hy
  rcases hname with ⟨hall, hsecond⟩ | ⟨hall, hsecond⟩
  · rcases hname' with ⟨hall', -⟩ | ⟨-, hsecond'⟩
    · exact List.append_inj h (hall.length_eq.symm.trans hall'.length_eq)
    · exact absurd hsecond' (not_c_and_t hsecond)
  · rcases hname' with ⟨-, hsecond'⟩ | ⟨hall', -⟩
    · exact absurd hsecond (not_c_and_t hsecond')
    · exact List.append_inj h (hall.length_eq.symm.trans hall'.length_eq)

theorem IsBlockName.not_mem {x : Char} (hw : IsBlockName w)
    (hx : ∀ y ∈ "scriptyle".toList, ignoringCase y x = false) : x ∉ w := by
  intro hmem
  obtain ⟨name, hname, hw⟩ := hw
  have hletters : ∀ name ∈ ["script", "style"], name.toList ⊆ "scriptyle".toList := by decide
  obtain ⟨i, hi, rfl⟩ := List.getElem_of_mem hmem
  have hlength := hw.length_eq
  have hsame := (List.forall₂_iff_get.mp hw).2 i (by omega) hi
  have hnot := hx _ (hletters name hname (List.getElem_mem (by omega : i < name.toList.length)))
  rw [List.get_eq_getElem, List.get_eq_getElem, hnot] at hsame
  cases hsame

/-! ## Blocks -/

section

variable [PythonText]

/-- `</\1>`. -/
def blockClose : Regex :=
  .seq (.literal ignoringCase "</") (.seq (.again sameLower) (.char (· = '>')))

theorem blockClose_anchorFree : blockClose.AnchorFree :=
  ⟨literal_anchorFree "</", trivial, trivial⟩

omit [PythonText] in
/-- What is in front of the small letters is the lower case of itself only. -/
theorem eq_of_toLower_eq {x y : Char} (hx : x.toNat < 97) (h : y.toLower = x) : y = x := by
  have hlower := congrArg Char.toNat h
  rw [Ascii.toNat_toLower] at hlower
  apply Char.ext
  apply UInt32.toNat_inj.mp
  split at hlower
  · omega
  · exact hlower

omit [PythonText] in
theorem same_close_iff {u : List Char} :
    List.Forall₂ (fun x y => ignoringCase x y = true) "</".toList u ↔ u = ['<', '/'] := by
  constructor
  · intro h
    obtain ⟨x, u, hx, hu, rfl⟩ := List.forall₂_cons_left_iff.mp h
    obtain ⟨y, v, hy, hv, rfl⟩ := List.forall₂_cons_left_iff.mp hu
    obtain rfl := List.forall₂_nil_left_iff.mp hv
    have hx : ignoringCase '<' x = true := hx
    have hy : ignoringCase '/' y = true := hy
    have hx : x.toLower = '<' := by simpa [ignoringCase] using hx
    have hy : y.toLower = '/' := by simpa [ignoringCase] using hy
    rw [eq_of_toLower_eq (by decide) hx, eq_of_toLower_eq (by decide) hy]
  · rintro rfl
    exact .cons (by decide) (.cons (by decide) .nil)

theorem endOf_blockClose_iff : blockClose.endOf isWord w l = some after ↔
    ∃ u, l = '<' :: '/' :: (u ++ '>' :: after) ∧
      List.Forall₂ (fun x y => sameLower x y = true) w u := by
  have hmem : ∀ d, d ∈ blockClose.results isWord ⟨[], l, w⟩ ↔
      ∃ u after, l = '<' :: '/' :: (u ++ '>' :: after) ∧
        List.Forall₂ (fun x y => sameLower x y = true) w u ∧
        d = ⟨'>' :: (u.reverse ++ ['/', '<']), after, w⟩ := by
    intro d
    unfold blockClose
    simp only [results, List.mem_flatMap]
    constructor
    · rintro ⟨e, he, f, hf, hd⟩
      obtain ⟨v, rest, hl, hv, rfl⟩ := (mem_results_literal (by decide)).mp he
      obtain ⟨u, rest', hrest, hu, rfl⟩ := mem_follow.mp hf
      obtain ⟨x, after, hafter, hx, rfl⟩ := mem_next.mp hd
      obtain rfl := same_close_iff.mp hv
      obtain rfl := of_decide_eq_true hx
      obtain rfl : rest = u ++ rest' := hrest
      obtain rfl : rest' = '>' :: after := hafter
      exact ⟨u, after, hl, hu, rfl⟩
    · rintro ⟨u, after, rfl, hu, rfl⟩
      refine ⟨⟨['/', '<'], u ++ '>' :: after, w⟩,
        (mem_results_literal (by decide)).mpr ⟨['<', '/'], _, rfl, same_close_iff.mpr rfl, rfl⟩,
        ⟨u.reverse ++ ['/', '<'], '>' :: after, w⟩, mem_follow.mpr ⟨u, _, rfl, hu, rfl⟩,
        mem_next.mpr ⟨'>', after, rfl, rfl, rfl⟩⟩
  constructor
  · intro h
    obtain ⟨d, hd, rfl⟩ := exists_of_endOf h
    obtain ⟨u, after, hl, hu, rfl⟩ := (hmem d).mp hd
    exact ⟨u, hl, hu⟩
  · rintro ⟨u, rfl, hu⟩
    apply endOf_eq_some
    · exact ⟨_, (hmem _).mpr ⟨u, after, rfl, hu, rfl⟩⟩
    · intro d hd
      obtain ⟨u', after', hl, hu', rfl⟩ := (hmem d).mp hd
      have hl := (List.cons.inj (List.cons.inj hl).2).2
      obtain ⟨-, hafter⟩ := List.append_inj hl (hu.length_eq.symm.trans hu'.length_eq)
      exact (List.cons.inj hafter).2.symm

/-- `.*?</\1>` behind the bracket of the opening tag. -/
def blockBody : Regex := .seq (.few (.char fun _ => true)) blockClose

/-- `>.*?</\1>`. -/
def blockOpened : Regex := .seq (.char (· = '>')) blockBody

theorem blockBody_anchorFree : blockBody.AnchorFree := ⟨trivial, blockClose_anchorFree⟩

theorem blockOpened_anchorFree : blockOpened.AnchorFree := ⟨trivial, blockBody_anchorFree⟩

theorem scriptStyle_eq : scriptStyle = .seq (.char (· = '<'))
    (.seq (.group (oneOf ["script", "style"])) (.seq (.few (.char fun _ => true)) blockOpened)) :=
  rfl

theorem match?_scriptStyle (rest : List Char) :
    (scriptStyle.rule isWord).match? ('<' :: rest) =
      (Regex.seq (.group (oneOf ["script", "style"]))
        (.seq (.few (.char fun _ => true)) blockOpened)).endOf isWord [] rest := by
  have hfree : (Regex.seq (.group (oneOf ["script", "style"]))
      (.seq (.few (.char fun _ => true)) blockOpened)).AnchorFree :=
    ⟨⟨literal_anchorFree "script", literal_anchorFree "style"⟩, trivial, blockOpened_anchorFree⟩
  show Option.filter _ (scriptStyle.endOf isWord [] ('<' :: rest)) = _
  rw [scriptStyle_eq, endOf_seq_char _ hfree, if_pos (decide_eq_true rfl)]
  cases hend : Regex.endOf isWord _ [] rest with
  | none => rfl
  | some after =>
      obtain ⟨d, hd, rfl⟩ := exists_of_endOf hend
      obtain ⟨text, hrest, -⟩ := reaches_of_mem_results hd
      have hlt : d.rest.length < ('<' :: rest).length := by
        rw [show rest = text ++ d.rest from hrest, List.length_cons, List.length_append]
        omega
      rw [Option.filter_some, if_pos (decide_eq_true hlt)]

/-- The rule of a block: a name, and the first end of the block behind the first
bracket that closes its tag. -/
theorem scriptStyle_match?_iff : (scriptStyle.rule isWord).match? ('<' :: rest) = some after ↔
    ∃ w tail, rest = w ++ tail ∧ IsBlockName w ∧
      firstMatch (fun _ => blockOpened.endOf isWord w) [] tail = some after := by
  rw [match?_scriptStyle]
  have hend : ∀ w tail, IsBlockName w →
      (Regex.seq (.group (oneOf ["script", "style"]))
        (.seq (.few (.char fun _ => true)) blockOpened)).endOf isWord [] (w ++ tail) =
      firstMatch (fun _ => blockOpened.endOf isWord w) [] tail := by
    intro w tail hw
    rw [← endOf_seq_few blockOpened_anchorFree]
    refine endOf_seq_of_unique (d := ⟨w.reverse, tail, w⟩) ⟨trivial, blockOpened_anchorFree⟩ ?_ ?_
    · exact mem_results_blockName.mpr ⟨w, tail, rfl, hw, by simp⟩
    · intro e he
      obtain ⟨w', tail', hrest, hw', rfl⟩ := mem_results_blockName.mp he
      obtain ⟨rfl, rfl⟩ := hw.unique hw' hrest
      simp
  constructor
  · intro h
    obtain ⟨d, hd, -⟩ := exists_of_endOf h
    obtain ⟨e, he, -⟩ := List.mem_flatMap.mp hd
    obtain ⟨w, tail, hrest, hw, -⟩ := mem_results_blockName.mp he
    obtain rfl : rest = w ++ tail := hrest
    exact ⟨w, tail, rfl, hw, (hend w tail hw).symm.trans h⟩
  · rintro ⟨w, tail, rfl, hw, h⟩
    exact (hend w tail hw).trans h

/-! ## Escapes -/

/-- Facts of the Unicode tables: the space and the line break are white space, and
no other character has the lower case of the space or of the equals sign. -/
structure PlainCharacters : Prop where
  space : PythonText.isSpace ' ' = true
  newline : PythonText.isSpace '\n' = true
  lower_space : ∀ x, sameLower x ' ' = true → x = ' '
  lower_equals : ∀ x, sameLower x '=' = true → x = '='

variable {escape : Rule Char} {u : List Char} {c : Char}

theorem IsBlockName.spelling_not_mem (hplain : PlainCharacters) (hw : IsBlockName w)
    (hc : c = '=' ∨ c = ' ') :
    c ∉ w ∧ ∀ v, List.Forall₂ (fun x y => sameLower x y = true) w v → c ∉ v := by
  have hletter : c ∉ w := by
    apply hw.not_mem
    rcases hc with rfl | rfl <;> simp [ignoringCase]
  refine ⟨hletter, fun v hv hmem => ?_⟩
  obtain ⟨i, hi, hget⟩ := List.getElem_of_mem hmem
  have hlength := hv.length_eq
  have hsame := (List.forall₂_iff_get.mp hv).2 i (by omega) hi
  rw [List.get_eq_getElem, List.get_eq_getElem, hget] at hsame
  have hthere : w[i] = c := by
    rcases hc with rfl | rfl
    · exact hplain.lower_equals _ hsame
    · exact hplain.lower_space _ hsame
  exact hletter (hthere ▸ List.getElem_mem (by omega : i < w.length))

section

variable (hplain : PlainCharacters) (h : escape.IsEscape '=' u) (ho : '<' ∉ '=' :: u)
  (hg : '>' ∉ '=' :: u) (hc : c = '=' ∨ c = ' ')

include hplain h hc in
theorem endOf_blockClose_rewrite (hw : IsBlockName w) (rest : List Char) :
    blockClose.endOf isWord w ('<' :: escape.rewrite [c] rest) =
      (blockClose.endOf isWord w ('<' :: rest)).map (escape.rewrite [c]) := by
  have hspelling := (hw.spelling_not_mem hplain hc).2
  have hequals := (hw.spelling_not_mem hplain (Or.inl rfl)).2
  have hcs : c ≠ '/' ∧ c ≠ '>' := by rcases hc with rfl | rfl <;> decide
  apply Option.ext
  intro after
  rw [Option.map_eq_some_iff]
  constructor
  · intro hend
    obtain ⟨v, hv, hall⟩ := endOf_blockClose_iff.mp hend
    have htext : escape.rewrite [c] rest = ('/' :: (v ++ ['>'])) ++ after := by
      rw [(List.cons.inj hv).2]
      simp
    have hnot : c ∉ '/' :: (v ++ ['>']) := by
      simp [hcs, hspelling v hall]
    obtain ⟨tail, rfl, htail⟩ := Rule.exists_of_rewrite_eq_append hnot htext
    refine ⟨tail, endOf_blockClose_iff.mpr ⟨v, by simp, hall⟩, htail⟩
  · rintro ⟨tail, hend, rfl⟩
    obtain ⟨v, hv, hall⟩ := endOf_blockClose_iff.mp hend
    have htext : rest = ('/' :: (v ++ ['>'])) ++ tail := by
      rw [(List.cons.inj hv).2]
      simp
    have hnot : '=' ∉ '/' :: (v ++ ['>']) := by
      simp [hequals v hall]
    rw [htext, h.rewrite_append hnot]
    exact endOf_blockClose_iff.mpr ⟨v, by simp, hall⟩

include hplain h ho hc in
theorem endOf_blockOpened_rewrite (hw : IsBlockName w) (rest : List Char) :
    blockOpened.endOf isWord w ('>' :: escape.rewrite [c] rest) =
      (blockOpened.endOf isWord w ('>' :: rest)).map (escape.rewrite [c]) := by
  have hco : c ≠ '<' := by rcases hc with rfl | rfl <;> decide
  unfold blockOpened
  rw [endOf_seq_char _ blockBody_anchorFree, endOf_seq_char _ blockBody_anchorFree,
    if_pos (decide_eq_true rfl), if_pos (decide_eq_true rfl)]
  unfold blockBody
  rw [endOf_seq_few blockClose_anchorFree, endOf_seq_few blockClose_anchorFree]
  apply h.firstMatch_rewrite ho hco
  · rfl
  · intro x tail hx
    cases hend : blockClose.endOf isWord w (x :: tail) with
    | none => rfl
    | some after =>
        obtain ⟨v, hv, -⟩ := endOf_blockClose_iff.mp hend
        exact absurd (List.cons.inj hv).1 hx
  · exact endOf_blockClose_rewrite hplain h hc hw

include hplain h ho hg hc in
theorem scriptStyle_match?_rewrite (rest : List Char) :
    (scriptStyle.rule isWord).match? ('<' :: escape.rewrite [c] rest) =
      ((scriptStyle.rule isWord).match? ('<' :: rest)).map (escape.rewrite [c]) := by
  have hcg : c ≠ '>' := by rcases hc with rfl | rfl <;> decide
  have hfirst : ∀ w tail, IsBlockName w →
      firstMatch (fun _ => blockOpened.endOf isWord w) [] (escape.rewrite [c] tail) =
        (firstMatch (fun _ => blockOpened.endOf isWord w) [] tail).map
          (escape.rewrite [c]) := by
    intro w tail hw
    apply h.firstMatch_rewrite hg hcg
    · rfl
    · intro x tail hx
      unfold blockOpened
      rw [endOf_seq_char _ blockBody_anchorFree, if_neg (by simpa using hx)]
    · exact endOf_blockOpened_rewrite hplain h ho hc hw
  apply Option.ext
  intro after
  rw [Option.map_eq_some_iff, scriptStyle_match?_iff]
  constructor
  · rintro ⟨w, tail', hrest, hw, hend⟩
    obtain ⟨tail, rfl, rfl⟩ :=
      Rule.exists_of_rewrite_eq_append (hw.spelling_not_mem hplain hc).1 hrest
    rw [hfirst w tail hw, Option.map_eq_some_iff] at hend
    obtain ⟨after, hafter, rfl⟩ := hend
    exact ⟨after, scriptStyle_match?_iff.mpr ⟨w, tail, rfl, hw, hafter⟩, rfl⟩
  · rintro ⟨after, hmatch, rfl⟩
    obtain ⟨w, tail, rfl, hw, hend⟩ := scriptStyle_match?_iff.mp hmatch
    refine ⟨w, escape.rewrite [c] tail, ?_, hw, ?_⟩
    · exact h.rewrite_append (hw.spelling_not_mem hplain (Or.inl rfl)).1
    · rw [hfirst w tail hw, hend]
      rfl

include h hg hc in
omit [PythonText] in
theorem htmlTag_match?_rewrite (rest : List Char) :
    (htmlTag.rule isWord).match? ('<' :: escape.rewrite [c] rest) =
      ((htmlTag.rule isWord).match? ('<' :: rest)).map (escape.rewrite [c]) := by
  have hcg : c ≠ '>' := by rcases hc with rfl | rfl <;> decide
  cases hmatch : (htmlTag.rule isWord).match? ('<' :: rest) with
  | some after =>
      obtain ⟨s, hrest, hne, hs⟩ := htmlTag_match?_iff.mp hmatch
      obtain rfl : rest = s ++ '>' :: after := (List.cons.inj hrest).2
      rw [h.rewrite_append_cons hg]
      refine htmlTag_match?_iff.mpr ⟨escape.rewrite [c] s, rfl, ?_, ?_⟩
      · exact Rule.rewrite_ne_nil (List.cons_ne_nil c []) hne
      · intro hmem
        rcases Rule.mem_of_mem_rewrite hmem with hmem | hmem
        · exact hcg (List.mem_singleton.mp hmem).symm
        · exact hs hmem
  | none =>
      refine htmlTag_none_iff.mpr ?_
      refine (htmlTag_none_iff.mp hmatch).imp ?_ ?_
      · intro hhead
        obtain ⟨tail, rfl⟩ := List.head?_eq_some_iff.mp hhead
        rw [Rule.rewrite_of_none (h.match?_of_ne (by decide))]
        rfl
      · intro hnot hmem
        rcases Rule.mem_of_mem_rewrite hmem with hmem | hmem
        · exact hcg (List.mem_singleton.mp hmem).symm
        · exact hnot hmem

include hplain h ho hg hc in
/-- **Markup and escapes** may be taken out in either order. -/
theorem markup_rewrite_comm (hspace : ' ' ∉ '=' :: u) :
    (htmlTag.rule isWord).rewrite [' ']
        ((scriptStyle.rule isWord).rewrite [' '] (escape.rewrite [c] l)) =
      escape.rewrite [c]
        ((htmlTag.rule isWord).rewrite [' '] ((scriptStyle.rule isWord).rewrite [' '] l)) := by
  have hco : c ≠ '<' := by rcases hc with rfl | rfl <;> decide
  have hblocks : (scriptStyle.rule isWord).rewrite [' '] (escape.rewrite [c] l) =
      escape.rewrite [c] ((scriptStyle.rule isWord).rewrite [' '] l) := by
    apply h.rewrite_comm _ ho hco hspace
    · exact scriptStyle_match?_rewrite hplain h ho hg hc
    · intro x rest after hmatch
      obtain ⟨y, s, hs, -⟩ := exists_of_scriptStyle hmatch
      exact (List.cons.inj hs).1
  rw [hblocks]
  apply h.rewrite_comm _ ho hco hspace
  · exact htmlTag_match?_rewrite h hg hc
  · intro x rest after hmatch
    obtain ⟨s, hs, -⟩ := htmlTag_match?_iff.mp hmatch
    exact (List.cons.inj hs).1

end

end

end MailBody

end MailboxService
