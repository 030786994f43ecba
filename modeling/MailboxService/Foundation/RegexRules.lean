import Mathlib.Data.List.Forall2
import MailboxService.Foundation.FirstMatch
import MailboxService.Foundation.Regex
import MailboxService.Foundation.Rewriting

/-!
# Patterns as rules

A pattern without anchors finds the same in front of it whatever there is
behind, so a substitution is one pass of a rule (`substitute_eq_rewrite`).
-/

namespace MailboxService.Foundation.Regex

/-- The pattern looks only at what comes. -/
def AnchorFree : Regex → Prop
  | .char _ | .again _ => True
  | .boundary | .atStart | .atLine => False
  | .seq a b | .alt a b => a.AnchorFree ∧ b.AnchorFree
  | .many a _ _ | .few a | .group a => a.AnchorFree

variable {isWord : Char → Bool} {c d : Cursor} {r : Regex}

/-! ## What a result has read -/

/-- The position `d` is some text further on. -/
def Reaches (c d : Cursor) : Prop :=
  ∃ text, c.rest = text ++ d.rest ∧ d.past = text.reverse ++ c.past

theorem Reaches.refl (c : Cursor) : Reaches c c := ⟨[], rfl, rfl⟩

theorem Reaches.trans {e : Cursor} (h : Reaches c d) (h' : Reaches d e) : Reaches c e := by
  obtain ⟨text, hrest, hpast⟩ := h
  obtain ⟨text', hrest', hpast'⟩ := h'
  refine ⟨text ++ text', ?_, ?_⟩
  · rw [hrest, hrest', List.append_assoc]
  · rw [hpast', hpast, List.reverse_append, List.append_assoc]

theorem reaches_of_mem_next {p : Char → Bool} (h : d ∈ c.next p) : Reaches c d := by
  obtain ⟨x, rest, hrest, -, rfl⟩ := mem_next.mp h
  exact ⟨[x], hrest, rfl⟩

theorem reaches_of_mem_follow {same : Char → Char → Bool} {text : List Char}
    (h : d ∈ c.follow same text) : Reaches c d := by
  induction text generalizing c with
  | nil =>
      rw [Cursor.follow, List.mem_singleton] at h
      rw [h]
      exact Reaches.refl c
  | cons x text ih =>
      obtain ⟨e, he, hd⟩ := List.mem_flatMap.mp h
      exact (reaches_of_mem_next he).trans (ih hd)

theorem reaches_of_mem_greedy {step : Cursor → List Cursor} {minimum maximum : ℕ}
    (hstep : ∀ c d, d ∈ step c → Reaches c d) (h : d ∈ greedy step minimum maximum c) :
    Reaches c d := by
  induction maximum generalizing minimum c with
  | zero =>
      unfold greedy at h
      split at h
      · rw [List.mem_singleton.mp h]
        exact Reaches.refl c
      · cases h
  | succ n ih =>
      unfold greedy at h
      rcases List.mem_append.mp h with h | h
      · obtain ⟨e, he, hd⟩ := List.mem_flatMap.mp h
        exact (hstep c e he).trans (ih hd)
      · split at h
        · rw [List.mem_singleton.mp h]
          exact Reaches.refl c
        · cases h

theorem reaches_of_mem_lazily {step : Cursor → List Cursor} {n : ℕ}
    (hstep : ∀ c d, d ∈ step c → Reaches c d) (h : d ∈ lazily step n c) : Reaches c d := by
  induction n generalizing c with
  | zero =>
      rw [lazily, List.mem_singleton] at h
      rw [h]
      exact Reaches.refl c
  | succ n ih =>
      rw [lazily] at h
      rcases List.mem_cons.mp h with rfl | h
      · exact Reaches.refl d
      · obtain ⟨e, he, hd⟩ := List.mem_flatMap.mp h
        exact (hstep c e he).trans (ih hd)

theorem reaches_of_mem_results (h : d ∈ r.results isWord c) : Reaches c d := by
  induction r generalizing c d with
  | char p => exact reaches_of_mem_next h
  | boundary =>
      rw [results] at h
      split at h
      · rw [List.mem_singleton.mp h]
        exact Reaches.refl c
      · cases h
  | atStart =>
      rw [results] at h
      split at h
      · rw [List.mem_singleton.mp h]
        exact Reaches.refl c
      · cases h
  | atLine =>
      rw [results] at h
      split at h
      · rw [List.mem_singleton.mp h]
        exact Reaches.refl c
      · cases h
  | seq a b iha ihb =>
      obtain ⟨e, he, hd⟩ := List.mem_flatMap.mp h
      exact (iha he).trans (ihb hd)
  | alt a b iha ihb =>
      rcases List.mem_append.mp h with h | h
      · exact iha h
      · exact ihb h
  | many a minimum maximum iha => exact reaches_of_mem_greedy (fun _ _ => iha) h
  | few a iha => exact reaches_of_mem_lazily (fun _ _ => iha) h
  | group a iha =>
      obtain ⟨e, he, rfl⟩ := List.mem_map.mp h
      exact iha (d := e) he
  | again same => exact reaches_of_mem_follow h

/-! ## What came before -/

/-- The position with more text before it. -/
def Cursor.behind (extra : List Char) (c : Cursor) : Cursor :=
  { c with past := c.past ++ extra }

variable {extra : List Char}

theorem next_behind (p : Char → Bool) (c : Cursor) :
    (c.behind extra).next p = (c.next p).map (Cursor.behind extra) := by
  unfold Cursor.next Cursor.behind
  cases c.rest with
  | nil => rfl
  | cons x rest =>
      simp only
      split <;> rfl

theorem follow_behind (same : Char → Char → Bool) (text : List Char) (c : Cursor) :
    (c.behind extra).follow same text = (c.follow same text).map (Cursor.behind extra) := by
  induction text generalizing c with
  | nil => rfl
  | cons x text ih =>
      rw [Cursor.follow, next_behind, List.flatMap_map, Cursor.follow, List.map_flatMap]
      congr 1
      funext d
      exact ih d

theorem greedy_behind {step : Cursor → List Cursor}
    (hstep : ∀ c, step (c.behind extra) = (step c).map (Cursor.behind extra))
    (minimum maximum : ℕ) (c : Cursor) :
    greedy step minimum maximum (c.behind extra) =
      (greedy step minimum maximum c).map (Cursor.behind extra) := by
  induction maximum generalizing minimum c with
  | zero =>
      unfold greedy
      split <;> rfl
  | succ n ih =>
      unfold greedy
      rw [hstep, List.flatMap_map, List.map_append, List.map_flatMap]
      congr 1
      · congr 1
        funext d
        exact ih _ d
      · split <;> rfl

theorem lazily_behind {step : Cursor → List Cursor}
    (hstep : ∀ c, step (c.behind extra) = (step c).map (Cursor.behind extra)) (n : ℕ)
    (c : Cursor) :
    lazily step n (c.behind extra) = (lazily step n c).map (Cursor.behind extra) := by
  induction n generalizing c with
  | zero => rfl
  | succ n ih =>
      rw [lazily, lazily, hstep, List.flatMap_map, List.map_cons, List.map_flatMap]
      congr 2
      funext d
      exact ih d

theorem textTo_behind (h : Reaches c d) :
    (c.behind extra).textTo (d.behind extra) = c.textTo d := by
  obtain ⟨text, -, hpast⟩ := h
  unfold Cursor.textTo Cursor.behind
  simp only [hpast, List.length_append, List.append_assoc]
  congr 1
  rw [Nat.add_sub_cancel, Nat.add_sub_cancel, List.take_left, List.take_left]

theorem results_behind (hfree : r.AnchorFree) (c : Cursor) :
    r.results isWord (c.behind extra) = (r.results isWord c).map (Cursor.behind extra) := by
  induction r generalizing c with
  | char p => exact next_behind p c
  | boundary => cases hfree
  | atStart => cases hfree
  | atLine => cases hfree
  | seq a b iha ihb =>
      rw [results, iha hfree.1, List.flatMap_map, results, List.map_flatMap]
      congr 1
      funext d
      exact ihb hfree.2 d
  | alt a b iha ihb =>
      rw [results, iha hfree.1, ihb hfree.2, results, List.map_append]
  | many a minimum maximum iha => exact greedy_behind (iha hfree) minimum _ c
  | few a iha => exact lazily_behind (iha hfree) _ c
  | group a iha =>
      rw [results, iha hfree, results, List.map_map, List.map_map]
      apply List.map_congr_left
      intro d hd
      show ({ d.behind extra with captured := _ } : Cursor) = Cursor.behind extra _
      rw [textTo_behind (reaches_of_mem_results hd)]
      rfl
  | again same => exact follow_behind same c.captured c

/-! ## Rules -/

/-- The pattern as a rule: what is behind its preferred match, if it matches a
text that is not empty. -/
def rule (isWord : Char → Bool) (r : Regex) : Rule Char where
  match? l :=
    ((r.results isWord ⟨[], l, []⟩).head?.map Cursor.rest).filter fun after =>
      after.length < l.length
  proper := by
    intro l after h
    rw [Option.filter_eq_some_iff, Option.map_eq_some_iff] at h
    obtain ⟨⟨d, hd, rfl⟩, hlt⟩ := h
    obtain ⟨text, hrest, -⟩ := reaches_of_mem_results (List.mem_of_mem_head? hd)
    exact ⟨⟨text, hrest.symm⟩, of_decide_eq_true hlt⟩

/-- **A substitution is a pass.** -/
theorem substitute_eq_rewrite (hfree : r.AnchorFree) (new text : String) :
    r.substitute isWord new text = .ofList ((r.rule isWord).rewrite new.toList text.toList) := by
  have hfrom : ∀ n past rest, rest.length ≤ n →
      r.substituteFrom isWord new.toList n past rest =
        (r.rule isWord).rewrite new.toList rest := by
    intro n
    induction n with
    | zero =>
        intro past rest hn
        rw [List.eq_nil_of_length_eq_zero (Nat.le_zero.mp hn), substituteFrom, Rule.rewrite_nil]
    | succ n ih =>
        intro past rest hn
        cases rest with
        | nil => rw [substituteFrom, Rule.rewrite_nil]
        | cons x rest =>
            rw [List.length_cons] at hn
            have hbehind : r.results isWord ⟨past, x :: rest, []⟩ =
                (r.results isWord ⟨[], x :: rest, []⟩).map (Cursor.behind past) :=
              results_behind hfree ⟨[], x :: rest, []⟩
            rw [substituteFrom, hbehind, List.head?_map]
            cases hhead : (r.results isWord ⟨[], x :: rest, []⟩).head? with
            | none =>
                have hmatch : (r.rule isWord).match? (x :: rest) = none := by
                  simp [rule, hhead]
                rw [Rule.rewrite_of_none hmatch, Option.map_none]
                exact congrArg (x :: ·) (ih _ rest (by omega))
            | some d =>
                rw [Option.map_some]
                show (if d.rest.length ≤ rest.length then
                    new.toList ++ r.substituteFrom isWord new.toList n _ d.rest
                  else _) = _
                by_cases hlt : d.rest.length ≤ rest.length
                · have hmatch : (r.rule isWord).match? (x :: rest) = some d.rest := by
                    simp [rule, hhead]
                    omega
                  rw [if_pos hlt, Rule.rewrite_of_some hmatch, ih _ d.rest (by omega)]
                · have hmatch : (r.rule isWord).match? (x :: rest) = none := by
                    simp [rule, hhead]
                    omega
                  rw [if_neg hlt, Rule.rewrite_of_none hmatch, ih _ rest (by omega)]
  unfold substitute
  rw [hfrom text.length [] text.toList (by rw [String.length_toList])]

/-! ## Where a match ends -/

/-- What is behind the preferred match at the front, with a group remembered. -/
def endOf (isWord : Char → Bool) (r : Regex) (captured l : List Char) : Option (List Char) :=
  (r.results isWord ⟨[], l, captured⟩).head?.map Cursor.rest

theorem head?_results (hfree : r.AnchorFree) (c : Cursor) :
    (r.results isWord c).head?.map Cursor.rest = r.endOf isWord c.captured c.rest := by
  have hbehind : r.results isWord c =
      (r.results isWord ⟨[], c.rest, c.captured⟩).map (Cursor.behind c.past) :=
    results_behind hfree ⟨[], c.rest, c.captured⟩
  rw [hbehind, List.head?_map, Option.map_map]
  rfl

theorem endOf_seq_char (p : Char → Bool) (hfree : r.AnchorFree) (captured : List Char)
    (x : Char) (rest : List Char) :
    (seq (.char p) r).endOf isWord captured (x :: rest) =
      if p x then r.endOf isWord captured rest else none := by
  unfold endOf
  rw [results, results, Cursor.next]
  by_cases hx : p x = true
  · rw [if_pos hx]
    simp only [hx, if_true, List.flatMap_singleton]
    exact head?_results hfree _
  · rw [if_neg hx]
    simp [hx]

/-- Where the first part of a pattern matches in one way, the second goes on. -/
theorem endOf_seq_of_unique {a b : Regex} {l captured : List Char} (hfree : b.AnchorFree)
    (hmem : d ∈ a.results isWord ⟨[], l, captured⟩)
    (hall : ∀ e ∈ a.results isWord ⟨[], l, captured⟩, e = d) :
    (seq a b).endOf isWord captured l = b.endOf isWord d.captured d.rest := by
  unfold endOf
  rw [results, ← endOf, ← head?_results hfree]
  congr 1
  cases hb : b.results isWord d with
  | nil =>
      rw [List.flatMap_eq_nil_iff.mpr]
      intro e he
      rw [hall e he, hb]
  | cons first others =>
      cases ha : a.results isWord ⟨[], l, captured⟩ with
      | nil =>
          rw [ha] at hmem
          cases hmem
      | cons e rest =>
          have he : e = d := hall e (by rw [ha]; exact List.mem_cons_self ..)
          rw [List.flatMap_cons, he, hb]
          rfl

/-- Behind any text, the first place counts where the rest matches. -/
theorem endOf_seq_few (hfree : r.AnchorFree) (captured l : List Char) :
    (seq (.few (.char fun _ => true)) r).endOf isWord captured l =
      firstMatch (fun _ => r.endOf isWord captured) [] l := by
  have hfrom : ∀ (l past past' : List Char),
      ((lazily (Cursor.next fun _ => true) l.length ⟨past, l, captured⟩).flatMap
          (r.results isWord)).head?.map Cursor.rest =
        firstMatch (fun _ => r.endOf isWord captured) past' l := by
    intro l
    induction l with
    | nil =>
        intro past past'
        rw [List.length_nil, lazily, List.flatMap_singleton, head?_results hfree, firstMatch]
    | cons x l ih =>
        intro past past'
        have hnext : Cursor.next (fun _ => true) ⟨past, x :: l, captured⟩ =
            [⟨x :: past, l, captured⟩] := rfl
        rw [List.length_cons, lazily, hnext, List.flatMap_singleton, List.flatMap_cons,
          List.head?_append, firstMatch, ← ih (x :: past) (x :: past')]
        have hhere : (r.results isWord ⟨past, x :: l, captured⟩).head?.map Cursor.rest =
            r.endOf isWord captured (x :: l) := head?_results hfree _
        rw [← hhere]
        cases (r.results isWord ⟨past, x :: l, captured⟩).head? <;> rfl
  exact hfrom l [] []

theorem endOf_eq_some {l after captured : List Char}
    (hmem : ∃ d, d ∈ r.results isWord ⟨[], l, captured⟩)
    (hall : ∀ d ∈ r.results isWord ⟨[], l, captured⟩, d.rest = after) :
    r.endOf isWord captured l = some after := by
  unfold endOf
  cases hhead : (r.results isWord ⟨[], l, captured⟩).head? with
  | none =>
      obtain ⟨d, hd⟩ := hmem
      rw [List.head?_eq_none_iff.mp hhead] at hd
      cases hd
  | some d => rw [Option.map_some, hall d (List.mem_of_mem_head? hhead)]

theorem exists_of_endOf {l after captured : List Char}
    (h : r.endOf isWord captured l = some after) :
    ∃ d ∈ r.results isWord ⟨[], l, captured⟩, d.rest = after := by
  obtain ⟨d, hd, hafter⟩ := Option.map_eq_some_iff.mp h
  exact ⟨d, List.mem_of_mem_head? hd, hafter⟩

/-- The group once more reads a text that is the same. -/
theorem mem_follow {same : Char → Char → Bool} {text : List Char} :
    d ∈ c.follow same text ↔
      ∃ w after, c.rest = w ++ after ∧ List.Forall₂ (fun x y => same x y = true) text w ∧
        d = ⟨w.reverse ++ c.past, after, c.captured⟩ := by
  induction text generalizing c with
  | nil =>
      rw [Cursor.follow, List.mem_singleton]
      constructor
      · rintro rfl
        exact ⟨[], d.rest, rfl, .nil, rfl⟩
      · rintro ⟨w, after, hrest, hw, rfl⟩
        cases hw
        obtain ⟨past, rest, captured⟩ := c
        obtain rfl : rest = after := hrest
        rfl
  | cons x text ih =>
      rw [Cursor.follow, List.mem_flatMap]
      constructor
      · rintro ⟨e, he, hd⟩
        obtain ⟨y, rest, hrest, hx, rfl⟩ := mem_next.mp he
        obtain ⟨w, after, hafter, hw, rfl⟩ := ih.mp hd
        refine ⟨y :: w, after, ?_, .cons hx hw, ?_⟩
        · rw [hrest]
          exact congrArg (y :: ·) hafter
        · rw [List.reverse_cons, List.append_assoc]
          rfl
      · rintro ⟨w, after, hrest, hw, rfl⟩
        cases hw with
        | @cons _ y _ w hx hw =>
            refine ⟨⟨y :: c.past, w ++ after, c.captured⟩,
              mem_next.mpr ⟨y, w ++ after, hrest, hx, rfl⟩, ih.mpr ⟨w, after, rfl, hw, ?_⟩⟩
            rw [List.reverse_cons, List.append_assoc]
            rfl

/-! ## Particular rules -/

variable {l after : List Char}

theorem match?_eq_some (hmem : ∃ d, d ∈ r.results isWord ⟨[], l, []⟩)
    (hall : ∀ d ∈ r.results isWord ⟨[], l, []⟩, d.rest = after) (hlt : after.length < l.length) :
    (r.rule isWord).match? l = some after := by
  show (r.endOf isWord [] l).filter _ = some after
  rw [endOf_eq_some hmem hall]
  simpa using hlt

theorem exists_of_match? (h : (r.rule isWord).match? l = some after) :
    ∃ d ∈ r.results isWord ⟨[], l, []⟩, d.rest = after := by
  have hend : (r.endOf isWord [] l).filter (fun after => after.length < l.length) = some after := h
  rw [Option.filter_eq_some_iff] at hend
  exact exists_of_endOf hend.1

theorem match?_eq_none (h : ∀ d, d ∉ r.results isWord ⟨[], l, []⟩) :
    (r.rule isWord).match? l = none := by
  cases hmatch : (r.rule isWord).match? l with
  | none => rfl
  | some after =>
      obtain ⟨d, hd, -⟩ := exists_of_match? hmatch
      exact absurd hd (h d)

theorem search_eq_none_iff {text : String} : r.search isWord text = none ↔
    ∀ a b, text.toList = a ++ b → r.results isWord ⟨a.reverse, b, []⟩ = [] := by
  have hgroup : r.search isWord text = none ↔ firstMatch (r.groupAt isWord) [] text.toList = none := by
    rw [← Option.map_eq_none_iff (f := String.ofList), ← searchGroup_eq_firstMatch]
    exact Option.map_eq_none_iff.symm
  rw [hgroup]
  constructor
  · intro h a b htext
    have hnone := eq_none_of_firstMatch h htext
    rw [List.append_nil, groupAt, Option.map_eq_none_iff, List.head?_eq_none_iff] at hnone
    exact hnone
  · intro h
    cases hfound : firstMatch (r.groupAt isWord) [] text.toList with
    | none => rfl
    | some s =>
        obtain ⟨a, b, htext, hhere, -⟩ := exists_of_firstMatch hfound
        rw [List.append_nil, groupAt, h a b htext] at hhere
        cases hhere

theorem misses_of_search (hfree : r.AnchorFree) {text : String}
    (h : r.search isWord text = none) : (r.rule isWord).Misses text.toList := by
  rintro s ⟨a, ha⟩
  apply match?_eq_none
  intro d hd
  have hbehind : r.results isWord ⟨a.reverse, s, []⟩ =
      (r.results isWord ⟨[], s, []⟩).map (Cursor.behind a.reverse) :=
    results_behind hfree ⟨[], s, []⟩
  rw [search_eq_none_iff.mp h _ _ ha.symm, eq_comm, List.map_eq_nil_iff] at hbehind
  rw [hbehind] at hd
  cases hd

theorem mem_results_literal {same : Char → Char → Bool} {text : String} (htext : text ≠ "") :
    d ∈ (literal same text).results isWord c ↔
      ∃ w after, c.rest = w ++ after ∧ List.Forall₂ (fun x y => same x y = true) text.toList w ∧
        d = ⟨w.reverse ++ c.past, after, c.captured⟩ := by
  have hchars : ∀ (u : List Char) (c : Cursor), u ≠ [] →
      (d ∈ (chars (u.map same)).results isWord c ↔
        ∃ w after, c.rest = w ++ after ∧ List.Forall₂ (fun x y => same x y = true) u w ∧
          d = ⟨w.reverse ++ c.past, after, c.captured⟩) := by
    intro u
    induction u with
    | nil =>
        intro c hu
        exact absurd rfl hu
    | cons x u ih =>
        intro c _
        cases u with
        | nil =>
            show d ∈ c.next (same x) ↔ _
            rw [mem_next]
            constructor
            · rintro ⟨y, rest, hrest, hx, rfl⟩
              exact ⟨[y], rest, hrest, .cons hx .nil, rfl⟩
            · rintro ⟨w, after, hrest, hw, rfl⟩
              cases hw with
              | cons hx hnil =>
                  cases hnil
                  exact ⟨_, after, hrest, hx, rfl⟩
        | cons z u =>
            show d ∈ (c.next (same x)).flatMap _ ↔ _
            rw [List.mem_flatMap]
            constructor
            · rintro ⟨e, he, hd⟩
              obtain ⟨y, rest, hrest, hx, rfl⟩ := mem_next.mp he
              obtain ⟨w, after, hafter, hw, rfl⟩ := (ih _ (List.cons_ne_nil z u)).mp hd
              refine ⟨y :: w, after, ?_, .cons hx hw, ?_⟩
              · rw [hrest]
                exact congrArg (y :: ·) hafter
              · rw [List.reverse_cons, List.append_assoc]
                rfl
            · rintro ⟨w, after, hrest, hw, rfl⟩
              cases hw with
              | @cons _ y _ w hx hw =>
                  refine ⟨⟨y :: c.past, w ++ after, c.captured⟩,
                    mem_next.mpr ⟨y, w ++ after, hrest, hx, rfl⟩, ?_⟩
                  refine (ih _ (List.cons_ne_nil z u)).mpr ⟨w, after, rfl, hw, ?_⟩
                  rw [List.reverse_cons, List.append_assoc]
                  rfl
  exact hchars text.toList c (by simpa using htext)

/-- A literal text without regard to anything reads itself. -/
theorem mem_results_literal_eq {text : String} (htext : text ≠ "") :
    d ∈ (literal (· == ·) text).results isWord c ↔
      ∃ after, c.rest = text.toList ++ after ∧
        d = ⟨text.toList.reverse ++ c.past, after, c.captured⟩ := by
  have hsame : ∀ u w : List Char, List.Forall₂ (fun x y => (x == y) = true) u w ↔ u = w := by
    intro u w
    simp only [beq_iff_eq]
    exact iff_of_eq (congrFun₂ List.forall₂_eq_eq_eq u w)
  rw [mem_results_literal htext]
  constructor
  · rintro ⟨w, after, hrest, hw, rfl⟩
    rw [hsame] at hw
    rw [hw]
    exact ⟨after, hrest, rfl⟩
  · rintro ⟨after, hrest, rfl⟩
    exact ⟨text.toList, after, hrest, (hsame _ _).mpr rfl, rfl⟩

theorem literal_anchorFree {same : Char → Char → Bool} (text : String) :
    (literal same text).AnchorFree := by
  have hchars : ∀ ps : List (Char → Bool), (chars ps).AnchorFree := by
    intro ps
    induction ps with
    | nil => trivial
    | cons p ps ih =>
        cases ps with
        | nil => trivial
        | cons q ps => exact ⟨trivial, ih⟩
  exact hchars _

theorem literal_match?_iff {text : String} (htext : text ≠ "") :
    ((literal (· == ·) text).rule isWord).match? l = some after ↔ l = text.toList ++ after := by
  constructor
  · intro h
    obtain ⟨d, hd, rfl⟩ := exists_of_match? h
    obtain ⟨after, hrest, rfl⟩ := (mem_results_literal_eq htext).mp hd
    exact hrest
  · rintro rfl
    apply match?_eq_some
    · exact ⟨_, (mem_results_literal_eq htext).mpr ⟨after, rfl, rfl⟩⟩
    · intro d hd
      obtain ⟨after', hrest, rfl⟩ := (mem_results_literal_eq htext).mp hd
      exact (List.append_cancel_left hrest).symm
    · have hpos : 0 < text.toList.length := by
        apply List.length_pos_of_ne_nil
        simpa using htext
      rw [List.length_append]
      omega

/-- As many characters of a class as there are, where no more are allowed. -/
theorem head?_greedy {p : Char → Bool} {minimum maximum : ℕ}
    (hmax : (c.rest.takeWhile p).length ≤ maximum) :
    (greedy (Cursor.next p) minimum maximum c).head? =
      if minimum ≤ (c.rest.takeWhile p).length then
        some ⟨(c.rest.takeWhile p).reverse ++ c.past, c.rest.dropWhile p, c.captured⟩
      else none := by
  induction maximum generalizing minimum c with
  | zero =>
      obtain ⟨past, rest, captured⟩ := c
      have htake := List.eq_nil_of_length_eq_zero (Nat.le_zero.mp hmax)
      have hboth := List.takeWhile_append_dropWhile (p := p) (l := rest)
      dsimp only at htake
      rw [htake, List.nil_append] at hboth
      unfold greedy
      simp only [htake, hboth]
      cases minimum <;> simp
  | succ n ih =>
      obtain ⟨past, rest, captured⟩ := c
      unfold greedy
      cases rest with
      | nil =>
          have hnext : Cursor.next p ⟨past, [], captured⟩ = [] := rfl
          rw [hnext]
          cases minimum <;> simp
      | cons x rest =>
          by_cases hx : p x = true
          · have hnext : Cursor.next p ⟨past, x :: rest, captured⟩ =
                [⟨x :: past, rest, captured⟩] := by
              simp [Cursor.next, hx]
            rw [List.takeWhile_cons_of_pos hx, List.length_cons, Nat.succ_le_succ_iff] at hmax
            rw [hnext, List.flatMap_singleton, List.head?_append, ih hmax]
            rw [List.takeWhile_cons_of_pos hx, List.dropWhile_cons_of_pos hx]
            cases minimum with
            | zero => simp
            | succ minimum =>
                simp only [Nat.add_sub_cancel, List.length_cons, Nat.succ_le_succ_iff]
                split <;> simp
          · have hnext : Cursor.next p ⟨past, x :: rest, captured⟩ = [] := by
              simp [Cursor.next, hx]
            rw [hnext, List.takeWhile_cons_of_neg hx, List.dropWhile_cons_of_neg hx]
            cases minimum <;> simp

theorem run_match? (p : Char → Bool) (x : Char) (rest : List Char) :
    ((many (.char p) 1 none).rule isWord).match? (x :: rest) =
      if p x then some (rest.dropWhile p) else none := by
  have hhead : ((many (.char p) 1 none).results isWord ⟨[], x :: rest, []⟩).head? = _ :=
    head?_greedy (c := ⟨[], x :: rest, []⟩) (List.takeWhile_sublist _).length_le
  have hle := (List.dropWhile_suffix p (l := rest)).length_le
  by_cases hx : p x = true
  · rw [List.takeWhile_cons_of_pos hx, List.dropWhile_cons_of_pos hx] at hhead
    simp only [rule, hhead, List.length_cons]
    simp [hx]
    omega
  · rw [List.takeWhile_cons_of_neg hx] at hhead
    simp only [rule, hhead]
    simp [hx]

end MailboxService.Foundation.Regex
