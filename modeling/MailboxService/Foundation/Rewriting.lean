import Mathlib.Data.List.Infix
import MailboxService.Foundation.FirstMatch
import MailboxService.Foundation.Stretches

/-!
# One pass of rewriting

A rule matches some prefixes of a list. A pass goes through a list from the
left: where the rule matches, the match is replaced, and the pass goes on behind
it.

What is found in the result and has no element of the replacement was there
before (`infix_of_infix_rewrite`). A pass with nothing to match changes nothing,
and where each replacement is shorter than its match, every other pass makes the
list shorter (`length_rewrite_lt`).
-/

namespace MailboxService.Foundation

structure Rule (α : Type) where
  match? : List α → Option (List α)
  proper : ∀ l after, match? l = some after → after <:+ l ∧ after.length < l.length

namespace Rule

variable {α : Type}

def rewrite (rule : Rule α) (new : List α) : List α → List α
  | [] => []
  | x :: rest =>
      match h : rule.match? (x :: rest) with
      | some after =>
          have := (rule.proper _ _ h).2
          new ++ rewrite rule new after
      | none => x :: rewrite rule new rest
termination_by l => l.length
decreasing_by
  · assumption
  · exact Nat.lt_succ_self _

def Misses (rule : Rule α) (l : List α) : Prop := ∀ s, s <:+ l → rule.match? s = none

variable {rule : Rule α} {new l rest after w : List α} {x : α}

@[simp] theorem rewrite_nil : rule.rewrite new [] = [] := by
  rw [rewrite]

theorem rewrite_of_none (h : rule.match? (x :: rest) = none) :
    rule.rewrite new (x :: rest) = x :: rule.rewrite new rest := by
  rw [rewrite]
  split
  · rename_i h'
    rw [h] at h'
    cases h'
  · rfl

theorem rewrite_of_some (h : rule.match? (x :: rest) = some after) :
    rule.rewrite new (x :: rest) = new ++ rule.rewrite new after := by
  rw [rewrite]
  split
  · rename_i h'
    rw [h] at h'
    cases h'
    rfl
  · rename_i h'
    rw [h] at h'
    cases h'

theorem rewrite_induction {P : List α → Prop} (rule : Rule α) (nil : P [])
    (keep : ∀ x rest, rule.match? (x :: rest) = none → P rest → P (x :: rest))
    (replace : ∀ x rest after, rule.match? (x :: rest) = some after → P after → P (x :: rest))
    (l : List α) : P l := by
  induction hn : l.length using Nat.strongRecOn generalizing l with
  | ind n ih =>
      cases l with
      | nil => exact nil
      | cons x rest =>
          cases h : rule.match? (x :: rest) with
          | none => exact keep x rest h (ih _ (by simp [← hn]) rest rfl)
          | some after =>
              have hlt := (rule.proper _ _ h).2
              exact replace x rest after h (ih _ (hn ▸ hlt) after rfl)

theorem Misses.tail (h : rule.Misses (x :: rest)) : rule.Misses rest :=
  fun s hs => h s (hs.trans (List.suffix_cons x rest))

theorem rewrite_of_misses (h : rule.Misses l) : rule.rewrite new l = l := by
  induction l with
  | nil => exact rewrite_nil
  | cons x rest ih => rw [rewrite_of_none (h _ (List.suffix_refl _)), ih h.tail]

/-! ## Lengths -/

/-- Each match is longer than what replaces it. -/
def Shortens (rule : Rule α) (new : List α) : Prop :=
  ∀ l after, rule.match? l = some after → new.length + after.length < l.length

theorem length_rewrite_le (h : new.length ≤ 1) : (rule.rewrite new l).length ≤ l.length := by
  induction l using rewrite_induction rule with
  | nil => simp
  | keep x rest hmatch ih =>
      rw [rewrite_of_none hmatch, List.length_cons, List.length_cons]
      exact Nat.succ_le_succ ih
  | replace x rest after hmatch ih =>
      have hlt := (rule.proper _ _ hmatch).2
      rw [rewrite_of_some hmatch, List.length_append]
      omega

theorem length_rewrite_lt (hshort : rule.Shortens new) (hnew : new.length ≤ 1)
    (h : ¬ rule.Misses l) : (rule.rewrite new l).length < l.length := by
  induction l using rewrite_induction rule with
  | nil =>
      exfalso
      apply h
      intro s hs
      cases hmatch : rule.match? s with
      | none => rfl
      | some after =>
          have hlt := (rule.proper _ _ hmatch).2
          rw [List.suffix_nil.mp hs] at hlt
          cases hlt
  | keep x rest hmatch ih =>
      rw [rewrite_of_none hmatch, List.length_cons, List.length_cons]
      apply Nat.succ_lt_succ
      apply ih
      intro hrest
      apply h
      intro s hs
      rcases List.suffix_cons_iff.mp hs with rfl | hs
      · exact hmatch
      · exact hrest s hs
  | replace x rest after hmatch ih =>
      have hlt := hshort _ _ hmatch
      have hle : (rule.rewrite new after).length ≤ after.length := length_rewrite_le hnew
      rw [rewrite_of_some hmatch, List.length_append]
      omega

/-! ## What a pass leaves -/

theorem mem_of_mem_rewrite {c : α} (h : c ∈ rule.rewrite new l) : c ∈ new ∨ c ∈ l := by
  induction l using rewrite_induction rule with
  | nil =>
      rw [rewrite_nil] at h
      cases h
  | keep x rest hmatch ih =>
      rw [rewrite_of_none hmatch] at h
      rcases List.mem_cons.mp h with rfl | h
      · exact Or.inr (List.mem_cons_self ..)
      · exact (ih h).imp_right (List.mem_cons_of_mem x)
  | replace x rest after hmatch ih =>
      rw [rewrite_of_some hmatch] at h
      rcases List.mem_append.mp h with h | h
      · exact Or.inl h
      · exact (ih h).imp_right fun hmem => (rule.proper _ _ hmatch).1.subset hmem

theorem rewrite_ne_nil (hnew : new ≠ []) (hl : l ≠ []) : rule.rewrite new l ≠ [] := by
  obtain ⟨x, rest, rfl⟩ := List.exists_cons_of_ne_nil hl
  cases hmatch : rule.match? (x :: rest) with
  | none =>
      rw [rewrite_of_none hmatch]
      exact List.cons_ne_nil _ _
  | some after =>
      rw [rewrite_of_some hmatch]
      exact List.append_ne_nil_of_left_ne_nil hnew _

theorem prefix_of_prefix_rewrite (hnew : new ≠ []) (hw : ∀ c ∈ w, c ∉ new)
    (h : w <+: rule.rewrite new l) : w <+: l := by
  induction w generalizing l with
  | nil => exact List.nil_prefix
  | cons c w ih =>
      cases l with
      | nil =>
          rw [rewrite_nil, List.prefix_nil] at h
          cases h
      | cons x rest =>
          cases hmatch : rule.match? (x :: rest) with
          | none =>
              rw [rewrite_of_none hmatch, List.cons_prefix_cons] at h
              rw [List.cons_prefix_cons]
              exact ⟨h.1, ih (fun d hd => hw d (List.mem_cons_of_mem _ hd)) h.2⟩
          | some after =>
              -- a match would show the replacement first
              obtain ⟨d, new', rfl⟩ := List.exists_cons_of_ne_nil hnew
              rw [rewrite_of_some hmatch, List.cons_append, List.cons_prefix_cons] at h
              have hd := hw c (List.mem_cons_self ..)
              rw [h.1] at hd
              exact absurd (List.mem_cons_self ..) hd

/-- What begins with an element begins behind all that do not have it. -/
theorem infix_of_infix_append {c : α} {s t : List α} (hs : c ∉ s) (h : c :: w <:+: s ++ t) :
    c :: w <:+: t := by
  induction s with
  | nil => exact h
  | cons d s ih =>
      rw [List.mem_cons, not_or] at hs
      rw [List.cons_append] at h
      rcases List.infix_cons_iff.mp h with h | h
      · rw [List.cons_prefix_cons] at h
        exact absurd h.1 hs.1
      · exact ih hs.2 h

/-- What has none of some elements is found behind them. -/
theorem infix_of_infix_append_of_disjoint {s t : List α} (hne : w ≠ []) (hs : ∀ c ∈ s, c ∉ w)
    (h : w <:+: s ++ t) : w <:+: t := by
  obtain ⟨c, w, rfl⟩ := List.exists_cons_of_ne_nil hne
  apply infix_of_infix_append _ h
  exact fun hmem => hs c hmem (List.mem_cons_self ..)

/-- **What a pass shows was there before**, if it has nothing of the
replacement. -/
theorem infix_of_infix_rewrite (hnew : new ≠ []) (hw : ∀ c ∈ w, c ∉ new)
    (h : w <:+: rule.rewrite new l) : w <:+: l := by
  by_cases hne : w = []
  · rw [hne]
    exact List.nil_infix
  induction l using rewrite_induction rule with
  | nil => rwa [rewrite_nil] at h
  | keep x rest hmatch ih =>
      have hout := h
      rw [rewrite_of_none hmatch] at h
      rcases List.infix_cons_iff.mp h with h | h
      · apply List.IsPrefix.isInfix
        have hthere : w <+: rule.rewrite new (x :: rest) := by rwa [rewrite_of_none hmatch]
        exact prefix_of_prefix_rewrite hnew hw hthere
      · exact List.infix_cons (ih h)
  | replace x rest after hmatch ih =>
      rw [rewrite_of_some hmatch] at h
      have hafter := ih (infix_of_infix_append_of_disjoint hne (fun c hc hcw => hw c hcw hc) h)
      exact hafter.trans (rule.proper _ _ hmatch).1.isInfix

/-- A pass leaves nothing that the rule matches, if that has nothing of the
replacement. -/
theorem not_infix_rewrite (hnew : new ≠ []) (hw : ∀ c ∈ w, c ∉ new) (hne : w ≠ [])
    (hmatch : ∀ s, rule.match? (w ++ s) ≠ none) : ¬ w <:+: rule.rewrite new l := by
  induction l using rewrite_induction rule with
  | nil =>
      rw [rewrite_nil, List.infix_nil]
      exact hne
  | keep x rest hnone ih =>
      intro h
      rw [rewrite_of_none hnone] at h
      rcases List.infix_cons_iff.mp h with h | h
      · rw [← rewrite_of_none hnone] at h
        obtain ⟨s, hs⟩ := prefix_of_prefix_rewrite hnew hw h
        rw [← hs] at hnone
        exact hmatch s hnone
      · exact ih h
  | replace x rest after hsome ih =>
      rw [rewrite_of_some hsome]
      intro h
      exact ih (infix_of_infix_append_of_disjoint hne (fun c hc hcw => hw c hcw hc) h)

theorem infix_rewrite_of_infix (hne : w ≠ [])
    (hstart : ∀ l, w <+: l → rule.rewrite new l = w ++ rule.rewrite new (l.drop w.length))
    (hmatch : ∀ s after, rule.match? (s ++ after) = some after → ∀ c ∈ s, c ∉ w)
    (h : w <:+: l) : w <:+: rule.rewrite new l := by
  induction l using rewrite_induction rule with
  | nil => rwa [rewrite_nil]
  | keep x rest hnone ih =>
      rcases List.infix_cons_iff.mp h with h | h
      · rw [hstart _ h]
        exact List.IsPrefix.isInfix (List.prefix_append ..)
      · rw [rewrite_of_none hnone]
        exact List.infix_cons (ih h)
  | replace x rest after hsome ih =>
      obtain ⟨s, hs⟩ := (rule.proper _ _ hsome).1
      rw [← hs] at h hsome
      rw [rewrite_of_some (hs ▸ hsome)]
      have hafter := ih (infix_of_infix_append_of_disjoint hne (hmatch s after hsome) h)
      exact hafter.trans (List.suffix_append ..).isInfix

/-- **A pass leaves the stretches of a class** that neither its matches nor the
replacement have anything of. -/
theorem stretches_rewrite {p : α → Bool} (hne : new ≠ []) (hnew : ∀ x ∈ new, p x = false)
    (hmatch : ∀ s after, rule.match? (s ++ after) = some after → ∀ x ∈ s, p x = false) :
    stretches p (rule.rewrite new l) = stretches p l := by
  have hgap : ∀ (s t current : List α), s ≠ [] → (∀ x ∈ s, p x = false) →
      stretchesFrom p current (s ++ t) =
        (if current = [] then [] else [current]) ++ stretches p t := by
    intro s t current hs hall
    rw [stretchesFrom_of_head, stretches_gap_append hall]
    rw [List.head?_append_of_ne_nil _ hs]
    exact any_eq_false_iff.mpr fun x hx => hall x (List.mem_of_mem_head? hx)
  suffices hfrom : ∀ current, stretchesFrom p current (rule.rewrite new l) =
      stretchesFrom p current l from hfrom []
  induction l using rewrite_induction rule with
  | nil =>
      intro current
      rw [rewrite_nil]
  | keep x rest hnone ih =>
      intro current
      rw [rewrite_of_none hnone, stretchesFrom, stretchesFrom, ih, ih]
  | replace x rest after hsome ih =>
      intro current
      have hlt := (rule.proper _ _ hsome).2
      obtain ⟨s, hs⟩ := (rule.proper _ _ hsome).1
      have hsne : s ≠ [] := by
        rintro rfl
        rw [List.nil_append] at hs
        rw [hs] at hlt
        exact Nat.lt_irrefl _ hlt
      have hall := hmatch s after (hs ▸ hsome)
      rw [rewrite_of_some hsome, ← hs, hgap new _ current hne hnew, hgap s _ current hsne hall]
      exact congrArg _ (ih [])

/-! ## Images -/

section

variable {β : Type} {f : α → List β} {n : α} {v : List β}

theorem prefix_flatMap_of_rewrite (hn : f n ≠ []) (hv : ∀ y ∈ f n, y ∉ v)
    (h : v <+: (rule.rewrite [n] l).flatMap f) : v <+: l.flatMap f := by
  induction l using rewrite_induction rule generalizing v with
  | nil => rwa [rewrite_nil] at h
  | keep x rest hmatch ih =>
      rw [rewrite_of_none hmatch, List.flatMap_cons] at h
      rw [List.flatMap_cons]
      obtain ⟨t, ht⟩ := h
      rcases List.append_eq_append_iff.mp ht with ⟨u, hx, -⟩ | ⟨u, rfl, hrest⟩
      · rw [hx, List.append_assoc]
        exact List.prefix_append ..
      · have hu : u <+: rest.flatMap f := by
          apply ih
          · exact fun y hy hmem => hv y hy (List.mem_append_right _ hmem)
          · exact ⟨t, hrest.symm⟩
        exact (List.prefix_append_right_inj _).mpr hu
  | replace x rest after hmatch ih =>
      rw [rewrite_of_some hmatch, List.singleton_append, List.flatMap_cons] at h
      cases v with
      | nil => exact List.nil_prefix
      | cons y v =>
          obtain ⟨z, image, himage⟩ := List.exists_cons_of_ne_nil hn
          rw [himage, List.cons_append, List.cons_prefix_cons] at h
          have hy := hv y (by rw [himage, h.1]; exact List.mem_cons_self ..)
          exact absurd (List.mem_cons_self ..) hy

/-- What the image of a pass shows was there before, if it has nothing of the
image of the replacement. -/
theorem infix_flatMap_of_rewrite (hn : f n ≠ []) (hne : v ≠ []) (hv : ∀ y ∈ f n, y ∉ v)
    (h : v <:+: (rule.rewrite [n] l).flatMap f) : v <:+: l.flatMap f := by
  induction l using rewrite_induction rule with
  | nil => rwa [rewrite_nil] at h
  | keep x rest hmatch ih =>
      rw [rewrite_of_none hmatch, List.flatMap_cons] at h
      rw [List.flatMap_cons]
      obtain ⟨s, t, ht⟩ := h
      rw [List.append_assoc] at ht
      rcases List.append_eq_append_iff.mp ht with ⟨u, hx, hu⟩ | ⟨u, -, hrest⟩
      · -- it begins in the image of the first element
        rw [hx, List.append_assoc]
        refine List.IsInfix.trans ?_ (List.suffix_append s _).isInfix
        rcases List.append_eq_append_iff.mp hu with ⟨u', rfl, -⟩ | ⟨u', rfl, hrest⟩
        · rw [List.append_assoc]
          exact (List.prefix_append ..).isInfix
        · have hu' : u' <+: rest.flatMap f := by
            have hthere : u' <+: (rule.rewrite [n] rest).flatMap f := ⟨t, hrest.symm⟩
            apply prefix_flatMap_of_rewrite hn _ hthere
            exact fun y hy hmem => hv y hy (List.mem_append_right _ hmem)
          exact ((List.prefix_append_right_inj _).mpr hu').isInfix
      · have hafter : v <:+: rest.flatMap f :=
          ih ⟨u, t, by rw [List.append_assoc, hrest]⟩
        exact hafter.trans (List.suffix_append ..).isInfix
  | replace x rest after hmatch ih =>
      rw [rewrite_of_some hmatch, List.singleton_append, List.flatMap_cons] at h
      have hafter := ih (infix_of_infix_append_of_disjoint hne hv h)
      obtain ⟨s, hs⟩ := (rule.proper _ _ hmatch).1
      rw [← hs, List.flatMap_append]
      exact hafter.trans (List.suffix_append ..).isInfix

end

/-! ## Escapes -/

/-- The rule matches one text, which begins as it goes on nowhere. -/
structure IsEscape (rule : Rule α) (first : α) (u : List α) : Prop where
  matches_iff : ∀ l after, rule.match? l = some after ↔ l = first :: (u ++ after)
  once : first ∉ u

section

variable {escape : Rule α} {first c : α} {u s t : List α}

theorem IsEscape.match?_of_ne (h : escape.IsEscape first u) (hx : x ≠ first) :
    escape.match? (x :: rest) = none := by
  cases hmatch : escape.match? (x :: rest) with
  | none => rfl
  | some after => exact absurd (List.cons.inj ((h.matches_iff _ _).mp hmatch)).1 hx

/-- What does not begin an escape is kept. -/
theorem IsEscape.rewrite_append (h : escape.IsEscape first u) (hs : first ∉ s) :
    escape.rewrite new (s ++ t) = s ++ escape.rewrite new t := by
  induction s with
  | nil => rfl
  | cons x s ih =>
      rw [List.mem_cons, not_or] at hs
      rw [List.cons_append, rewrite_of_none (h.match?_of_ne (Ne.symm hs.1)), ih hs.2]
      rfl

/-- What is in no escape divides the text. -/
theorem IsEscape.rewrite_append_cons (h : escape.IsEscape first u) (hx : x ∉ first :: u) :
    escape.rewrite new (s ++ x :: t) =
      escape.rewrite new s ++ x :: escape.rewrite new t := by
  have hne : x ≠ first := fun heq => hx (heq ▸ List.mem_cons_self ..)
  induction s using rewrite_induction escape with
  | nil => rw [List.nil_append, rewrite_of_none (h.match?_of_ne hne), rewrite_nil, List.nil_append]
  | keep y s hmatch ih =>
      have hnone : escape.match? (y :: (s ++ x :: t)) = none := by
        cases hlong : escape.match? (y :: (s ++ x :: t)) with
        | none => rfl
        | some after =>
            -- an escape would have to end in front of the divider
            have heq := (h.matches_iff _ _).mp hlong
            rw [← List.cons_append, ← List.cons_append] at heq
            rcases List.append_eq_append_iff.mp heq with ⟨v, hv, hx'⟩ | ⟨v, hv, -⟩
            · cases v with
              | nil =>
                  rw [List.append_nil] at hv
                  have hthere : y :: s = first :: (u ++ []) := by rw [List.append_nil, hv]
                  rw [(h.matches_iff _ _).mpr hthere] at hmatch
                  cases hmatch
              | cons z v =>
                  obtain ⟨rfl, -⟩ := List.cons.inj hx'
                  exact absurd (hv ▸ List.mem_append_right _ (List.mem_cons_self ..)) hx
            · rw [(h.matches_iff _ _).mpr hv] at hmatch
              cases hmatch
      rw [List.cons_append, rewrite_of_none hnone, ih, rewrite_of_none hmatch]
      rfl
  | replace y s after hmatch ih =>
      have heq := (h.matches_iff _ _).mp hmatch
      have hlong : escape.match? (y :: (s ++ x :: t)) = some (after ++ x :: t) := by
        rw [h.matches_iff, ← List.cons_append, heq, List.cons_append, List.append_assoc]
      rw [List.cons_append, rewrite_of_some hlong, ih, rewrite_of_some hmatch,
        List.append_assoc]

/-- What a pass shows without a replacement is there, and the pass goes on behind. -/
theorem exists_of_rewrite_eq_append (hc : c ∉ s) (h : rule.rewrite [c] l = s ++ t) :
    ∃ l', l = s ++ l' ∧ rule.rewrite [c] l' = t := by
  induction s generalizing l with
  | nil => exact ⟨l, rfl, h⟩
  | cons x s ih =>
      rw [List.mem_cons, not_or] at hc
      cases l with
      | nil =>
          rw [rewrite_nil] at h
          cases h
      | cons y rest =>
          cases hmatch : rule.match? (y :: rest) with
          | none =>
              rw [rewrite_of_none hmatch, List.cons_append] at h
              obtain ⟨rfl, hrest⟩ := List.cons.inj h
              obtain ⟨l', rfl, h'⟩ := ih hc.2 hrest
              exact ⟨l', rfl, h'⟩
          | some after =>
              rw [rewrite_of_some hmatch] at h
              exact absurd (List.cons.inj h).1 hc.1

/-- Undoing one escape leaves another one where it was, and makes none. -/
theorem IsEscape.infix_rewrite_iff (h : escape.IsEscape first u) {v : List α} (hv : first ∉ v)
    (hc : c ∉ first :: v) (hother : ∀ t, ¬ v <+: u ++ t) :
    first :: v <:+: escape.rewrite [c] l ↔ first :: v <:+: l := by
  constructor
  · apply infix_of_infix_rewrite (List.cons_ne_nil c [])
    intro x hx hmem
    exact hc (List.mem_singleton.mp hmem ▸ hx)
  · intro hthere
    induction l using rewrite_induction escape with
    | nil => rwa [rewrite_nil]
    | keep x rest hmatch ih =>
        rw [rewrite_of_none hmatch]
        rcases List.infix_cons_iff.mp hthere with hthere | hthere
        · obtain ⟨rfl, t, rfl⟩ := List.cons_prefix_cons.mp hthere
          rw [h.rewrite_append hv, ← List.cons_append]
          exact (List.prefix_append ..).isInfix
        · exact List.infix_cons (ih hthere)
    | replace x rest after hmatch ih =>
        rw [rewrite_of_some hmatch]
        rw [(h.matches_iff _ _).mp hmatch] at hthere
        rcases List.infix_cons_iff.mp hthere with hthere | hthere
        · exact absurd (List.cons_prefix_cons.mp hthere).2 (hother after)
        · exact List.infix_cons (ih (infix_of_infix_append h.once hthere))

/-- **Undoing makes an escape** of one that is followed by its own end. -/
theorem IsEscape.infix_rewrite_self_iff (h : escape.IsEscape first u) :
    first :: u <:+: escape.rewrite [first] l ↔ first :: (u ++ u) <:+: l := by
  induction l using rewrite_induction escape with
  | nil => rw [rewrite_nil, List.infix_nil, List.infix_nil]; simp
  | keep x rest hmatch ih =>
      rw [rewrite_of_none hmatch, List.infix_cons_iff, List.infix_cons_iff, ih]
      apply or_congr_left
      -- neither begins here, since the escape does not
      apply iff_of_false
      · intro hthere
        obtain ⟨rfl, t, ht⟩ := List.cons_prefix_cons.mp hthere
        obtain ⟨after, rfl, -⟩ := exists_of_rewrite_eq_append h.once ht.symm
        rw [(h.matches_iff _ after).mpr rfl] at hmatch
        cases hmatch
      · intro hthere
        obtain ⟨rfl, after, rfl⟩ := List.cons_prefix_cons.mp hthere
        rw [List.append_assoc, (h.matches_iff _ (u ++ after)).mpr rfl] at hmatch
        cases hmatch
  | replace x rest after hmatch ih =>
      rw [rewrite_of_some hmatch, List.singleton_append, (h.matches_iff _ _).mp hmatch,
        List.infix_cons_iff, List.infix_cons_iff, ih, List.cons_prefix_cons,
        List.cons_prefix_cons, List.prefix_append_right_inj]
      apply or_congr
      · apply and_congr_right
        intro _
        constructor
        · rintro ⟨t, ht⟩
          obtain ⟨after', rfl, -⟩ := exists_of_rewrite_eq_append h.once ht.symm
          exact List.prefix_append ..
        · rintro ⟨t, rfl⟩
          rw [h.rewrite_append h.once]
          exact List.prefix_append ..
      · constructor
        · exact fun hthere => hthere.trans (List.suffix_append ..).isInfix
        · exact infix_of_infix_append h.once

/-- **Escapes and blocks**: what undoes escapes commutes with what replaces blocks,
where the opening element of a block is in no escape and each block ends where it
ends without the escapes. -/
theorem IsEscape.rewrite_comm (h : escape.IsEscape first u) {blocks : Rule α} {o n : α}
    (hopen : ∀ x rest after, blocks.match? (x :: rest) = some after → x = o)
    (ho : o ∉ first :: u) (hoc : c ≠ o) (hn : n ∉ first :: u)
    (hblocks : ∀ rest, blocks.match? (o :: escape.rewrite [c] rest) =
      (blocks.match? (o :: rest)).map (escape.rewrite [c])) :
    blocks.rewrite [n] (escape.rewrite [c] l) = escape.rewrite [c] (blocks.rewrite [n] l) := by
  have hof : o ≠ first := fun heq => ho (heq ▸ List.mem_cons_self ..)
  have hnf : n ≠ first := fun heq => hn (heq ▸ List.mem_cons_self ..)
  have hkeep : ∀ x rest, x ≠ o → blocks.match? (x :: rest) = none := by
    intro x rest hx
    cases hmatch : blocks.match? (x :: rest) with
    | none => rfl
    | some after => exact absurd (hopen x rest after hmatch) hx
  have hskip : ∀ s t : List α, o ∉ s →
      blocks.rewrite [n] (s ++ t) = s ++ blocks.rewrite [n] t := by
    intro s t hs
    induction s with
    | nil => rfl
    | cons x s ih =>
        rw [List.mem_cons, not_or] at hs
        rw [List.cons_append, rewrite_of_none (hkeep x _ (Ne.symm hs.1)), ih hs.2]
        rfl
  induction hlength : l.length using Nat.strongRecOn generalizing l with
  | ind k ih =>
      cases l with
      | nil => rw [rewrite_nil, rewrite_nil, rewrite_nil]
      | cons x rest =>
          cases hescape : escape.match? (x :: rest) with
          | some after =>
              have hlt := (escape.proper _ _ hescape).2
              have heq := (h.matches_iff _ _).mp hescape
              have hundone : escape.match? (first :: (u ++ blocks.rewrite [n] after)) =
                  some (blocks.rewrite [n] after) := (h.matches_iff _ _).mpr rfl
              rw [rewrite_of_some hescape, List.singleton_append, heq, ← List.cons_append,
                hskip _ _ ho, List.cons_append, rewrite_of_some hundone, List.singleton_append,
                rewrite_of_none (hkeep c _ hoc), ih _ (hlength ▸ hlt) rfl]
          | none =>
              rw [rewrite_of_none hescape]
              by_cases hx : x = o
              · subst hx
                cases hblock : blocks.match? (x :: rest) with
                | some after =>
                    have hlt := (blocks.proper _ _ hblock).2
                    have hundone : blocks.match? (x :: escape.rewrite [c] rest) =
                        some (escape.rewrite [c] after) := by rw [hblocks, hblock]; rfl
                    rw [rewrite_of_some hundone, ih _ (hlength ▸ hlt) rfl,
                      rewrite_of_some hblock, List.singleton_append, List.singleton_append,
                      rewrite_of_none (h.match?_of_ne hnf)]
                | none =>
                    have hundone : blocks.match? (x :: escape.rewrite [c] rest) = none := by
                      rw [hblocks, hblock]
                      rfl
                    rw [rewrite_of_none hundone, rewrite_of_none hblock,
                      rewrite_of_none (h.match?_of_ne hof), ih _ (by simp [← hlength]) rfl]
              · have hnone : escape.match? (x :: blocks.rewrite [n] rest) = none := by
                  cases hlong : escape.match? (x :: blocks.rewrite [n] rest) with
                  | none => rfl
                  | some after =>
                      -- the escape was there before
                      obtain ⟨rfl, hu⟩ := List.cons.inj ((h.matches_iff _ _).mp hlong)
                      have hnu : n ∉ u := fun hmem => hn (List.mem_cons_of_mem x hmem)
                      obtain ⟨l', rfl, -⟩ := exists_of_rewrite_eq_append hnu hu
                      rw [(h.matches_iff _ l').mpr rfl] at hescape
                      cases hescape
                rw [rewrite_of_none (hkeep x _ hx), rewrite_of_none (hkeep x _ hx),
                  rewrite_of_none hnone, ih _ (by simp [← hlength]) rfl]

/-- A search for what begins with an element that is in no escape commutes with
what undoes them. -/
theorem IsEscape.firstMatch_rewrite (h : escape.IsEscape first u) {g : List α → Option (List α)}
    {o : α} (ho : o ∉ first :: u) (hoc : c ≠ o) (hnil : g [] = none)
    (hskip : ∀ x rest, x ≠ o → g (x :: rest) = none)
    (hg : ∀ rest, g (o :: escape.rewrite [c] rest) =
      (g (o :: rest)).map (escape.rewrite [c])) (past past' : List α) :
    firstMatch (fun _ => g) past (escape.rewrite [c] l) =
      (firstMatch (fun _ => g) past' l).map (escape.rewrite [c]) := by
  have hpass : ∀ (s t past past' : List α), o ∉ s →
      firstMatch (fun _ => g) past (s ++ t) = firstMatch (fun _ => g) past' t := by
    have hpast : ∀ (t past past' : List α),
        firstMatch (fun _ => g) past t = firstMatch (fun _ => g) past' t := by
      intro t
      induction t with
      | nil => exact fun _ _ => rfl
      | cons x t ih => exact fun past past' => congrArg _ (ih (x :: past) (x :: past'))
    intro s t
    induction s with
    | nil => exact fun past past' _ => hpast t past past'
    | cons x s ih =>
        intro past past' hs
        rw [List.mem_cons, not_or] at hs
        rw [List.cons_append, firstMatch_of_none (hskip x _ (Ne.symm hs.1))]
        exact ih _ _ hs.2
  induction l using rewrite_induction escape generalizing past past' with
  | nil =>
      rw [rewrite_nil, firstMatch, firstMatch, hnil]
      rfl
  | keep x rest hmatch ih =>
      rw [rewrite_of_none hmatch, firstMatch, firstMatch, ih (x :: past) (x :: past')]
      by_cases hx : x = o
      · rw [hx, hg]
        cases g (o :: rest) <;> rfl
      · rw [hskip x _ hx, hskip x _ hx, Option.none_or, Option.none_or]
  | replace x rest after hmatch ih =>
      rw [rewrite_of_some hmatch, (h.matches_iff _ _).mp hmatch, ← List.cons_append,
        hpass _ after past' past' ho, hpass [c] _ past past (by simpa using Ne.symm hoc)]
      exact ih past past'

end

end Rule

end MailboxService.Foundation
