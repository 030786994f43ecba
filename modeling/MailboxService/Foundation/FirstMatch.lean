import Mathlib.Data.List.Basic

/-!
# Leftmost matches

A search over a list tries each of its positions from left to right, and takes
what the first one has to give. What a position gives depends on the elements
before it, with the nearest one first, and on those behind it.
-/

namespace MailboxService.Foundation

variable {α β : Type}

/-- The leftmost match at or behind a position. -/
def firstMatch (f : List α → List α → Option β) (past : List α) : List α → Option β
  | [] => f past []
  | x :: rest => (f past (x :: rest)).or (firstMatch f (x :: past) rest)

/-- A position of a text that a match is found at, and at no position before. -/
structure IsFirstMatch (f : List α → List α → Option β) (text before after : List α) (b : β) :
    Prop where
  text_eq : text = before ++ after
  here : f before.reverse after = some b
  first : ∀ before' after', text = before' ++ after' → before'.length < before.length →
    f before'.reverse after' = none

variable {f g : List α → List α → Option β}

theorem firstMatch_of_none {past : List α} {x : α} {rest : List α}
    (h : f past (x :: rest) = none) :
    firstMatch f past (x :: rest) = firstMatch f (x :: past) rest := by
  rw [firstMatch, h, Option.none_or]

theorem firstMatch_of_some {past rest : List α} {b : β} (h : f past rest = some b) :
    firstMatch f past rest = some b := by
  cases rest with
  | nil => exact h
  | cons x rest => rw [firstMatch, h, Option.some_or]

theorem firstMatch_append {skipped : List α} {past rest : List α}
    (h : ∀ a b, skipped = a ++ b → b ≠ [] → f (a.reverse ++ past) (b ++ rest) = none) :
    firstMatch f past (skipped ++ rest) = firstMatch f (skipped.reverse ++ past) rest := by
  induction skipped generalizing past with
  | nil => rfl
  | cons x more ih =>
      have hhere : f past (x :: (more ++ rest)) = none :=
        h [] (x :: more) rfl (List.cons_ne_nil _ _)
      rw [List.cons_append, firstMatch_of_none hhere, ih, List.reverse_cons, List.append_assoc,
        List.singleton_append]
      intro a b hab hb
      have := h (x :: a) b (by rw [hab, List.cons_append]) hb
      rwa [List.reverse_cons, List.append_assoc] at this

theorem firstMatch_congr {past rest : List α}
    (h : ∀ a b, rest = a ++ b → f (a.reverse ++ past) b = g (a.reverse ++ past) b) :
    firstMatch f past rest = firstMatch g past rest := by
  induction rest generalizing past with
  | nil => exact h [] [] rfl
  | cons x rest ih =>
      have hhere : f past (x :: rest) = g past (x :: rest) := h [] (x :: rest) rfl
      rw [firstMatch, firstMatch, hhere, ih]
      intro a b hab
      have := h (x :: a) b (by rw [hab, List.cons_append])
      rwa [List.reverse_cons, List.append_assoc] at this

theorem exists_of_firstMatch {past rest : List α} {b : β} (h : firstMatch f past rest = some b) :
    ∃ before after, rest = before ++ after ∧ f (before.reverse ++ past) after = some b ∧
      ∀ before' after', rest = before' ++ after' → before'.length < before.length →
        f (before'.reverse ++ past) after' = none := by
  induction rest generalizing past with
  | nil => exact ⟨[], [], rfl, h, fun _ _ _ hlt => absurd hlt (Nat.not_lt_zero _)⟩
  | cons x rest ih =>
      rw [firstMatch] at h
      rcases Option.or_eq_some_iff.mp h with h | ⟨hnone, h⟩
      · exact ⟨[], x :: rest, rfl, h, fun _ _ _ hlt => absurd hlt (Nat.not_lt_zero _)⟩
      · obtain ⟨before, after, rfl, hfound, hfirst⟩ := ih h
        refine ⟨x :: before, after, rfl, ?_, ?_⟩
        · rw [List.reverse_cons, List.append_assoc]
          exact hfound
        · intro before' after' heq hlt
          cases before' with
          | nil =>
              rw [List.nil_append] at heq
              rw [← heq]
              exact hnone
          | cons y more =>
              rw [List.cons_append, List.cons.injEq] at heq
              rw [List.reverse_cons, List.append_assoc, ← heq.1]
              exact hfirst more after' heq.2 (by simpa using hlt)

/-- Where nothing is found, no position gives a match. -/
theorem eq_none_of_firstMatch {past rest : List α} (h : firstMatch f past rest = none)
    {a b : List α} (hab : rest = a ++ b) : f (a.reverse ++ past) b = none := by
  induction rest generalizing past a with
  | nil =>
      obtain ⟨rfl, rfl⟩ := List.append_eq_nil_iff.mp hab.symm
      exact h
  | cons x rest ih =>
      rw [firstMatch, Option.or_eq_none_iff] at h
      cases a with
      | nil =>
          rw [List.nil_append] at hab
          rw [← hab]
          exact h.1
      | cons y more =>
          rw [List.cons_append, List.cons.injEq] at hab
          rw [List.reverse_cons, List.append_assoc, ← hab.1]
          exact ih h.2 hab.2

/-- **The leftmost match** is the one at the first position that gives one. -/
theorem firstMatch_eq_some {text : List α} {b : β} :
    firstMatch f [] text = some b ↔ ∃ before after, IsFirstMatch f text before after b := by
  constructor
  · intro h
    obtain ⟨before, after, htext, hfound, hfirst⟩ := exists_of_firstMatch h
    rw [List.append_nil] at hfound
    refine ⟨before, after, htext, hfound, ?_⟩
    intro before' after' heq hlt
    rw [← List.append_nil before'.reverse]
    exact hfirst before' after' heq hlt
  · rintro ⟨before, after, htext, hfound, hfirst⟩
    have hskip : ∀ a b, before = a ++ b → b ≠ [] →
        f (a.reverse ++ []) (b ++ after) = none := by
      intro a b hab hb
      rw [List.append_nil]
      refine hfirst a (b ++ after) (by rw [htext, hab, List.append_assoc]) ?_
      rw [hab, List.length_append]
      exact Nat.lt_add_of_pos_right (List.length_pos_iff.mpr hb)
    rw [htext, firstMatch_append hskip, List.append_nil]
    exact firstMatch_of_some hfound

/-- **A search agrees with a stricter one**, up to what is made of a match, exactly
if its first match passes the stricter one as well, or is repeated by the first
that does. -/
theorem firstMatch_map_eq_iff {γ : Type} (u : β → γ)
    (hstrict : ∀ past rest b, g past rest = some b → f past rest = some b) (text : List α) :
    (firstMatch f [] text).map u = (firstMatch g [] text).map u ↔
      ∀ before after b, IsFirstMatch f text before after b →
        g before.reverse after = some b ∨ (firstMatch g [] text).map u = some (u b) := by
  constructor
  · intro h before after b hfirst
    rw [← h, firstMatch_eq_some.mpr ⟨before, after, hfirst⟩]
    exact Or.inr rfl
  · intro h
    cases hf : firstMatch f [] text with
    | none =>
        cases hg : firstMatch g [] text with
        | none => rfl
        | some b =>
            -- the match of the stricter search is one of the other
            exfalso
            obtain ⟨before, after, htext, hfound, -⟩ := firstMatch_eq_some.mp hg
            have hnone := eq_none_of_firstMatch hf htext
            rw [List.append_nil, hstrict _ _ _ hfound] at hnone
            cases hnone
    | some b =>
        obtain ⟨before, after, hfirst⟩ := firstMatch_eq_some.mp hf
        rcases h before after b hfirst with hg | hg
        · have hsame : firstMatch g [] text = some b := by
            refine firstMatch_eq_some.mpr ⟨before, after, hfirst.text_eq, hg, ?_⟩
            intro before' after' heq hlt
            cases hearly : g before'.reverse after' with
            | none => rfl
            | some b' =>
                have := hfirst.first before' after' heq hlt
                rw [hstrict _ _ _ hearly] at this
                cases this
          rw [hsame]
        · exact hg.symm

end MailboxService.Foundation
