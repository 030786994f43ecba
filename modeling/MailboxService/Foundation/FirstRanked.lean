import Mathlib.Data.List.Nodup
import Mathlib.Data.List.Sort
import Mathlib.Order.Basic

/-!
# The first few of an order

`ORDER BY key LIMIT n` over elements with distinct keys. An element is among the
first `n` if fewer than `n` are ahead of it. Whether the first few also come first by
another measure depends on the pairs that the two order differently: none of them may
lie on both sides of the limit.
-/

namespace MailboxService.Foundation

variable {α κ τ : Type*} [LinearOrder κ] [LinearOrder τ]

def firstRanked (key : α → κ) (n : ℕ) (l : List α) : List α :=
  (l.insertionSort fun a b => key a ≤ key b).take n

/-- How many elements are ahead of one. -/
def ahead (key : α → κ) (l : List α) (a : α) : ℕ := l.countP fun b => key b < key a

variable {key : α → κ} {l : List α} {n : ℕ} {a b : α}

theorem mem_take_iff_of_sorted (hsorted : l.Pairwise fun a b => key a < key b) (ha : a ∈ l) :
    a ∈ l.take n ↔ ahead key l a < n := by
  unfold ahead
  induction l generalizing n with
  | nil => exact absurd ha List.not_mem_nil
  | cons x rest ih =>
      obtain ⟨hfirst, hrest⟩ := List.pairwise_cons.mp hsorted
      cases n with
      | zero => simp
      | succ n =>
          rw [List.take_succ_cons, List.mem_cons]
          by_cases hax : a = x
          · -- nobody is ahead of the first
            subst hax
            have hnone : (a :: rest).countP (fun b => decide (key b < key a)) = 0 := by
              refine List.countP_eq_zero.mpr ?_
              intro b hb
              rw [decide_eq_true_eq]
              rcases List.mem_cons.mp hb with rfl | hb
              · exact lt_irrefl _
              · exact (hfirst b hb).not_gt
            rw [hnone]
            exact ⟨fun _ => Nat.succ_pos n, fun _ => Or.inl rfl⟩
          · have hmem : a ∈ rest := (List.mem_cons.mp ha).resolve_left hax
            have hcount : (x :: rest).countP (fun b => decide (key b < key a)) =
                rest.countP (fun b => decide (key b < key a)) + 1 :=
              List.countP_cons_of_pos (decide_eq_true (hfirst a hmem))
            rw [hcount, Nat.succ_lt_succ_iff, ← ih hrest hmem]
            exact or_iff_right hax

theorem mem_firstRanked (hnodup : l.Nodup) (hkey : ∀ a ∈ l, ∀ b ∈ l, key a = key b → a = b)
    (ha : a ∈ l) : a ∈ firstRanked key n l ↔ ahead key l a < n := by
  have hperm := List.perm_insertionSort (fun a b => key a ≤ key b) l
  have hle : (l.insertionSort fun a b => key a ≤ key b).Pairwise fun a b => key a ≤ key b :=
    List.pairwise_insertionSort _ l
  have hlt : (l.insertionSort fun a b => key a ≤ key b).Pairwise fun a b => key a < key b := by
    have hdistinct := hperm.nodup_iff.mpr hnodup
    refine (hle.and hdistinct).imp_of_mem ?_
    rintro a b ha hb ⟨hab, hne⟩
    refine lt_of_le_of_ne hab fun heq => hne ?_
    exact hkey a (hperm.mem_iff.mp ha) b (hperm.mem_iff.mp hb) heq
  have hmem := mem_take_iff_of_sorted (n := n) hlt (hperm.mem_iff.mpr ha)
  have hahead : ahead key (l.insertionSort fun a b => key a ≤ key b) a = ahead key l a :=
    hperm.countP_eq _
  rw [hahead] at hmem
  exact hmem

/-- Whoever is among the first is in the list. -/
theorem mem_of_mem_firstRanked (h : a ∈ firstRanked key n l) : a ∈ l :=
  (List.mem_insertionSort _).mp (List.mem_of_mem_take h)

/-- More are ahead of an element that comes later. -/
theorem ahead_mono (h : key a ≤ key b) : ahead key l a ≤ ahead key l b := by
  unfold ahead
  refine List.countP_mono_left ?_
  intro c _ hc
  rw [decide_eq_true_eq] at hc ⊢
  exact hc.trans_le h

/-- **The first few come first by another measure** if and only if no pair that the
measure orders the other way is separated by the limit. -/
theorem firstRanked_respects_iff (hnodup : l.Nodup)
    (hkey : ∀ a ∈ l, ∀ b ∈ l, key a = key b → a = b) (measure : α → τ) :
    (∀ a ∈ firstRanked key n l, ∀ b ∈ l, b ∉ firstRanked key n l → measure a ≤ measure b) ↔
      ∀ a ∈ l, ∀ b ∈ l, key a < key b → measure b < measure a →
        ahead key l a < n → ahead key l b < n := by
  constructor
  · intro h a ha b hb _ hmeasure hahead
    by_contra hlate
    have hfirst := (mem_firstRanked hnodup hkey ha).mpr hahead
    have hleft : b ∉ firstRanked key n l := fun hmem =>
      hlate ((mem_firstRanked hnodup hkey hb).mp hmem)
    exact absurd (h a hfirst b hb hleft) hmeasure.not_ge
  · intro h a hfirst b hb hleft
    have ha := mem_of_mem_firstRanked hfirst
    have hahead := (mem_firstRanked hnodup hkey ha).mp hfirst
    have hlate : ¬ ahead key l b < n := fun hlt =>
      hleft ((mem_firstRanked hnodup hkey hb).mpr hlt)
    by_contra hmeasure
    have hlt : key a < key b := by
      by_contra hle
      have hmono : ahead key l b ≤ ahead key l a := ahead_mono (not_lt.mp hle)
      exact hlate (hmono.trans_lt hahead)
    exact hlate (h a ha b hb hlt (not_le.mp hmeasure) hahead)

end MailboxService.Foundation
