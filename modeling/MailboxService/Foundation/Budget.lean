import Mathlib.Algebra.BigOperators.Group.List.Basic
import Mathlib.Algebra.Order.BigOperators.Group.List
import Mathlib.Algebra.Module.NatInt
import Mathlib.Data.List.Basic

/-!
# Prefixes within a budget

Elements of a list have a size, and are taken from the left as long as their
sizes add up to no more than a budget.
-/

namespace MailboxService.Foundation

variable {α : Type} (size : α → ℕ)

def totalSize (l : List α) : ℕ := (l.map size).sum

/-- The elements that a budget is enough for. -/
def affordable : ℕ → List α → List α
  | _, [] => []
  | budget, x :: rest =>
      if size x ≤ budget then x :: affordable (budget - size x) rest else []

/-- The longest prefix of a list whose sizes add up to no more than a budget. -/
structure IsLongestWithin (budget : ℕ) (l taken : List α) : Prop where
  isPrefix : taken <+: l
  within : totalSize size taken ≤ budget
  longest : ∀ longer, longer <+: l → totalSize size longer ≤ budget → longer <+: taken

variable {size}

@[simp] theorem totalSize_nil : totalSize size [] = 0 := rfl

@[simp] theorem totalSize_cons (x : α) (l : List α) :
    totalSize size (x :: l) = size x + totalSize size l := by
  unfold totalSize
  rw [List.map_cons, List.sum_cons]

theorem totalSize_append (l m : List α) :
    totalSize size (l ++ m) = totalSize size l + totalSize size m := by
  unfold totalSize
  rw [List.map_append, List.sum_append]

theorem totalSize_replicate (n : ℕ) (x : α) :
    totalSize size (List.replicate n x) = n * size x := by
  unfold totalSize
  rw [List.map_replicate, List.sum_replicate, smul_eq_mul]

/-- **What a budget is enough for is the longest prefix within it.** -/
theorem isLongestWithin_affordable (budget : ℕ) (l : List α) :
    IsLongestWithin size budget l (affordable size budget l) := by
  induction l generalizing budget with
  | nil => exact ⟨List.prefix_refl _, Nat.zero_le _, fun longer h _ => h⟩
  | cons x rest ih =>
      rw [affordable]
      by_cases hx : size x ≤ budget
      · obtain ⟨hbefore, hwithin, hlongest⟩ := ih (budget - size x)
        rw [if_pos hx]
        refine ⟨(List.prefix_cons_inj x).mpr hbefore, ?_, ?_⟩
        · rw [totalSize_cons]
          omega
        · intro longer hlonger hsize
          cases longer with
          | nil => exact List.nil_prefix
          | cons y more =>
              obtain ⟨rfl, hmore⟩ := List.cons_prefix_cons.mp hlonger
              rw [totalSize_cons] at hsize
              exact (List.prefix_cons_inj y).mpr (hlongest more hmore (by omega))
      · rw [if_neg hx]
        refine ⟨List.nil_prefix, Nat.zero_le _, ?_⟩
        intro longer hlonger hsize
        cases longer with
        | nil => exact List.prefix_refl _
        | cons y more =>
            obtain ⟨rfl, -⟩ := List.cons_prefix_cons.mp hlonger
            rw [totalSize_cons] at hsize
            omega

/-- Nothing is left, or the next element is beyond the budget. -/
theorem affordable_cases (budget : ℕ) (l : List α) :
    affordable size budget l = l ∨
      ∃ x rest, l = affordable size budget l ++ x :: rest ∧
        budget < totalSize size (affordable size budget l) + size x := by
  induction l generalizing budget with
  | nil => exact Or.inl rfl
  | cons x rest ih =>
      rw [affordable]
      by_cases hx : size x ≤ budget
      · rw [if_pos hx]
        rcases ih (budget - size x) with hall | ⟨y, more, hsplit, hbeyond⟩
        · exact Or.inl (by rw [hall])
        · refine Or.inr ⟨y, more, ?_, ?_⟩
          · rw [List.cons_append, ← hsplit]
          · rw [totalSize_cons]
            omega
      · rw [if_neg hx]
        exact Or.inr ⟨x, rest, rfl, by rw [totalSize_nil]; omega⟩

end MailboxService.Foundation
