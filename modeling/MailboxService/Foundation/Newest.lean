import Mathlib.Order.Lattice
import Mathlib.Data.List.Basic

/-!
# The newest timestamp

A register that takes timestamps in any order of arrival and turns down what is
older than the newest one it has. It turns nothing down that is newer than all
before, and whatever is older than one of them.
-/

namespace MailboxService.Foundation

variable {τ : Type*} [LinearOrder τ]

/-- The timestamp is older than the newest one. -/
def Outdated (newest : Option τ) (t : τ) : Prop := ∃ s ∈ newest, t < s

instance (newest : Option τ) (t : τ) : Decidable (Outdated newest t) :=
  match newest with
  | none => .isFalse fun ⟨_, h, _⟩ => nomatch h
  | some s => decidable_of_iff (t < s) (by simp [Outdated])

def receive (newest : Option τ) (t : τ) : Option τ :=
  if Outdated newest t then newest else some t

structure IsNewest (newest : Option τ) (arrived : List τ) : Prop where
  mem : ∀ s ∈ newest, s ∈ arrived
  le : ∀ t ∈ arrived, ∃ s ∈ newest, t ≤ s

variable {newest : Option τ} {arrived : List τ} {t : τ}

theorem IsNewest.outdated_of_lt (h : IsNewest newest arrived) {t' : τ} (ht' : t' ∈ arrived)
    (hlt : t < t') : Outdated newest t := by
  obtain ⟨s, hs, hle⟩ := h.le t' ht'
  exact ⟨s, hs, hlt.trans_le hle⟩

theorem IsNewest.not_outdated (h : IsNewest newest arrived) (ht : ∀ t' ∈ arrived, t' ≤ t) :
    ¬ Outdated newest t := by
  rintro ⟨s, hs, hlt⟩
  exact absurd (ht s (h.mem s hs)) hlt.not_ge

theorem IsNewest.receive (h : IsNewest newest arrived) (t : τ) :
    IsNewest (Foundation.receive newest t) (arrived ++ [t]) := by
  unfold Foundation.receive
  split
  · rename_i hold
    constructor
    · intro s hs
      exact List.mem_append_left _ (h.mem s hs)
    · intro t' ht'
      rcases List.mem_append.mp ht' with ht' | ht'
      · exact h.le t' ht'
      · obtain rfl := List.mem_singleton.mp ht'
        obtain ⟨s, hs, hlt⟩ := hold
        exact ⟨s, hs, hlt.le⟩
  · rename_i hnew
    constructor
    · intro s hs
      obtain rfl : t = s := Option.some.inj hs
      exact List.mem_append_right _ (List.mem_singleton_self _)
    · intro t' ht'
      refine ⟨t, rfl, ?_⟩
      rcases List.mem_append.mp ht' with ht' | ht'
      · obtain ⟨s, hs, hle⟩ := h.le t' ht'
        exact hle.trans (not_lt.mp fun hlt => hnew ⟨s, hs, hlt⟩)
      · exact (List.mem_singleton.mp ht').le

end MailboxService.Foundation
