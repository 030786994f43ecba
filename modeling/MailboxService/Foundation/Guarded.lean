import Mathlib.Data.List.Basic

/-!
# Operations under a fresh guard

A log of operations, some of which open a guard and some of which use it up.
An operation is guarded if a guard has been opened before it and nothing in
between has used it up.
-/

namespace MailboxService.Foundation

variable {α : Type*} (opens spends : α → Prop)

def Shielded (log : List α) : Prop :=
  ∃ earlier op since, log = earlier ++ op :: since ∧ opens op ∧ ∀ x ∈ since, ¬ spends x

/-- **Every operation that needs a guard is guarded.** -/
def Guarded (needs : α → Prop) (log : List α) : Prop :=
  ∀ pre op post, log = pre ++ op :: post → needs op → Shielded opens spends pre

variable {opens spends}

theorem shielded_append_singleton {log : List α} {x : α} :
    Shielded opens spends (log ++ [x]) ↔
      opens x ∨ Shielded opens spends log ∧ ¬ spends x := by
  constructor
  · rintro ⟨earlier, op, since, hlog, hopens, hsince⟩
    rcases List.eq_nil_or_concat' since with rfl | ⟨since, y, rfl⟩
    · obtain ⟨-, hop⟩ := List.append_inj' hlog rfl
      obtain rfl := List.singleton_inj.mp hop
      exact Or.inl hopens
    · have hsplit : log ++ [x] = (earlier ++ op :: since) ++ [y] := by
        rw [hlog, List.append_assoc, List.cons_append]
      obtain ⟨rfl, hxy⟩ := List.append_inj' hsplit rfl
      obtain rfl := List.singleton_inj.mp hxy
      refine Or.inr ⟨⟨earlier, op, since, rfl, hopens, ?_⟩, ?_⟩
      · exact fun z hz => hsince z (List.mem_append_left _ hz)
      · exact hsince x (List.mem_append_right _ (List.mem_singleton_self x))
  · rintro (hopens | ⟨⟨earlier, op, since, rfl, hopens, hsince⟩, hspends⟩)
    · exact ⟨log, x, [], rfl, hopens, nofun⟩
    · refine ⟨earlier, op, since ++ [x], by simp, hopens, ?_⟩
      intro z hz
      rcases List.mem_append.mp hz with hz | hz
      · exact hsince z hz
      · rw [List.mem_singleton.mp hz]
        exact hspends

theorem guarded_nil {needs : α → Prop} : Guarded opens spends needs [] := by
  intro pre op post h
  cases pre with
  | nil => cases h
  | cons x pre => cases h

/-- **One more operation.** -/
theorem guarded_append_singleton {needs : α → Prop} {log : List α} {x : α} :
    Guarded opens spends needs (log ++ [x]) ↔
      Guarded opens spends needs log ∧ (needs x → Shielded opens spends log) := by
  constructor
  · intro h
    refine ⟨?_, h log x [] rfl⟩
    intro pre op post hlog
    exact h pre op (post ++ [x]) (by rw [hlog, List.append_assoc, List.cons_append])
  · rintro ⟨hlog, hx⟩ pre op post hsplit hneeds
    rcases List.eq_nil_or_concat' post with rfl | ⟨post, y, rfl⟩
    · obtain ⟨rfl, hop⟩ := List.append_inj' hsplit rfl
      obtain rfl := List.singleton_inj.mp hop
      exact hx hneeds
    · have hinner : log ++ [x] = (pre ++ op :: post) ++ [y] := by
        rw [hsplit, List.append_assoc, List.cons_append]
      exact hlog pre op post (List.append_inj' hinner rfl).1 hneeds

end MailboxService.Foundation
