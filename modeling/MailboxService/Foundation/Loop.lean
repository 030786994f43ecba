import Mathlib.Data.List.Basic

/-!
# Loops with a variant

`while True` with rounds that either go on or leave. `loop` runs at most a
number of rounds; `loop_leaves` is the rule for it: an invariant kept by every
round that goes on, and a variant that every such round makes smaller. Then
any number of rounds above the variant is enough.
-/

namespace MailboxService.Foundation

inductive Round (σ β : Type*) where
  | again (s : σ)
  | leave (b : β)

variable {σ β : Type*}

/-- At most so many rounds, numbered from `k`. -/
def loop (round : ℕ → σ → Round σ β) : ℕ → ℕ → σ → Option β
  | 0, _, _ => none
  | rounds + 1, k, s =>
      match round k s with
      | .again s' => loop round rounds (k + 1) s'
      | .leave b => some b

variable {round : ℕ → σ → Round σ β}

theorem loop_again {rounds k : ℕ} {s s' : σ} (h : round k s = .again s') :
    loop round (rounds + 1) k s = loop round rounds (k + 1) s' := by
  rw [loop, h]

theorem loop_leave {rounds k : ℕ} {s : σ} {b : β} (h : round k s = .leave b) :
    loop round (rounds + 1) k s = some b := by
  rw [loop, h]

/-- **Loop rule.** The invariant holds when the loop is left, and it is left,
with one result for all sufficient numbers of rounds. -/
theorem loop_leaves (round : ℕ → σ → Round σ β) {I : ℕ → σ → Prop} {Q : β → Prop}
    (variant : σ → ℕ)
    (hagain : ∀ k s s', I k s → round k s = .again s' → I (k + 1) s' ∧ variant s' < variant s)
    (hleave : ∀ k s b, I k s → round k s = .leave b → Q b) {k : ℕ} {s : σ} (hs : I k s) :
    ∃ b, Q b ∧ ∀ rounds, variant s < rounds → loop round rounds k s = some b := by
  induction hn : variant s using Nat.strongRecOn generalizing k s with
  | _ n ih =>
      subst hn
      cases hround : round k s with
      | leave b =>
          refine ⟨b, hleave k s b hs hround, ?_⟩
          intro rounds hrounds
          obtain ⟨rounds, rfl⟩ := Nat.exists_eq_add_one_of_ne_zero (Nat.ne_zero_of_lt hrounds)
          exact loop_leave hround
      | again s' =>
          obtain ⟨hs', hlt⟩ := hagain k s s' hs hround
          obtain ⟨b, hb, hloop⟩ := ih (variant s') hlt hs' rfl
          refine ⟨b, hb, ?_⟩
          intro rounds hrounds
          obtain ⟨rounds, rfl⟩ := Nat.exists_eq_add_one_of_ne_zero (Nat.ne_zero_of_lt hrounds)
          rw [loop_again hround]
          exact hloop rounds (by omega)

/-! ## Retries -/

/-- A number of attempts that carry nothing on: the first one that leaves gives
the result. -/
theorem retry_eq_some {round : ℕ → Unit → Round Unit β} {rounds k : ℕ} {b : β} :
    loop round rounds k () = some b ↔
      ∃ n < rounds, (∀ j < n, round (k + j) () = .again ()) ∧ round (k + n) () = .leave b := by
  induction rounds generalizing k with
  | zero => simp [loop]
  | succ rounds ih =>
      cases hround : round k () with
      | leave b' =>
          rw [loop_leave hround]
          constructor
          · intro h
            cases h
            exact ⟨0, by omega, fun j hj => absurd hj (Nat.not_lt_zero j), hround⟩
          · rintro ⟨n, -, hagain, hleave⟩
            cases n with
            | zero =>
                rw [Nat.add_zero, hround] at hleave
                cases hleave
                rfl
            | succ n =>
                have h0 := hagain 0 (Nat.succ_pos n)
                rw [Nat.add_zero, hround] at h0
                cases h0
      | again u =>
          rw [loop_again hround, ih]
          constructor
          · rintro ⟨n, hn, hagain, hleave⟩
            refine ⟨n + 1, by omega, ?_, ?_⟩
            · intro j hj
              cases j with
              | zero => exact hround
              | succ j =>
                  rw [show k + (j + 1) = k + 1 + j by omega]
                  exact hagain j (by omega)
            · rw [show k + (n + 1) = k + 1 + n by omega]
              exact hleave
          · rintro ⟨n, hn, hagain, hleave⟩
            cases n with
            | zero =>
                rw [Nat.add_zero, hround] at hleave
                cases hleave
            | succ n =>
                refine ⟨n, by omega, ?_, ?_⟩
                · intro j hj
                  rw [show k + 1 + j = k + (j + 1) by omega]
                  exact hagain (j + 1) (by omega)
                · rw [show k + 1 + n = k + (n + 1) by omega]
                  exact hleave

end MailboxService.Foundation
