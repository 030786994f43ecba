import MailboxService.Foundation.Interleaving
import Mathlib.Algebra.BigOperators.Group.Finset.Basic

/-!
# Permits

Threads that take permits from a common supply and give them back. If no step
changes what the supply and the thread that takes the step hold together, then no
run changes what the supply and all threads hold together (`supply_exec`).
-/

namespace MailboxService.Foundation.Threads

variable {ι χ σ α : Type*} [DecidableEq ι] {act : σ → χ → α → χ × σ}

def total (weight : χ → ℕ) (threads : Finset ι) (t : Threads ι χ σ) : ℕ :=
  ∑ i ∈ threads, weight (t.held i)

variable {supply : σ → ℕ} {weight : χ → ℕ} {threads : Finset ι}

theorem total_step (act : σ → χ → α → χ × σ) (weight : χ → ℕ) (t : Threads ι χ σ) {i : ι}
    (hi : i ∈ threads) (a : α) :
    (t.step act (i, a)).total weight threads + weight (t.held i) =
      t.total weight threads + weight (act t.shared (t.held i) a).1 := by
  unfold total
  rw [← Finset.add_sum_erase threads _ hi, ← Finset.add_sum_erase threads _ hi]
  have hothers : ∑ j ∈ threads.erase i, weight ((t.step act (i, a)).held j) =
      ∑ j ∈ threads.erase i, weight (t.held j) := by
    refine Finset.sum_congr rfl fun j hj => ?_
    rw [step_held, if_neg (Finset.ne_of_mem_erase hj)]
  rw [hothers, step_held, if_pos rfl]
  omega

/-- **Step lemma.** -/
theorem supply_step
    (hact : ∀ s x a, supply (act s x a).2 + weight (act s x a).1 = supply s + weight x)
    (t : Threads ι χ σ) {e : ι × α} (he : e.1 ∈ threads) :
    supply (t.step act e).shared + (t.step act e).total weight threads =
      supply t.shared + t.total weight threads := by
  obtain ⟨i, a⟩ := e
  have htotal := total_step act weight t he a
  have hown := hact t.shared (t.held i) a
  have hshared : (t.step act (i, a)).shared = (act t.shared (t.held i) a).2 := rfl
  rw [hshared]
  simp only at htotal
  omega

/-- **Run lemma**: nothing is lost, and nothing is held twice. -/
theorem supply_exec
    (hact : ∀ s x a, supply (act s x a).2 + weight (act s x a).1 = supply s + weight x)
    (t : Threads ι χ σ) {events : List (ι × α)} (hthreads : ∀ e ∈ events, e.1 ∈ threads) :
    supply (exec (step act) t events).shared + (exec (step act) t events).total weight threads =
      supply t.shared + t.total weight threads := by
  induction events generalizing t with
  | nil => rfl
  | cons e events ih =>
      rw [List.forall_mem_cons] at hthreads
      rw [exec_cons, ih _ hthreads.2, supply_step hact t hthreads.1]

end MailboxService.Foundation.Threads
