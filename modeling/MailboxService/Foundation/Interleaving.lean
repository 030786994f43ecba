import MailboxService.Foundation.Run
import Mathlib.Logic.Function.Basic

/-!
# Interleaved threads

Threads take turns on a shared state. Each holds something of its own between
its turns: what it has read, and where it stands. An event names a thread and
what it does next.

The *non-interference rule* ties what a thread holds to the shared state: if a
thread's own step establishes the tie again, and no step of another thread
breaks it, then the tie holds for every thread all along a run. Under the tie,
a condition on the steps may be replaced by any condition that is equivalent to
it there (`meets_iff`).
-/

namespace MailboxService.Foundation

/-- The state the threads share, and what each of them holds. -/
structure Threads (ι χ σ : Type*) where
  shared : σ
  held : ι → χ

namespace Threads

variable {ι χ σ α : Type*} {act : σ → χ → α → χ × σ}

def start (s : σ) (x : χ) : Threads ι χ σ := ⟨s, fun _ => x⟩

/-- A condition on a step, in the state and with what the thread holds. -/
def At (ok : σ → χ → α → Prop) (t : Threads ι χ σ) (e : ι × α) : Prop :=
  ok t.shared (t.held e.1) e.2

instance decidableAt {ok : σ → χ → α → Prop} [∀ s x a, Decidable (ok s x a)]
    (t : Threads ι χ σ) (e : ι × α) : Decidable (t.At ok e) :=
  inferInstanceAs (Decidable (ok _ _ _))

/-- What every thread holds is tied to the shared state. -/
def Linked (link : χ → σ → Prop) (t : Threads ι χ σ) : Prop :=
  ∀ i, link (t.held i) t.shared

variable [DecidableEq ι]

def step (act : σ → χ → α → χ × σ) (t : Threads ι χ σ) (e : ι × α) : Threads ι χ σ :=
  let next := act t.shared (t.held e.1) e.2
  ⟨next.2, Function.update t.held e.1 next.1⟩

theorem step_held (t : Threads ι χ σ) (i j : ι) (a : α) :
    (t.step act (i, a)).held j =
      if j = i then (act t.shared (t.held i) a).1 else t.held j := by
  unfold step
  simp only [Function.update_apply]

variable {link : χ → σ → Prop} {ok ok' : σ → χ → α → Prop}

/-- **Non-interference rule**, for one step. -/
theorem linked_step
    (hown : ∀ s x a, link x s → ok s x a → link (act s x a).1 (act s x a).2)
    (hother : ∀ s x y a, link x s → link y s → ok s y a → link x (act s y a).2)
    (t : Threads ι χ σ) (e : ι × α) (h : t.Linked link) (hok : t.At ok e) :
    (t.step act e).Linked link := by
  obtain ⟨i, a⟩ := e
  intro j
  rw [step_held]
  split
  · exact hown t.shared (t.held i) a (h i) hok
  · exact hother t.shared (t.held j) (t.held i) a (h j) (h i) hok

/-- **Non-interference rule**, for a run: conditions that are equivalent under
the tie are met by the same runs. -/
theorem meets_iff
    (hown : ∀ s x a, link x s → ok s x a → link (act s x a).1 (act s x a).2)
    (hother : ∀ s x y a, link x s → link y s → ok s y a → link x (act s y a).2)
    (hiff : ∀ s x a, link x s → (ok s x a ↔ ok' s x a)) {t : Threads ι χ σ}
    {es : List (ι × α)} (h : t.Linked link) :
    Meets (step act) (At ok) t es ↔ Meets (step act) (At ok') t es :=
  meets_congr (linked_step hown hother)
    (fun t e hlinked => hiff t.shared (t.held e.1) e.2 (hlinked e.1)) h

/-- A condition may be replaced by any condition it implies under a tie that no
step breaks. -/
theorem meets_imp
    (hown : ∀ s x a, link x s → link (act s x a).1 (act s x a).2)
    (hother : ∀ s x y a, link x s → link y s → link x (act s y a).2)
    (himp : ∀ s x a, link x s → ok s x a → ok' s x a) {t : Threads ι χ σ}
    {es : List (ι × α)} (h : t.Linked link) (hok : Meets (step act) (At ok) t es) :
    Meets (step act) (At ok') t es := by
  have hstep : ∀ (t : Threads ι χ σ) (e : ι × α), t.Linked link → t.At ok e →
      (t.step act e).Linked link :=
    linked_step (fun s x a hx _ => hown s x a hx) (fun s x y a hx hy _ => hother s x y a hx hy)
  exact Meets.imp_of_invariant hstep
    (fun t e hlinked hat => himp t.shared (t.held e.1) e.2 (hlinked e.1) hat) h hok

end Threads

end MailboxService.Foundation
