import Mathlib.Order.Basic
import Mathlib.Data.List.Basic
import Mathlib.Data.List.Induction

/-!
# Runs of a machine

A machine is a step function `σ → α → σ` over a state and an event; a run
feeds it a list of events. Safety arguments come in three shapes, each
packaged once here:

- an invariant that every step keeps (`exec_invariant`),
- an invariant that the steps meeting a side condition keep, over runs whose
  steps all meet it (`Meets`, `exec_invariant_of_meets`),
- a condition that only certain events end (`exec_holds_or_breaks`).

How many steps a run takes is bounded by a measure that they decrease
(`stepCount_le`). Where a step may stop the run, what every step keeps holds of
the events taken so far (`foldlM_prefix_invariant`), and a run that stops has a
step that stops it (`foldlM_eq_none_iff`).

`Throughout P` says that `P` holds in every state a run passes through, its
two ends included. `meets_iff_throughout` is the converse direction: where a
step that breaks the side condition breaks `P` at once, the side condition is
exactly what the run needs.
-/

namespace MailboxService.Foundation

variable {σ τ α : Type*}

/-- The state after the events, from the left. -/
def exec (step : σ → α → σ) (s : σ) (events : List α) : σ :=
  events.foldl step s

@[simp] theorem exec_nil (step : σ → α → σ) (s : σ) : exec step s [] = s := rfl

@[simp] theorem exec_cons (step : σ → α → σ) (s : σ) (e : α) (es : List α) :
    exec step s (e :: es) = exec step (step s e) es := rfl

theorem exec_append (step : σ → α → σ) (s : σ) (es fs : List α) :
    exec step s (es ++ fs) = exec step (exec step s es) fs := by
  unfold exec
  rw [List.foldl_append]

/-- Every event meets the side condition in the state it is taken in. -/
def Meets (step : σ → α → σ) (ok : σ → α → Prop) : σ → List α → Prop
  | _, [] => True
  | s, e :: es => ok s e ∧ Meets step ok (step s e) es

/-- `P` holds in every state of the run, the first and the last included. -/
def Throughout (step : σ → α → σ) (P : σ → Prop) : σ → List α → Prop
  | s, [] => P s
  | s, e :: es => P s ∧ Throughout step P (step s e) es

variable {step : σ → α → σ} {ok : σ → α → Prop} {P : σ → Prop}

instance decidableMeets [∀ s e, Decidable (ok s e)] :
    ∀ s es, Decidable (Meets step ok s es)
  | _, [] => inferInstanceAs (Decidable True)
  | s, e :: es =>
      haveI := decidableMeets (step s e) es
      inferInstanceAs (Decidable (ok s e ∧ Meets step ok (step s e) es))

theorem meets_append {s : σ} {es fs : List α} :
    Meets step ok s (es ++ fs) ↔
      Meets step ok s es ∧ Meets step ok (exec step s es) fs := by
  induction es generalizing s with
  | nil => simp [Meets]
  | cons e es ih => simp [Meets, ih, and_assoc]

theorem meets_of_forall (h : ∀ s e, ok s e) : ∀ s es, Meets step ok s es
  | _, [] => trivial
  | s, e :: es => ⟨h s e, meets_of_forall h (step s e) es⟩

theorem meets_of_forall_mem {ok : α → Prop} {s : σ} {es : List α} (h : ∀ e ∈ es, ok e) :
    Meets step (fun _ e => ok e) s es := by
  induction es generalizing s with
  | nil => trivial
  | cons e es ih =>
      rw [List.forall_mem_cons] at h
      exact ⟨h.1, ih h.2⟩

/-- **Invariant rule under a side condition**: an invariant kept by the steps
that meet the condition holds after every run whose steps all meet it. -/
theorem exec_invariant_of_meets
    (hstep : ∀ s e, P s → ok s e → P (step s e)) {s : σ} {es : List α}
    (h0 : P s) (hok : Meets step ok s es) : P (exec step s es) := by
  induction es generalizing s with
  | nil => exact h0
  | cons e es ih => exact ih (hstep s e h0 hok.1) hok.2

/-- **Invariant rule.** -/
theorem exec_invariant (hstep : ∀ s e, P s → P (step s e)) {s : σ}
    (h0 : P s) (es : List α) : P (exec step s es) := by
  have hok : Meets step (fun _ _ => True) s es := meets_of_forall (fun _ _ => trivial) s es
  exact exec_invariant_of_meets (fun s e h _ => hstep s e h) h0 hok

/-- **Persistence rule**: what only breaking events end holds after a run, or
one of its events has broken it. -/
theorem exec_holds_or_breaks {B : σ → α → Prop}
    (hstep : ∀ s e, P s → P (step s e) ∨ B s e) {s : σ} (h : P s) (es : List α) :
    P (exec step s es) ∨
      ∃ pre e post, es = pre ++ e :: post ∧ B (exec step s pre) e := by
  induction es generalizing s with
  | nil => exact Or.inl h
  | cons e es ih =>
      rcases hstep s e h with hnext | hbreaks
      · rcases ih hnext with hend | ⟨pre, e', post, rfl, hbreaks⟩
        · exact Or.inl hend
        · exact Or.inr ⟨e :: pre, e', post, rfl, hbreaks⟩
      · exact Or.inr ⟨[], e, es, rfl, hbreaks⟩

theorem throughout_iff {s : σ} {es : List α} :
    Throughout step P s es ↔
      ∀ pre post, es = pre ++ post → P (exec step s pre) := by
  induction es generalizing s with
  | nil =>
      constructor
      · intro h pre post heq
        obtain ⟨rfl, -⟩ := List.append_eq_nil_iff.mp heq.symm
        exact h
      · intro h
        exact h [] [] rfl
  | cons e es ih =>
      constructor
      · rintro ⟨hs, hrest⟩ pre post heq
        cases pre with
        | nil => exact hs
        | cons e' pre =>
            simp only [List.cons_append, List.cons.injEq] at heq
            obtain ⟨rfl, heq⟩ := heq
            exact ih.mp hrest pre post heq
      · intro h
        exact ⟨h [] (e :: es) rfl,
          ih.mpr fun pre post heq => h (e :: pre) post (by simp [heq])⟩

theorem Throughout.first {s : σ} {es : List α} (h : Throughout step P s es) : P s := by
  cases es with
  | nil => exact h
  | cons e es => exact h.1

theorem Throughout.last {s : σ} {es : List α} (h : Throughout step P s es) :
    P (exec step s es) :=
  throughout_iff.mp h es [] (by simp)

/-- What holds in every state of a run may be weakened. -/
theorem Throughout.imp {Q : σ → Prop} (hPQ : ∀ s, P s → Q s) {s : σ} {es : List α}
    (h : Throughout step P s es) : Throughout step Q s es := by
  rw [throughout_iff] at h ⊢
  intro pre post heq
  exact hPQ _ (h pre post heq)

/-- Conditions that are met one by one are met together. -/
theorem Meets.and {ok' : σ → α → Prop} {s : σ} {es : List α} (h : Meets step ok s es)
    (h' : Meets step ok' s es) : Meets step (fun s e => ok s e ∧ ok' s e) s es := by
  induction es generalizing s with
  | nil => trivial
  | cons e es ih => exact ⟨⟨h.1, h'.1⟩, ih h.2 h'.2⟩

/-- Under an invariant, a condition that the steps meet may be replaced by any
condition it implies. -/
theorem Meets.imp_of_invariant {ok' : σ → α → Prop}
    (hstep : ∀ s e, P s → ok s e → P (step s e))
    (himp : ∀ s e, P s → ok s e → ok' s e) {s : σ} {es : List α}
    (h0 : P s) (hok : Meets step ok s es) : Meets step ok' s es := by
  induction es generalizing s with
  | nil => trivial
  | cons e es ih => exact ⟨himp s e h0 hok.1, ih (hstep s e h0 hok.1) hok.2⟩

/-- Under an invariant that the steps meeting the condition keep, conditions
that are equivalent there are met by the same runs. -/
theorem meets_congr {ok' : σ → α → Prop}
    (hstep : ∀ s e, P s → ok s e → P (step s e))
    (hiff : ∀ s e, P s → (ok s e ↔ ok' s e)) {s : σ} {es : List α} (h0 : P s) :
    Meets step ok s es ↔ Meets step ok' s es := by
  induction es generalizing s with
  | nil => exact Iff.rfl
  | cons e es ih =>
      constructor
      · rintro ⟨hok, hrest⟩
        exact ⟨(hiff s e h0).mp hok, (ih (hstep s e h0 hok)).mp hrest⟩
      · rintro ⟨hok', hrest⟩
        have hok : ok s e := (hiff s e h0).mpr hok'
        exact ⟨hok, (ih (hstep s e h0 hok)).mpr hrest⟩

/-- A run whose steps meet the condition keeps the invariant all along. -/
theorem throughout_of_meets
    (hstep : ∀ s e, P s → ok s e → P (step s e)) {s : σ} {es : List α}
    (h0 : P s) (hok : Meets step ok s es) : Throughout step P s es := by
  induction es generalizing s with
  | nil => exact h0
  | cons e es ih => exact ⟨h0, ih (hstep s e h0 hok.1) hok.2⟩

/-- **Exact side condition**: over states that keep an auxiliary invariant as
long as the property holds, when the property survives a step exactly if the
step meets the condition, it holds throughout a run exactly if every step of
the run meets it. -/
theorem meets_iff_throughout_while {I : σ → Prop}
    (hinv : ∀ s e, I s → P s → P (step s e) → I (step s e))
    (hstep : ∀ s e, I s → P s → (P (step s e) ↔ ok s e)) {s : σ} {es : List α}
    (hI : I s) (h0 : P s) : Throughout step P s es ↔ Meets step ok s es := by
  induction es generalizing s with
  | nil => exact ⟨fun _ => trivial, fun _ => h0⟩
  | cons e es ih =>
      constructor
      · intro h
        have hnext : P (step s e) := h.2.first
        exact ⟨(hstep s e hI h0).mp hnext, (ih (hinv s e hI h0 hnext) hnext).mp h.2⟩
      · intro h
        have hnext : P (step s e) := (hstep s e hI h0).mpr h.1
        exact ⟨h0, (ih (hinv s e hI h0 hnext) hnext).mpr h.2⟩

/-- **Exact side condition**, over an invariant that every step keeps. -/
theorem meets_iff_throughout {I : σ → Prop} (hinv : ∀ s e, I s → I (step s e))
    (hstep : ∀ s e, I s → P s → (P (step s e) ↔ ok s e)) {s : σ} {es : List α}
    (hI : I s) (h0 : P s) : Throughout step P s es ↔ Meets step ok s es :=
  meets_iff_throughout_while (fun s e hs _ _ => hinv s e hs) hstep hI h0

/-! ## How many steps a run takes -/

/-- The steps of a run that act. -/
def stepCount (step : σ → α → σ) (acts : σ → α → Prop) [∀ s e, Decidable (acts s e)] :
    σ → List α → ℕ
  | _, [] => 0
  | s, e :: es => (if acts s e then 1 else 0) + stepCount step acts (step s e) es

/-- **Measure rule**: where each step that acts decreases a measure and no step
increases it, a run takes no more such steps than the measure was at first. -/
theorem stepCount_le {acts : σ → α → Prop} [∀ s e, Decidable (acts s e)] (μ : σ → ℕ)
    (hstep : ∀ s e, P s → ok s e →
      P (step s e) ∧ μ (step s e) + (if acts s e then 1 else 0) ≤ μ s)
    {s : σ} {es : List α} (h0 : P s) (hok : Meets step ok s es) :
    stepCount step acts s es ≤ μ s := by
  induction es generalizing s with
  | nil => exact Nat.zero_le _
  | cons e es ih =>
      obtain ⟨hnext, hless⟩ := hstep s e h0 hok.1
      have hrest := ih hnext hok.2
      rw [stepCount, Nat.add_comm]
      exact Nat.le_trans (Nat.add_le_add_right hrest _) hless

/-! ## Runs that may stop -/

/-- A property of the events taken and the state reached that every step keeps. -/
theorem foldlM_prefix_invariant {step : σ → α → Option σ} {P : List α → σ → Prop} {s s' : σ}
    {events : List α} (h : events.foldlM step s = some s') (h0 : P [] s)
    (hstep : ∀ before e after t t', events = before ++ e :: after →
      before.foldlM step s = some t → P before t → step t e = some t' →
      P (before ++ [e]) t') : P events s' := by
  induction events using List.reverseRecOn generalizing s' with
  | nil =>
      cases h
      exact h0
  | append_singleton es e ih =>
      rw [List.foldlM_append, Option.bind_eq_bind, Option.bind_eq_some_iff] at h
      obtain ⟨t, hes, he⟩ := h
      rw [List.foldlM_cons, Option.bind_eq_bind, Option.bind_eq_some_iff] at he
      obtain ⟨t', he, hnil⟩ := he
      cases hnil
      refine hstep es e [] t s' rfl hes (ih hes ?_) he
      intro before e' after u u' heq
      exact hstep before e' (after ++ [e]) u u' (by rw [heq, List.append_assoc]; rfl)

/-- A run stops exactly if a step stops in the state that the events before it lead to. -/
theorem foldlM_eq_none_iff {step : σ → α → Option σ} {s : σ} {events : List α} :
    events.foldlM step s = none ↔ ∃ before e after, events = before ++ e :: after ∧
      ∃ t, before.foldlM step s = some t ∧ step t e = none := by
  constructor
  · intro h
    induction events generalizing s with
    | nil => cases h
    | cons e es ih =>
        rw [List.foldlM_cons, Option.bind_eq_bind, Option.bind_eq_none_iff] at h
        cases hstep : step s e with
        | none => exact ⟨[], e, es, rfl, s, rfl, hstep⟩
        | some t =>
            obtain ⟨before, e', after, rfl, t', hbefore, hnone⟩ := ih (h t hstep)
            refine ⟨e :: before, e', after, rfl, t', ?_, hnone⟩
            rw [List.foldlM_cons, hstep]
            exact hbefore
  · rintro ⟨before, e, after, rfl, t, hbefore, hnone⟩
    rw [List.foldlM_append, hbefore, Option.bind_eq_bind, Option.bind_some, List.foldlM_cons,
      hnone]
    rfl

/-! ## Two machines -/

/-- **Simulation rule**: a relation that related states keep under the steps
meeting the condition relates the two runs. -/
theorem exec_simulates {step₁ : σ → α → σ} {step₂ : τ → α → τ} {R : σ → τ → Prop}
    (hstep : ∀ s t e, R s t → ok s e → R (step₁ s e) (step₂ t e))
    {s : σ} {t : τ} {es : List α} (h0 : R s t) (hok : Meets step₁ ok s es) :
    R (exec step₁ s es) (exec step₂ t es) := by
  induction es generalizing s t with
  | nil => exact h0
  | cons e es ih => exact ih (hstep s t e h0 hok.1) hok.2

/-- **Substitution rule**: events may be replaced by events that do the same
under an invariant. -/
theorem exec_map {I : σ → Prop} {admitted : α → Prop} {f : α → α}
    (hinv : ∀ s e, I s → I (step s e))
    (hsame : ∀ s e, I s → admitted e → step s (f e) = step s e) {s : σ} {es : List α}
    (hI : I s) (hes : ∀ e ∈ es, admitted e) : exec step s (es.map f) = exec step s es := by
  induction es generalizing s with
  | nil => rfl
  | cons e es ih =>
      rw [List.map_cons, exec_cons, exec_cons, hsame s e hI (hes e (List.mem_cons_self ..))]
      exact ih (hinv s e hI) fun e' he' => hes e' (List.mem_cons_of_mem _ he')

end MailboxService.Foundation
