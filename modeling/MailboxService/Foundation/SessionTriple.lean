import MailboxService.Foundation.Fallback

/-!
# Pre- and postconditions of units of work

`Work.Triple committed P x Q E` says of a unit of work, in a transaction that
started from `committed`: begun where `P` holds it returns a value where `Q`
holds or raises where `E` holds. The conditions speak of sessions that take
statements; on an unusable session nothing is promised, since every statement
raises there and only a rollback, which is back at `committed`, ends it.
-/

namespace MailboxService.Foundation

namespace Work

variable {δ ε α β : Type}

def Triple (committed : δ) (P : δ → Prop) (x : Work δ ε α) (Q : α → δ → Prop)
    (E : δ → Prop) : Prop :=
  ∀ s : Session δ, (s.usable = true → P s.db) →
    (∀ a s', x committed s = (.ok a, s') → s'.usable = true → Q a s'.db) ∧
      ∀ e s', x committed s = (.error e, s') → s'.usable = true → E s'.db

/-- A condition that a unit of work keeps, however it ends. -/
def Keeps (committed : δ) (P : δ → Prop) (x : Work δ ε α) : Prop :=
  Triple committed P x (fun _ => P) P

variable {committed : δ} {P P' E E' R : δ → Prop} {Q Q' : α → δ → Prop} {x : Work δ ε α}

/-! ## Rules -/

/-- **Consequence.** -/
theorem Triple.mono (h : Triple committed P x Q E) (hP : ∀ d, P' d → P d)
    (hQ : ∀ a d, Q a d → Q' a d) (hE : ∀ d, E d → E' d) : Triple committed P' x Q' E' := by
  intro s hs
  obtain ⟨hok, herror⟩ := h s fun hu => hP _ (hs hu)
  exact ⟨fun a s' hx hu => hQ a _ (hok a s' hx hu), fun e s' hx hu => hE _ (herror e s' hx hu)⟩

theorem Triple.post (h : Triple committed P x Q E) (hQ : ∀ a d, Q a d → Q' a d) :
    Triple committed P x Q' E :=
  h.mono (fun _ hd => hd) hQ fun _ hd => hd

theorem triple_pure {a : α} (h : ∀ d, P d → Q a d) :
    Triple committed P (pure a : Work δ ε α) Q E := by
  intro s hs
  refine ⟨?_, fun e s' hx => by cases hx⟩
  intro b s' hx hu
  cases hx
  exact h _ (hs hu)

theorem triple_raise {e : ε} (h : ∀ d, P d → E d) :
    Triple committed P (raise e : Work δ ε α) Q E := by
  intro s hs
  refine ⟨fun a s' hx => (by cases hx), ?_⟩
  intro e s' hx hu
  cases hx
  exact h _ (hs hu)

theorem triple_ofExcept {r : Except ε α} (hok : ∀ a, r = .ok a → ∀ d, P d → Q a d)
    (herror : ∀ d, P d → E d) : Triple committed P (ofExcept r : Work δ ε α) Q E := by
  intro s hs
  constructor
  · intro a s' hx hu
    cases hx
    exact hok a rfl _ (hs hu)
  · intro e s' hx hu
    cases hx
    exact herror _ (hs hu)

/-- **Sequence.** -/
theorem Triple.bind {M : α → δ → Prop} {f : α → Work δ ε β} {Q : β → δ → Prop}
    (hx : Triple committed P x M E) (hf : ∀ a, Triple committed (M a) (f a) Q E) :
    Triple committed P (x >>= f) Q E := by
  intro s hs
  obtain ⟨hok, herror⟩ := hx s hs
  constructor
  · intro b s' h hu
    obtain ⟨a, s₁, ha, h⟩ := bind_eq_ok.mp h
    exact (hf a s₁ (hok a s₁ ha)).1 b s' h hu
  · intro e s' h hu
    rcases bind_eq_error.mp h with h | ⟨a, s₁, ha, h⟩
    · exact herror e s' h hu
    · exact (hf a s₁ (hok a s₁ ha)).2 e s' h hu

/-- **Handler**: a handler starts where the work raised. -/
theorem Triple.handle {h : ε → Option (Work δ ε α)} (hx : Triple committed P x Q E)
    (hh : ∀ e y, h e = some y → Triple committed E y Q E') (hE : ∀ d, E d → E' d) :
    Triple committed P (x.handle h) Q E' := by
  intro s hs
  obtain ⟨hok, herror⟩ := hx s hs
  rcases hxs : x committed s with ⟨e | a, s₁⟩
  · cases hhe : h e with
    | none =>
        rw [handle_of_none hxs hhe]
        refine ⟨fun a s' h => (by cases h), ?_⟩
        intro e' s' h hu
        cases h
        exact hE _ (herror e s₁ hxs hu)
    | some y =>
        rw [handle_of_some hxs hhe]
        exact hh e y hhe s₁ (herror e s₁ hxs)
  · rw [handle_of_ok hxs]
    refine ⟨?_, fun e s' h => by cases h⟩
    intro b s' h hu
    cases h
    exact hok a s₁ hxs hu

theorem triple_rollback {Q : Unit → δ → Prop} (h : Q () committed) :
    Triple committed P (rollback : Work δ ε Unit) Q E := by
  intro s _
  refine ⟨?_, fun e s' hx => by cases hx⟩
  intro a s' hx _
  cases hx
  exact h

/-- **Loop**: attempts that keep a condition when they raise. -/
theorem triple_tryEach {κ : Type} {attempt : κ → Work δ ε α} {goOn : ε → Bool} {last : ε}
    {l : List κ} (h : ∀ p ∈ l, Triple committed P (attempt p) Q P) :
    Triple committed P (tryEach attempt goOn last l) Q P := by
  induction l generalizing last with
  | nil => exact triple_raise fun _ hd => hd
  | cons p rest ih =>
      refine (h p List.mem_cons_self).handle ?_ fun _ hd => hd
      intro e y hy
      split at hy
      · cases hy
        exact ih fun q hq => h q (List.mem_cons_of_mem _ hq)
      · cases hy

section Statements

variable [SessionErrors ε]

/-- **Query**: its value is of the database it is asked in. -/
theorem triple_read {f : δ → α} :
    Triple committed P (read f : Work δ ε α) (fun a d => P d ∧ a = f d) E := by
  intro s hs
  constructor
  · intro a s' hx hu
    obtain ⟨hu', rfl, rfl⟩ := read_eq_ok.mp hx
    exact ⟨hs hu, rfl⟩
  · intro e s' hx hu
    unfold read at hx
    split at hx
    · cases hx
    · rename_i hnot
      obtain ⟨-, rfl⟩ := Prod.mk.inj hx
      exact absurd hu hnot

theorem triple_flush {f : δ → Option δ} {Q : Unit → δ → Prop}
    (h : ∀ d d', P d → f d = some d' → Q () d') :
    Triple committed P (flush f : Work δ ε Unit) Q E := by
  intro s hs
  constructor
  · intro a s' hx hu
    obtain ⟨hu', d', hf, rfl⟩ := flush_eq_ok.mp hx
    exact h _ d' (hs hu') hf
  · intro e s' hx hu
    unfold flush at hx
    split at hx
    · split at hx
      · cases hx
      · obtain ⟨-, rfl⟩ := Prod.mk.inj hx
        cases hu
    · rename_i hnot
      obtain ⟨-, rfl⟩ := Prod.mk.inj hx
      exact absurd hu hnot

theorem triple_write {f : δ → δ} {Q : Unit → δ → Prop} (h : ∀ d, P d → Q () (f d)) :
    Triple committed P (write f : Work δ ε Unit) Q E :=
  triple_flush fun d d' hd hf => by
    cases hf
    exact h d hd

/-- **Request**: what a committed request leaves. -/
theorem Triple.transact {db db' : δ} {a : α} (h : Triple db P x Q E) (hP : P db)
    (hx : x.transact db = (.ok a, db')) : Q a db' :=
  (h ⟨db, true⟩ fun _ => hP).1 a ⟨db', true⟩ (transact_eq_ok.mp hx) rfl

end Statements

end Work

end MailboxService.Foundation
