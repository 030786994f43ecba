import MailboxService.Foundation.Fallback

/-!
# One unit of work in two transactions

`Work.Couples R D committed committed' x` runs the same work in two
transactions whose databases are related by `R`: both end in the same way, in
sessions that are related again, or they part, and then `D` holds of how the
first one ends. The rules go through the work statement by statement; a place
where the two may part has to say what the first one makes of it.
-/

namespace MailboxService.Foundation

namespace Work

variable {δ ε α β : Type}

/-- Two runs end in the same way. -/
structure Alike (R : δ → δ → Prop) (o o' : Except ε α × Session δ) : Prop where
  result : o.1 = o'.1
  usable : o.2.usable = o'.2.usable
  related : R o.2.db o'.2.db

/-- The runs end in the same way, or they part and the first one ends in `D`. -/
def Couples (R : δ → δ → Prop) (D : Except ε α × Session δ → Prop) (committed committed' : δ)
    (x : Work δ ε α) : Prop :=
  ∀ s s' : Session δ, s.usable = s'.usable → R s.db s'.db →
    Alike R (x committed s) (x committed' s') ∨ D (x committed s)

variable {R : δ → δ → Prop} {D D' : Except ε α × Session δ → Prop} {committed committed' : δ}
  {x : Work δ ε α}

/-! ## Rules -/

theorem couples_pure {a : α} : Couples R D committed committed' (pure a : Work δ ε α) :=
  fun _ _ hu hr => Or.inl ⟨rfl, hu, hr⟩

theorem couples_raise {e : ε} : Couples R D committed committed' (raise e : Work δ ε α) :=
  fun _ _ hu hr => Or.inl ⟨rfl, hu, hr⟩

theorem couples_ofExcept {r : Except ε α} :
    Couples R D committed committed' (ofExcept r : Work δ ε α) :=
  fun _ _ hu hr => Or.inl ⟨rfl, hu, hr⟩

theorem couples_rollback {D : Except ε Unit × Session δ → Prop} (h : R committed committed') :
    Couples R D committed committed' (rollback : Work δ ε Unit) :=
  fun _ _ _ _ => Or.inl ⟨rfl, rfl, h⟩

/-- **Sequence**: where the first part parts, the second one goes on from there
in the first run. -/
theorem Couples.bind {M : Except ε α × Session δ → Prop} {f : α → Work δ ε β}
    {D : Except ε β × Session δ → Prop} (hx : Couples R M committed committed' x)
    (hf : ∀ a, Couples R D committed committed' (f a))
    (hok : ∀ a s, M (.ok a, s) → D (f a committed s))
    (herror : ∀ e s, M (.error e, s) → D (.error e, s)) :
    Couples R D committed committed' (x >>= f) := by
  intro s s' hu hr
  rcases hx s s' hu hr with hsame | hpart
  · rcases hxs : x committed s with ⟨e | a, s₁⟩
    · rcases hxs' : x committed' s' with ⟨r', s₁'⟩
      rw [hxs, hxs'] at hsame
      obtain rfl : Except.error e = r' := hsame.result
      rw [bind_of_error hxs, bind_of_error hxs']
      exact Or.inl ⟨rfl, hsame.usable, hsame.related⟩
    · rcases hxs' : x committed' s' with ⟨r', s₁'⟩
      rw [hxs, hxs'] at hsame
      obtain rfl : Except.ok a = r' := hsame.result
      rw [bind_of_ok hxs, bind_of_ok hxs']
      exact hf a s₁ s₁' hsame.usable hsame.related
  · right
    rcases hxs : x committed s with ⟨e | a, s₁⟩
    · rw [hxs] at hpart
      rw [bind_of_error hxs]
      exact herror e s₁ hpart
    · rw [hxs] at hpart
      rw [bind_of_ok hxs]
      exact hok a s₁ hpart

/-- Work that never parts may be followed by anything. -/
theorem Couples.seq {f : α → Work δ ε β} {D : Except ε β × Session δ → Prop}
    (hx : Couples R (fun _ => False) committed committed' x)
    (hf : ∀ a, Couples R D committed committed' (f a)) :
    Couples R D committed committed' (x >>= f) :=
  hx.bind hf (fun _ _ h => h.elim) fun _ _ h => h.elim

/-- A value is taken, or its error raised, by both. -/
theorem couples_take {r : Except ε α} {f : α → Work δ ε β}
    {D : Except ε β × Session δ → Prop}
    (hf : ∀ a, r = .ok a → Couples R D committed committed' (f a)) :
    Couples R D committed committed' (ofExcept r >>= f) := by
  cases r with
  | error e =>
      intro s s' hu hr
      rw [bind_of_error ofExcept_apply, bind_of_error ofExcept_apply]
      exact Or.inl ⟨rfl, hu, hr⟩
  | ok a =>
      intro s s' hu hr
      rw [bind_of_ok ofExcept_apply, bind_of_ok ofExcept_apply]
      exact hf a rfl s s' hu hr

/-- **Handler**: no run parts where it raises something that is handled. -/
theorem Couples.handle {h : ε → Option (Work δ ε α)} (hx : Couples R D committed committed' x)
    (hh : ∀ e y, h e = some y → Couples R D committed committed' y)
    (hD : ∀ e s, D (.error e, s) → h e = none) :
    Couples R D committed committed' (x.handle h) := by
  intro s s' hu hr
  rcases hx s s' hu hr with hsame | hpart
  · rcases hxs : x committed s with ⟨e | a, s₁⟩
    · rcases hxs' : x committed' s' with ⟨r', s₁'⟩
      rw [hxs, hxs'] at hsame
      obtain rfl : Except.error e = r' := hsame.result
      cases hhe : h e with
      | none =>
          rw [handle_of_none hxs hhe, handle_of_none hxs' hhe]
          exact Or.inl ⟨rfl, hsame.usable, hsame.related⟩
      | some y =>
          rw [handle_of_some hxs hhe, handle_of_some hxs' hhe]
          exact hh e y hhe s₁ s₁' hsame.usable hsame.related
    · rcases hxs' : x committed' s' with ⟨r', s₁'⟩
      rw [hxs, hxs'] at hsame
      obtain rfl : Except.ok a = r' := hsame.result
      rw [handle_of_ok hxs, handle_of_ok hxs']
      exact Or.inl ⟨rfl, hsame.usable, hsame.related⟩
  · right
    rcases hxs : x committed s with ⟨e | a, s₁⟩
    · rw [hxs] at hpart
      rw [handle_of_none hxs (hD e s₁ hpart)]
      exact hpart
    · rw [hxs] at hpart
      rw [handle_of_ok hxs]
      exact hpart

/-- **Loop**: attempts that part only where they return, or raise what ends
the loop. -/
theorem couples_tryEach {κ : Type} {attempt : κ → Work δ ε α} {goOn : ε → Bool} {last : ε}
    {l : List κ} (h : ∀ p ∈ l, Couples R D committed committed' (attempt p))
    (hD : ∀ e s, D (.error e, s) → goOn e = false) :
    Couples R D committed committed' (tryEach attempt goOn last l) := by
  induction l generalizing last with
  | nil => exact couples_raise
  | cons p rest ih =>
      refine (h p List.mem_cons_self).handle ?_ ?_
      · intro e y hy
        split at hy
        · cases hy
          exact ih fun q hq => h q (List.mem_cons_of_mem _ hq)
        · cases hy
      · intro e s hpart
        rw [if_neg]
        rw [hD e s hpart]
        exact Bool.false_ne_true

section Statements

variable [SessionErrors ε]

/-- **Query**: both go on with the same answer. -/
theorem couples_query {f : δ → α} {g : α → Work δ ε β} {D : Except ε β × Session δ → Prop}
    (h : ∀ d d', R d d' → f d = f d')
    (hg : ∀ d, Couples R D committed committed' (g (f d))) :
    Couples R D committed committed' (read f >>= g) := by
  intro s s' hu hr
  cases hs : s.usable with
  | false =>
      rw [bind_of_error (read_of_unusable hs),
        bind_of_error (read_of_unusable (hu.symm.trans hs))]
      exact Or.inl ⟨rfl, hu, hr⟩
  | true =>
      rw [bind_of_ok (read_of_usable hs), bind_of_ok (read_of_usable (hu.symm.trans hs)),
        ← h _ _ hr]
      exact hg s.db s s' hu hr

/-- **Flush**: it goes through in both or in none, or the first one parts. -/
theorem couples_flush {f : δ → Option δ} {D : Except ε Unit × Session δ → Prop}
    (hR : R committed committed')
    (h : ∀ d d', R d d' →
      (f d = none ∧ f d' = none) ∨ (∃ u u', f d = some u ∧ f d' = some u' ∧ R u u') ∨
        ∃ u, f d = some u ∧ D (.ok (), ⟨u, true⟩)) :
    Couples R D committed committed' (flush f : Work δ ε Unit) := by
  intro s s' hu hr
  cases hs : s.usable with
  | false =>
      rw [flush_of_unusable hs, flush_of_unusable (hu.symm.trans hs)]
      exact Or.inl ⟨rfl, hu, hr⟩
  | true =>
      rcases h s.db s'.db hr with ⟨hf, hf'⟩ | ⟨u, u', hf, hf', hrel⟩ | ⟨u, hf, hpart⟩
      · rw [flush_of_none hs hf, flush_of_none (hu.symm.trans hs) hf']
        exact Or.inl ⟨rfl, rfl, hR⟩
      · rw [flush_of_some hs hf, flush_of_some (hu.symm.trans hs) hf']
        exact Or.inl ⟨rfl, rfl, hrel⟩
      · rw [flush_of_some hs hf]
        exact Or.inr hpart

theorem couples_write {f : δ → δ} {D : Except ε Unit × Session δ → Prop}
    (hR : R committed committed') (h : ∀ d d', R d d' → R (f d) (f d')) :
    Couples R D committed committed' (write f : Work δ ε Unit) :=
  couples_flush hR fun d d' hr => Or.inr (Or.inl ⟨f d, f d', rfl, rfl, h d d' hr⟩)

/-- **Request**: one that returns in the first database returns the same in the
second, or the two have parted. -/
theorem Couples.transact {db db' u : δ} {a : α} (h : Couples R D db db' x) (hR : R db db')
    (hx : x.transact db = (.ok a, u)) :
    (∃ u', x.transact db' = (.ok a, u') ∧ R u u') ∨ D (.ok a, ⟨u, true⟩) := by
  have hrun := transact_eq_ok.mp hx
  rcases h ⟨db, true⟩ ⟨db', true⟩ rfl hR with hsame | hpart
  · rw [hrun] at hsame
    rcases hrun' : x db' ⟨db', true⟩ with ⟨r', u', usable⟩
    rw [hrun'] at hsame
    obtain rfl : Except.ok a = r' := hsame.result
    obtain rfl : true = usable := hsame.usable
    exact Or.inl ⟨u', transact_eq_ok.mpr hrun', hsame.related⟩
  · rw [hrun] at hpart
    exact Or.inr hpart

end Statements

end Work

end MailboxService.Foundation
