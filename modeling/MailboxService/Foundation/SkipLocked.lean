import MailboxService.Foundation.Run
import MailboxService.Foundation.Table
import Mathlib.Data.Fintype.Card
import Mathlib.Logic.Function.Basic

/-!
# Reserving a row with SKIP LOCKED

Transactions that each take one row of a shared pool. A transaction first runs
`SELECT … ORDER BY … FOR UPDATE SKIP LOCKED`: of the rows its condition
matches it skips those that another open transaction has locked, locks all the
others, and goes on with the first of them. Later it commits or rolls back,
and its locks go.

A transaction that finds no row ends at once. With at least as many eligible
rows as there are transactions, that happens exactly when the open ones hold
between them every row it matches (`neverStarved_iff`): a transaction uses up
one row at most, so an eligible row is always left to match.
-/

namespace MailboxService.Foundation

/-- Where a transaction stands: before its statement, between the statement
and its end with the row it picked and the store it saw, or ended. -/
inductive ReservePhase (σ ρ ε : Type*) where
  | waiting
  | holding (seen : σ) (row : ρ)
  | ended (outcome : Except ε ρ)

/-- What happens next: a transaction runs its statement, a transaction ends, or
the store changes by itself. -/
inductive ReserveEvent (ι α : Type*) where
  | select (i : ι)
  | finish (i : ι)
  | pass (x : α)

/-- The store, who has locked which row, and where everybody stands. -/
structure Reservations (ι σ ρ κ ε : Type*) where
  store : σ
  owner : κ → Option ι
  phase : ι → ReservePhase σ ρ ε

/-- The transactions: the rows that the condition of each matches, their common
order, what the rest of a transaction makes of the row it holds, and the error
when there is no row. -/
structure Reserver (ι σ α ρ κ ε : Type*) where
  key : ρ → κ
  matched : ι → σ → List ρ
  before : ρ → ρ → Bool
  commit : ι → σ → σ → ρ → Except ε σ
  noRow : ε
  pass : σ → α → σ

namespace Reservations

variable {ι σ ρ κ ε : Type*}

def start (s : σ) : Reservations ι σ ρ κ ε := ⟨s, fun _ => none, fun _ => .waiting⟩

variable [DecidableEq ι]

def release (owner : κ → Option ι) (i : ι) (k : κ) : Option ι :=
  if owner k = some i then none else owner k

def endWith (t : Reservations ι σ ρ κ ε) (i : ι) (outcome : Except ε ρ) :
    Reservations ι σ ρ κ ε :=
  { t with
    owner := release t.owner i
    phase := Function.update t.phase i (.ended outcome) }

def taken (t : Reservations ι σ ρ κ ε) (key : ρ → κ) (i : ι) : Option κ :=
  match t.phase i with
  | .ended (.ok r) => some (key r)
  | _ => none

end Reservations

namespace Reserver

variable {ι σ α ρ κ ε : Type*} [DecidableEq ι] [DecidableEq κ]
  (R : Reserver ι σ α ρ κ ε)

def unlocked (t : Reservations ι σ ρ κ ε) (i : ι) (r : ρ) : Bool :=
  (t.owner (R.key r)).all fun j => decide (j = i)

/-- The rows that the statement returns and locks. -/
def free (t : Reservations ι σ ρ κ ε) (i : ι) : List ρ :=
  (R.matched i t.store).filter (R.unlocked t i)

def select (t : Reservations ι σ ρ κ ε) (i : ι) : Reservations ι σ ρ κ ε :=
  match t.phase i with
  | .waiting =>
      match (R.free t i).foldl (Table.better R.before) none with
      | none => t.endWith i (.error R.noRow)
      | some r =>
          { t with
            owner := fun k => if k ∈ (R.free t i).map R.key then some i else t.owner k
            phase := Function.update t.phase i (.holding t.store r) }
  | _ => t

/-- The rest of a transaction: it commits, or it rolls back. -/
def finish (t : Reservations ι σ ρ κ ε) (i : ι) : Reservations ι σ ρ κ ε :=
  match t.phase i with
  | .holding seen r =>
      match R.commit i seen t.store r with
      | .ok s => ({ t with store := s }).endWith i (.ok r)
      | .error e => t.endWith i (.error e)
  | _ => t

def step (t : Reservations ι σ ρ κ ε) : ReserveEvent ι α → Reservations ι σ ρ κ ε
  | .select i => R.select t i
  | .finish i => R.finish t i
  | .pass x => { t with store := R.pass t.store x }

def Starved (t : Reservations ι σ ρ κ ε) : Prop :=
  ∃ i, t.phase i = .ended (.error R.noRow)

/-- Rows match, and the others have locked them all. -/
def Crowded (t : Reservations ι σ ρ κ ε) (i : ι) : Prop :=
  R.matched i t.store ≠ [] ∧ ∀ r ∈ R.matched i t.store, R.unlocked t i r = false

def Eligible (s : σ) (k : κ) : Prop :=
  ∀ i, ∃ r ∈ R.matched i s, R.key r = k

/-- The condition on an event: a transaction runs its statement while an
unlocked row matches, and ends on a row that it may commit. -/
def Clear (mayCommit : ι → σ → σ → ρ → Prop) (t : Reservations ι σ ρ κ ε) :
    ReserveEvent ι α → Prop
  | .select i =>
      match t.phase i with
      | .waiting => ¬ R.Crowded t i
      | _ => True
  | .finish i =>
      match t.phase i with
      | .holding seen r => mayCommit i seen t.store r
      | _ => True
  | .pass _ => True

/-- What the rule asks of the transactions. `good` ties a row somebody holds to
the store; `mayCommit` says when the rest of a transaction does not run into
the very error of an empty result. -/
structure Steady (sound : σ → Prop) (good : σ → σ → ρ → Prop)
    (mayCommit : ι → σ → σ → ρ → Prop) : Prop where
  sound_pass : ∀ s x, sound s → sound (R.pass s x)
  sound_commit : ∀ i seen s r s', sound s → good seen s r →
    R.commit i seen s r = .ok s' → sound s'
  good_matched : ∀ i s r, sound s → r ∈ R.matched i s → good s s r
  good_pass : ∀ seen s r x, sound s → good seen s r → good seen (R.pass s x) r
  good_commit : ∀ i seen s r s' seen' r', sound s → good seen s r → good seen' s r' →
    R.key r' ≠ R.key r → R.commit i seen s r = .ok s' → good seen' s' r'
  eligible_pass : ∀ s x k, sound s → R.Eligible s k → R.Eligible (R.pass s x) k
  eligible_commit : ∀ i seen s r s' k, sound s → good seen s r → k ≠ R.key r →
    R.commit i seen s r = .ok s' → R.Eligible s k → R.Eligible s' k
  noRow_iff : ∀ i seen s r, sound s → good seen s r →
    (R.commit i seen s r = .error R.noRow ↔ ¬ mayCommit i seen s r)

/-! ## The invariant -/

variable {R} {sound : σ → Prop} {good : σ → σ → ρ → Prop}
  {mayCommit : ι → σ → σ → ρ → Prop} {E : Finset κ}

/-- Whoever holds a row has it locked, and an eligible row stays eligible until
somebody uses it up. -/
structure Inv (R : Reserver ι σ α ρ κ ε) (sound : σ → Prop) (good : σ → σ → ρ → Prop)
    (E : Finset κ) (t : Reservations ι σ ρ κ ε) : Prop where
  sound : sound t.store
  held : ∀ i seen r, t.phase i = .holding seen r →
    t.owner (R.key r) = some i ∧ good seen t.store r
  eligible : ∀ k ∈ E, R.Eligible t.store k ∨ ∃ i, t.taken R.key i = some k

omit [DecidableEq κ] in
theorem mem_free {t : Reservations ι σ ρ κ ε} {i : ι} {r : ρ} :
    r ∈ R.free t i ↔ r ∈ R.matched i t.store ∧ R.unlocked t i r = true :=
  List.mem_filter

omit [DecidableEq κ] in
theorem free_first_none {t : Reservations ι σ ρ κ ε} {i : ι} :
    (R.free t i).foldl (Table.better R.before) none = none ↔
      ∀ r ∈ R.matched i t.store, R.unlocked t i r = false := by
  rcases hfree : R.free t i with _ | ⟨r, rest⟩
  · simp only [List.foldl_nil, true_iff]
    intro r hr
    by_contra hlock
    have hmem : r ∈ R.free t i := mem_free.mpr ⟨hr, by simpa using hlock⟩
    rw [hfree] at hmem
    cases hmem
  · have hfound : ∃ r', (r :: rest).foldl (Table.better R.before) none = some r' :=
      Table.foldl_better_some rest r
    obtain ⟨r', hsome⟩ := hfound
    rw [hsome]
    simp only [reduceCtorEq, false_iff]
    intro hall
    have hmem : r ∈ R.free t i := by
      rw [hfree]
      exact List.mem_cons_self
    obtain ⟨hmatched, hunlocked⟩ := mem_free.mp hmem
    rw [hall r hmatched] at hunlocked
    cases hunlocked

omit [DecidableEq κ] in
theorem free_first_some {t : Reservations ι σ ρ κ ε} {i : ι} {r : ρ}
    (h : (R.free t i).foldl (Table.better R.before) none = some r) : r ∈ R.free t i := by
  rcases Table.foldl_better_mem _ _ _ h with hr | hr
  · exact hr
  · cases hr

omit [DecidableEq κ] in
/-- What a transaction has used up stays used up. -/
theorem taken_update {t : Reservations ι σ ρ κ ε} {t' : Reservations ι σ ρ κ ε} {i : ι}
    {p : ReservePhase σ ρ ε} (hphase : t'.phase = Function.update t.phase i p)
    (hi : t.taken R.key i = none) {k : κ} (h : ∃ j, t.taken R.key j = some k) :
    ∃ j, t'.taken R.key j = some k := by
  obtain ⟨j, hj⟩ := h
  refine ⟨j, ?_⟩
  have hne : j ≠ i := by
    rintro rfl
    rw [hi] at hj
    cases hj
  unfold Reservations.taken at hj ⊢
  rw [hphase, Function.update_of_ne hne]
  exact hj

theorem Inv.select {t : Reservations ι σ ρ κ ε} (hR : R.Steady sound good mayCommit)
    (h : Inv R sound good E t) (i : ι) : Inv R sound good E (R.select t i) := by
  unfold Reserver.select
  split
  case h_2 => exact h
  rename_i hwait
  have htaken : t.taken R.key i = none := by
    unfold Reservations.taken
    rw [hwait]
  split
  · refine ⟨h.sound, ?_, ?_⟩
    · intro j seen r hj
      simp only [Reservations.endWith] at hj ⊢
      by_cases hji : j = i
      · subst hji
        rw [Function.update_self] at hj
        cases hj
      · rw [Function.update_of_ne hji] at hj
        obtain ⟨howner, hgood⟩ := h.held j seen r hj
        refine ⟨?_, hgood⟩
        rw [Reservations.release, howner, if_neg (by simpa using hji)]
    · intro k hk
      exact (h.eligible k hk).imp id (taken_update rfl htaken)
  · rename_i r hfirst
    have hfree := free_first_some hfirst
    refine ⟨h.sound, ?_, ?_⟩
    · intro j seen r' hj
      simp only at hj ⊢
      by_cases hji : j = i
      · subst hji
        rw [Function.update_self] at hj
        cases hj
        refine ⟨if_pos (List.mem_map_of_mem hfree), ?_⟩
        exact hR.good_matched j _ r h.sound (mem_free.mp hfree).1
      · rw [Function.update_of_ne hji] at hj
        obtain ⟨howner, hgood⟩ := h.held j seen r' hj
        refine ⟨?_, hgood⟩
        -- a row somebody else has locked is not among the free ones
        rw [if_neg, howner]
        intro hmem
        obtain ⟨q, hq, hkey⟩ := List.mem_map.mp hmem
        have hunlocked := (mem_free.mp hq).2
        unfold unlocked at hunlocked
        rw [hkey, howner] at hunlocked
        exact hji (by simpa using hunlocked)
    · intro k hk
      exact (h.eligible k hk).imp id (taken_update rfl htaken)

theorem Inv.finish {t : Reservations ι σ ρ κ ε} (hR : R.Steady sound good mayCommit)
    (h : Inv R sound good E t) (i : ι) : Inv R sound good E (R.finish t i) := by
  unfold Reserver.finish
  split
  case h_2 => exact h
  rename_i seen r hhold
  obtain ⟨hown, hgood⟩ := h.held i seen r hhold
  have htaken : t.taken R.key i = none := by
    unfold Reservations.taken
    rw [hhold]
  -- the others keep their locks, and their rows have other keys
  have hothers : ∀ j seen' r', Function.update t.phase i (.ended (.ok r)) j =
        .holding seen' r' ∨ (∃ e, Function.update t.phase i (.ended (.error e)) j =
        .holding seen' r') →
      j ≠ i ∧ t.owner (R.key r') = some j ∧ good seen' t.store r' := by
    intro j seen' r' hj
    have hji : j ≠ i := by
      rintro rfl
      rcases hj with hj | ⟨e, hj⟩ <;> rw [Function.update_self] at hj <;> cases hj
    refine ⟨hji, h.held j seen' r' ?_⟩
    rcases hj with hj | ⟨e, hj⟩ <;> rwa [Function.update_of_ne hji] at hj
  split
  · rename_i s hcommit
    refine ⟨hR.sound_commit i seen _ r s h.sound hgood hcommit, ?_, ?_⟩
    · intro j seen' r' hj
      obtain ⟨hji, howner, hgood'⟩ := hothers j seen' r' (Or.inl hj)
      have hkey : R.key r' ≠ R.key r := by
        intro heq
        rw [heq, hown] at howner
        exact hji (Option.some.inj howner).symm
      refine ⟨?_, hR.good_commit i seen _ r s seen' r' h.sound hgood hgood' hkey hcommit⟩
      simp only [Reservations.endWith, Reservations.release]
      rw [howner, if_neg (by simpa using hji)]
    · intro k hk
      by_cases hkey : k = R.key r
      · refine Or.inr ⟨i, ?_⟩
        unfold Reservations.taken Reservations.endWith
        simp only [Function.update_self, hkey]
      · exact (h.eligible k hk).imp
          (hR.eligible_commit i seen _ r s k h.sound hgood hkey hcommit)
          (taken_update rfl htaken)
  · rename_i e hcommit
    refine ⟨h.sound, ?_, ?_⟩
    · intro j seen' r' hj
      obtain ⟨hji, howner, hgood'⟩ := hothers j seen' r' (Or.inr ⟨e, hj⟩)
      refine ⟨?_, hgood'⟩
      simp only [Reservations.endWith, Reservations.release]
      rw [howner, if_neg (by simpa using hji)]
    · intro k hk
      exact (h.eligible k hk).imp id (taken_update rfl htaken)

theorem Inv.step {t : Reservations ι σ ρ κ ε} (hR : R.Steady sound good mayCommit)
    (e : ReserveEvent ι α) (h : Inv R sound good E t) : Inv R sound good E (R.step t e) := by
  cases e with
  | select i => exact h.select hR i
  | finish i => exact h.finish hR i
  | pass x =>
      refine ⟨hR.sound_pass _ x h.sound, ?_, ?_⟩
      · intro i seen r hi
        obtain ⟨howner, hgood⟩ := h.held i seen r hi
        exact ⟨howner, hR.good_pass seen _ r x h.sound hgood⟩
      · intro k hk
        exact (h.eligible k hk).imp (hR.eligible_pass _ x k h.sound) id

/-- **Counting lemma**: while somebody has not ended, a row of the set is left
that he matches. -/
theorem Inv.exists_matched [Fintype ι] {t : Reservations ι σ ρ κ ε}
    (h : Inv R sound good E t) (hcard : Fintype.card ι ≤ E.card) {i : ι}
    (hi : t.taken R.key i = none) : ∃ r, r ∈ R.matched i t.store := by
  by_contra hnone
  have hsub : E.image some ⊆ (Finset.univ.erase i).image (t.taken R.key) := by
    intro x hx
    obtain ⟨k, hk, rfl⟩ := Finset.mem_image.mp hx
    rcases h.eligible k hk with heligible | ⟨j, hj⟩
    · obtain ⟨r, hr, -⟩ := heligible i
      exact absurd ⟨r, hr⟩ hnone
    · refine Finset.mem_image.mpr ⟨j, Finset.mem_erase.mpr ⟨?_, Finset.mem_univ j⟩, hj⟩
      rintro rfl
      rw [hi] at hj
      cases hj
  have hle := (Finset.card_le_card hsub).trans Finset.card_image_le
  rw [Finset.card_image_of_injective _ (Option.some_injective κ),
    Finset.card_erase_of_mem (Finset.mem_univ i), Finset.card_univ] at hle
  have hpos : 0 < Fintype.card ι := Fintype.card_pos_iff.mpr ⟨i⟩
  omega

/-! ## The rule -/

omit [DecidableEq κ] in
theorem starved_update {t t' : Reservations ι σ ρ κ ε} {i : ι} {p : ReservePhase σ ρ ε}
    (hphase : t'.phase = Function.update t.phase i p) (h : ¬ R.Starved t) :
    R.Starved t' ↔ p = .ended (.error R.noRow) := by
  unfold Starved
  rw [hphase]
  constructor
  · rintro ⟨j, hj⟩
    by_cases hji : j = i
    · subst hji
      rwa [Function.update_self] at hj
    · rw [Function.update_of_ne hji] at hj
      exact absurd ⟨j, hj⟩ h
  · intro hp
    exact ⟨i, by rw [Function.update_self, hp]⟩

/-- **Starvation lemma**, for one event. -/
theorem starved_step_iff [Fintype ι] {t : Reservations ι σ ρ κ ε}
    (hR : R.Steady sound good mayCommit) (hcard : Fintype.card ι ≤ E.card)
    (h : Inv R sound good E t) (hfed : ¬ R.Starved t) (e : ReserveEvent ι α) :
    ¬ R.Starved (R.step t e) ↔ R.Clear mayCommit t e := by
  cases e with
  | select i =>
      unfold step Clear Reserver.select
      rcases hphase : t.phase i with _ | ⟨seen, r⟩ | outcome
      · have htaken : t.taken R.key i = none := by
          unfold Reservations.taken
          rw [hphase]
        obtain ⟨r, hr⟩ := h.exists_matched hcard htaken
        have hcrowded : R.Crowded t i ↔
            ∀ r ∈ R.matched i t.store, R.unlocked t i r = false :=
          ⟨fun hc => hc.2, fun hc => ⟨List.ne_nil_of_mem hr, hc⟩⟩
        simp only [hphase]
        rw [hcrowded, ← free_first_none]
        rcases hfirst : (R.free t i).foldl (Table.better R.before) none with _ | r
        · simp only
          rw [starved_update rfl hfed]
          simp
        · simp only
          rw [starved_update rfl hfed]
          simp
      · simpa only [hphase, iff_true] using hfed
      · simpa only [hphase, iff_true] using hfed
  | finish i =>
      unfold step Clear Reserver.finish
      rcases hphase : t.phase i with _ | ⟨seen, r⟩ | outcome
      · simpa only [hphase, iff_true] using hfed
      · obtain ⟨-, hgood⟩ := h.held i seen r hphase
        have hnoRow := hR.noRow_iff i seen t.store r h.sound hgood
        simp only [hphase]
        rcases hcommit : R.commit i seen t.store r with e | s
        · rw [hcommit, Except.error.injEq] at hnoRow
          simp only
          rw [starved_update rfl hfed, ReservePhase.ended.injEq,
            Except.error.injEq, hnoRow, not_not]
        · rw [hcommit] at hnoRow
          simp only
          rw [starved_update rfl hfed]
          simpa using hnoRow
      · simpa only [hphase, iff_true] using hfed
  | pass x => simpa only [step, Clear, Starved, iff_true] using hfed

/-- **Starvation rule**: with as many eligible rows as transactions, nobody ends
without a row exactly if nobody runs his statement while the others have locked
every row it matches, and nobody's rest runs into that error. -/
theorem neverStarved_iff [Fintype ι] {s : σ} (hR : R.Steady sound good mayCommit)
    (hcard : Fintype.card ι ≤ E.card) (hsound : sound s) (hE : ∀ k ∈ E, R.Eligible s k)
    (es : List (ReserveEvent ι α)) :
    Throughout R.step (fun t => ¬ R.Starved t) (Reservations.start s) es ↔
      Meets R.step (R.Clear mayCommit) (Reservations.start s) es := by
  have hinv : Inv R sound good E (Reservations.start s) := by
    refine ⟨hsound, ?_, fun k hk => Or.inl (hE k hk)⟩
    intro i seen r hi
    cases hi
  have hfed : ¬ R.Starved (Reservations.start s) := by
    rintro ⟨i, hi⟩
    cases hi
  exact meets_iff_throughout (fun t e ht => Inv.step hR e ht)
    (fun t e ht hfed => starved_step_iff hR hcard ht hfed e) hinv hfed

/-- A transaction that nobody disturbs takes the first row it matches. -/
theorem finish_select_of_unlocked {t : Reservations ι σ ρ κ ε} {i : ι}
    (h : ∀ k, t.owner k = none) (hwait : t.phase i = .waiting) :
    (R.finish (R.select t i) i).store =
      match (R.matched i t.store).foldl (Table.better R.before) none with
      | none => t.store
      | some r =>
          match R.commit i t.store t.store r with
          | .ok s => s
          | .error _ => t.store := by
  have hfree : R.free t i = R.matched i t.store := by
    refine List.filter_eq_self.mpr fun r _ => ?_
    unfold unlocked
    rw [h]
    rfl
  unfold select
  rw [hwait, hfree]
  simp only
  rcases hfirst : (R.matched i t.store).foldl (Table.better R.before) none with _ | r
  · simp [finish, Reservations.endWith]
  · simp only [finish, Function.update_self]
    cases R.commit i t.store t.store r <;> rfl

instance decidableCrowded [DecidableEq ρ] (t : Reservations ι σ ρ κ ε) (i : ι) :
    Decidable (R.Crowded t i) :=
  inferInstanceAs (Decidable (_ ∧ _))

instance decidableClear [DecidableEq ρ] [∀ i seen s r, Decidable (mayCommit i seen s r)]
    (t : Reservations ι σ ρ κ ε) : ∀ e, Decidable (R.Clear mayCommit t e)
  | .select i =>
      let rec onSelect : ∀ p : ReservePhase σ ρ ε, Decidable (match p with
          | .waiting => ¬ R.Crowded t i
          | _ => True)
        | .waiting => inferInstanceAs (Decidable (¬ R.Crowded t i))
        | .holding _ _ => isTrue trivial
        | .ended _ => isTrue trivial
      onSelect (t.phase i)
  | .finish i =>
      let rec onFinish : ∀ p : ReservePhase σ ρ ε, Decidable (match p with
          | .holding seen r => mayCommit i seen t.store r
          | _ => True)
        | .waiting => isTrue trivial
        | .holding seen r => inferInstanceAs (Decidable (mayCommit i seen t.store r))
        | .ended _ => isTrue trivial
      onFinish (t.phase i)
  | .pass _ => isTrue trivial

end Reserver

end MailboxService.Foundation
