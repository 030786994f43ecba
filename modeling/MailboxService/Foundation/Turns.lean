import MailboxService.Foundation.FirstRanked
import MailboxService.Foundation.Run
import MailboxService.Foundation.Table

/-!
# Turns

In every round the first few of those that wait have their turn. Whoever is passed
over has a full round ahead of it (`length_firstRanked`, `key_lt_of_passed`). If a
round that passes it over always leaves fewer ahead of it, then it has its turn in the
end (`sometime_of_lowering`); if no round can let it pass, it never has
(`not_sometime`).
-/

namespace MailboxService.Foundation

/-! ## Runs up to an event -/

section Runs

variable {σ α : Type*} {step : σ → α → σ} {ok turn : σ → α → Prop} {P : σ → Prop}

/-- A condition on the steps of a run, up to the first turn and on it. -/
def MeetsUntil (step : σ → α → σ) (ok turn : σ → α → Prop) : σ → List α → Prop
  | _, [] => True
  | s, e :: es => ok s e ∧ (¬ turn s e → MeetsUntil step ok turn (step s e) es)

def Sometime (step : σ → α → σ) (turn : σ → α → Prop) : σ → List α → Prop
  | _, [] => False
  | s, e :: es => turn s e ∨ Sometime step turn (step s e) es

/-- **Every turn comes**: what has to come first gets less with every round. -/
theorem sometime_of_lowering (before : σ → ℕ) (round : α → Bool)
    (hstep : ∀ s e, P s → ok s e → ¬ turn s e →
      P (step s e) ∧ before (step s e) + (if round e then 1 else 0) ≤ before s)
    {s : σ} {es : List α} (h : P s) (hok : MeetsUntil step ok turn s es)
    (hlong : before s < es.countP round) : Sometime step turn s es := by
  induction es generalizing s with
  | nil => exact absurd hlong (Nat.not_lt_zero _)
  | cons e es ih =>
      by_cases hturn : turn s e
      · exact Or.inl hturn
      · obtain ⟨hP, hless⟩ := hstep s e h hok.1 hturn
        refine Or.inr (ih hP (hok.2 hturn) ?_)
        rw [List.countP_cons] at hlong
        omega

/-- **The turn never comes**. -/
theorem not_sometime (hstep : ∀ s e, P s → ok s e → ¬ turn s e ∧ P (step s e)) {s : σ}
    {es : List α} (h : P s) (hok : MeetsUntil step ok turn s es) :
    ¬ Sometime step turn s es := by
  induction es generalizing s with
  | nil => exact id
  | cons e es ih =>
      obtain ⟨hturn, hP⟩ := hstep s e h hok.1
      rintro (hnow | hlater)
      · exact hturn hnow
      · exact ih hP (hok.2 hturn) hlater

end Runs

/-! ## Who is passed over -/

section Ranked

variable {α κ : Type*} [LinearOrder κ] {key : α → κ} {l : List α} {n : ℕ} {a b : α}

/-- With enough ahead of it an element is passed over. -/
theorem not_mem_firstRanked (hnodup : l.Nodup)
    (hkey : ∀ a ∈ l, ∀ b ∈ l, key a = key b → a = b) (hahead : n ≤ ahead key l b) :
    b ∉ firstRanked key n l := by
  intro hb
  have hfirst := (mem_firstRanked hnodup hkey (mem_of_mem_firstRanked hb)).mp hb
  omega

/-- Whoever is among the first is ahead of those who are passed over. -/
theorem key_lt_of_passed (hnodup : l.Nodup) (hkey : ∀ a ∈ l, ∀ b ∈ l, key a = key b → a = b)
    (ha : a ∈ firstRanked key n l) (hb : b ∈ l) (hpassed : b ∉ firstRanked key n l) :
    key a < key b := by
  have hmem := mem_of_mem_firstRanked ha
  by_contra hnot
  refine hpassed ((mem_firstRanked hnodup hkey hb).mpr ?_)
  have hmono := ahead_mono (l := l) (not_lt.mp hnot)
  exact hmono.trans_lt ((mem_firstRanked hnodup hkey hmem).mp ha)

/-- A round that passes somebody over is full. -/
theorem length_firstRanked (hb : b ∈ l) (hpassed : b ∉ firstRanked key n l) :
    (firstRanked key n l).length = n := by
  unfold firstRanked at hpassed ⊢
  rw [List.length_take]
  refine min_eq_left ?_
  by_contra hshort
  rw [List.take_of_length_le (Nat.le_of_not_le hshort)] at hpassed
  exact hpassed ((List.mem_insertionSort _).mpr hb)

theorem nodup_firstRanked (key : α → κ) (n : ℕ) (hnodup : l.Nodup) :
    (firstRanked key n l).Nodup :=
  ((List.perm_insertionSort _ l).nodup_iff.mpr hnodup).sublist (List.take_sublist _ _)

end Ranked

/-! ## Counting rows -/

namespace Table

variable {ρ κ : Type*} [DecidableEq κ] {S : Schema ρ κ} {t t' : Table S}

/-- **One row has changed**: a count of rows changes by that row. -/
theorem countP_of_modified {k : κ} {r r' : ρ} (hr : t.get? k = some r)
    (hr' : t'.get? k = some r') (hothers : ∀ j, j ≠ k → t'.get? j = t.get? j) (p : ρ → Bool) :
    t'.rows.countP p + (if p r then 1 else 0) = t.rows.countP p + (if p r' then 1 else 0) := by
  have hsplit : ∀ (u : Table S) (q : ρ), u.get? k = some q →
      u.rows.countP p =
        (if p q then 1 else 0) + (u.rows.filter fun x => !decide (S.key x = k)).countP p := by
    intro u q hq
    obtain ⟨hmem, hkey⟩ := get?_eq_some.mp hq
    have hown : u.rows.filter (fun x => decide (S.key x = k)) = [q] := by
      refine List.perm_singleton.mp ((List.perm_ext_iff_of_nodup (u.nodup_rows.filter _)
        (List.nodup_singleton q)).mpr fun x => ?_)
      rw [List.mem_filter, List.mem_singleton, decide_eq_true_eq]
      constructor
      · rintro ⟨hx, hxkey⟩
        exact eq_of_key hx hmem (hxkey.trans hkey.symm)
      · rintro rfl
        exact ⟨hmem, hkey⟩
    rw [List.countP_eq_countP_filter_add u.rows p fun x => decide (S.key x = k), hown,
      List.countP_singleton]
  have hrest : (t'.rows.filter fun x => !decide (S.key x = k)).Perm
      (t.rows.filter fun x => !decide (S.key x = k)) := by
    have hmem : ∀ u u' : Table S, (∀ j, j ≠ k → u'.get? j = u.get? j) → ∀ x ∈ u'.rows,
        S.key x ≠ k → x ∈ u.rows := by
      intro u u' hsame x hx hxkey
      have hget : u'.get? (S.key x) = some x := get?_eq_some.mpr ⟨hx, rfl⟩
      rw [hsame _ hxkey] at hget
      exact mem_of_get? hget
    refine (List.perm_ext_iff_of_nodup (t'.nodup_rows.filter _) (t.nodup_rows.filter _)).mpr ?_
    intro x
    rw [List.mem_filter, List.mem_filter, Bool.not_eq_true', decide_eq_false_iff_not]
    constructor
    · rintro ⟨hx, hxkey⟩
      exact ⟨hmem t t' hothers x hx hxkey, hxkey⟩
    · rintro ⟨hx, hxkey⟩
      exact ⟨hmem t' t (fun j hj => (hothers j hj).symm) x hx hxkey, hxkey⟩
  rw [hsplit t r hr, hsplit t' r' hr', hrest.countP_eq]
  omega

end Table

end MailboxService.Foundation
