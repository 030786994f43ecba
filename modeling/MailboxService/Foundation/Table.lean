import Mathlib.Data.List.Basic
import Mathlib.Data.List.Pairwise
import Mathlib.Data.List.Nodup

/-!
# Tables with a primary key and one further unique key

A relational table is a list of rows no two of which share a primary key or
clash on the table's other unique key. The constraint is a field of the type,
so every operation that builds a table proves that it keeps it: an insertion
that would break it is refused (`insert?` is `none`, the integrity error of a
database), a deletion cannot break it, an update must leave the constrained
columns alone (`Schema.Keeps`), and a change of a single row that does not is
refused like an insertion (`modify?`).
-/

namespace MailboxService.Foundation

variable {ρ κ : Type*}

/-- The constraints of a table. `clash a b` says that `a` and `b` hold equal
values in the table's second unique key (rows with a null there clash with
nothing). -/
structure Schema (ρ κ : Type*) where
  key : ρ → κ
  clash : ρ → ρ → Bool
  clash_comm : ∀ a b, clash a b = clash b a

def Schema.keyed (key : ρ → κ) : Schema ρ κ where
  key := key
  clash := fun _ _ => false
  clash_comm := fun _ _ => rfl

/-- An update that leaves the constrained columns alone. -/
def Schema.Keeps (S : Schema ρ κ) (f : ρ → ρ) : Prop :=
  ∀ r, S.key (f r) = S.key r ∧ ∀ q, S.clash (f r) q = S.clash r q

/-- Two rows that may stand in one table. -/
def Schema.Distinct (S : Schema ρ κ) (a b : ρ) : Prop :=
  S.key a ≠ S.key b ∧ S.clash a b = false

instance Schema.decidableDistinct [DecidableEq κ] (S : Schema ρ κ) (a b : ρ) :
    Decidable (S.Distinct a b) :=
  inferInstanceAs (Decidable (_ ∧ _))

theorem Schema.Distinct.symm {S : Schema ρ κ} {a b : ρ} (h : S.Distinct a b) :
    S.Distinct b a :=
  ⟨h.1.symm, by rw [S.clash_comm]; exact h.2⟩

theorem Schema.Keeps.distinct_left {S : Schema ρ κ} {f : ρ → ρ} (hf : S.Keeps f)
    {a b : ρ} (h : S.Distinct a b) : S.Distinct (f a) b :=
  ⟨by rw [(hf a).1]; exact h.1, by rw [(hf a).2]; exact h.2⟩

theorem Schema.Keeps.distinct_right {S : Schema ρ κ} {f : ρ → ρ} (hf : S.Keeps f)
    {a b : ρ} (h : S.Distinct a b) : S.Distinct a (f b) :=
  (hf.distinct_left h.symm).symm

theorem Schema.keyed_keeps {key : ρ → κ} {f : ρ → ρ} (h : ∀ r, key (f r) = key r) :
    (Schema.keyed key).Keeps f :=
  fun r => ⟨h r, fun _ => rfl⟩

structure Table (S : Schema ρ κ) where
  rows : List ρ
  distinct : rows.Pairwise S.Distinct

namespace Table

variable {S : Schema ρ κ}

instance : Membership ρ (Table S) := ⟨fun t r => r ∈ t.rows⟩

instance : EmptyCollection (Table S) := ⟨⟨[], List.Pairwise.nil⟩⟩

theorem mem_def {t : Table S} {r : ρ} : r ∈ t ↔ r ∈ t.rows := Iff.rfl

@[simp] theorem not_mem_empty (r : ρ) : r ∉ (∅ : Table S) := by
  intro h
  cases (show r ∈ ([] : List ρ) from h)

theorem ext {t u : Table S} (h : t.rows = u.rows) : t = u := by
  cases t
  cases u
  cases h
  rfl

/-- Distinctness of any two different rows, in either order. -/
theorem distinct_of_ne {t : Table S} {a b : ρ} (ha : a ∈ t) (hb : b ∈ t)
    (hne : a ≠ b) : S.Distinct a b := by
  have hsymm : Std.Symm S.Distinct := ⟨fun _ _ h => h.symm⟩
  exact t.distinct.forall ha hb hne

theorem eq_of_key {t : Table S} {a b : ρ} (ha : a ∈ t) (hb : b ∈ t)
    (h : S.key a = S.key b) : a = b := by
  by_contra hne
  exact (distinct_of_ne ha hb hne).1 h

theorem eq_of_clash {t : Table S} {a b : ρ} (ha : a ∈ t) (hb : b ∈ t)
    (h : S.clash a b = true) : a = b := by
  by_contra hne
  rw [(distinct_of_ne ha hb hne).2] at h
  exact Bool.noConfusion h

theorem nodup_rows (t : Table S) : t.rows.Nodup :=
  t.distinct.imp fun h heq => h.1 (congrArg S.key heq)

/-! ## Reading -/

def select (t : Table S) (p : ρ → Bool) : List ρ := t.rows.filter p

def any (t : Table S) (p : ρ → Bool) : Bool := t.rows.any p

@[simp] theorem mem_select {t : Table S} {p : ρ → Bool} {r : ρ} :
    r ∈ t.select p ↔ r ∈ t ∧ p r = true :=
  List.mem_filter

@[simp] theorem any_eq_true {t : Table S} {p : ρ → Bool} :
    t.any p = true ↔ ∃ r ∈ t, p r = true :=
  List.any_eq_true

theorem any_eq_false {t : Table S} {p : ρ → Bool} :
    t.any p = false ↔ ∀ r ∈ t, p r = false := by
  rw [← Bool.not_eq_true, any_eq_true]
  simp only [not_exists, not_and, Bool.not_eq_true]

/-- The better of two rows, the earlier one on a tie. -/
def better (lt : ρ → ρ → Bool) : Option ρ → ρ → Option ρ
  | none, r => some r
  | some b, r => if lt r b then some r else some b

/-- The first row, in the order `lt`, among those that meet a condition. -/
def first? (t : Table S) (p : ρ → Bool) (lt : ρ → ρ → Bool) : Option ρ :=
  (t.select p).foldl (better lt) none

theorem foldl_better_mem {lt : ρ → ρ → Bool} (l : List ρ) :
    ∀ b r, l.foldl (better lt) b = some r → r ∈ l ∨ b = some r := by
  induction l with
  | nil =>
      intro b r h
      exact Or.inr h
  | cons q l ih =>
      intro b r h
      rcases ih _ r h with hr | hr
      · exact Or.inl (List.mem_cons_of_mem _ hr)
      · cases b with
        | none =>
            cases hr
            exact Or.inl List.mem_cons_self
        | some b =>
            simp only [better] at hr
            split at hr
            · cases hr
              exact Or.inl List.mem_cons_self
            · exact Or.inr hr

theorem foldl_better_some {lt : ρ → ρ → Bool} (l : List ρ) :
    ∀ b, ∃ r, l.foldl (better lt) (some b) = some r := by
  induction l with
  | nil =>
      intro b
      exact ⟨b, rfl⟩
  | cons q l ih =>
      intro b
      simp only [List.foldl_cons, better]
      split
      · exact ih q
      · exact ih b

theorem first?_eq_some {t : Table S} {p : ρ → Bool} {lt : ρ → ρ → Bool} {r : ρ}
    (h : t.first? p lt = some r) : r ∈ t ∧ p r = true := by
  rcases foldl_better_mem _ _ r h with hr | hr
  · exact mem_select.mp hr
  · cases hr

section Keyed

variable [DecidableEq κ]

def get? (t : Table S) (k : κ) : Option ρ :=
  t.rows.find? fun r => decide (S.key r = k)

theorem get?_eq_some {t : Table S} {k : κ} {r : ρ} :
    t.get? k = some r ↔ r ∈ t ∧ S.key r = k := by
  constructor
  · intro h
    unfold get? at h
    exact ⟨List.mem_of_find?_eq_some h, by simpa using List.find?_some h⟩
  · rintro ⟨hr, rfl⟩
    cases hq : t.get? (S.key r) with
    | none =>
        have := List.find?_eq_none.mp hq r hr
        simp at this
    | some q =>
        have hqr : S.key q = S.key r :=
          of_decide_eq_true (List.find?_some (p := fun r' => decide (S.key r' = S.key r)) hq)
        rw [eq_of_key (List.mem_of_find?_eq_some hq) hr hqr]

theorem get?_eq_none {t : Table S} {k : κ} :
    t.get? k = none ↔ ∀ r ∈ t, S.key r ≠ k := by
  unfold get?
  rw [List.find?_eq_none]
  simp only [decide_eq_true_eq]
  exact Iff.rfl

theorem mem_of_get? {t : Table S} {k : κ} {r : ρ} (h : t.get? k = some r) : r ∈ t :=
  (get?_eq_some.mp h).1

theorem key_of_get? {t : Table S} {k : κ} {r : ρ} (h : t.get? k = some r) :
    S.key r = k :=
  (get?_eq_some.mp h).2

/-! ## Inserting -/

def admits (t : Table S) (r : ρ) : Bool :=
  t.rows.all fun q => decide (S.key q ≠ S.key r) && !S.clash q r

theorem admits_iff {t : Table S} {r : ρ} :
    t.admits r = true ↔ ∀ q ∈ t, S.Distinct q r := by
  simp only [admits, List.all_eq_true, Bool.and_eq_true, decide_eq_true_eq,
    Bool.not_eq_true']
  exact Iff.rfl

/-- Insert a row, or refuse it on a duplicate key. -/
def insert? (t : Table S) (r : ρ) : Option (Table S) :=
  if h : t.admits r = true then
    some ⟨t.rows ++ [r], List.pairwise_append.mpr
      ⟨t.distinct, List.pairwise_singleton _ _, by
        intro q hq q' hq'
        rw [List.mem_singleton] at hq'
        subst hq'
        exact admits_iff.mp h q hq⟩⟩
  else none

theorem insert?_eq_some {t t' : Table S} {r : ρ} (h : t.insert? r = some t') :
    (∀ q ∈ t, S.Distinct q r) ∧ t'.rows = t.rows ++ [r] := by
  unfold insert? at h
  split at h
  · rename_i hadm
    cases h
    exact ⟨admits_iff.mp hadm, rfl⟩
  · cases h

theorem mem_insert? {t t' : Table S} {r q : ρ} (h : t.insert? r = some t') :
    q ∈ t' ↔ q ∈ t ∨ q = r := by
  rw [mem_def, (insert?_eq_some h).2, List.mem_append, List.mem_singleton]
  exact Iff.rfl

/-- A table seen from one primary key, with one more row. -/
theorem get?_insert? {t t' : Table S} {r : ρ} {k : κ} (h : t.insert? r = some t') :
    t'.get? k = if S.key r = k then some r else t.get? k := by
  split
  · rename_i hk
    exact get?_eq_some.mpr ⟨(mem_insert? h).mpr (Or.inr rfl), hk⟩
  · rename_i hk
    rcases hget : t.get? k with _ | q
    · rw [get?_eq_none] at hget ⊢
      intro q hq
      rcases (mem_insert? h).mp hq with hq | rfl
      · exact hget q hq
      · exact hk
    · obtain ⟨hq, hqk⟩ := get?_eq_some.mp hget
      exact get?_eq_some.mpr ⟨(mem_insert? h).mpr (Or.inl hq), hqk⟩

theorem insert?_isSome {t : Table S} {r : ρ} (h : ∀ q ∈ t, S.Distinct q r) :
    ∃ t', t.insert? r = some t' := by
  unfold insert?
  rw [dif_pos (admits_iff.mpr h)]
  exact ⟨_, rfl⟩

theorem insert?_eq_none {t : Table S} {r : ρ} :
    t.insert? r = none ↔ ∃ q ∈ t, ¬ S.Distinct q r := by
  unfold insert?
  split
  · rename_i h
    simp only [reduceCtorEq, false_iff, not_exists, not_and, not_not]
    exact admits_iff.mp h
  · rename_i h
    simpa [admits_iff] using h

end Keyed

/-! ## Deleting and updating -/

/-- `DELETE … WHERE p`. -/
def deleteWhere (t : Table S) (p : ρ → Bool) : Table S :=
  ⟨t.rows.filter fun r => !p r, t.distinct.filter _⟩

@[simp] theorem mem_deleteWhere {t : Table S} {p : ρ → Bool} {r : ρ} :
    r ∈ t.deleteWhere p ↔ r ∈ t ∧ p r = false := by
  rw [mem_def, deleteWhere, List.mem_filter, Bool.not_eq_true']
  exact Iff.rfl

/-- `UPDATE … SET f WHERE p`. -/
def updateWhere (t : Table S) (p : ρ → Bool) (f : ρ → ρ) (hf : S.Keeps f) : Table S :=
  ⟨t.rows.map fun r => if p r then f r else r, by
    refine List.pairwise_map.mpr (t.distinct.imp ?_)
    intro a b hab
    by_cases ha : p a = true <;> by_cases hb : p b = true <;>
      simp only [ha, hb, if_true, if_false, Bool.false_eq_true]
    · exact hf.distinct_left (hf.distinct_right hab)
    · exact hf.distinct_left hab
    · exact hf.distinct_right hab
    · exact hab⟩

theorem mem_updateWhere {t : Table S} {p : ρ → Bool} {f : ρ → ρ} {hf : S.Keeps f}
    {q : ρ} :
    q ∈ t.updateWhere p f hf ↔ ∃ r ∈ t, q = if p r then f r else r := by
  rw [mem_def, updateWhere, List.mem_map]
  simp only [eq_comm]
  exact Iff.rfl

theorem select_deleteWhere {t : Table S} {p q : ρ → Bool} (h : ∀ r, p r = true → q r = false) :
    (t.deleteWhere p).select q = t.select q := by
  unfold select deleteWhere
  rw [List.filter_filter]
  apply List.filter_congr
  intro r _
  cases hp : p r with
  | false => simp
  | true => simp [h r hp]

theorem select_updateWhere {t : Table S} {p q : ρ → Bool} {f : ρ → ρ} {hf : S.Keeps f}
    (h : ∀ r, p r = true → q r = false ∧ q (f r) = false) :
    (t.updateWhere p f hf).select q = t.select q := by
  show (t.rows.map fun r => if p r then f r else r).filter q = t.rows.filter q
  induction t.rows with
  | nil => rfl
  | cons r rows ih =>
      rw [List.map_cons, List.filter_cons, List.filter_cons, ih]
      by_cases hp : p r = true
      · rw [if_pos hp, (h r hp).1, (h r hp).2]
        rfl
      · rw [if_neg hp]

/-- A table with fewer rows admits what the larger one admits. -/
theorem insert?_of_subset [DecidableEq κ] {t t' u : Table S} {r : ρ}
    (hsub : ∀ q ∈ u, q ∈ t) (h : t.insert? r = some t') : ∃ u', u.insert? r = some u' :=
  insert?_isSome fun q hq => (insert?_eq_some h).1 q (hsub q hq)

/-- A row that a table admits it admits after an update. -/
theorem insert?_updateWhere [DecidableEq κ] {t t' : Table S} {p : ρ → Bool} {f : ρ → ρ}
    {hf : S.Keeps f} {r : ρ} (h : t.insert? r = some t') :
    ∃ u, (t.updateWhere p f hf).insert? r = some u := by
  apply insert?_isSome
  intro q hq
  obtain ⟨q₀, hq₀, rfl⟩ := mem_updateWhere.mp hq
  have hdistinct := (insert?_eq_some h).1 q₀ hq₀
  split
  · exact hf.distinct_left hdistinct
  · exact hdistinct

/-- The number of rows an `UPDATE … WHERE p` matches. -/
def rowcount (t : Table S) (p : ρ → Bool) : ℕ := t.rows.countP p

/-- An update that matches no row leaves the table as it was. -/
theorem updateWhere_of_none {t : Table S} {p : ρ → Bool} {f : ρ → ρ} {hf : S.Keeps f}
    (h : ∀ r ∈ t, p r = false) : t.updateWhere p f hf = t := by
  apply ext
  show t.rows.map (fun r => if p r then f r else r) = t.rows
  conv_rhs => rw [← List.map_id t.rows]
  apply List.map_congr_left
  intro r hr
  simp [h r hr]

section Keyed

variable [DecidableEq κ]

theorem get?_updateWhere {t : Table S} {p : ρ → Bool} {f : ρ → ρ} {hf : S.Keeps f}
    {k : κ} :
    (t.updateWhere p f hf).get? k = (t.get? k).map fun r => if p r then f r else r := by
  have hkey : ∀ r, S.key (if p r then f r else r) = S.key r := by
    intro r
    split
    · exact (hf r).1
    · rfl
  unfold get? updateWhere
  rw [List.find?_map]
  simp only [Function.comp_def, hkey]

theorem get?_deleteWhere {t : Table S} {p : ρ → Bool} {k : κ}
    (h : ∀ r ∈ t, S.key r = k → p r = false) : (t.deleteWhere p).get? k = t.get? k := by
  rcases hk : t.get? k with _ | r
  · rw [get?_eq_none] at hk ⊢
    intro r hr
    exact hk r (mem_deleteWhere.mp hr).1
  · obtain ⟨hr, hkey⟩ := get?_eq_some.mp hk
    exact get?_eq_some.mpr ⟨mem_deleteWhere.mpr ⟨hr, h r hr hkey⟩, hkey⟩

/-- The conditional update of one row: `WHERE` names the primary key and a
further condition. -/
def whereKey (S : Schema ρ κ) (k : κ) (q : ρ → Bool) (r : ρ) : Bool :=
  decide (S.key r = k) && q r

theorem get?_updateWhere_key {t : Table S} {q : ρ → Bool} {f : ρ → ρ} {hf : S.Keeps f}
    {k : κ} :
    (t.updateWhere (whereKey S k q) f hf).get? k =
      (t.get? k).map fun r => if q r then f r else r := by
  rw [get?_updateWhere]
  cases h : t.get? k with
  | none => rfl
  | some r =>
      simp only [Option.map_some, whereKey, key_of_get? h, decide_true, Bool.true_and]

theorem get?_updateWhere_ne {t : Table S} {q : ρ → Bool} {f : ρ → ρ} {hf : S.Keeps f}
    {k k' : κ} (hne : k' ≠ k) :
    (t.updateWhere (whereKey S k q) f hf).get? k' = t.get? k' := by
  rw [get?_updateWhere]
  cases h : t.get? k' with
  | none => rfl
  | some r =>
      simp only [Option.map_some, whereKey, key_of_get? h, hne, decide_false,
        Bool.false_and, Bool.false_eq_true, if_false]

/-- Updating one row by its key, seen from the rows. -/
theorem mem_updateWhere_whereKey {t : Table S} {k : κ} {f : ρ → ρ} (hf : S.Keeps f) {q : ρ} :
    q ∈ t.updateWhere (whereKey S k fun _ => true) f hf ↔
      ∃ r ∈ t, q = if S.key r = k then f r else r := by
  rw [mem_updateWhere]
  refine exists_congr fun r => and_congr_right fun _ => ?_
  by_cases hkey : S.key r = k <;> simp [whereKey, hkey]

theorem mem_updateWhere_key {t : Table S} {old : ρ} {f : ρ → ρ} (hf : S.Keeps f)
    (hold : old ∈ t) (q : ρ) :
    q ∈ t.updateWhere (whereKey S (S.key old) fun _ => true) f hf ↔
      (q ∈ t ∧ S.key q ≠ S.key old) ∨ q = f old := by
  rw [mem_updateWhere_whereKey hf]
  constructor
  · rintro ⟨r, hr, rfl⟩
    by_cases hkey : S.key r = S.key old
    · rw [if_pos hkey, eq_of_key hr hold hkey]
      exact Or.inr rfl
    · rw [if_neg hkey]
      exact Or.inl ⟨hr, hkey⟩
  · rintro (⟨hq, hkey⟩ | rfl)
    · exact ⟨q, hq, by rw [if_neg hkey]⟩
    · exact ⟨old, hold, by rw [if_pos rfl]⟩

/-- A conditional update of one row matches it or nothing. -/
theorem rowcount_whereKey {t : Table S} {k : κ} {q : ρ → Bool} :
    t.rowcount (whereKey S k q) = if (t.get? k).any q then 1 else 0 := by
  obtain ⟨rows, hrows⟩ := t
  unfold rowcount get?
  induction rows with
  | nil => rfl
  | cons r rows ih =>
      obtain ⟨hr, hrest⟩ := List.pairwise_cons.mp hrows
      rw [List.countP_cons, ih hrest, List.find?_cons]
      by_cases hk : S.key r = k
      · -- no later row has the key, so the rest counts nothing
        have hnone : rows.find? (fun r' => decide (S.key r' = k)) = none := by
          rw [List.find?_eq_none]
          intro r' hr'
          rw [decide_eq_true_eq]
          intro hk'
          exact (hr r' hr').1 (hk.trans hk'.symm)
        rw [hnone]
        simp [whereKey, hk]
      · simp [whereKey, hk]

/-- A conditional update that matches nothing leaves the table as it was. -/
theorem updateWhere_key_of_not {t : Table S} {q : ρ → Bool} {f : ρ → ρ} {hf : S.Keeps f}
    {k : κ} (h : (t.get? k).any q = false) :
    t.updateWhere (whereKey S k q) f hf = t := by
  apply updateWhere_of_none
  intro r hr
  by_cases hk : S.key r = k
  · rw [get?_eq_some.mpr ⟨hr, hk⟩] at h
    simpa [whereKey, hk] using h
  · simp [whereKey, hk]

/-! ## Changing a constrained column -/

/-- `UPDATE … SET f` of the row with a key, or `none` if the changed row breaks
a constraint. -/
def modify? (t : Table S) (k : κ) (f : ρ → ρ) : Option (Table S) :=
  if h : (t.rows.map fun r => if S.key r = k then f r else r).Pairwise S.Distinct then
    some ⟨_, h⟩
  else none

theorem modify?_eq_some {t t' : Table S} {k : κ} {f : ρ → ρ} (h : t.modify? k f = some t') :
    t'.rows = t.rows.map fun r => if S.key r = k then f r else r := by
  unfold modify? at h
  split at h
  · cases h
    rfl
  · cases h

theorem mem_modify? {t t' : Table S} {k : κ} {f : ρ → ρ} {q : ρ}
    (h : t.modify? k f = some t') :
    q ∈ t' ↔ ∃ r ∈ t, q = if S.key r = k then f r else r := by
  rw [mem_def, modify?_eq_some h, List.mem_map]
  simp only [eq_comm]
  exact Iff.rfl

end Keyed

end Table

end MailboxService.Foundation
