import Mathlib.Data.List.Basic
import Mathlib.Data.List.Nodup

/-!
# Dictionaries with an order

A dictionary whose entries can be gone through: a list of entries with distinct
keys. A key that is set again stays where it is, and a new one comes last.
-/

namespace MailboxService.Foundation

variable {κ ν : Type*}

structure OrderedDict (κ ν : Type*) where
  items : List (κ × ν)
  nodup : (items.map Prod.fst).Nodup

namespace OrderedDict

instance : EmptyCollection (OrderedDict κ ν) := ⟨⟨[], List.nodup_nil⟩⟩

variable [DecidableEq κ]

/-- `d.get(k)`. -/
def lookup (d : OrderedDict κ ν) (k : κ) : Option ν := d.items.lookup k

/-! ## One key -/

def setItems (k : κ) (v : ν) : List (κ × ν) → List (κ × ν)
  | [] => [(k, v)]
  | (k', v') :: rest => if k' = k then (k, v) :: rest else (k', v') :: setItems k v rest

theorem mem_keys_setItems {k k' : κ} {v : ν} {items : List (κ × ν)} :
    k' ∈ (setItems k v items).map Prod.fst ↔ k' = k ∨ k' ∈ items.map Prod.fst := by
  induction items with
  | nil => simp [setItems]
  | cons item rest ih =>
      obtain ⟨k'', v''⟩ := item
      unfold setItems
      by_cases h : k'' = k
      · rw [if_pos h, h]
        simp
      · rw [if_neg h, List.map_cons, List.mem_cons, ih, List.map_cons, List.mem_cons]
        exact or_left_comm

theorem nodup_setItems {k : κ} {v : ν} {items : List (κ × ν)}
    (h : (items.map Prod.fst).Nodup) : ((setItems k v items).map Prod.fst).Nodup := by
  induction items with
  | nil => exact List.nodup_singleton k
  | cons item rest ih =>
      obtain ⟨k', v'⟩ := item
      obtain ⟨hnew, hrest⟩ := List.nodup_cons.mp h
      unfold setItems
      by_cases hk : k' = k
      · rw [if_pos hk]
        subst hk
        exact h
      · rw [if_neg hk]
        refine List.nodup_cons.mpr ⟨?_, ih hrest⟩
        rw [mem_keys_setItems]
        exact fun hmem => hmem.elim hk hnew

theorem setItems_of_not_mem {k : κ} {v : ν} {items : List (κ × ν)}
    (h : k ∉ items.map Prod.fst) : setItems k v items = items ++ [(k, v)] := by
  induction items with
  | nil => rfl
  | cons item rest ih =>
      obtain ⟨k', v'⟩ := item
      rw [List.map_cons, List.mem_cons, not_or] at h
      rw [setItems, if_neg (Ne.symm h.1), ih h.2]
      rfl

theorem lookup_cons (k : κ) (item : κ × ν) (rest : List (κ × ν)) :
    (item :: rest).lookup k = if k = item.1 then some item.2 else rest.lookup k := by
  rw [List.lookup_cons]
  by_cases h : k = item.1
  · rw [if_pos h, h, beq_self_eq_true]
  · rw [if_neg h, beq_false_of_ne h]

theorem mem_of_lookup {items : List (κ × ν)} {k : κ} {v : ν} (h : items.lookup k = some v) :
    (k, v) ∈ items := by
  induction items with
  | nil => cases h
  | cons item rest ih =>
      rw [lookup_cons] at h
      by_cases hk : k = item.1
      · rw [if_pos hk] at h
        cases h
        rw [hk]
        exact List.mem_cons_self ..
      · rw [if_neg hk] at h
        exact List.mem_cons_of_mem _ (ih h)

theorem lookup_setItems (k k' : κ) (v : ν) (items : List (κ × ν)) :
    (setItems k v items).lookup k' = if k' = k then some v else items.lookup k' := by
  induction items with
  | nil => exact lookup_cons k' (k, v) []
  | cons item rest ih =>
      obtain ⟨k'', v''⟩ := item
      unfold setItems
      by_cases hk : k'' = k
      · rw [if_pos hk, lookup_cons, lookup_cons, hk]
        by_cases h : k' = k
        · rw [if_pos h, if_pos h]
        · rw [if_neg h, if_neg h, if_neg h]
      · rw [if_neg hk, lookup_cons, lookup_cons, ih]
        by_cases h : k' = k
        · have hother : ¬ k' = k'' := fun heq => hk (heq.symm.trans h)
          rw [if_neg hother, if_pos h, if_pos h]
        · rw [if_neg h, if_neg h]

/-- `d[k] = v`. -/
def set (d : OrderedDict κ ν) (k : κ) (v : ν) : OrderedDict κ ν :=
  ⟨setItems k v d.items, nodup_setItems d.nodup⟩

theorem lookup_set (d : OrderedDict κ ν) (k k' : κ) (v : ν) :
    (d.set k v).lookup k' = if k' = k then some v else d.lookup k' :=
  lookup_setItems k k' v d.items

/-! ## Some of the keys -/

/-- The entries whose keys have a property. -/
def restrict (d : OrderedDict κ ν) (p : κ → Bool) : OrderedDict κ ν :=
  ⟨d.items.filter fun item => p item.1,
    d.nodup.sublist (List.filter_sublist.map Prod.fst)⟩

omit [DecidableEq κ] in
theorem mem_restrict {d : OrderedDict κ ν} {p : κ → Bool} {item : κ × ν} :
    item ∈ (d.restrict p).items ↔ item ∈ d.items ∧ p item.1 = true :=
  List.mem_filter

theorem lookup_restrict (d : OrderedDict κ ν) (p : κ → Bool) (k : κ) :
    (d.restrict p).lookup k = if p k = true then d.lookup k else none := by
  unfold restrict lookup
  dsimp only
  generalize d.items = items
  induction items with
  | nil => exact (ite_self none).symm
  | cons item rest ih =>
      rw [List.filter_cons, lookup_cons]
      by_cases hk : k = item.1
      · subst hk
        by_cases hp : p item.1 = true
        · rw [if_pos hp, if_pos hp, lookup_cons, if_pos rfl, if_pos rfl]
        · rw [if_neg hp, ih, if_neg hp, if_neg hp]
      · rw [if_neg hk]
        by_cases hp : p item.1 = true
        · rw [if_pos hp, lookup_cons, if_neg hk]
          exact ih
        · rw [if_neg hp]
          exact ih

/-- `d.pop(k, None)`. -/
def pop (d : OrderedDict κ ν) (k : κ) : OrderedDict κ ν := d.restrict (· ≠ k)

theorem lookup_pop (d : OrderedDict κ ν) (k k' : κ) :
    (d.pop k).lookup k' = if k' = k then none else d.lookup k' := by
  unfold pop
  rw [lookup_restrict]
  by_cases h : k' = k
  · simp [h]
  · simp [h]

/-! ## Many keys -/

/-- `d.update(entries)`. -/
def update (d : OrderedDict κ ν) (entries : List (κ × ν)) : OrderedDict κ ν :=
  entries.foldl (fun d entry => d.set entry.1 entry.2) d

/-- Of several entries for a key, the last counts. -/
theorem lookup_update (d : OrderedDict κ ν) (entries : List (κ × ν)) (k : κ) :
    (d.update entries).lookup k = (entries.reverse.lookup k).or (d.lookup k) := by
  induction entries generalizing d with
  | nil => rfl
  | cons entry rest ih =>
      show ((d.set entry.1 entry.2).update rest).lookup k = _
      rw [ih, lookup_set, List.reverse_cons, List.lookup_append]
      cases rest.reverse.lookup k with
      | some v => rfl
      | none =>
          rw [Option.none_or, Option.none_or, lookup_cons]
          by_cases h : k = entry.1
          · rw [if_pos h, if_pos h]
            rfl
          · rw [if_neg h, if_neg h]
            rfl

theorem mem_keys_update {d : OrderedDict κ ν} {entries : List (κ × ν)} {k : κ} :
    k ∈ (d.update entries).items.map Prod.fst ↔
      k ∈ entries.map Prod.fst ∨ k ∈ d.items.map Prod.fst := by
  induction entries generalizing d with
  | nil => simp [update]
  | cons entry rest ih =>
      show k ∈ ((d.set entry.1 entry.2).update rest).items.map Prod.fst ↔ _
      rw [ih]
      show _ ∨ k ∈ (setItems entry.1 entry.2 d.items).map Prod.fst ↔ _
      rw [mem_keys_setItems, List.map_cons, List.mem_cons]
      exact or_left_comm.trans or_assoc.symm

theorem items_update_of_nodup {d : OrderedDict κ ν} {entries : List (κ × ν)}
    (h : ((d.items ++ entries).map Prod.fst).Nodup) :
    (d.update entries).items = d.items ++ entries := by
  induction entries generalizing d with
  | nil => exact (List.append_nil d.items).symm
  | cons entry rest ih =>
      have hnew : entry.1 ∉ d.items.map Prod.fst := by
        rw [List.map_append, List.map_cons, List.nodup_append] at h
        intro hmem
        exact h.2.2 entry.1 hmem entry.1 List.mem_cons_self rfl
      have hset : (d.set entry.1 entry.2).items = d.items ++ [entry] := setItems_of_not_mem hnew
      show ((d.set entry.1 entry.2).update rest).items = _
      rw [ih (by rw [hset, List.append_assoc]; exact h), hset, List.append_assoc]
      rfl

/-- A key with one entry has that value. -/
theorem lookup_eq_some_of_nodup {items : List (κ × ν)} (h : (items.map Prod.fst).Nodup)
    {k : κ} {v : ν} : items.lookup k = some v ↔ (k, v) ∈ items := by
  induction items with
  | nil => exact ⟨nofun, nofun⟩
  | cons item rest ih =>
      obtain ⟨hnew, hrest⟩ := List.nodup_cons.mp h
      obtain ⟨k', v'⟩ := item
      rw [lookup_cons, List.mem_cons]
      by_cases hk : k = k'
      · subst hk
        rw [if_pos rfl]
        constructor
        · intro heq
          cases heq
          exact Or.inl rfl
        · rintro (heq | hmem)
          · cases heq
            rfl
          · exact absurd (List.mem_map_of_mem (f := Prod.fst) hmem) hnew
      · rw [if_neg hk]
        refine (ih hrest).trans ⟨Or.inr, fun hmem => hmem.resolve_left ?_⟩
        intro heq
        cases heq
        exact hk rfl

theorem lookup_eq_some {d : OrderedDict κ ν} {k : κ} {v : ν} :
    d.lookup k = some v ↔ (k, v) ∈ d.items :=
  lookup_eq_some_of_nodup d.nodup

/-- The entries can be searched from either end. -/
theorem lookup_reverse (d : OrderedDict κ ν) (k : κ) : d.items.reverse.lookup k = d.lookup k := by
  have hreverse : (d.items.reverse.map Prod.fst).Nodup := by
    rw [List.map_reverse]
    exact List.nodup_reverse.mpr d.nodup
  apply Option.ext
  intro v
  rw [lookup_eq_some_of_nodup hreverse, List.mem_reverse, lookup_eq_some]

end OrderedDict

end MailboxService.Foundation
