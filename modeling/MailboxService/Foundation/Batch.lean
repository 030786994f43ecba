import Mathlib.Data.List.Basic
import Mathlib.Data.List.Count
import Mathlib.Data.List.Pairwise
import Mathlib.Order.Basic

/-!
# Batches that resume

Items are processed in the order of their keys. A process goes through the
items that are not recorded yet, records each one that succeeds, and stops at
the first one that does not. The next process resumes there.

`Progress` is what holds between any two processes: the items fall into a part
that is done and a part that is not, and every attempt so far was at a done
item or at the first of the others. `Progress.process` carries it over one
process, whatever the outcomes.
-/

namespace MailboxService.Foundation.Batch

/-- How an attempt at an item ends. It may succeed and still not be recorded. -/
inductive Outcome where
  | failed
  | unrecorded
  | recorded
  deriving DecidableEq, Repr

structure Attempt (α : Type*) where
  item : α
  outcome : Outcome
  deriving DecidableEq, Repr

def Attempt.succeeded {α : Type*} (a : Attempt α) : Bool := a.outcome ≠ .failed

/-- The keys that are recorded, and all attempts in their order. -/
structure Journal (α κ : Type*) where
  recorded : List κ
  log : List (Attempt α)

variable {α κ : Type*} (key : α → κ)

def Journal.note (j : Journal α κ) (x : α) (outcome : Outcome) : Journal α κ where
  recorded := if outcome = .recorded then j.recorded ++ [key x] else j.recorded
  log := j.log ++ [⟨x, outcome⟩]

/-- Process the items in their order, up to the first one that is not recorded,
which is returned. -/
def process (attempt : α → Outcome) : List α → Journal α κ → Option α × Journal α κ
  | [], j => (none, j)
  | x :: xs, j =>
      if attempt x = .recorded then process attempt xs (j.note key x .recorded)
      else (some x, j.note key x (attempt x))

def pending [DecidableEq κ] (items : List α) (recorded : List κ) : List α :=
  items.filter fun x => key x ∉ recorded

/-- What a process does: it records a first part of the items, and stops at the
end, or at an item that is not recorded. -/
structure Processed (attempt : α → Outcome) (items : List α) (j : Journal α κ)
    (done rest : List α) (result : Option α × Journal α κ) : Prop where
  split : items = done ++ rest
  attempts : ∀ x ∈ done, attempt x = .recorded
  recorded : result.2.recorded = j.recorded ++ done.map key
  stopped : result.1 = rest.head?
  log : result.2.log = j.log ++ done.map (Attempt.mk · .recorded) ++
    rest.head?.toList.map fun x => ⟨x, attempt x⟩
  refused : ∀ x ∈ rest.head?, attempt x ≠ .recorded

theorem processed (attempt : α → Outcome) (items : List α) (j : Journal α κ) :
    ∃ done rest, Processed key attempt items j done rest (process key attempt items j) := by
  induction items generalizing j with
  | nil =>
      refine ⟨[], [], rfl, by simp, ?_, rfl, ?_, by simp⟩
      · show j.recorded = _
        rw [List.map_nil, List.append_nil]
      · show j.log = _
        simp
  | cons x xs ih =>
      by_cases hx : attempt x = .recorded
      · have hprocess : process key attempt (x :: xs) j =
            process key attempt xs (j.note key x .recorded) := if_pos hx
        obtain ⟨done, rest, h⟩ := ih (j.note key x .recorded)
        refine ⟨x :: done, rest, by rw [h.split]; rfl, ?_, ?_, ?_, ?_, h.refused⟩
        · intro y hy
          rcases List.mem_cons.mp hy with rfl | hy
          · exact hx
          · exact h.attempts y hy
        · rw [hprocess, h.recorded]
          simp [Journal.note]
        · rw [hprocess, h.stopped]
        · rw [hprocess, h.log]
          simp [Journal.note]
      · have hprocess : process key attempt (x :: xs) j = (some x, j.note key x (attempt x)) :=
          if_neg hx
        refine ⟨[], x :: xs, rfl, by simp, ?_, ?_, ?_, ?_⟩
        · rw [hprocess]
          simp [Journal.note, hx]
        · rw [hprocess]
          rfl
        · rw [hprocess]
          simp [Journal.note]
        · intro y hy
          obtain rfl : x = y := Option.some.inj hy
          exact hx

theorem Processed.attempt_mem {key : α → κ} {attempt : α → Outcome} {todo more rest : List α}
    {j : Journal α κ} {result : Option α × Journal α κ}
    (h : Processed key attempt todo j more rest result)
    {a : Attempt α}
    (ha : a ∈ more.map (Attempt.mk · .recorded) ++
      rest.head?.toList.map fun x => ⟨x, attempt x⟩) :
    a.item ∈ todo ∧ a.outcome = attempt a.item ∧
      (a.item ∈ more ∨ a.outcome ≠ .recorded ∧ a.item ∈ rest.head?) := by
  rcases List.mem_append.mp ha with ha | ha
  · obtain ⟨x, hx, rfl⟩ := List.mem_map.mp ha
    exact ⟨by rw [h.split]; exact List.mem_append_left _ hx, (h.attempts x hx).symm,
      Or.inl hx⟩
  · obtain ⟨x, hx, rfl⟩ := List.mem_map.mp ha
    rw [Option.mem_toList] at hx
    refine ⟨?_, rfl, Or.inr ⟨h.refused x hx, hx⟩⟩
    rw [h.split]
    exact List.mem_append_right _ (List.mem_of_mem_head? hx)

/-! ## Progress -/

section

variable [DecidableEq α] [Preorder κ]

/-- **Progress** on the items that were pending at first: `done` is recorded,
`todo` is not. -/
structure Progress (items : List α) (recorded : List κ) (accepts : α → Bool)
    (done todo : List α) (j : Journal α κ) : Prop where
  split : items = done ++ todo
  recorded_eq : j.recorded = recorded ++ done.map key
  accepted : ∀ x ∈ done, accepts x = true
  attempted : ∀ a ∈ j.log, a.item ∈ done ∨ a.outcome ≠ .recorded ∧ a.item ∈ todo.head?
  ordered : j.log.Pairwise fun a b => a.item = b.item ∨ key a.item < key b.item
  once : j.log.Pairwise fun a b => a.outcome = .recorded → key b.item ≠ key a.item
  /-- Each attempt at a done item that succeeded without a record is one more. -/
  complete : ∀ x ∈ done, j.log.countP (fun a => a.item = x && a.succeeded) =
    j.log.countP (fun a => a.item = x && a.outcome = .unrecorded) + 1

variable {key} {items done todo more rest : List α} {recorded : List κ} {accepts : α → Bool}
  {j : Journal α κ} {attempt : α → Outcome} {result : Option α × Journal α κ}

omit [DecidableEq α] in
theorem Processed.lt (h : Processed key attempt todo j more rest result)
    (hsorted : todo.Pairwise (key · < key ·)) : ∀ x ∈ more, ∀ y ∈ rest, key x < key y := by
  rw [h.split, List.pairwise_append] at hsorted
  exact hsorted.2.2

omit [DecidableEq α] in
/-- A process stops at the first item that it cannot record. -/
theorem Processed.head?_eq_some (h : Processed key attempt todo j more rest result)
    (hsorted : todo.Pairwise (key · < key ·)) {a : α} (ha : a ∈ todo)
    (hrefused : attempt a ≠ .recorded)
    (hbefore : ∀ x ∈ todo, key x < key a → attempt x = .recorded) : rest.head? = some a := by
  have hrest : a ∈ rest := by
    rw [h.split, List.mem_append] at ha
    exact ha.resolve_left fun hmore => hrefused (h.attempts a hmore)
  cases rest with
  | nil => cases hrest
  | cons x tail =>
      rcases List.mem_cons.mp hrest with rfl | htail
      · rfl
      · exfalso
        rw [h.split, List.pairwise_append, List.pairwise_cons] at hsorted
        refine h.refused x rfl (hbefore x ?_ (hsorted.2.1.1 a htail))
        rw [h.split]
        exact List.mem_append_right _ List.mem_cons_self

omit [DecidableEq α] in
/-- The attempts of one process are at items that rise. -/
theorem Processed.new_sorted (h : Processed key attempt todo j more rest result)
    (hsorted : todo.Pairwise (key · < key ·)) :
    (more.map (Attempt.mk · .recorded) ++
      rest.head?.toList.map fun x => (⟨x, attempt x⟩ : Attempt α)).Pairwise
        fun a b => key a.item < key b.item := by
  have hprefix : (more ++ rest.head?.toList).Sublist todo := by
    rw [h.split]
    refine List.Sublist.append_left ?_ more
    cases rest with
    | nil => exact List.Sublist.refl _
    | cons x tail => exact (List.nil_sublist tail).cons_cons x
  have hitems : (more.map (Attempt.mk · .recorded) ++
      rest.head?.toList.map fun x => (⟨x, attempt x⟩ : Attempt α)).map Attempt.item =
      more ++ rest.head?.toList := by
    simp [Function.comp_def]
  have hpair := hsorted.sublist hprefix
  rw [← hitems, List.pairwise_map] at hpair
  exact hpair

theorem Progress.start (items : List α) (recorded : List κ) (accepts : α → Bool) :
    Progress key items recorded accepts [] items ⟨recorded, []⟩ where
  split := rfl
  recorded_eq := by simp
  accepted _ hx := absurd hx List.not_mem_nil
  attempted _ ha := absurd ha List.not_mem_nil
  ordered := List.Pairwise.nil
  once := List.Pairwise.nil
  complete _ hx := absurd hx List.not_mem_nil

theorem Progress.lt (h : Progress key items recorded accepts done todo j)
    (hsorted : items.Pairwise (key · < key ·)) :
    ∀ x ∈ done, ∀ y ∈ todo, key x < key y := by
  rw [h.split, List.pairwise_append] at hsorted
  exact hsorted.2.2

theorem Progress.todo_sorted (h : Progress key items recorded accepts done todo j)
    (hsorted : items.Pairwise (key · < key ·)) : todo.Pairwise (key · < key ·) := by
  rw [h.split, List.pairwise_append] at hsorted
  exact hsorted.2.1

theorem Progress.pending_eq [DecidableEq κ] {all : List α}
    (h : Progress key (pending key all recorded) recorded accepts done todo j)
    (hsorted : (pending key all recorded).Pairwise (key · < key ·)) :
    pending key all j.recorded = todo := by
  have hsplit : pending key all j.recorded =
      (pending key all recorded).filter fun x => key x ∉ done.map key := by
    unfold pending
    rw [List.filter_filter, h.recorded_eq]
    refine List.filter_congr fun x _ => ?_
    simp only [List.mem_append, not_or, Bool.decide_and, Bool.and_comm]
  have hlt := h.lt hsorted
  rw [hsplit, h.split, List.filter_append]
  have hdone : done.filter (fun x => key x ∉ done.map key) = [] := by
    rw [List.filter_eq_nil_iff]
    intro x hx
    simp only [decide_eq_true_eq, not_not]
    exact List.mem_map_of_mem hx
  have htodo : todo.filter (fun x => key x ∉ done.map key) = todo := by
    rw [List.filter_eq_self]
    intro y hy
    rw [decide_eq_true_eq]
    intro hmem
    obtain ⟨x, hx, hkey⟩ := List.mem_map.mp hmem
    exact (hlt x hx y hy).ne hkey
  rw [hdone, htodo, List.nil_append]

theorem Progress.item_mem (h : Progress key items recorded accepts done todo j)
    {a : Attempt α} (ha : a ∈ j.log) : a.item ∈ items := by
  rw [h.split]
  rcases h.attempted a ha with hdone | ⟨-, hhead⟩
  · exact List.mem_append_left _ hdone
  · exact List.mem_append_right _ (List.mem_of_mem_head? hhead)

theorem Progress.mem_done_of_lt (h : Progress key items recorded accepts done todo j)
    (hsorted : items.Pairwise (key · < key ·)) {x y : α}
    (hx : x ∈ done ∨ x ∈ todo.head?) (hy : y ∈ items) (hlt : key y < key x) : y ∈ done := by
  rw [h.split] at hy
  rcases List.mem_append.mp hy with hy | hy
  · exact hy
  · exfalso
    rcases hx with hx | hx
    · exact lt_asymm hlt (h.lt hsorted x hx y hy)
    · obtain ⟨tail, rfl⟩ := List.head?_eq_some_iff.mp hx
      rcases List.mem_cons.mp hy with rfl | hy
      · exact lt_irrefl _ hlt
      · exact lt_asymm hlt ((List.pairwise_cons.mp (h.todo_sorted hsorted)).1 y hy)

theorem countP_new {l : List (Attempt α)} (h : l.Pairwise fun a b => key a.item < key b.item)
    {a : Attempt α} (ha : a ∈ l) (hsucceeded : a.succeeded = true) :
    l.countP (fun b => b.item = a.item && b.succeeded) = 1 := by
  induction l with
  | nil => cases ha
  | cons b l ih =>
      rw [List.pairwise_cons] at h
      rw [List.countP_cons]
      rcases List.mem_cons.mp ha with rfl | ha
      · have hzero : l.countP (fun b => b.item = a.item && b.succeeded) = 0 := by
          rw [List.countP_eq_zero]
          intro b hb
          have hne : b.item ≠ a.item := fun heq => (h.1 b hb).ne (by rw [heq])
          simp [hne]
        rw [hzero]
        simp [hsucceeded]
      · have hne : b.item ≠ a.item := fun heq => (h.1 a ha).ne (by rw [heq])
        rw [ih h.2 ha]
        simp [hne]

omit [Preorder κ] in
theorem countP_of_elsewhere {l : List (Attempt α)} {x : α} (h : ∀ a ∈ l, a.item ≠ x)
    (p : Attempt α → Bool) : l.countP (fun a => a.item = x && p a) = 0 := by
  rw [List.countP_eq_zero]
  intro a ha
  simp [h a ha]

omit [Preorder κ] in
theorem countP_succeeded_of_unrecorded {l : List (Attempt α)} {x : α}
    (h : ∀ a ∈ l, a.item = x → a.outcome ≠ .recorded) :
    l.countP (fun a => a.item = x && a.succeeded) =
      l.countP (fun a => a.item = x && a.outcome = .unrecorded) := by
  refine List.countP_congr fun a ha => ?_
  simp only [Bool.and_eq_true, decide_eq_true_eq]
  refine and_congr_right fun hitem => ?_
  have hnot := h a ha hitem
  unfold Attempt.succeeded
  cases houtcome : a.outcome with
  | failed => simp
  | unrecorded => simp
  | recorded => exact absurd houtcome hnot

/-- Among attempts at different items, none lacks the record at an item that one
records. -/
theorem countP_unrecorded_of_recorded {l : List (Attempt α)}
    (h : l.Pairwise fun a b => key a.item < key b.item) {x : α}
    (hx : (⟨x, .recorded⟩ : Attempt α) ∈ l) :
    l.countP (fun a => a.item = x && a.outcome = .unrecorded) = 0 := by
  rw [List.countP_eq_zero]
  intro a ha hmatch
  rw [Bool.and_eq_true, decide_eq_true_eq, decide_eq_true_eq] at hmatch
  have hne : a ≠ ⟨x, .recorded⟩ := by
    rintro rfl
    cases hmatch.2
  have hkeys : l.Pairwise fun a b => a.item ≠ b.item :=
    h.imp fun hlt heq => hlt.ne (congrArg key heq)
  have : Std.Symm fun a b : Attempt α => a.item ≠ b.item := ⟨fun _ _ hab => hab.symm⟩
  exact hkeys.forall ha hx hne hmatch.1

/-- At an item that is done after a process, each attempt that succeeded without a
record is one more. -/
theorem Progress.complete_process (h : Progress key items recorded accepts done todo j)
    (hsorted : items.Pairwise (key · < key ·))
    (hp : Processed key attempt todo j more rest result) :
    ∀ x ∈ done ++ more, result.2.log.countP (fun a => a.item = x && a.succeeded) =
      result.2.log.countP (fun a => a.item = x && a.outcome = .unrecorded) + 1 := by
  have hlt := h.lt hsorted
  have hnewlt := hp.new_sorted (h.todo_sorted hsorted)
  intro x hx
  have hsum : ∀ p : Attempt α → Bool, result.2.log.countP p = j.log.countP p +
      (more.map (Attempt.mk · .recorded) ++
        rest.head?.toList.map fun x => (⟨x, attempt x⟩ : Attempt α)).countP p := by
    intro p
    rw [hp.log, List.append_assoc, List.countP_append]
  rw [hsum, hsum]
  rcases List.mem_append.mp hx with hx | hx
  · -- a process attempts nothing that was done before
    have hne : ∀ a ∈ more.map (Attempt.mk · .recorded) ++
        rest.head?.toList.map (fun x => (⟨x, attempt x⟩ : Attempt α)), a.item ≠ x := by
      rintro a ha rfl
      exact lt_irrefl _ (hlt _ hx _ (hp.attempt_mem ha).1)
    rw [h.complete x hx, countP_of_elsewhere hne, countP_of_elsewhere hne]
  · have hxtodo : x ∈ todo := by
      rw [hp.split]
      exact List.mem_append_left _ hx
    have hbefore : ∀ a ∈ j.log, a.item = x → a.outcome ≠ .recorded := by
      rintro a ha rfl
      rcases h.attempted a ha with hdone | ⟨hnot, -⟩
      · exact absurd (hlt _ hdone _ hxtodo) (lt_irrefl _)
      · exact hnot
    have hrecorded : (⟨x, .recorded⟩ : Attempt α) ∈ more.map (Attempt.mk · .recorded) ++
        rest.head?.toList.map fun x => ⟨x, attempt x⟩ :=
      List.mem_append_left _ (List.mem_map_of_mem hx)
    rw [countP_succeeded_of_unrecorded hbefore, countP_new hnewlt hrecorded rfl,
      countP_unrecorded_of_recorded hnewlt hrecorded, Nat.add_zero]

/-- **Progress rule**: a process carries the progress on, whatever becomes of
its attempts. -/
theorem Progress.process (h : Progress key items recorded accepts done todo j)
    (hsorted : items.Pairwise (key · < key ·))
    (hp : Processed key attempt todo j more rest result)
    (haccepted : ∀ x, attempt x = .recorded → accepts x = true) :
    Progress key items recorded accepts (done ++ more) rest result.2 := by
  have hlt := h.lt hsorted
  have htodo := h.todo_sorted hsorted
  have hnewlt := hp.new_sorted htodo
  have hlog := hp.log
  rw [List.append_assoc] at hlog
  refine ⟨?_, ?_, ?_, ?_, ?_, ?_, h.complete_process hsorted hp⟩
  · rw [h.split, hp.split, List.append_assoc]
  · rw [hp.recorded, h.recorded_eq, List.map_append, List.append_assoc]
  · intro x hx
    rcases List.mem_append.mp hx with hx | hx
    · exact h.accepted x hx
    · exact haccepted x (hp.attempts x hx)
  · intro a ha
    rw [hlog, List.mem_append] at ha
    rcases ha with ha | ha
    · rcases h.attempted a ha with hdone | ⟨houtcome, hhead⟩
      · exact Or.inl (List.mem_append_left _ hdone)
      · -- the first item still to do is now done, or still the first
        rw [hp.split] at hhead
        cases more with
        | nil => exact Or.inr ⟨houtcome, hhead⟩
        | cons y more =>
            obtain rfl : y = a.item := Option.some.inj hhead
            exact Or.inl (List.mem_append_right _ (List.mem_cons_self ..))
    · obtain ⟨-, -, hmore | hstop⟩ := hp.attempt_mem ha
      · exact Or.inl (List.mem_append_right _ hmore)
      · exact Or.inr hstop
  · rw [hlog, List.pairwise_append]
    refine ⟨h.ordered, hnewlt.imp fun hab => Or.inr hab, ?_⟩
    intro a ha b hb
    obtain ⟨hb, -, -⟩ := hp.attempt_mem hb
    rcases h.attempted a ha with hdone | ⟨-, hhead⟩
    · exact Or.inr (hlt _ hdone _ hb)
    · -- the item that the last process stopped at may be attempted again
      obtain ⟨tail, rfl⟩ := List.head?_eq_some_iff.mp hhead
      rcases List.mem_cons.mp hb with heq | htail
      · exact Or.inl heq.symm
      · exact Or.inr ((List.pairwise_cons.mp htodo).1 _ htail)
  · rw [hlog, List.pairwise_append]
    refine ⟨h.once, hnewlt.imp fun hab _ => hab.ne', ?_⟩
    intro a ha b hb houtcome
    obtain ⟨hb, -, -⟩ := hp.attempt_mem hb
    rcases h.attempted a ha with hdone | ⟨hnot, -⟩
    · exact (hlt _ hdone _ hb).ne'
    · exact absurd houtcome hnot

end

end MailboxService.Foundation.Batch
