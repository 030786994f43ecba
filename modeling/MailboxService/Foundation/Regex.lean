import MailboxService.Foundation.FirstMatch
import Mathlib.Data.List.Basic

/-!
# Regular expressions

Patterns as a backtracking engine reads them. A pattern at a position has a
list of results, the positions behind its matches with the preferred one first,
and a search takes the first result at the leftmost position that has one. A
pattern remembers the text of the last group that it closed.
-/

namespace MailboxService.Foundation

inductive Regex where
  /-- One character of a class. -/
  | char (p : Char → Bool)
  /-- Between a character of a word and one of none. -/
  | boundary
  | atStart
  /-- At the start of a line. -/
  | atLine
  | seq (a b : Regex)
  | alt (a b : Regex)
  /-- As many times as possible. -/
  | many (a : Regex) (minimum : ℕ) (maximum : Option ℕ)
  /-- As few times as possible. -/
  | few (a : Regex)
  | group (a : Regex)
  /-- The text of the group once more. -/
  | again (same : Char → Char → Bool)

namespace Regex

/-- A position in a text, with the characters before it from the nearest one
on. -/
structure Cursor where
  past : List Char
  rest : List Char
  captured : List Char := []
  deriving DecidableEq, Repr

namespace Cursor

def next (p : Char → Bool) (c : Cursor) : List Cursor :=
  match c.rest with
  | [] => []
  | x :: rest => if p x then [{ c with past := x :: c.past, rest := rest }] else []

def atBoundary (isWord : Char → Bool) (c : Cursor) : Bool :=
  c.past.head?.any isWord != c.rest.head?.any isWord

def textTo (c d : Cursor) : List Char :=
  (d.past.take (d.past.length - c.past.length)).reverse

def follow (same : Char → Char → Bool) : List Char → Cursor → List Cursor
  | [], c => [c]
  | x :: text, c => (c.next (same x)).flatMap (follow same text)

end Cursor

/-- Repetitions, as many as there can be first. -/
def greedy (step : Cursor → List Cursor) : ℕ → ℕ → Cursor → List Cursor
  | minimum, 0, c => if minimum = 0 then [c] else []
  | minimum, n + 1, c =>
      (step c).flatMap (greedy step (minimum - 1) n) ++ if minimum = 0 then [c] else []

/-- Repetitions, as few as there can be first. -/
def lazily (step : Cursor → List Cursor) : ℕ → Cursor → List Cursor
  | 0, c => [c]
  | n + 1, c => c :: (step c).flatMap (lazily step n)

/-- The positions behind a match, in the order in which they are tried. -/
def results (isWord : Char → Bool) : Regex → Cursor → List Cursor
  | .char p, c => c.next p
  | .boundary, c => if c.atBoundary isWord then [c] else []
  | .atStart, c => if c.past = [] then [c] else []
  | .atLine, c => if c.past = [] ∨ c.past.head? = some '\n' then [c] else []
  | .seq a b, c => (results isWord a c).flatMap (results isWord b)
  | .alt a b, c => results isWord a c ++ results isWord b c
  | .many a minimum maximum, c =>
      greedy (results isWord a) minimum (maximum.getD c.rest.length) c
  | .few a, c => lazily (results isWord a) c.rest.length c
  | .group a, c => (results isWord a c).map fun d => { d with captured := c.textTo d }
  | .again same, c => c.follow same c.captured

/-- The first match at or behind a position: where it starts, and where it ends. -/
def searchFrom (isWord : Char → Bool) (r : Regex) (past : List Char) :
    List Char → Option (Cursor × Cursor)
  | [] => (r.results isWord ⟨past, [], []⟩).head?.map (⟨past, [], []⟩, ·)
  | x :: rest =>
      match (r.results isWord ⟨past, x :: rest, []⟩).head? with
      | some found => some (⟨past, x :: rest, []⟩, found)
      | none => searchFrom isWord r (x :: past) rest

/-- `pattern.search(text)`. -/
def search (isWord : Char → Bool) (r : Regex) (text : String) : Option (Cursor × Cursor) :=
  r.searchFrom isWord [] text.toList

/-- `match.group(1)` of the first match. -/
def searchGroup (isWord : Char → Bool) (r : Regex) (text : String) : Option String :=
  (r.search isWord text).map fun found => .ofList found.2.captured

/-- The text behind a position with every match replaced. Of a match of no text,
nothing is replaced. -/
def substituteFrom (isWord : Char → Bool) (r : Regex) (replacement : List Char) :
    ℕ → List Char → List Char → List Char
  | 0, _, rest => rest
  | _ + 1, _, [] => []
  | n + 1, past, x :: rest =>
      match (r.results isWord ⟨past, x :: rest, []⟩).head? with
      | some found =>
          if found.rest.length ≤ rest.length then
            replacement ++ substituteFrom isWord r replacement n found.past found.rest
          else x :: substituteFrom isWord r replacement n (x :: past) rest
      | none => x :: substituteFrom isWord r replacement n (x :: past) rest

/-- `pattern.sub(replacement, text)`. -/
def substitute (isWord : Char → Bool) (r : Regex) (replacement text : String) : String :=
  .ofList (r.substituteFrom isWord replacement.toList text.length [] text.toList)

/-! ## Patterns -/

/-- Any text of characters of the given classes, one after the other. -/
def chars : List (Char → Bool) → Regex
  | [] => .many (.char fun _ => false) 0 (some 0)
  | [p] => .char p
  | p :: ps => .seq (.char p) (chars ps)

/-- A text, up to what counts as the same character. -/
def literal (same : Char → Char → Bool) (text : String) : Regex :=
  chars (text.toList.map same)

/-! ## Results -/

variable {isWord : Char → Bool}

theorem mem_next {p : Char → Bool} {c d : Cursor} :
    d ∈ c.next p ↔
      ∃ x rest, c.rest = x :: rest ∧ p x = true ∧ d = ⟨x :: c.past, rest, c.captured⟩ := by
  unfold Cursor.next
  cases c.rest with
  | nil => simp
  | cons x rest =>
      by_cases h : p x = true
      · simp [h]
      · simp only [h]
        constructor
        · rintro ⟨⟩
        · rintro ⟨y, others, heq, hy, -⟩
          cases heq
          exact absurd hy h

/-- A position that is some characters of a class further on. -/
def Ahead (p : Char → Bool) (text : List Char) (c d : Cursor) : Prop :=
  (∀ x ∈ text, p x = true) ∧ c.rest = text ++ d.rest ∧ d.past = text.reverse ++ c.past ∧
    d.captured = c.captured

/-- **Repetitions of a class read a text of that class.** -/
theorem ahead_of_mem_greedy {p : Char → Bool} {minimum maximum : ℕ} {c d : Cursor}
    (h : d ∈ greedy (Cursor.next p) minimum maximum c) :
    ∃ text, minimum ≤ text.length ∧ text.length ≤ maximum ∧ Ahead p text c d := by
  induction maximum generalizing minimum c with
  | zero =>
      unfold greedy at h
      split at h
      · rename_i hminimum
        rw [List.mem_singleton] at h
        exact ⟨[], by rw [hminimum]; exact Nat.zero_le _, Nat.le_refl _, nofun,
          by rw [h]; rfl, by rw [h]; rfl, by rw [h]⟩
      · cases h
  | succ n ih =>
      unfold greedy at h
      rcases List.mem_append.mp h with h | h
      · obtain ⟨e, hnext, hrest⟩ := List.mem_flatMap.mp h
        obtain ⟨x, rest, hc, hx, rfl⟩ := mem_next.mp hnext
        obtain ⟨text, hmin, hmax, hall, htext, hpast, hcaptured⟩ := ih hrest
        refine ⟨x :: text, ?_, ?_, ?_, ?_, ?_, hcaptured⟩
        · rw [List.length_cons]
          omega
        · rw [List.length_cons]
          omega
        · intro y hy
          rcases List.mem_cons.mp hy with rfl | hy
          · exact hx
          · exact hall y hy
        · rw [hc, List.cons_append]
          exact congrArg (x :: ·) htext
        · rw [hpast, List.reverse_cons, List.append_assoc]
          rfl
      · split at h
        · rename_i hminimum
          rw [List.mem_singleton] at h
          exact ⟨[], by rw [hminimum]; exact Nat.zero_le _, Nat.zero_le _, nofun,
            by rw [h]; rfl, by rw [h]; rfl, by rw [h]⟩
        · cases h

/-- Repetitions of a class read each text of that class that is long enough. -/
theorem mem_greedy_of_all {p : Char → Bool} {minimum maximum : ℕ} {past s rest captured : List Char}
    (hs : ∀ x ∈ s, p x = true) (hmin : minimum ≤ s.length) (hmax : s.length ≤ maximum) :
    ⟨s.reverse ++ past, rest, captured⟩ ∈
      greedy (Cursor.next p) minimum maximum ⟨past, s ++ rest, captured⟩ := by
  induction maximum generalizing minimum past s with
  | zero =>
      obtain rfl := List.eq_nil_of_length_eq_zero (Nat.le_zero.mp hmax)
      obtain rfl : minimum = 0 := Nat.le_zero.mp hmin
      exact List.mem_singleton_self _
  | succ n ih =>
      rw [greedy]
      cases s with
      | nil =>
          obtain rfl : minimum = 0 := Nat.le_zero.mp hmin
          exact List.mem_append_right _ (List.mem_singleton_self _)
      | cons x s =>
          rw [List.length_cons] at hmin hmax
          have hnext : (⟨x :: past, s ++ rest, captured⟩ : Cursor) ∈
              Cursor.next p ⟨past, x :: s ++ rest, captured⟩ :=
            mem_next.mpr ⟨x, s ++ rest, rfl, hs x (List.mem_cons_self ..), rfl⟩
          refine List.mem_append_left _ (List.mem_flatMap.mpr ⟨_, hnext, ?_⟩)
          rw [List.reverse_cons, List.append_assoc, List.singleton_append]
          exact ih (fun y hy => hs y (List.mem_cons_of_mem x hy)) (by omega) (by omega)

def groupAt (isWord : Char → Bool) (r : Regex) (past rest : List Char) : Option (List Char) :=
  (r.results isWord ⟨past, rest, []⟩).head?.map Cursor.captured

/-- **A search is one for the leftmost match.** -/
theorem searchGroup_eq_firstMatch (r : Regex) (text : String) :
    r.searchGroup isWord text = (firstMatch (r.groupAt isWord) [] text.toList).map .ofList := by
  have hfrom : ∀ past rest : List Char,
      (r.searchFrom isWord past rest).map (fun found => found.2.captured) =
        firstMatch (r.groupAt isWord) past rest := by
    intro past rest
    induction rest generalizing past with
    | nil =>
        rw [searchFrom, firstMatch, groupAt, Option.map_map]
        rfl
    | cons x rest ih =>
        rw [searchFrom, firstMatch, groupAt]
        cases (r.results isWord ⟨past, x :: rest, []⟩).head? with
        | none =>
            rw [Option.map_none, Option.none_or]
            exact ih (x :: past)
        | some found => rfl
  unfold searchGroup search
  rw [← hfrom, Option.map_map]
  rfl

/-- Where all matches have the same group, the first one has it. -/
theorem groupAt_eq {r : Regex} {past rest : List Char} {o : Option (List Char)}
    (hall : ∀ d ∈ r.results isWord ⟨past, rest, []⟩, o = some d.captured)
    (hsome : ∀ s, o = some s → ∃ d, d ∈ r.results isWord ⟨past, rest, []⟩) :
    r.groupAt isWord past rest = o := by
  unfold groupAt
  cases hhead : (r.results isWord ⟨past, rest, []⟩).head? with
  | none =>
      rw [List.head?_eq_none_iff] at hhead
      cases o with
      | none => rfl
      | some s =>
          obtain ⟨d, hd⟩ := hsome s rfl
          rw [hhead] at hd
          cases hd
  | some d => exact (hall d (List.mem_of_mem_head? hhead)).symm

theorem mem_results_delimited {a : Regex} {c d : Cursor} :
    d ∈ results isWord (.seq .boundary (.seq (.group a) .boundary)) c ↔
      c.atBoundary isWord = true ∧ d.atBoundary isWord = true ∧
        ∃ e ∈ results isWord a c, d = { e with captured := c.textTo e } := by
  simp only [results, List.mem_flatMap]
  constructor
  · rintro ⟨c', hc', e, he, hd⟩
    split at hc'
    · rename_i hc
      rw [List.mem_singleton] at hc'
      subst hc'
      obtain ⟨e', he', rfl⟩ := List.mem_map.mp he
      split at hd
      · rename_i hboundary
        rw [List.mem_singleton] at hd
        subst hd
        exact ⟨hc, hboundary, e', he', rfl⟩
      · cases hd
    · cases hc'
  · rintro ⟨hc, hd, e, he, rfl⟩
    refine ⟨c, ?_, _, List.mem_map.mpr ⟨e, he, rfl⟩, ?_⟩
    · rw [if_pos hc]
      exact List.mem_singleton_self _
    · rw [if_pos hd]
      exact List.mem_singleton_self _

/-- **Repetitions of a class** read exactly the texts of that class. -/
theorem mem_greedy {p : Char → Bool} {minimum maximum : ℕ} {past rest captured : List Char}
    {d : Cursor} :
    d ∈ greedy (Cursor.next p) minimum maximum ⟨past, rest, captured⟩ ↔
      ∃ s after, rest = s ++ after ∧ (∀ x ∈ s, p x = true) ∧ minimum ≤ s.length ∧
        s.length ≤ maximum ∧ d = ⟨s.reverse ++ past, after, captured⟩ := by
  constructor
  · intro h
    obtain ⟨s, hmin, hmax, hall, hrest, hpast, hcaptured⟩ := ahead_of_mem_greedy h
    refine ⟨s, d.rest, hrest, hall, hmin, hmax, ?_⟩
    exact congrArg₂ (fun past captured => (⟨past, d.rest, captured⟩ : Cursor)) hpast hcaptured
  · rintro ⟨s, after, rfl, hall, hmin, hmax, rfl⟩
    exact mem_greedy_of_all hall hmin hmax

theorem atBoundary_start {past s after captured : List Char} (h : s.head?.any isWord = true) :
    Cursor.atBoundary isWord ⟨past, s ++ after, captured⟩ = !past.head?.any isWord := by
  unfold Cursor.atBoundary
  cases s with
  | nil => cases h
  | cons x rest =>
      rw [List.head?_cons, Option.any_some] at h
      rw [List.cons_append, List.head?_cons, Option.any_some, h]
      exact Bool.bne_true _

theorem atBoundary_end {past s after captured : List Char} (h : s.getLast?.any isWord = true) :
    Cursor.atBoundary isWord ⟨s.reverse ++ past, after, captured⟩ =
      !after.head?.any isWord := by
  unfold Cursor.atBoundary
  have hne : s.reverse ≠ [] := by
    intro hnil
    rw [List.reverse_eq_nil_iff] at hnil
    rw [hnil] at h
    cases h
  rw [List.head?_append_of_ne_nil _ hne, List.head?_reverse, h]
  exact Bool.true_bne _

theorem textTo_append {past s rest captured : List Char} {c : Cursor} (h : c.past = past) :
    c.textTo ⟨s.reverse ++ past, rest, captured⟩ = s := by
  unfold Cursor.textTo
  rw [h, List.length_append, Nat.add_sub_cancel, List.take_left, List.reverse_reverse]

/-- **A group between two boundaries of words** reads the texts of its kind that no
word goes on next to. -/
theorem groupAt_delimited (Reads : List Char → Prop) {a : Regex} {past rest : List Char}
    {o : Option (List Char)}
    (hreads : ∀ e, e ∈ a.results isWord ⟨past, rest, []⟩ ↔ ∃ s after, rest = s ++ after ∧
      Reads s ∧ e = ⟨s.reverse ++ past, after, []⟩)
    (hword : ∀ s after, rest = s ++ after → Reads s →
      s.head?.any isWord = true ∧ s.getLast?.any isWord = true)
    (ho : ∀ s, o = some s ↔ ∃ after, rest = s ++ after ∧ Reads s ∧
      past.head?.any isWord = false ∧ after.head?.any isWord = false) :
    (Regex.seq .boundary (.seq (.group a) .boundary)).groupAt isWord past rest = o := by
  refine groupAt_eq ?_ ?_
  · intro d hd
    obtain ⟨hstart, hend, e, he, rfl⟩ := mem_results_delimited.mp hd
    obtain ⟨s, after, hsplit, hs, rfl⟩ := (hreads e).mp he
    obtain ⟨hhead, hlast⟩ := hword s after hsplit hs
    rw [textTo_append rfl] at hend ⊢
    rw [hsplit, atBoundary_start hhead] at hstart
    rw [atBoundary_end hlast] at hend
    exact (ho s).mpr ⟨after, hsplit, hs, by simpa using hstart, by simpa using hend⟩
  · intro s hsome
    obtain ⟨after, hsplit, hs, hstart, hend⟩ := (ho s).mp hsome
    obtain ⟨hhead, hlast⟩ := hword s after hsplit hs
    refine ⟨⟨s.reverse ++ past, after, s⟩, mem_results_delimited.mpr ⟨?_, ?_,
      ⟨s.reverse ++ past, after, []⟩, (hreads _).mpr ⟨s, after, hsplit, hs, rfl⟩, ?_⟩⟩
    · rw [hsplit, atBoundary_start hhead, hstart]
      rfl
    · rw [atBoundary_end hlast, hend]
      rfl
    · rw [textTo_append rfl]

/-- A pattern that starts at the start of the text is found there only. -/
theorem searchFrom_atStart {r : Regex} {past : List Char} (hpast : past ≠ []) (rest : List Char) :
    searchFrom isWord (.seq .atStart r) past rest = none := by
  have hnone : ∀ past rest : List Char, past ≠ [] →
      (results isWord (.seq .atStart r) ⟨past, rest, []⟩).head? = none := by
    intro past rest h
    simp only [results, if_neg h, List.flatMap_nil, List.head?_nil]
  induction rest generalizing past with
  | nil =>
      unfold searchFrom
      rw [hnone past [] hpast, Option.map_none]
  | cons x rest ih =>
      unfold searchFrom
      rw [hnone past _ hpast]
      exact ih (List.cons_ne_nil x past)

theorem search_atStart {r : Regex} {text : String} {found : Cursor × Cursor}
    (h : search isWord (.seq .atStart r) text = some found) :
    found.2 ∈ results isWord r ⟨[], text.toList, []⟩ := by
  have hstart : ∀ c : Cursor, c.past = [] →
      results isWord (.seq .atStart r) c = results isWord r c := by
    intro c hc
    simp only [results, if_pos hc, List.flatMap_singleton]
  unfold search at h
  cases htext : text.toList with
  | nil =>
      rw [htext] at h
      unfold searchFrom at h
      rw [hstart _ rfl] at h
      obtain ⟨d, hd, rfl⟩ := Option.map_eq_some_iff.mp h
      exact List.mem_of_mem_head? hd
  | cons x rest =>
      rw [htext] at h
      unfold searchFrom at h
      rw [hstart _ rfl] at h
      split at h
      · rename_i d hd
        cases h
        exact List.mem_of_mem_head? hd
      · rw [searchFrom_atStart (List.cons_ne_nil x [])] at h
        cases h

end Regex

end MailboxService.Foundation
