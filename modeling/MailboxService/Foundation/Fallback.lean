import MailboxService.Foundation.Run
import MailboxService.Foundation.Session

/-!
# Trying alternatives in one session

`tryEach` runs alternatives in order until one returns. Exceptions of some
kinds are stepped over, any other one ends the loop; nothing rolls back in
between, so an alternative runs in the session as the earlier ones left it.

An alternative that fails cleanly leaves no trace, and a loop over
alternatives that succeed or fail cleanly is the first one that succeeds
(`tryEach_of_clean`). Where that is not given, what the failures preserve is
carried through the loop by `tryEach_ok`. The loop is also the run of a machine
over the alternatives (`tryEach_eq_exec`).
-/

namespace MailboxService.Foundation

namespace Work

variable {δ ε α κ : Type}

/-- Try the alternatives in order; `last` is raised when there is none left. -/
def tryEach (attempt : κ → Work δ ε α) (goOn : ε → Bool) (last : ε) :
    List κ → Work δ ε α
  | [] => raise last
  | p :: rest => (attempt p).handle fun e =>
      if goOn e then some (tryEach attempt goOn e rest) else none

/-- Alone in a new transaction the work returns and can be committed. -/
def Succeeds (x : Work δ ε α) (committed : δ) : Prop :=
  ∃ a db, x committed ⟨committed, true⟩ = (.ok a, ⟨db, true⟩)

/-- Alone in a new transaction the work raises an exception that is stepped
over, and leaves the transaction as it was. -/
def FailsCleanly (goOn : ε → Bool) (x : Work δ ε α) (committed : δ) : Prop :=
  ∃ e, x committed ⟨committed, true⟩ = (.error e, ⟨committed, true⟩) ∧ goOn e = true

/-- Alone in a new transaction an alternative raises an exception that is stepped
over, and the loop over the ones behind it returns and can be committed. -/
def GoesOn (attempt : κ → Work δ ε α) (goOn : ε → Bool) (p : κ) (rest : List κ)
    (committed : δ) : Prop :=
  ∃ e s a db, attempt p committed ⟨committed, true⟩ = (.error e, s) ∧ goOn e = true ∧
    tryEach attempt goOn e rest committed s = (.ok a, ⟨db, true⟩)

instance decidableSucceeds (x : Work δ ε α) (committed : δ) :
    Decidable (Succeeds x committed) :=
  match hx : x committed ⟨committed, true⟩ with
  | (.ok a, ⟨db, true⟩) => isTrue ⟨a, db, hx⟩
  | (.ok _, ⟨_, false⟩) => isFalse fun ⟨_, _, h⟩ => by
      rw [hx] at h
      cases h
  | (.error _, _) => isFalse fun ⟨_, _, h⟩ => by
      rw [hx] at h
      cases h

variable {attempt : κ → Work δ ε α} {goOn : ε → Bool} {last e : ε} {committed : δ}
  {s s' : Session δ} {p : κ} {rest l : List κ} {a : α}

theorem tryEach_cons_ok (h : attempt p committed s = (.ok a, s')) :
    tryEach attempt goOn last (p :: rest) committed s = (.ok a, s') :=
  handle_of_ok h

theorem tryEach_cons_next (h : attempt p committed s = (.error e, s'))
    (he : goOn e = true) :
    tryEach attempt goOn last (p :: rest) committed s =
      tryEach attempt goOn e rest committed s' :=
  handle_of_some h (if_pos he)

theorem tryEach_cons_stop (h : attempt p committed s = (.error e, s'))
    (he : goOn e = false) :
    tryEach attempt goOn last (p :: rest) committed s = (.error e, s') :=
  handle_of_none h (if_neg (by rw [he]; exact Bool.false_ne_true))

/-- One round of the loop, on the last outcome. -/
def tryStep (attempt : κ → Work δ ε α) (goOn : ε → Bool) (committed : δ)
    (t : Except ε α × Session δ) (p : κ) : Except ε α × Session δ :=
  match t.1 with
  | .ok _ => t
  | .error e => if goOn e then attempt p committed t.2 else t

/-- An outcome that ends the loop is the outcome of the loop. -/
theorem exec_tryStep_over {r : Except ε α} (h : ∀ e, r = .error e → goOn e = false) :
    exec (tryStep attempt goOn committed) (r, s) l = (r, s) := by
  have hstep : ∀ p, tryStep attempt goOn committed (r, s) p = (r, s) := by
    intro p
    unfold tryStep
    cases r with
    | ok a => rfl
    | error e => exact if_neg (by rw [h e rfl]; exact Bool.false_ne_true)
  induction l with
  | nil => rfl
  | cons p rest ih => rw [exec_cons, hstep p, ih]

/-- **The loop as a run** over the alternatives. -/
theorem tryEach_eq_exec (he : goOn e = true) :
    tryEach attempt goOn e l committed s =
      exec (tryStep attempt goOn committed) (.error e, s) l := by
  induction l generalizing e s with
  | nil => rfl
  | cons p rest ih =>
      have hstep : tryStep attempt goOn committed (.error e, s) p = attempt p committed s :=
        if_pos he
      rw [exec_cons, hstep]
      rcases hp : attempt p committed s with ⟨e' | a, s₁⟩
      · cases he' : goOn e' with
        | true => rw [tryEach_cons_next hp he', ih he']
        | false =>
            rw [tryEach_cons_stop hp he', exec_tryStep_over]
            rintro e'' ⟨⟩
            exact he'
      · rw [tryEach_cons_ok hp, exec_tryStep_over]
        rintro e'' ⟨⟩

/-- The loop returns what an alternative returns in the session that the ones
before it, all stepped over, have left. -/
theorem tryEach_of_split {e' : ε} {s₁ : Session δ} {pre post : List κ} (he : goOn e = true)
    (hpre : exec (tryStep attempt goOn committed) (.error e, s) pre = (.error e', s₁))
    (he' : goOn e' = true) (h : attempt p committed s₁ = (.ok a, s')) :
    tryEach attempt goOn e (pre ++ p :: post) committed s = (.ok a, s') := by
  have hstep : tryStep attempt goOn committed (.error e', s₁) p = (.ok a, s') :=
    (if_pos he').trans h
  rw [tryEach_eq_exec he, exec_append, hpre, exec_cons, hstep, exec_tryStep_over]
  rintro e'' ⟨⟩

/-- **Split rule**: a loop that returns has an alternative that returns, and
those before it are stepped over. -/
theorem tryEach_split (he : goOn e = true)
    (h : tryEach attempt goOn e l committed s = (.ok a, s')) :
    ∃ pre q post e' s₁, l = pre ++ q :: post ∧
      exec (tryStep attempt goOn committed) (.error e, s) pre = (.error e', s₁) ∧
      goOn e' = true ∧ attempt q committed s₁ = (.ok a, s') := by
  induction l generalizing e s with
  | nil => cases h
  | cons p rest ih =>
      rcases hp : attempt p committed s with ⟨e₁ | b, s₁⟩
      · cases he₁ : goOn e₁ with
        | true =>
            rw [tryEach_cons_next hp he₁] at h
            obtain ⟨pre, q, post, e', s₂, rfl, hpre, he', hq⟩ := ih he₁ h
            refine ⟨p :: pre, q, post, e', s₂, rfl, ?_, he', hq⟩
            have hstep : tryStep attempt goOn committed (.error e, s) p = (.error e₁, s₁) :=
              (if_pos he).trans hp
            rw [exec_cons, hstep, hpre]
        | false =>
            rw [tryEach_cons_stop hp he₁] at h
            cases h
      · rw [tryEach_cons_ok hp] at h
        exact ⟨[], p, rest, e, s, rfl, rfl, he, hp.trans h⟩

/-- What the alternatives keep when they raise is kept by the rounds. -/
theorem exec_tryStep_keeps {I : Session δ → Prop}
    (hstep : ∀ p s e s', I s → attempt p committed s = (.error e, s') → I s')
    {e' : ε} {s₁ : Session δ} {pre : List κ} (h0 : I s)
    (hpre : exec (tryStep attempt goOn committed) (.error e, s) pre = (.error e', s₁)) :
    I s₁ := by
  have hinv : ∀ (t : Except ε α × Session δ) q, (∀ e, t.1 = .error e → I t.2) →
      ∀ e, (tryStep attempt goOn committed t q).1 = .error e →
        I (tryStep attempt goOn committed t q).2 := by
    rintro ⟨e₁ | b, s₂⟩ q hI e₂ h
    · unfold tryStep at h ⊢
      dsimp only at h ⊢
      split at h
      · rw [if_pos ‹_›]
        exact hstep q s₂ e₂ _ (hI e₁ rfl) (Prod.ext h rfl)
      · rw [if_neg ‹_›]
        exact hI e₁ rfl
    · cases h
  have hlast := exec_invariant hinv (s := (.error e, s)) (fun _ _ => h0) pre
  rw [hpre] at hlast
  exact hlast e' rfl

/-- **Loop rule**: what the failures that are stepped over preserve holds in
the session in which the returning alternative started. -/
theorem tryEach_ok {I : Session δ → Prop}
    (hstep : ∀ p ∈ l, ∀ s e s', I s → attempt p committed s = (.error e, s') →
      goOn e = true → I s')
    (h0 : I s) (h : tryEach attempt goOn last l committed s = (.ok a, s')) :
    ∃ p ∈ l, ∃ s₁, I s₁ ∧ attempt p committed s₁ = (.ok a, s') := by
  induction l generalizing s last with
  | nil => cases h
  | cons p rest ih =>
      rcases hp : attempt p committed s with ⟨e | b, s₁⟩
      · cases he : goOn e with
        | true =>
            rw [tryEach_cons_next hp he] at h
            have hI := hstep p List.mem_cons_self s e s₁ h0 hp he
            obtain ⟨q, hq, hrest⟩ :=
              ih (fun q hq => hstep q (List.mem_cons_of_mem _ hq)) hI h
            exact ⟨q, List.mem_cons_of_mem _ hq, hrest⟩
        | false =>
            rw [tryEach_cons_stop hp he] at h
            cases h
      · rw [tryEach_cons_ok hp] at h
        exact ⟨p, List.mem_cons_self, s, h0, hp.trans h⟩

/-- **Clean alternatives**: the loop is the first alternative that succeeds. -/
theorem tryEach_of_clean
    (hclean : ∀ p ∈ l, Succeeds (attempt p) committed ∨
      FailsCleanly goOn (attempt p) committed)
    (hsome : ∃ p ∈ l, Succeeds (attempt p) committed) :
    ∃ p ∈ l, ∃ a db, attempt p committed ⟨committed, true⟩ = (.ok a, ⟨db, true⟩) ∧
      tryEach attempt goOn last l committed ⟨committed, true⟩ = (.ok a, ⟨db, true⟩) := by
  induction l generalizing last with
  | nil =>
      obtain ⟨p, hp, -⟩ := hsome
      cases hp
  | cons p rest ih =>
      rcases hclean p List.mem_cons_self with ⟨a, db, hp⟩ | ⟨e, hp, he⟩
      · exact ⟨p, List.mem_cons_self, a, db, hp, tryEach_cons_ok hp⟩
      · have hrest : ∃ q ∈ rest, Succeeds (attempt q) committed := by
          obtain ⟨q, hq, hsucceeds⟩ := hsome
          rcases List.mem_cons.mp hq with rfl | hq
          · obtain ⟨a, db, hok⟩ := hsucceeds
            rw [hp] at hok
            cases hok
          · exact ⟨q, hq, hsucceeds⟩
        obtain ⟨q, hq, a, db, hok, hloop⟩ :=
          ih (fun q hq => hclean q (List.mem_cons_of_mem _ hq)) hrest
        refine ⟨q, List.mem_cons_of_mem _ hq, a, db, hok, ?_⟩
        rw [tryEach_cons_next hp he]
        exact hloop

end Work

end MailboxService.Foundation
