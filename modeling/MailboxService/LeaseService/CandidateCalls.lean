import MailboxService.LeaseService.LockedAcquire

/-!
# Calls of a mail-read acquire

The candidate loop with its log, as a machine over the candidates. The state
adds the candidates that have given up a row they had found: stepped over, with
nothing rolled back since.

`acquire_unlocked_iff` is exact: every provider is called without a row lock if
and only if every request goes out while no row is given up.
-/

namespace MailboxService

open Foundation

section

variable [Platform]

structure AcquireTrace where
  result : Except LeaseError LeaseAcquireResult
  session : Session Database
  log : LockLog HeldRow
  /-- The candidates that have given up a row in the open transaction. -/
  givenUp : List String

namespace AcquireTrace

def goesOn (t : AcquireTrace) : Bool :=
  match t.result with
  | .ok _ => false
  | .error e => e.tryNext

def start (principal : ClientPrincipal) (db : Database) : AcquireTrace where
  result :=
    .error (if "mailboxes:acquire" ∈ principal.scopes then .leaseUnavailable "没有可用邮箱"
      else .clientKeyScope ("Client Key 缺少权限：" ++ "mailboxes:acquire"))
  session := ⟨db, true⟩
  log := {}
  givenUp := []

/-- One candidate, in the session as the earlier ones have left it. -/
def step (principal : ClientPrincipal) (now : ℕ) (decrypt : String → Except String String)
    (draws : String → Draws) (requests : String → ℕ) (request : AcquireRequest)
    (db : Database) (t : AcquireTrace) (p : String) : AcquireTrace :=
  if t.goesOn then
    let attempt := Locking.attemptProvider principal now decrypt draws requests request p
    let outcome := attempt.work db t.session
    { result := outcome.1
      session := outcome.2
      log := attempt.log db t.session t.log
      givenUp :=
        if !outcome.2.usable || provisions draws p then []
        else if t.session.db.findsRow now (request.forProvider p) p then p :: t.givenUp
        else t.givenUp }
  else t

def SendsFreely (draws : String → Draws) (requests : String → ℕ) (t : AcquireTrace)
    (p : String) : Prop :=
  t.goesOn = true → requestsSent draws requests p ≠ 0 → t.givenUp = []

instance (draws : String → Draws) (requests : String → ℕ) (t : AcquireTrace) (p : String) :
    Decidable (SendsFreely draws requests t p) :=
  inferInstanceAs (Decidable (_ → _ → _))

variable {principal : ClientPrincipal} {now : ℕ} {decrypt : String → Except String String}
  {draws : String → Draws} {requests : String → ℕ} {request : AcquireRequest} {db : Database}
  {t : AcquireTrace} {p : String}

theorem goesOn_iff : t.goesOn = true ↔ ∃ e, t.result = .error e ∧ e.tryNext = true := by
  unfold goesOn
  cases t.result with
  | ok result => simp
  | error e => simp

theorem step_next (h : t.goesOn = true) :
    step principal now decrypt draws requests request db t p =
      let attempt := Locking.attemptProvider principal now decrypt draws requests request p
      let outcome := attempt.work db t.session
      { result := outcome.1
        session := outcome.2
        log := attempt.log db t.session t.log
        givenUp :=
          if !outcome.2.usable || provisions draws p then []
          else if t.session.db.findsRow now (request.forProvider p) p then p :: t.givenUp
          else t.givenUp } :=
  if_pos h

theorem step_over (h : t.goesOn = false) :
    step principal now decrypt draws requests request db t p = t := by
  unfold step
  rw [if_neg (by rw [h]; exact Bool.false_ne_true)]

/-! ## The acquire behind the trace -/

/-- The trace runs through the candidates as the service does. -/
theorem exec_step_eq (principal : ClientPrincipal) (now : ℕ)
    (decrypt : String → Except String String) (draws : String → Draws)
    (requests : String → ℕ) (request : AcquireRequest) (db : Database)
    (shuffled : List String) (hmode : request.mode = .mailRead) :
    let t := exec (step principal now decrypt draws requests request db) (start principal db)
      shuffled
    (t.result, t.session) =
      acquireLease principal now decrypt draws request shuffled db ⟨db, true⟩ := by
  have hround : ∀ (t : AcquireTrace) (u : Except LeaseError LeaseAcquireResult ×
      Session Database) (p : String), (t.result, t.session) = u → True →
      ((step principal now decrypt draws requests request db t p).result,
        (step principal now decrypt draws requests request db t p).session) =
        Work.tryStep (attemptProvider principal now decrypt draws request) LeaseError.tryNext db
          u p := by
    rintro t u p rfl -
    -- the loop goes on exactly where the trace does
    by_cases hgoes : t.goesOn = true
    · rw [step_next hgoes]
      obtain ⟨e, hresult, he⟩ := goesOn_iff.mp hgoes
      unfold Work.tryStep
      rw [hresult]
      dsimp only
      rw [if_pos he, Locking.attemptProvider_work]
    · rw [step_over (Bool.not_eq_true _ ▸ hgoes)]
      unfold Work.tryStep
      cases hresult : t.result with
      | ok result => rfl
      | error e =>
          have he : ¬ e.tryNext = true := fun he => hgoes (goesOn_iff.mpr ⟨e, hresult, he⟩)
          exact (if_neg he).symm
  have hrun := exec_simulates hround rfl
    (meets_of_forall (fun _ _ => trivial) (start principal db) shuffled)
  refine hrun.trans ?_
  unfold acquireLease
  rw [if_pos hmode]
  by_cases hscope : "mailboxes:acquire" ∈ principal.scopes
  · have hallowed : principal.requireScope "mailboxes:acquire" db ⟨db, true⟩ =
        (.ok (), ⟨db, true⟩) := by
      unfold ClientPrincipal.requireScope
      rw [if_pos hscope]
      rfl
    rw [Work.bind_of_ok hallowed]
    unfold attemptProviders
    rw [Work.tryEach_eq_exec rfl]
    unfold start
    rw [if_pos hscope]
  · have hrefused : principal.requireScope "mailboxes:acquire" db ⟨db, true⟩ =
        (.error (.clientKeyScope ("Client Key 缺少权限：" ++ "mailboxes:acquire")), ⟨db, true⟩) := by
      unfold ClientPrincipal.requireScope
      rw [if_neg hscope]
      rfl
    rw [Work.bind_of_error hrefused]
    unfold start
    rw [if_neg hscope]
    refine Work.exec_tryStep_over ?_
    rintro e ⟨⟩
    rfl

/-! ## What is held between two candidates -/

/-- Between two candidates a row is held exactly if one is given up. -/
structure Follows (t : AcquireTrace) : Prop where
  stuck : t.goesOn = true → t.session.usable = false → t.log.held = []
  held : t.goesOn = true → (t.log.held = [] ↔ t.givenUp = [])

theorem follows_start (principal : ClientPrincipal) (db : Database) :
    (start principal db).Follows where
  stuck _ _ := rfl
  held _ := ⟨fun _ => rfl, fun _ => rfl⟩

omit [Platform] in
theorem givenUp_eq_nil {rolledBack finds : Bool} {givenUp : List String} :
    (if rolledBack then [] else if finds then p :: givenUp else givenUp) = [] ↔
      rolledBack = true ∨ givenUp = [] ∧ finds = false := by
  cases rolledBack <;> cases finds <;> simp

/-- **Step lemma**: what is held and what is given up stay in step. -/
theorem follows_step (hmode : request.mode = .mailRead) (h : t.Follows) :
    (step principal now decrypt draws requests request db t p).Follows := by
  by_cases hgoes : t.goesOn = true
  · have hnext : (step principal now decrypt draws requests request db t p).goesOn = true →
        ((step principal now decrypt draws requests request db t p).log.held = [] ↔
          ((step principal now decrypt draws requests request db t p).session.usable = false ∨
            provisions draws p = true) ∨
            t.givenUp = [] ∧ t.session.db.findsRow now (request.forProvider p) p = false) := by
      rw [step_next hgoes]
      intro hgoes'
      obtain ⟨e, hresult, he⟩ := goesOn_iff.mp hgoes'
      dsimp only at hresult ⊢
      rw [← h.held hgoes]
      exact Locking.attemptProvider_leaves hmode (h.stuck hgoes) (Prod.ext hresult rfl) he
    constructor
    · intro hgoes' hstuck
      exact (hnext hgoes').mpr (Or.inl (Or.inl hstuck))
    · intro hgoes'
      rw [hnext hgoes', step_next hgoes]
      dsimp only
      rw [givenUp_eq_nil, Bool.or_eq_true, Bool.not_eq_true']
  · rw [step_over (Bool.not_eq_true _ ▸ hgoes)]
    exact h

/-- A candidate calls its provider without a row lock exactly if no row is
given up. -/
theorem unlocked_step_iff (hmode : request.mode = .mailRead) (h : t.Follows)
    (hunlocked : t.log.Unlocked) :
    (step principal now decrypt draws requests request db t p).log.Unlocked ↔
      SendsFreely draws requests t p := by
  unfold SendsFreely
  by_cases hgoes : t.goesOn = true
  · have hcalls : (step principal now decrypt draws requests request db t p).log.calls =
        (t.log.call (requestsSent draws requests p)).calls := by
      rw [step_next hgoes]
      exact Locking.attemptProvider_calls hmode
    rw [LockLog.unlocked_congr hcalls, LockLog.unlocked_call_iff, h.held hgoes]
    exact ⟨fun hsends _ => hsends.2, fun hsends => ⟨hunlocked, hsends hgoes⟩⟩
  · rw [step_over (Bool.not_eq_true _ ▸ hgoes)]
    exact iff_of_true hunlocked fun hgoes' => absurd hgoes' hgoes

/-- **Calls of an acquire**: no provider is ever called while a row is locked
if and only if no request is sent while a row is given up. -/
theorem acquire_unlocked_iff (principal : ClientPrincipal) (now : ℕ)
    (decrypt : String → Except String String) (draws : String → Draws)
    (requests : String → ℕ) (request : AcquireRequest) (db : Database)
    (shuffled : List String) (hmode : request.mode = .mailRead) :
    Throughout (step principal now decrypt draws requests request db) (·.log.Unlocked)
        (start principal db) shuffled ↔
      Meets (step principal now decrypt draws requests request db)
        (SendsFreely draws requests) (start principal db) shuffled := by
  refine meets_iff_throughout (I := Follows) (fun t p h => follows_step hmode h)
    (fun t p h hunlocked => unlocked_step_iff hmode h hunlocked) (follows_start principal db) ?_
  intro rows hrows
  cases hrows

end AcquireTrace

end

end MailboxService
