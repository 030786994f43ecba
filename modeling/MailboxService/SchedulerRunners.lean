import MailboxService.Ascii
import MailboxService.SchedulerLease
import MailboxService.Foundation.Interleaving

/-!
# Runners of scheduled jobs

`RefreshTokenKeepaliveRunner` and `ProxyHealthProbeRunner`: a run acquires the
lease of its job, processes a batch, and releases the lease, whatever became of
the batch. Batches wait for remote servers and take any time. A runner takes
its time for the acquisition before it waits for the row, and does not renew
its lease while the batch goes on.

Any number of runners of one job take turns, and the rows of other jobs change
in between. `runners_exclusive_iff` says in which runs they exclude each other.
-/

namespace MailboxService

open Foundation

/-- The job of `RefreshTokenKeepaliveRunner`. -/
def refreshTokenKeepaliveJob : String := "refresh-token-keepalive"

/-- The job of `ProxyHealthProbeRunner`. -/
def proxyHealthProbeJob : String := "egress-proxy-health-probe"

/-- Where a runner stands. One that is running has its handle; the end of its
lease is noted beside it. -/
inductive RunnerPhase where
  | idle
  | acquiring (ownerId : String) (leaseSeconds currentTime : ℕ)
  | running (handle : JobLeaseHandle) (leaseUntil : ℕ)
  deriving DecidableEq, Repr

def RunnerPhase.isRunning : RunnerPhase → Bool
  | .running _ _ => true
  | _ => false

/-- A step of `run_once`, a call for another job, or the clock. The keepalive
draws an owner id for every run, the probe one for all its runs. A release that
fails is given up. -/
inductive RunnerAction where
  | begin (ownerId : String) (leaseSeconds : ℕ)
  | acquire
  | abort
  | finish (released : Bool)
  | elsewhere (call : SchedulerCall)
  | advance (microseconds : ℕ)
  deriving DecidableEq, Repr

def SchedulerCall.jobName? : SchedulerCall → Option String
  | .tryAcquire jobName _ _ => some jobName
  | .renew handle _ => some handle.jobName
  | .release handle => some handle.jobName
  | .advance _ => none

section

variable [Collation]

structure RunnerShared where
  jobs : JobTable
  now : ℕ

def SchedulerCall.spares (call : SchedulerCall) (jobName : String) : Bool :=
  call.jobName?.any fun other => !sqlEq other jobName

def runnerAct (jobName : String) (s : RunnerShared) (x : RunnerPhase) :
    RunnerAction → RunnerPhase × RunnerShared
  | .begin ownerId leaseSeconds =>
      match x with
      | .idle => (.acquiring ownerId leaseSeconds s.now, s)
      | busy => (busy, s)
  | .acquire =>
      match x with
      | .acquiring ownerId leaseSeconds currentTime =>
          match tryAcquire s.jobs currentTime jobName ownerId leaseSeconds with
          | (none, jobs) => (.idle, { s with jobs })
          | (some handle, jobs) =>
              (.running handle (currentTime + seconds leaseSeconds), { s with jobs })
      | other => (other, s)
  | .abort =>
      match x with
      | .acquiring _ _ _ => (.idle, s)
      | other => (other, s)
  | .finish released =>
      match x with
      | .running handle _ =>
          (.idle, if released then { s with jobs := release s.jobs s.now handle } else s)
      | other => (other, s)
  | .elsewhere call =>
      if call.spares jobName then
        (x, { s with jobs := (schedulerStep ⟨s.jobs, s.now, []⟩ call).jobs })
      else (x, s)
  | .advance microseconds => (x, { s with now := s.now + microseconds })

abbrev Runners (ι : Type*) := Threads ι RunnerPhase RunnerShared

def runnersStart {ι : Type*} (jobs : JobTable) (now : ℕ) : Runners ι := .start ⟨jobs, now⟩ .idle

/-! ## Exclusion -/

/-- **Exclusion**: no two runners of the job are running. -/
def Exclusive {ι : Type*} (t : Runners ι) : Prop :=
  ∀ i j, (t.held i).isRunning = true → (t.held j).isRunning = true → i = j

/-- An acquisition comes in time before the end of every lease that is in use,
under another owner id. -/
def RespectsLeases {ι : Type*} (t : Runners ι) (e : ι × RunnerAction) : Prop :=
  ∀ ownerId leaseSeconds currentTime, e.2 = .acquire →
    t.held e.1 = .acquiring ownerId leaseSeconds currentTime →
    ∀ j handle leaseUntil, t.held j = .running handle leaseUntil →
      currentTime < leaseUntil ∧ handle.ownerId ≠ ownerId

structure HoldsRow (jobName : String) (jobs : JobTable) (handle : JobLeaseHandle)
    (leaseUntil : ℕ) : Prop where
  job : handle.jobName = jobName
  row : ∃ row, jobs.job? jobName = some row ∧ handle.current row = true ∧
    row.leaseUntil = leaseUntil

def RunnersLinked {ι : Type*} (jobName : String) (t : Runners ι) : Prop :=
  ∀ i handle leaseUntil, t.held i = .running handle leaseUntil →
    HoldsRow jobName t.shared.jobs handle leaseUntil

/-! ## Rows -/

variable {jobs jobs' : JobTable} {jobName ownerId : String} {now leaseSeconds : ℕ}

theorem tryAcquire_eq_none_iff {row : ScheduledJobLease} (hrow : jobs.job? jobName = some row) :
    (tryAcquire jobs now jobName ownerId leaseSeconds).1 = none ↔
      now < row.leaseUntil ∧ row.ownerId ≠ ownerId := by
  have hlive : (!isExpired row.leaseUntil now) = true ↔ now < row.leaseUntil := by
    simp [isExpired]
  unfold tryAcquire
  rw [hrow]
  dsimp only
  split
  · rename_i h
    exact iff_of_true rfl ⟨hlive.mp h.1, h.2⟩
  · rename_i h
    exact iff_of_false (by simp) fun h' => h ⟨hlive.mpr h'.1, h'.2⟩

theorem tryAcquire_none (h : (tryAcquire jobs now jobName ownerId leaseSeconds).1 = none) :
    (tryAcquire jobs now jobName ownerId leaseSeconds).2 = jobs := by
  unfold tryAcquire at h ⊢
  split
  · rename_i hrow
    rw [hrow] at h
    dsimp only at h
    split
    · rfl
    · rename_i jobs' hins
      rw [hins] at h
      cases h
  · rename_i lease hrow
    rw [hrow] at h
    dsimp only at h
    split
    · rfl
    · rename_i hfree
      rw [if_neg hfree] at h
      cases h

theorem tryAcquire_holdsRow {handle : JobLeaseHandle}
    (h : tryAcquire jobs now jobName ownerId leaseSeconds = (some handle, jobs')) :
    HoldsRow jobName jobs' handle (now + seconds leaseSeconds) := by
  unfold tryAcquire at h
  split at h
  · split at h
    · cases h
    · rename_i jobs₁ hins
      cases h
      refine ⟨rfl, ⟨⟨jobName, ownerId, now + seconds leaseSeconds, 1, now⟩, ?_, ?_, rfl⟩⟩
      · show jobs'.get? (Collation.key jobName) = _
        rw [Table.get?_insert? hins]
        exact if_pos rfl
      · simp [JobLeaseHandle.current]
  · rename_i lease hlease
    split at h
    · cases h
    · cases h
      refine ⟨rfl, ⟨_, job?_writeJob (acquire_keeps _ _ _) hlease, ?_, ?_⟩⟩
      · rw [if_pos rfl]
        simp [JobLeaseHandle.current, ScheduledJobLease.acquire]
      · rw [if_pos rfl]
        rfl

theorem spares_job? {call : SchedulerCall} (h : call.spares jobName = true)
    {row : ScheduledJobLease} (hrow : jobs.job? jobName = some row) :
    (schedulerStep ⟨jobs, now, []⟩ call).jobs.job? jobName = some row := by
  have hwrite : ∀ (other : String) (f : ScheduledJobLease → ScheduledJobLease)
      (hf : scheduledJobSchema.Keeps f), sqlEq other jobName = false →
      (jobs.writeJob other f hf).job? jobName = some row := by
    intro other f hf hother
    rw [job?_writeJob hf hrow, if_neg]
    intro hkey
    rw [sqlEq, decide_eq_false_iff_not] at hother
    exact hother hkey.symm
  unfold SchedulerCall.spares at h
  cases call with
  | tryAcquire other ownerId leaseSeconds =>
      have hother : sqlEq other jobName = false := by
        simpa only [SchedulerCall.jobName?, Option.any_some, Bool.not_eq_true'] using h
      show (tryAcquire jobs now other ownerId leaseSeconds).2.job? jobName = some row
      unfold tryAcquire
      split
      · split
        · exact hrow
        · rename_i jobs' hins
          unfold JobTable.job? at hrow ⊢
          rw [Table.get?_insert? hins, if_neg]
          · exact hrow
          · intro hkey
            rw [sqlEq, decide_eq_false_iff_not] at hother
            exact hother hkey
      · split
        · exact hrow
        · exact hwrite other _ (acquire_keeps now ownerId leaseSeconds) hother
  | renew handle leaseSeconds =>
      have hother : sqlEq handle.jobName jobName = false := by
        simpa only [SchedulerCall.jobName?, Option.any_some, Bool.not_eq_true'] using h
      show (renew jobs now handle leaseSeconds).2.job? jobName = some row
      unfold renew
      split
      · exact hrow
      · split
        · exact hwrite handle.jobName _ (until_keeps now _) hother
        · exact hrow
  | release handle =>
      have hother : sqlEq handle.jobName jobName = false := by
        simpa only [SchedulerCall.jobName?, Option.any_some, Bool.not_eq_true'] using h
      show (release jobs now handle).job? jobName = some row
      unfold release
      split
      · exact hrow
      · split
        · exact hwrite handle.jobName _ (until_keeps now now) hother
        · exact hrow
  | advance microseconds => exact hrow

/-! ## One step -/

variable {s : RunnerShared} {x : RunnerPhase} {a : RunnerAction}

theorem runnerAct_running {handle : JobLeaseHandle} {leaseUntil : ℕ}
    (h : (runnerAct jobName s x a).1 = .running handle leaseUntil) :
    x = .running handle leaseUntil ∨
      ((a = .acquire ∧ ∃ ownerId leaseSeconds currentTime,
          x = .acquiring ownerId leaseSeconds currentTime) ∧
        HoldsRow jobName (runnerAct jobName s x a).2.jobs handle leaseUntil) := by
  cases a with
  | acquire =>
      cases x with
      | acquiring ownerId leaseSeconds currentTime =>
          right
          refine ⟨⟨rfl, ownerId, leaseSeconds, currentTime, rfl⟩, ?_⟩
          simp only [runnerAct] at h ⊢
          rcases hrun : tryAcquire s.jobs currentTime jobName ownerId leaseSeconds with
            ⟨granted, jobs'⟩
          rw [hrun] at h
          cases granted with
          | none => cases h
          | some handle' =>
              obtain ⟨rfl, rfl⟩ := RunnerPhase.running.inj h
              exact tryAcquire_holdsRow hrun
      | idle => cases h
      | running handle' leaseUntil' => exact Or.inl h
  | begin ownerId leaseSeconds =>
      cases x with
      | idle => cases h
      | acquiring _ _ _ => cases h
      | running _ _ => exact Or.inl h
  | abort =>
      cases x with
      | idle => cases h
      | acquiring _ _ _ => cases h
      | running _ _ => exact Or.inl h
  | finish released =>
      cases x with
      | idle => cases h
      | acquiring _ _ _ => cases h
      | running _ _ => cases h
  | elsewhere call =>
      simp only [runnerAct] at h
      split at h <;> exact Or.inl h
  | advance microseconds => exact Or.inl h

/-- A step that starts no batch and ends none leaves the row of the job as a
handle holds it. -/
theorem runnerAct_holdsRow {handle : JobLeaseHandle} {leaseUntil : ℕ}
    (hsame : (runnerAct jobName s x a).1.isRunning = x.isRunning)
    (h : HoldsRow jobName s.jobs handle leaseUntil) :
    HoldsRow jobName (runnerAct jobName s x a).2.jobs handle leaseUntil := by
  cases a with
  | acquire =>
      cases x with
      | acquiring ownerId leaseSeconds currentTime =>
          simp only [runnerAct] at hsame ⊢
          have hjobs :
              (tryAcquire s.jobs currentTime jobName ownerId leaseSeconds).1 = none →
                (tryAcquire s.jobs currentTime jobName ownerId leaseSeconds).2 = s.jobs :=
            tryAcquire_none
          rcases hrun : tryAcquire s.jobs currentTime jobName ownerId leaseSeconds with
            ⟨granted, jobs'⟩
          rw [hrun] at hsame hjobs
          cases granted with
          | none =>
              have heq : jobs' = s.jobs := hjobs rfl
              rw [heq]
              exact h
          | some handle' => cases hsame
      | idle => exact h
      | running _ _ => exact h
  | begin ownerId leaseSeconds => cases x <;> exact h
  | abort => cases x <;> exact h
  | finish released =>
      cases x with
      | idle => exact h
      | acquiring _ _ _ => exact h
      | running _ _ => cases hsame
  | elsewhere call =>
      simp only [runnerAct]
      split
      · rename_i hspares
        obtain ⟨row, hrow, hcurrent, huntil⟩ := h.row
        exact ⟨h.job, row, spares_job? hspares hrow, hcurrent, huntil⟩
      · exact h
  | advance microseconds => exact h

variable {ι : Type*} [DecidableEq ι] {t : Runners ι} {e : ι × RunnerAction}

/-- **Invariant**: while runners exclude each other, the row of the job is that
of the one that is running. -/
theorem runnersLinked_step (hlinked : RunnersLinked jobName t) (hexcl : Exclusive t)
    (hnext : Exclusive (t.step (runnerAct jobName) e)) :
    RunnersLinked jobName (t.step (runnerAct jobName) e) := by
  obtain ⟨i, a⟩ := e
  intro j handle leaseUntil hj
  have hj' := hj
  rw [Threads.step_held] at hj'
  show HoldsRow jobName (runnerAct jobName t.shared (t.held i) a).2.jobs handle leaseUntil
  by_cases hij : j = i
  · rw [if_pos hij] at hj'
    rcases runnerAct_running hj' with hheld | ⟨-, hholds⟩
    · refine runnerAct_holdsRow ?_ (hlinked i _ _ hheld)
      rw [hj', hheld]
    · exact hholds
  · rw [if_neg hij] at hj'
    refine runnerAct_holdsRow ?_ (hlinked j _ _ hj')
    -- the acting runner runs neither before nor after the step, since this one does
    have hbefore : (t.held i).isRunning = false := by
      rw [← Bool.not_eq_true]
      intro hi
      exact hij (hexcl j i (by rw [hj']; rfl) hi)
    have hafter : (runnerAct jobName t.shared (t.held i) a).1.isRunning = false := by
      rw [← Bool.not_eq_true]
      intro hi
      refine hij (hnext j i (by rw [hj]; rfl) ?_)
      rw [Threads.step_held, if_pos rfl]
      exact hi
    rw [hbefore, hafter]

/-- A step that starts no batch keeps the exclusion. -/
theorem exclusive_step_of_idle (hexcl : Exclusive t)
    (hidle : (runnerAct jobName t.shared (t.held e.1) e.2).1.isRunning = true →
      (t.held e.1).isRunning = true) :
    Exclusive (t.step (runnerAct jobName) e) := by
  obtain ⟨i, a⟩ := e
  have hrunning : ∀ j, ((t.step (runnerAct jobName) (i, a)).held j).isRunning = true →
      (t.held j).isRunning = true := by
    intro j hj
    rw [Threads.step_held] at hj
    by_cases hij : j = i
    · rw [if_pos hij] at hj
      rw [hij]
      exact hidle hj
    · rwa [if_neg hij] at hj
  intro j k hj hk
  exact hexcl j k (hrunning j hj) (hrunning k hk)

/-- **Step lemma**: exclusion survives a step exactly if an acquisition it makes
comes in time, under another owner id. -/
theorem exclusive_step_iff (hlinked : RunnersLinked jobName t) (hexcl : Exclusive t) :
    Exclusive (t.step (runnerAct jobName) e) ↔ RespectsLeases t e := by
  obtain ⟨i, a⟩ := e
  by_cases hacquires : a = .acquire ∧ ∃ ownerId leaseSeconds currentTime,
      t.held i = .acquiring ownerId leaseSeconds currentTime
  · obtain ⟨rfl, ownerId, leaseSeconds, currentTime, hi⟩ := hacquires
    have hrefused : ∀ j handle leaseUntil, t.held j = .running handle leaseUntil →
        ((tryAcquire t.shared.jobs currentTime jobName ownerId leaseSeconds).1 = none ↔
          currentTime < leaseUntil ∧ handle.ownerId ≠ ownerId) := by
      intro j handle leaseUntil hj
      obtain ⟨-, row, hrow, hcurrent, rfl⟩ := hlinked j handle leaseUntil hj
      unfold JobLeaseHandle.current at hcurrent
      rw [Bool.and_eq_true, decide_eq_true_eq] at hcurrent
      rw [tryAcquire_eq_none_iff hrow, hcurrent.1]
    constructor
    · rintro hnext ownerId' leaseSeconds' currentTime' - hi' j handle leaseUntil hj
      rw [hi] at hi'
      obtain ⟨rfl, rfl, rfl⟩ := RunnerPhase.acquiring.inj hi'
      rw [← hrefused j handle leaseUntil hj]
      by_contra hgranted
      have hij : i ≠ j := by
        rintro rfl
        rw [hi] at hj
        cases hj
      obtain ⟨granted, hgranted⟩ := Option.ne_none_iff_exists'.mp hgranted
      refine hij (hnext i j ?_ ?_)
      · rw [Threads.step_held, if_pos rfl, hi]
        simp only [runnerAct]
        rcases hrun : tryAcquire t.shared.jobs currentTime jobName ownerId leaseSeconds with
          ⟨granted', jobs'⟩
        rw [hrun] at hgranted
        obtain rfl : granted' = some granted := hgranted
        rfl
      · rw [Threads.step_held, if_neg (Ne.symm hij), hj]
        rfl
    · intro hrespects
      by_cases hbusy : ∃ j handle leaseUntil, t.held j = .running handle leaseUntil
      · obtain ⟨j, handle, leaseUntil, hj⟩ := hbusy
        have hnone := (hrefused j handle leaseUntil hj).mpr
          (hrespects ownerId leaseSeconds currentTime rfl hi j handle leaseUntil hj)
        refine exclusive_step_of_idle hexcl fun hrunning => ?_
        simp only [hi, runnerAct] at hrunning
        rcases hrun : tryAcquire t.shared.jobs currentTime jobName ownerId leaseSeconds with
          ⟨granted, jobs'⟩
        rw [hrun] at hnone hrunning
        obtain rfl : granted = none := hnone
        cases hrunning
      · -- nobody else is running
        have hidle : ∀ j, j ≠ i →
            ((t.step (runnerAct jobName) (i, .acquire)).held j).isRunning = false := by
          intro j hji
          rw [Threads.step_held, if_neg hji]
          cases hj : t.held j with
          | running handle leaseUntil => exact absurd ⟨j, handle, leaseUntil, hj⟩ hbusy
          | _ => rfl
        have hone : ∀ j, ((t.step (runnerAct jobName) (i, .acquire)).held j).isRunning =
            true → j = i := by
          intro j hj
          by_contra hji
          rw [hidle j hji] at hj
          cases hj
        intro j k hj hk
        rw [hone j hj, hone k hk]
  · refine iff_of_true (exclusive_step_of_idle hexcl fun hrunning => ?_) ?_
    · dsimp only at hrunning ⊢
      cases hnext : (runnerAct jobName t.shared (t.held i) a).1 with
      | running handle leaseUntil =>
          rcases runnerAct_running hnext with hheld | ⟨hacquired, -⟩
          · rw [hheld]
            rfl
          · exact absurd hacquired hacquires
      | _ =>
          rw [hnext] at hrunning
          cases hrunning
    · rintro ownerId leaseSeconds currentTime ha hi
      exact absurd ⟨ha, ownerId, leaseSeconds, currentTime, hi⟩ hacquires

/-! ## Every run -/

/-- **Job exclusion.** From any rows, and for any runners of a job with any
batches, clock and calls for other jobs in between: no two of them are ever
running together, if and only if every acquisition is made before the end of
the lease of the runner that is running, and under another owner id. -/
theorem runners_exclusive_iff (jobName : String) (jobs : JobTable) (now : ℕ)
    (events : List (ι × RunnerAction)) :
    Throughout (Threads.step (runnerAct jobName)) Exclusive (runnersStart jobs now) events ↔
      Meets (Threads.step (runnerAct jobName)) RespectsLeases (runnersStart jobs now)
        events := by
  refine meets_iff_throughout_while (I := RunnersLinked jobName) ?_ ?_ ?_ ?_
  · intro t e hlinked hexcl hnext
    exact runnersLinked_step hlinked hexcl hnext
  · intro t e hlinked hexcl
    exact exclusive_step_iff hlinked hexcl
  · intro i handle leaseUntil hi
    cases hi
  · intro i j hi
    cases hi

end

/-! ## A batch that outlives its lease -/

section Sample

attribute [local instance] asciiPlatform

/-- One instance acquires a lease of 120 seconds and is still at its batch 121
seconds later, when another instance starts. -/
def slowBatch : List (Bool × RunnerAction) :=
  [(true, .begin "host:a" 120), (true, .acquire), (true, .advance (seconds 121)),
    (false, .begin "host:b" 120), (false, .acquire)]

def afterSlowBatch (jobName : String) : Runners Bool :=
  exec (Threads.step (runnerAct jobName)) (runnersStart ∅ 0) slowBatch

/-- **Both instances are at work**, for either job. -/
theorem batch_outlives_lease :
    ¬ Exclusive (afterSlowBatch refreshTokenKeepaliveJob) ∧
      ¬ Exclusive (afterSlowBatch proxyHealthProbeJob) := by
  constructor
  · intro h
    have hsame : true = false := h true false (by decide +kernel) (by decide +kernel)
    cases hsame
  · intro h
    have hsame : true = false := h true false (by decide +kernel) (by decide +kernel)
    cases hsame

end Sample

end MailboxService
