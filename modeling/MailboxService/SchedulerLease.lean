import MailboxService.Models
import MailboxService.Foundation.Run

/-!
# Scheduler leases

`scheduler_lease_repository.py`: instances of the service compete for the jobs
that only one of them may run. A job has one row, with its owner, the time its
lease runs out and a fencing token; a handle is what an owner was given. Every
call is one transaction.

The token moves exactly when the owner does, so a handle whose token the row
has passed is refused for good.
-/

namespace MailboxService

open Foundation

/-- `scheduled_job_leases`. -/
structure ScheduledJobLease where
  jobName : String
  ownerId : String
  leaseUntil : ℕ
  fencingToken : ℕ := 1
  updatedAt : ℕ
  deriving DecidableEq, Repr

structure JobLeaseHandle where
  jobName : String
  ownerId : String
  fencingToken : ℕ
  deriving DecidableEq, Repr

def ScheduledJobLease.acquire (lease : ScheduledJobLease) (now : ℕ) (ownerId : String)
    (leaseSeconds : ℕ) : ScheduledJobLease :=
  { lease with
    fencingToken :=
      if lease.ownerId ≠ ownerId then lease.fencingToken + 1 else lease.fencingToken
    ownerId
    leaseUntil := now + seconds leaseSeconds
    updatedAt := now }

def ScheduledJobLease.until (lease : ScheduledJobLease) (now leaseUntil : ℕ) :
    ScheduledJobLease :=
  { lease with leaseUntil, updatedAt := now }

def JobLeaseHandle.current (handle : JobLeaseHandle) (lease : ScheduledJobLease) : Bool :=
  lease.ownerId = handle.ownerId && lease.fencingToken = handle.fencingToken

/-- What a call may make of the row of a job. -/
structure TokenKept (row row' : ScheduledJobLease) : Prop where
  token_le : row.fencingToken ≤ row'.fencingToken
  token_lt : row'.ownerId ≠ row.ownerId → row.fencingToken < row'.fencingToken

theorem tokenKept_refl (row : ScheduledJobLease) : TokenKept row row :=
  ⟨Nat.le_refl _, fun hne => absurd rfl hne⟩

theorem tokenKept_until (row : ScheduledJobLease) (now leaseUntil : ℕ) :
    TokenKept row (row.until now leaseUntil) :=
  ⟨Nat.le_refl _, fun hne => absurd rfl hne⟩

theorem tokenKept_acquire (row : ScheduledJobLease) (now : ℕ) (ownerId : String)
    (leaseSeconds : ℕ) : TokenKept row (row.acquire now ownerId leaseSeconds) := by
  constructor
  · unfold ScheduledJobLease.acquire
    dsimp only
    split
    · exact Nat.le_succ _
    · exact Nat.le_refl _
  · intro hne
    have hne' : row.ownerId ≠ ownerId := Ne.symm hne
    unfold ScheduledJobLease.acquire
    rw [if_pos hne']
    exact Nat.lt_succ_self _

section

variable [Collation]

/-- The primary key is a text, which the collation compares. -/
def scheduledJobSchema : Schema ScheduledJobLease String :=
  .keyed fun lease => Collation.key lease.jobName

theorem acquire_keeps (now : ℕ) (ownerId : String) (leaseSeconds : ℕ) :
    scheduledJobSchema.Keeps fun lease => lease.acquire now ownerId leaseSeconds :=
  Schema.keyed_keeps fun _ => rfl

theorem until_keeps (now leaseUntil : ℕ) :
    scheduledJobSchema.Keeps fun lease => lease.until now leaseUntil :=
  Schema.keyed_keeps fun _ => rfl

abbrev JobTable := Table scheduledJobSchema

def JobTable.job? (jobs : JobTable) (jobName : String) : Option ScheduledJobLease :=
  jobs.get? (Collation.key jobName)

def JobTable.writeJob (jobs : JobTable) (jobName : String)
    (f : ScheduledJobLease → ScheduledJobLease) (hf : scheduledJobSchema.Keeps f) :
    JobTable :=
  jobs.updateWhere
    (Table.whereKey scheduledJobSchema (Collation.key jobName) fun _ => true) f hf

/-- `try_acquire`: become the owner, unless another owner's lease is alive. -/
def tryAcquire (jobs : JobTable) (now : ℕ) (jobName ownerId : String) (leaseSeconds : ℕ) :
    Option JobLeaseHandle × JobTable :=
  match jobs.job? jobName with
  | none =>
      match jobs.insert?
          { jobName, ownerId, leaseUntil := now + seconds leaseSeconds, updatedAt := now } with
      | none => (none, jobs)
      | some jobs' => (some ⟨jobName, ownerId, 1⟩, jobs')
  | some lease =>
      if !isExpired lease.leaseUntil now ∧ lease.ownerId ≠ ownerId then (none, jobs)
      else
        (some ⟨jobName, ownerId, (lease.acquire now ownerId leaseSeconds).fencingToken⟩,
          jobs.writeJob jobName (fun l => l.acquire now ownerId leaseSeconds)
            (acquire_keeps now ownerId leaseSeconds))

/-- `renew`: extend the lease if the handle is current. -/
def renew (jobs : JobTable) (now : ℕ) (handle : JobLeaseHandle) (leaseSeconds : ℕ) :
    Bool × JobTable :=
  match jobs.job? handle.jobName with
  | none => (false, jobs)
  | some lease =>
      if handle.current lease then
        (true, jobs.writeJob handle.jobName
          (fun l => l.until now (now + seconds leaseSeconds)) (until_keeps now _))
      else (false, jobs)

/-- `release`: end the lease if the handle is current; the row keeps its owner. -/
def release (jobs : JobTable) (now : ℕ) (handle : JobLeaseHandle) : JobTable :=
  match jobs.job? handle.jobName with
  | none => jobs
  | some lease =>
      if handle.current lease then
        jobs.writeJob handle.jobName (fun l => l.until now now) (until_keeps now now)
      else jobs

/-! ## Runs -/

/-- The rows, the time, and the handles issued so far. -/
structure SchedulerState where
  jobs : JobTable
  now : ℕ
  issued : List JobLeaseHandle

inductive SchedulerCall where
  | tryAcquire (jobName ownerId : String) (leaseSeconds : ℕ)
  | renew (handle : JobLeaseHandle) (leaseSeconds : ℕ)
  | release (handle : JobLeaseHandle)
  | advance (microseconds : ℕ)
  deriving DecidableEq, Repr

def schedulerStep (s : SchedulerState) : SchedulerCall → SchedulerState
  | .tryAcquire jobName ownerId leaseSeconds =>
      let (handle, jobs) := tryAcquire s.jobs s.now jobName ownerId leaseSeconds
      { s with jobs, issued := handle.toList ++ s.issued }
  | .renew handle leaseSeconds =>
      { s with jobs := (renew s.jobs s.now handle leaseSeconds).2 }
  | .release handle => { s with jobs := release s.jobs s.now handle }
  | .advance microseconds => { s with now := s.now + microseconds }

structure SchedulerCallSafe (s : SchedulerState) (call : SchedulerCall) : Prop where
  /-- A row stays, its token never decreases, and a new owner has a higher one. -/
  token : ∀ jobName row, s.jobs.job? jobName = some row →
    ∃ row', (schedulerStep s call).jobs.job? jobName = some row' ∧
      row.fencingToken ≤ row'.fencingToken ∧
      (row'.ownerId ≠ row.ownerId → row.fencingToken < row'.fencingToken)
  /-- A lease is taken from another owner only when it has expired. -/
  takeover : ∀ jobName ownerId leaseSeconds handle jobs' row,
    call = .tryAcquire jobName ownerId leaseSeconds →
    tryAcquire s.jobs s.now jobName ownerId leaseSeconds = (some handle, jobs') →
    s.jobs.job? jobName = some row → row.ownerId ≠ ownerId →
    isExpired row.leaseUntil s.now = true

def PassesOn (s : SchedulerState) (call : SchedulerCall) (jobName : String) : Prop :=
  ∃ row row', s.jobs.job? jobName = some row ∧
    (schedulerStep s call).jobs.job? jobName = some row' ∧ row'.ownerId ≠ row.ownerId

/-- No call with the handle does anything. -/
def Refused (s : SchedulerState) (handle : JobLeaseHandle) : Prop :=
  (∀ leaseSeconds, renew s.jobs s.now handle leaseSeconds = (false, s.jobs)) ∧
    release s.jobs s.now handle = s.jobs

/-! ## What a call does to a row -/

theorem job?_writeJob {jobs : JobTable} {jobName k : String}
    {f : ScheduledJobLease → ScheduledJobLease} (hf : scheduledJobSchema.Keeps f)
    {row : ScheduledJobLease}
    (h : jobs.job? k = some row) :
    (jobs.writeJob jobName f hf).job? k =
      some (if Collation.key k = Collation.key jobName then f row else row) := by
  unfold JobTable.job? JobTable.writeJob at *
  split
  · rename_i hk
    rw [hk] at h ⊢
    rw [Table.get?_updateWhere_key, h]
    rfl
  · rename_i hk
    rw [Table.get?_updateWhere_ne hk, h]

theorem writeJob_tokenKept {jobs : JobTable} {jobName k : String}
    {f : ScheduledJobLease → ScheduledJobLease} (hf : scheduledJobSchema.Keeps f)
    {row : ScheduledJobLease}
    (h : jobs.job? k = some row) (hkept : ∀ row, TokenKept row (f row)) :
    ∃ row', (jobs.writeJob jobName f hf).job? k = some row' ∧ TokenKept row row' := by
  refine ⟨_, job?_writeJob hf h, ?_⟩
  split
  · exact hkept row
  · exact tokenKept_refl row

/-- **Call lemma**: every call keeps every row, with its token. -/
theorem schedulerStep_tokenKept (s : SchedulerState) (call : SchedulerCall)
    {jobName : String} {row : ScheduledJobLease} (h : s.jobs.job? jobName = some row) :
    ∃ row', (schedulerStep s call).jobs.job? jobName = some row' ∧ TokenKept row row' := by
  have hsame : ∃ row', s.jobs.job? jobName = some row' ∧ TokenKept row row' :=
    ⟨row, h, tokenKept_refl row⟩
  cases call with
  | tryAcquire job ownerId leaseSeconds =>
      show ∃ row', (tryAcquire s.jobs s.now job ownerId leaseSeconds).2.job? jobName =
        some row' ∧ _
      unfold tryAcquire
      split
      · rename_i hnone
        split
        · exact hsame
        · rename_i jobs' hins
          refine ⟨row, ?_, tokenKept_refl row⟩
          unfold JobTable.job? at *
          rw [Table.get?_insert? hins]
          split
          · rename_i hk
            -- the key is free, so the new row is not the one of this job
            have hk' : Collation.key job = Collation.key jobName := hk
            rw [hk', h] at hnone
            cases hnone
          · exact h
      · split
        · exact hsame
        · exact writeJob_tokenKept (acquire_keeps _ _ _) h fun row => tokenKept_acquire row _ _ _
  | renew handle leaseSeconds =>
      show ∃ row', (renew s.jobs s.now handle leaseSeconds).2.job? jobName = some row' ∧ _
      unfold renew
      split
      · exact hsame
      · split
        · exact writeJob_tokenKept (until_keeps _ _) h fun row => tokenKept_until row _ _
        · exact hsame
  | release handle =>
      show ∃ row', (release s.jobs s.now handle).job? jobName = some row' ∧ _
      unfold release
      split
      · exact hsame
      · split
        · exact writeJob_tokenKept (until_keeps _ _) h fun row => tokenKept_until row _ _
        · exact hsame
  | advance microseconds => exact hsame

theorem tryAcquire_ok {jobs jobs' : JobTable} {now : ℕ} {jobName ownerId : String}
    {leaseSeconds : ℕ} {handle : JobLeaseHandle}
    (h : tryAcquire jobs now jobName ownerId leaseSeconds = (some handle, jobs')) :
    (∀ row, jobs.job? jobName = some row → row.ownerId ≠ ownerId →
      isExpired row.leaseUntil now = true) ∧
    ∃ row', jobs'.job? handle.jobName = some row' ∧ handle.current row' = true := by
  unfold tryAcquire at h
  split at h
  · rename_i hnone
    split at h
    · cases h
    · rename_i jobs₁ hins
      cases h
      constructor
      · intro row hrow
        rw [hnone] at hrow
        cases hrow
      · refine ⟨⟨jobName, ownerId, now + seconds leaseSeconds, 1, now⟩, ?_, ?_⟩
        · show jobs'.get? (Collation.key jobName) = _
          rw [Table.get?_insert? hins]
          exact if_pos rfl
        · simp [JobLeaseHandle.current]
  · rename_i lease hlease
    split at h
    · cases h
    · rename_i hlive
      cases h
      constructor
      · intro row hrow hne
        rw [hlease] at hrow
        cases hrow
        by_contra hexpired
        rw [Bool.not_eq_true] at hexpired
        exact hlive ⟨by rw [hexpired]; rfl, hne⟩
      · refine ⟨_, job?_writeJob (acquire_keeps _ _ _) hlease, ?_⟩
        rw [if_pos rfl]
        simp [JobLeaseHandle.current, ScheduledJobLease.acquire]

theorem schedulerCallSafe (s : SchedulerState) (call : SchedulerCall) :
    SchedulerCallSafe s call := by
  constructor
  · intro jobName row hrow
    obtain ⟨row', hrow', hkept⟩ := schedulerStep_tokenKept s call hrow
    exact ⟨row', hrow', hkept.token_le, hkept.token_lt⟩
  · rintro jobName ownerId leaseSeconds handle jobs' row rfl hacquire hrow hne
    exact (tryAcquire_ok hacquire).1 row hrow hne

/-! ## Handles -/

/-- The row has reached the handle's token, with the handle's owner if it has
not passed it. -/
def Issued (s : SchedulerState) (handle : JobLeaseHandle) : Prop :=
  ∃ row, s.jobs.job? handle.jobName = some row ∧
    handle.fencingToken ≤ row.fencingToken ∧
    (handle.fencingToken = row.fencingToken → handle.ownerId = row.ownerId)

/-- The row has passed the handle's token. -/
def Outdated (s : SchedulerState) (handle : JobLeaseHandle) : Prop :=
  ∃ row, s.jobs.job? handle.jobName = some row ∧ handle.fencingToken < row.fencingToken

theorem Issued.step {s : SchedulerState} {handle : JobLeaseHandle} (h : Issued s handle)
    (call : SchedulerCall) : Issued (schedulerStep s call) handle := by
  obtain ⟨row, hrow, hle, howner⟩ := h
  obtain ⟨row', hrow', hkept⟩ := schedulerStep_tokenKept s call hrow
  refine ⟨row', hrow', Nat.le_trans hle hkept.token_le, ?_⟩
  intro heq
  have hsame : handle.fencingToken = row.fencingToken :=
    Nat.le_antisymm hle (heq ▸ hkept.token_le)
  by_contra hne
  have hlt := hkept.token_lt fun h => hne ((howner hsame).trans h.symm)
  omega

theorem Outdated.step {s : SchedulerState} {handle : JobLeaseHandle} (h : Outdated s handle)
    (call : SchedulerCall) : Outdated (schedulerStep s call) handle := by
  obtain ⟨row, hrow, hlt⟩ := h
  obtain ⟨row', hrow', hkept⟩ := schedulerStep_tokenKept s call hrow
  exact ⟨row', hrow', Nat.lt_of_lt_of_le hlt hkept.token_le⟩

theorem Outdated.refused {s : SchedulerState} {handle : JobLeaseHandle}
    (h : Outdated s handle) : Refused s handle := by
  obtain ⟨row, hrow, hlt⟩ := h
  have hnot : handle.current row = false := by
    unfold JobLeaseHandle.current
    rw [Bool.and_eq_false_iff]
    exact Or.inr (decide_eq_false (Nat.ne_of_gt hlt))
  constructor
  · intro leaseSeconds
    unfold renew
    rw [hrow]
    simp only [hnot, Bool.false_eq_true, if_false]
  · unfold release
    rw [hrow]
    simp only [hnot, Bool.false_eq_true, if_false]

theorem Issued.outdated {s : SchedulerState} {handle : JobLeaseHandle} (h : Issued s handle)
    {call : SchedulerCall} (hpass : PassesOn s call handle.jobName) :
    Outdated (schedulerStep s call) handle := by
  obtain ⟨row, hrow, hle, -⟩ := h
  obtain ⟨row₁, row', hrow₁, hrow', hne⟩ := hpass
  obtain ⟨row₂, hrow₂, hkept⟩ := schedulerStep_tokenKept s call hrow
  rw [hrow] at hrow₁
  rw [hrow'] at hrow₂
  cases hrow₁
  cases hrow₂
  exact ⟨row', hrow', Nat.lt_of_le_of_lt hle (hkept.token_lt hne)⟩

/-- Every handle stays issued, the new one included. -/
theorem issued_step (s : SchedulerState) (call : SchedulerCall)
    (h : ∀ handle ∈ s.issued, Issued s handle) :
    ∀ handle ∈ (schedulerStep s call).issued, Issued (schedulerStep s call) handle := by
  intro handle hmem
  cases call with
  | tryAcquire jobName ownerId leaseSeconds =>
      rcases hrun : tryAcquire s.jobs s.now jobName ownerId leaseSeconds with ⟨granted, jobs'⟩
      have hstep : schedulerStep s (.tryAcquire jobName ownerId leaseSeconds) =
          { s with jobs := jobs', issued := granted.toList ++ s.issued } := by
        simp only [schedulerStep, hrun]
      have hmem' : handle ∈ granted.toList ++ s.issued := by
        rw [hstep] at hmem
        exact hmem
      rcases List.mem_append.mp hmem' with hnew | hold
      · rw [Option.mem_toList] at hnew
        cases hnew
        obtain ⟨-, row', hrow', hcurrent⟩ := tryAcquire_ok hrun
        unfold JobLeaseHandle.current at hcurrent
        rw [Bool.and_eq_true, decide_eq_true_eq, decide_eq_true_eq] at hcurrent
        rw [hstep]
        exact ⟨row', hrow', Nat.le_of_eq hcurrent.2.symm, fun _ => hcurrent.1.symm⟩
      · exact (h handle hold).step _
  | renew handle' leaseSeconds => exact (h handle hmem).step _
  | release handle' => exact (h handle hmem).step _
  | advance microseconds => exact (h handle hmem).step _

/-- **Fencing theorem**: from any rows, in every run, tokens only grow, and
grow with every change of owner; a lease is taken over only when it has
expired; and once a job has been passed on, no handle issued for it before
ever renews or releases it again. -/
theorem scheduler_fenced (jobs : JobTable) (now : ℕ) (calls : List SchedulerCall) :
    Meets schedulerStep SchedulerCallSafe ⟨jobs, now, []⟩ calls ∧
      ∀ pre call mid post, calls = pre ++ call :: (mid ++ post) →
        ∀ handle ∈ (exec schedulerStep ⟨jobs, now, []⟩ pre).issued,
          PassesOn (exec schedulerStep ⟨jobs, now, []⟩ pre) call handle.jobName →
          Refused (exec schedulerStep ⟨jobs, now, []⟩ (pre ++ call :: mid)) handle := by
  refine ⟨meets_of_forall schedulerCallSafe _ _, ?_⟩
  intro pre call mid _ _ handle hmem hpass
  have hissued : ∀ handle ∈ (exec schedulerStep ⟨jobs, now, []⟩ pre).issued,
      Issued (exec schedulerStep ⟨jobs, now, []⟩ pre) handle := by
    apply exec_invariant issued_step
    intro handle hnone
    exact absurd hnone List.not_mem_nil
  rw [exec_append, exec_cons]
  have houtdated := (hissued handle hmem).outdated hpass
  have hstable : ∀ s call, Outdated s handle → Outdated (schedulerStep s call) handle :=
    fun s call h => h.step call
  exact (exec_invariant hstable houtdated mid).refused

end

end MailboxService
