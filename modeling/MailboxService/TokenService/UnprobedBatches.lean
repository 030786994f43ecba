import MailboxService.Ascii
import MailboxService.Foundation.Dict
import MailboxService.Foundation.Permits
import MailboxService.LeaseService.AccessTokenLeases
import MailboxService.ProxyService.Resolution
import MailboxService.TokenService.Keepalive

/-!
# Batches of unprobed mailboxes

`refresh_unprobed_or_unknown_access_tokens`: an administrator has the tokens of the
mailboxes refreshed whose capability is not known, a batch at a time. A batch has a
pool of worker threads, as many as there are proxies to go through, and all batches
of the process share one semaphore.

`batches_safe` says what holds however the workers of any number of batches take
turns: no permit is lost, each worker's result is reported for its own mailbox, and
every batch can come to its end without the others.
-/

namespace MailboxService

open Foundation

/-! ## Data -/

structure BatchSettings where
  batchMaxWorkers : ℕ
  databasePoolSize : ℕ
  databaseMaxOverflow : ℕ
  batchMaxWorkers_pos : 1 ≤ batchMaxWorkers

def BatchSettings.databaseWorkerBudget (settings : BatchSettings) : ℕ :=
  max 1 (min settings.batchMaxWorkers
    (settings.databasePoolSize + settings.databaseMaxOverflow - 4))

structure MailboxAccessTokenRefreshItem where
  mailboxId : String
  primaryEmail : Option String
  successful : Bool
  refreshed : Bool
  refreshTokenRotated : Bool
  accessTokenExpiresAt : Option ℕ
  errorSummary : Option String := none
  deriving DecidableEq, Repr

structure MailboxUnprobedRefreshResult where
  candidateTotal : ℕ
  processed : ℕ
  successful : ℕ
  failed : ℕ
  remainingCandidates : ℕ
  batchSize : ℕ
  workerCount : ℕ
  results : List MailboxAccessTokenRefreshItem
  deriving DecidableEq, Repr

inductive BatchError where
  | crashed (errorSummary : String)
  | key
  deriving DecidableEq, Repr

def failedItem (mailboxId : String) (primaryEmail : Option String) (errorSummary : String) :
    MailboxAccessTokenRefreshItem where
  mailboxId := mailboxId
  primaryEmail := primaryEmail
  successful := false
  refreshed := false
  refreshTokenRotated := false
  accessTokenExpiresAt := none
  errorSummary := some errorSummary

/-- What `_refresh_single_mailbox_in_worker_session` comes to: a token, an error that
it has handled, or one that it has not. -/
inductive WorkerOutcome where
  | refreshed (result : MailboxAccessTokenResult)
  | failed (primaryEmail : Option String) (errorSummary : String)
  | crashed (errorSummary : String)
  deriving DecidableEq, Repr

inductive TaskOutcome where
  | exhausted
  | worked (outcome : WorkerOutcome)
  deriving DecidableEq, Repr

/-- `_refresh_with_global_budget`. -/
def TaskOutcome.item (mailboxId : String) :
    TaskOutcome → Except String MailboxAccessTokenRefreshItem
  | .exhausted => .ok (failedItem mailboxId none "batch concurrency budget exhausted")
  | .worked (.refreshed result) =>
      .ok
        { mailboxId := result.mailboxId
          primaryEmail := some result.primaryEmail
          successful := true
          refreshed := result.refreshed
          refreshTokenRotated := result.refreshTokenRotated
          accessTokenExpiresAt := some result.expiresAt }
  | .worked (.failed primaryEmail errorSummary) =>
      .ok (failedItem mailboxId primaryEmail errorSummary)
  | .worked (.crashed errorSummary) => .error errorSummary

/-- Before its turn, waiting for a permit, with a permit, and at its end; the main
thread collects what has ended. -/
inductive TaskState where
  | queued
  | waiting
  | working
  | finished (outcome : TaskOutcome)
  | collected (outcome : TaskOutcome)
  deriving DecidableEq, Repr

namespace TaskState

def busy : TaskState → Bool
  | .waiting | .working => true
  | .queued | .finished _ | .collected _ => false

/-- Begun, but not collected. -/
def inProgress : TaskState → Bool
  | .waiting | .working | .finished _ => true
  | .queued | .collected _ => false

def isCollected : TaskState → Bool
  | .collected _ => true
  | .queued | .waiting | .working | .finished _ => false

end TaskState

structure BatchTask where
  mailboxId : String
  state : TaskState
  deriving DecidableEq, Repr

structure UnprobedBatch where
  candidateTotal : ℕ
  availableProxyCount : ℕ
  batchSize : ℕ
  workerCount : ℕ
  tasks : List BatchTask
  results : Dict String MailboxAccessTokenRefreshItem := ∅
  report : Option (Except BatchError MailboxUnprobedRefreshResult) := none

/-! ## The choice of a batch -/

section

variable [Platform]

/-- The mailboxes of `_unprobed_or_unknown_capability_filter`. -/
def Database.unprobedOrUnknown (db : Database) : List Mailbox :=
  db.mailboxes.select fun m =>
    m.status = .active && m.clientId.isSome && m.refreshTokenCiphertext.isSome &&
      sqlEq m.providerType defaultProviderType &&
      (m.capability.isNone || m.capability = some .unknown)

def Mailbox.unprobedRank (m : Mailbox) : ℕ ×ₗ String :=
  toLex (m.createdAt, Collation.key m.primaryEmail)

/-- `list_unprobed_or_unknown_mailbox_ids`. -/
def Database.listUnprobedOrUnknown (db : Database) (batchSize : ℕ) : List String :=
  (firstRanked Mailbox.unprobedRank batchSize db.unprobedOrUnknown).map Mailbox.id

/-- `count_available_egress_proxies`. -/
def ProxyPool.countAvailable (pool : ProxyPool) (policy : ProxyPolicy) (now : ℕ) : ℕ :=
  if policy.enabled = false then 1
  else
    let availableProxyCount := pool.proxies.rowcount fun p =>
      p.enabled && policy.allowedProtocols.contains p.protocol.value &&
        (p.status != .cooldown || p.cooldownUntil.all (· ≤ now))
    if 0 < availableProxyCount then availableProxyCount else 1

def BatchSettings.workerCount (settings : BatchSettings) (availableProxyCount itemCount : ℕ) :
    ℕ :=
  max 1 (min (min settings.batchMaxWorkers availableProxyCount)
    (min settings.databaseWorkerBudget itemCount))

/-- `refresh_unprobed_or_unknown_access_tokens` up to the start of its pool. It counts
the candidates, and lists them after that. -/
def BatchSettings.openBatch (settings : BatchSettings) (counted listed : Database)
    (pool : ProxyPool) (policy : ProxyPolicy) (now batchSize : ℕ) : UnprobedBatch :=
  let boundedBatchSize := max 1 (min batchSize 5000)
  let candidateTotal := counted.unprobedOrUnknown.length
  let targetMailboxIds := listed.listUnprobedOrUnknown boundedBatchSize
  let availableProxyCount := pool.countAvailable policy now
  let itemCount := if targetMailboxIds = [] then 1 else targetMailboxIds.length
  let workerCount := settings.workerCount availableProxyCount itemCount
  { candidateTotal
    availableProxyCount
    batchSize := boundedBatchSize
    workerCount
    tasks := targetMailboxIds.map fun mailboxId => { mailboxId, state := .queued }
    report :=
      if targetMailboxIds = [] then
        some (.ok
          { candidateTotal, processed := 0, successful := 0, failed := 0
            remainingCandidates := 0, batchSize := boundedBatchSize, workerCount, results := [] })
      else none }

end

/-! ## The pool -/

inductive BatchAction [Platform] where
  | open_ (counted listed : Database) (pool : ProxyPool) (policy : ProxyPolicy)
      (now batchSize : ℕ)
  | start (k : ℕ)
  | acquire (k : ℕ)
  /-- Half a minute has passed without a permit. -/
  | expire (k : ℕ)
  | finish (k : ℕ) (outcome : WorkerOutcome)
  | collect (k : ℕ)
  | conclude (db : Database)

namespace UnprobedBatch

/-- One worker, or one mailbox: the batch works in its own thread. -/
def Sequential (b : UnprobedBatch) : Prop := b.workerCount = 1 ∨ b.tasks.length ≤ 1

instance (b : UnprobedBatch) : Decidable b.Sequential := inferInstanceAs (Decidable (_ ∨ _))

def count (b : UnprobedBatch) (p : TaskState → Bool) : ℕ := b.tasks.countP fun task => p task.state

def inFlight (b : UnprobedBatch) : ℕ := b.count (· = .working)

/-- The threads take the tasks in their order. -/
def MayStart (b : UnprobedBatch) (k : ℕ) : Prop :=
  b.report = none ∧ (∀ task ∈ b.tasks.take k, task.state ≠ .queued) ∧
    if b.Sequential then b.count TaskState.inProgress = 0
    else b.count TaskState.busy < b.workerCount

instance (b : UnprobedBatch) (k : ℕ) : Decidable (b.MayStart k) :=
  inferInstanceAs (Decidable (_ ∧ _ ∧ _))

def put (b : UnprobedBatch) (k : ℕ) (task : BatchTask) (state : TaskState) : UnprobedBatch :=
  { b with tasks := b.tasks.set k { task with state } }

/-- An unhandled error ends a batch that works in its own thread; a pool reports it
for its mailbox. -/
def collect (b : UnprobedBatch) (k : ℕ) (task : BatchTask) (outcome : TaskOutcome) :
    UnprobedBatch :=
  let collected := b.put k task (.collected outcome)
  match outcome.item task.mailboxId with
  | .ok item => { collected with results := b.results.set task.mailboxId item }
  | .error errorSummary =>
      if b.Sequential then { collected with report := some (.error (.crashed errorSummary)) }
      else
        { collected with
          results := b.results.set task.mailboxId (failedItem task.mailboxId none errorSummary) }

def conclude (b : UnprobedBatch) (remainingCandidates : ℕ) :
    Except BatchError MailboxUnprobedRefreshResult :=
  match b.tasks.mapM fun task => b.results.lookup task.mailboxId with
  | none => .error .key
  | some results =>
      let successful := results.countP MailboxAccessTokenRefreshItem.successful
      .ok
        { candidateTotal := b.candidateTotal, processed := b.tasks.length, successful
          failed := results.length - successful, remainingCandidates
          batchSize := b.batchSize, workerCount := b.workerCount, results }

def act [Platform] (b : UnprobedBatch) (permits : ℕ) (a : BatchAction) : UnprobedBatch × ℕ :=
  match a with
  | .open_ _ _ _ _ _ _ => (b, permits)
  | .conclude db =>
      if b.report = none ∧ ∀ task ∈ b.tasks, task.state.isCollected = true then
        ({ b with report := some (b.conclude db.unprobedOrUnknown.length) }, permits)
      else (b, permits)
  | .start k =>
      match b.tasks[k]? with
      | none => (b, permits)
      | some task =>
          if task.state = .queued ∧ b.MayStart k then (b.put k task .waiting, permits)
          else (b, permits)
  | .acquire k =>
      match b.tasks[k]? with
      | none => (b, permits)
      | some task =>
          if task.state = .waiting ∧ 0 < permits then (b.put k task .working, permits - 1)
          else (b, permits)
  | .expire k =>
      match b.tasks[k]? with
      | none => (b, permits)
      | some task =>
          if task.state = .waiting then (b.put k task (.finished .exhausted), permits)
          else (b, permits)
  | .finish k outcome =>
      match b.tasks[k]? with
      | none => (b, permits)
      | some task =>
          if task.state = .working then
            (b.put k task (.finished (.worked outcome)), permits + 1)
          else (b, permits)
  | .collect k =>
      match b.tasks[k]? with
      | none => (b, permits)
      | some task =>
          match task.state with
          | .finished outcome => (b.collect k task outcome, permits)
          | _ => (b, permits)

end UnprobedBatch

/-- One step of a batch, or its beginning; the shared state is the semaphore. -/
def batchAct [Platform] (settings : BatchSettings) (permits : ℕ) (x : Option UnprobedBatch)
    (a : BatchAction) : Option UnprobedBatch × ℕ :=
  match x, a with
  | none, .open_ counted listed pool policy now batchSize =>
      (some (settings.openBatch counted listed pool policy now batchSize), permits)
  | none, _ => (none, permits)
  | some b, a =>
      let next := b.act permits a
      (some next.1, next.2)

/-! ## What holds of the batches -/

def TaskOutcome.reported (mailboxId : String) (outcome : TaskOutcome) :
    MailboxAccessTokenRefreshItem :=
  match outcome.item mailboxId with
  | .ok item => item
  | .error errorSummary => failedItem mailboxId none errorSummary

def BatchTask.item? (task : BatchTask) : Option MailboxAccessTokenRefreshItem :=
  match task.state with
  | .collected outcome => some (outcome.reported task.mailboxId)
  | .queued | .waiting | .working | .finished _ => none

/-- **A truthful report**: the outcome of each task in the order of the mailboxes, and
their number. Only a batch that works in its own thread can fail, by an error that
its last worker has not handled. -/
def UnprobedBatch.Reports (b : UnprobedBatch) :
    Except BatchError MailboxUnprobedRefreshResult → Prop
  | .ok result =>
      b.tasks.map BatchTask.item? = result.results.map some ∧
        result.processed = result.results.length ∧
        result.processed ≤ result.batchSize ∧
        result.successful = result.results.countP MailboxAccessTokenRefreshItem.successful ∧
        result.successful + result.failed = result.processed
  | .error (.crashed errorSummary) =>
      b.Sequential ∧ b.count TaskState.inProgress = 0 ∧
        ∃ task ∈ b.tasks, task.state = .collected (.worked (.crashed errorSummary))
  | .error .key => False

/-- No more workers than there are proxies to go through, or the settings allow. -/
structure UnprobedBatch.WorkersFit (b : UnprobedBatch) (settings : BatchSettings) : Prop where
  positive : 1 ≤ b.workerCount
  proxies : b.workerCount ≤ b.availableProxyCount
  configured : b.workerCount ≤ settings.batchMaxWorkers
  database : b.workerCount ≤ settings.databaseWorkerBudget
  busy : b.count TaskState.busy ≤ b.workerCount

def permitsHeld (x : Option UnprobedBatch) : ℕ := x.elim 0 UnprobedBatch.inFlight

/-- **Safe batches**: the permits are the ones in the semaphore and the ones with the
workers; no batch has more workers than it may; reports are truthful; and a batch
can come to its end by steps of its own. -/
structure BatchesSafe [Platform] {ι : Type*} [DecidableEq ι] (settings : BatchSettings)
    (requests : Finset ι) (t : Threads ι (Option UnprobedBatch) ℕ) : Prop where
  permits : t.shared + t.total permitsHeld requests = settings.batchMaxWorkers
  workers : ∀ i b, t.held i = some b → b.WorkersFit settings
  distinct : ∀ i b, t.held i = some b → (b.tasks.map BatchTask.mailboxId).Nodup
  reports : ∀ i b report, t.held i = some b → b.report = some report → b.Reports report
  completes : ∀ i b, t.held i = some b →
    ∃ later : List (ι × BatchAction), (∀ e ∈ later, e.1 = i) ∧
      ∃ b' report, (exec (Threads.step (batchAct settings)) t later).held i = some b' ∧
        b'.report = some report

/-! ## Steps of one batch -/

variable {b : UnprobedBatch} {permits k : ℕ} {task : BatchTask}

/-- What an action may do to a batch and to the semaphore. -/
inductive UnprobedBatch.Step (b : UnprobedBatch) (permits : ℕ) : UnprobedBatch → ℕ → Prop
  | stay : Step b permits b permits
  | start (k : ℕ) (task : BatchTask) (htask : b.tasks[k]? = some task)
      (hstate : task.state = .queued) (hmay : b.MayStart k) :
      Step b permits (b.put k task .waiting) permits
  | acquire (k : ℕ) (task : BatchTask) (htask : b.tasks[k]? = some task)
      (hstate : task.state = .waiting) (hpermit : 0 < permits) :
      Step b permits (b.put k task .working) (permits - 1)
  | expire (k : ℕ) (task : BatchTask) (htask : b.tasks[k]? = some task)
      (hstate : task.state = .waiting) :
      Step b permits (b.put k task (.finished .exhausted)) permits
  | finish (k : ℕ) (task : BatchTask) (htask : b.tasks[k]? = some task)
      (hstate : task.state = .working) (outcome : WorkerOutcome) :
      Step b permits (b.put k task (.finished (.worked outcome))) (permits + 1)
  | collect (k : ℕ) (task : BatchTask) (outcome : TaskOutcome)
      (htask : b.tasks[k]? = some task) (hstate : task.state = .finished outcome) :
      Step b permits (b.collect k task outcome) permits
  | conclude (remainingCandidates : ℕ) (hopen : b.report = none)
      (hall : ∀ task ∈ b.tasks, task.state.isCollected = true) :
      Step b permits { b with report := some (b.conclude remainingCandidates) } permits

/-- **Inversion.** -/
theorem UnprobedBatch.act_step [Platform] (b : UnprobedBatch) (permits : ℕ) (a : BatchAction) :
    b.Step permits (b.act permits a).1 (b.act permits a).2 := by
  cases a with
  | open_ counted listed pool policy now batchSize => exact .stay
  | conclude db =>
      simp only [act]
      split
      · rename_i h
        exact .conclude _ h.1 h.2
      · exact .stay
  | start k =>
      simp only [act]
      split
      · exact .stay
      · rename_i task htask
        split
        · rename_i h
          exact .start k task htask h.1 h.2
        · exact .stay
  | acquire k =>
      simp only [act]
      split
      · exact .stay
      · rename_i task htask
        split
        · rename_i h
          exact .acquire k task htask h.1 h.2
        · exact .stay
  | expire k =>
      simp only [act]
      split
      · exact .stay
      · rename_i task htask
        split
        · rename_i h
          exact .expire k task htask h
        · exact .stay
  | finish k outcome =>
      simp only [act]
      split
      · exact .stay
      · rename_i task htask
        split
        · rename_i h
          exact .finish k task htask h outcome
        · exact .stay
  | collect k =>
      simp only [act]
      split
      · exact .stay
      · rename_i task htask
        split
        · rename_i outcome h
          exact .collect k task outcome htask h
        · exact .stay

namespace UnprobedBatch

theorem count_put (htask : b.tasks[k]? = some task) (state : TaskState) (p : TaskState → Bool) :
    (b.put k task state).count p + (if p task.state then 1 else 0) =
      b.count p + (if p state then 1 else 0) := by
  obtain ⟨hk, hget⟩ := List.getElem?_eq_some_iff.mp htask
  have hpos : (if p task.state then 1 else 0) ≤ b.count p := by
    split
    · rename_i h
      exact List.countP_pos_iff.mpr ⟨task, List.mem_of_getElem? htask, h⟩
    · exact Nat.zero_le _
  have hcount : (b.put k task state).count p =
      b.count p - (if p task.state then 1 else 0) + (if p state then 1 else 0) := by
    show (b.tasks.set k { task with state }).countP _ = _
    rw [List.countP_set hk, hget]
    rfl
  rw [hcount, Nat.add_right_comm, Nat.sub_add_cancel hpos]

theorem mailboxIds_put (htask : b.tasks[k]? = some task) (state : TaskState) :
    (b.put k task state).tasks.map BatchTask.mailboxId = b.tasks.map BatchTask.mailboxId := by
  obtain ⟨hk, hget⟩ := List.getElem?_eq_some_iff.mp htask
  have hown : (b.tasks.set k task).map BatchTask.mailboxId = b.tasks.map BatchTask.mailboxId := by
    rw [← hget, List.set_getElem_self]
  rw [← hown, List.map_set]
  exact List.map_set

theorem tasks_collect (outcome : TaskOutcome) :
    (b.collect k task outcome).tasks = (b.put k task (.collected outcome)).tasks := by
  unfold collect
  split
  · rfl
  · split <;> rfl

theorem count_collect (outcome : TaskOutcome) (p : TaskState → Bool) :
    (b.collect k task outcome).count p = (b.put k task (.collected outcome)).count p := by
  unfold count
  rw [tasks_collect]

theorem length_put (state : TaskState) : (b.put k task state).tasks.length = b.tasks.length :=
  List.length_set

theorem mem_put (hnodup : (b.tasks.map BatchTask.mailboxId).Nodup) (htask : b.tasks[k]? = some task)
    {state : TaskState} {t : BatchTask} (ht : t ∈ (b.put k task state).tasks) :
    t = { task with state } ∨ t ∈ b.tasks ∧ t.mailboxId ≠ task.mailboxId := by
  obtain ⟨hk, hget⟩ := List.getElem?_eq_some_iff.mp htask
  obtain ⟨j, hj, rfl⟩ := List.getElem_of_mem ht
  have hj' : j < b.tasks.length := by rwa [length_put] at hj
  by_cases hkj : k = j
  · subst hkj
    exact Or.inl (List.getElem_set_self hj)
  · have hother : (b.put k task state).tasks[j] = b.tasks[j] := List.getElem_set_ne hkj hj
    rw [hother]
    refine Or.inr ⟨List.getElem_mem hj', fun hsame => hkj ?_⟩
    rw [← hget] at hsame
    have hids : (b.tasks.map BatchTask.mailboxId)[k]? = (b.tasks.map BatchTask.mailboxId)[j]? := by
      simp only [List.getElem?_map, List.getElem?_eq_getElem hk, List.getElem?_eq_getElem hj',
        Option.map_some, hsame]
    exact (List.getElem?_inj (by rwa [List.length_map]) hnodup).mp hids

theorem collect_cases (b : UnprobedBatch) (k : ℕ) (task : BatchTask) (outcome : TaskOutcome) :
    b.collect k task outcome =
        { b.put k task (.collected outcome) with
          results := b.results.set task.mailboxId (outcome.reported task.mailboxId) } ∨
      ∃ errorSummary, outcome = .worked (.crashed errorSummary) ∧ b.Sequential ∧
        b.collect k task outcome =
          { b.put k task (.collected outcome) with
            report := some (.error (.crashed errorSummary)) } := by
  unfold collect TaskOutcome.reported
  split
  · exact Or.inl rfl
  · rename_i errorSummary hitem
    split
    · rename_i halone
      refine Or.inr ⟨errorSummary, ?_, halone, rfl⟩
      unfold TaskOutcome.item at hitem
      split at hitem
      · cases hitem
      · cases hitem
      · cases hitem
      · cases hitem
        rfl
    · exact Or.inl rfl

end UnprobedBatch

/-! ## The invariant of a batch -/

/-- Of every batch. As long as there is no report, the results are those of the tasks
at their end. -/
structure UnprobedBatchInv (settings : BatchSettings) (b : UnprobedBatch) : Prop where
  workers : b.WorkersFit settings
  distinct : (b.tasks.map BatchTask.mailboxId).Nodup
  bounded : b.tasks.length ≤ b.batchSize
  alone : b.Sequential → b.count TaskState.inProgress ≤ 1
  results : b.report = none → ∀ task ∈ b.tasks, b.results.lookup task.mailboxId = task.item?
  reports : ∀ report, b.report = some report → b.Reports report

variable {settings : BatchSettings}

theorem TaskState.inProgress_of_busy {state : TaskState} (h : state.busy = true) :
    state.inProgress = true := by
  cases state with
  | waiting | working => rfl
  | queued | finished outcome | collected outcome => cases h

theorem TaskState.isCollected_of_inProgress {state : TaskState} (h : state.inProgress = true) :
    state.isCollected = false := by
  cases state with
  | collected outcome => cases h
  | queued | waiting | working | finished outcome => rfl

@[simp] theorem BatchTask.isSome_item? (task : BatchTask) :
    task.item?.isSome = task.state.isCollected := by
  obtain ⟨mailboxId, state⟩ := task
  cases state <;> rfl

theorem exists_mapM {α β : Type*} {f : α → Option β} {l : List α}
    (h : ∀ a ∈ l, (f a).isSome = true) :
    ∃ l', l.mapM f = some l' ∧ l.map f = l'.map some := by
  induction l with
  | nil => exact ⟨[], rfl, rfl⟩
  | cons a l ih =>
      rw [List.forall_mem_cons] at h
      obtain ⟨b, hb⟩ := Option.isSome_iff_exists.mp h.1
      obtain ⟨l', hl', hmap⟩ := ih h.2
      refine ⟨b :: l', ?_, ?_⟩
      · rw [List.mapM_cons, hb, hl']
        rfl
      · rw [List.map_cons, List.map_cons, hb, hmap]

theorem UnprobedBatch.Reports.settled {report : Except BatchError MailboxUnprobedRefreshResult}
    (h : b.Reports report) : b.count TaskState.inProgress = 0 := by
  match report, h with
  | .error (.crashed _), h => exact h.2.1
  | .ok result, h =>
      refine List.countP_eq_zero.mpr fun task htask => ?_
      have hitem : task.item? ∈ result.results.map some := by
        rw [← h.1]
        exact List.mem_map_of_mem htask
      obtain ⟨item, -, hitem⟩ := List.mem_map.mp hitem
      have hcollected := task.isSome_item?
      rw [← hitem] at hcollected
      cases hstate : task.state with
      | collected outcome => exact Bool.false_ne_true
      | queued | waiting | working | finished outcome =>
          rw [hstate] at hcollected
          cases hcollected

/-- The workers of a batch stay as many as at first. -/
theorem UnprobedBatch.WorkersFit.congr {b' : UnprobedBatch} (h : b.WorkersFit settings)
    (hworkers : b'.workerCount = b.workerCount)
    (hproxies : b'.availableProxyCount = b.availableProxyCount)
    (hbusy : b'.count TaskState.busy ≤ b.workerCount) : b'.WorkersFit settings where
  positive := hworkers ▸ h.positive
  proxies := by
    rw [hworkers, hproxies]
    exact h.proxies
  configured := hworkers ▸ h.configured
  database := hworkers ▸ h.database
  busy := hbusy.trans_eq hworkers.symm

namespace UnprobedBatchInv

theorem unreported (h : UnprobedBatchInv settings b) (htask : b.tasks[k]? = some task)
    (hin : task.state.inProgress = true) : b.report = none := by
  cases hreport : b.report with
  | none => rfl
  | some report =>
      have hnone := List.countP_eq_zero.mp (h.reports report hreport).settled
      exact absurd hin (hnone task (List.mem_of_getElem? htask))

theorem put (h : UnprobedBatchInv settings b) (hopen : b.report = none)
    (htask : b.tasks[k]? = some task) {state : TaskState}
    (hold : task.state.isCollected = false) (hnew : state.isCollected = false)
    (hbusy : (b.put k task state).count TaskState.busy ≤ b.workerCount)
    (halone : b.Sequential → (b.put k task state).count TaskState.inProgress ≤ 1) :
    UnprobedBatchInv settings (b.put k task state) where
  workers := h.workers.congr rfl rfl hbusy
  distinct := by
    rw [UnprobedBatch.mailboxIds_put htask]
    exact h.distinct
  bounded := (UnprobedBatch.length_put state).trans_le h.bounded
  alone := by
    intro hseq
    unfold UnprobedBatch.Sequential at hseq
    rw [UnprobedBatch.length_put] at hseq
    exact halone hseq
  results := by
    intro _ t ht
    rcases UnprobedBatch.mem_put h.distinct htask ht with rfl | ⟨ht, -⟩
    · have hlookup := h.results hopen task (List.mem_of_getElem? htask)
      rw [← BatchTask.isSome_item?] at hold
      have hnone : ({ task with state } : BatchTask).item?.isSome = false :=
        (BatchTask.isSome_item? _).trans hnew
      rw [Option.isSome_eq_false_iff, Option.isNone_iff_eq_none] at hold hnone
      rw [hnone, ← hold]
      exact hlookup
    · exact h.results hopen t ht
  reports := by
    intro report hreport
    rw [show (b.put k task state).report = b.report from rfl, hopen] at hreport
    cases hreport

/-- **A task begins**: in the pool there is room for one more. -/
theorem start (h : UnprobedBatchInv settings b) (htask : b.tasks[k]? = some task)
    (hstate : task.state = .queued) (hmay : b.MayStart k) :
    UnprobedBatchInv settings (b.put k task .waiting) := by
  obtain ⟨hopen, -, hroom⟩ := hmay
  have hbusy := UnprobedBatch.count_put htask .waiting TaskState.busy
  have hin := UnprobedBatch.count_put htask .waiting TaskState.inProgress
  have hle : b.count TaskState.busy ≤ b.count TaskState.inProgress :=
    List.countP_mono_left fun t _ ht => TaskState.inProgress_of_busy ht
  have hpositive := h.workers.positive
  rw [hstate] at hbusy hin
  simp only [TaskState.busy, TaskState.inProgress, Bool.false_eq_true, if_true, if_false,
    Nat.add_zero] at hbusy hin
  refine h.put hopen htask (by rw [hstate]; rfl) rfl ?_ ?_
  · split at hroom <;> omega
  · intro hseq
    rw [if_pos hseq] at hroom
    omega

/-- **A task goes on** with no more workers than before. -/
theorem goOn (h : UnprobedBatchInv settings b) (htask : b.tasks[k]? = some task)
    {state : TaskState} (hold : task.state.inProgress = true) (hnew : state.inProgress = true)
    (hbusy : state.busy = true → task.state.busy = true) :
    UnprobedBatchInv settings (b.put k task state) := by
  have hopen := h.unreported htask hold
  have hcount := UnprobedBatch.count_put htask state TaskState.busy
  have hin := UnprobedBatch.count_put htask state TaskState.inProgress
  have hworkers := h.workers.busy
  rw [if_pos hold, if_pos hnew] at hin
  refine h.put hopen htask (TaskState.isCollected_of_inProgress hold)
    (TaskState.isCollected_of_inProgress hnew) ?_ ?_
  · by_cases hstate : state.busy = true
    · rw [if_pos hstate, if_pos (hbusy hstate)] at hcount
      omega
    · rw [if_neg hstate] at hcount
      omega
  · exact fun hseq => (Nat.add_right_cancel hin).trans_le (h.alone hseq)

/-- **A task is collected.** -/
theorem collect (h : UnprobedBatchInv settings b) {outcome : TaskOutcome}
    (htask : b.tasks[k]? = some task) (hstate : task.state = .finished outcome) :
    UnprobedBatchInv settings (b.collect k task outcome) := by
  have hopen := h.unreported htask (by rw [hstate]; rfl)
  have hbusy := UnprobedBatch.count_put htask (.collected outcome) TaskState.busy
  have hin := UnprobedBatch.count_put htask (.collected outcome) TaskState.inProgress
  rw [hstate] at hbusy hin
  simp only [TaskState.busy, TaskState.inProgress, Bool.false_eq_true, if_true, if_false,
    Nat.add_zero] at hbusy hin
  have hworkers := hbusy.trans_le h.workers.busy
  have hdistinct := h.distinct
  rw [← UnprobedBatch.mailboxIds_put htask (.collected outcome)] at hdistinct
  have hbounded : (b.put k task (.collected outcome)).tasks.length ≤ b.batchSize :=
    (UnprobedBatch.length_put _).trans_le h.bounded
  have hseq : (b.put k task (.collected outcome)).Sequential ↔ b.Sequential := by
    unfold UnprobedBatch.Sequential
    rw [UnprobedBatch.length_put]
    rfl
  rcases b.collect_cases k task outcome with heq | ⟨errorSummary, houtcome, halone, heq⟩
  · rw [heq]
    refine ⟨h.workers.congr rfl rfl hworkers, hdistinct, hbounded, ?_, ?_, ?_⟩
    · intro hseq'
      have := h.alone (hseq.mp hseq')
      show (b.put k task (.collected outcome)).count TaskState.inProgress ≤ 1
      omega
    · intro _ t ht
      rw [Dict.lookup_set]
      rcases UnprobedBatch.mem_put h.distinct htask ht with rfl | ⟨ht, hne⟩
      · rw [if_pos rfl]
        rfl
      · rw [if_neg hne]
        exact h.results hopen t ht
    · intro report hreport
      exact absurd (hreport.symm.trans hopen) (Option.some_ne_none report)
  · rw [heq]
    -- alone in its thread, the task that raises was the only one under way
    have hzero : (b.put k task (.collected outcome)).count TaskState.inProgress = 0 := by
      have := h.alone halone
      omega
    have hone := hzero.trans_le (Nat.zero_le 1)
    refine ⟨h.workers.congr rfl rfl hworkers, hdistinct, hbounded, fun _ => hone, ?_, ?_⟩
    · intro hnone
      cases hnone
    · intro report hreport
      cases hreport
      refine ⟨hseq.mpr halone, hzero, { task with state := .collected outcome }, ?_, ?_⟩
      · obtain ⟨hk, -⟩ := List.getElem?_eq_some_iff.mp htask
        exact List.mem_set hk _
      · rw [houtcome]

/-- **The batch ends.** -/
theorem conclude (h : UnprobedBatchInv settings b) (hopen : b.report = none)
    (hall : ∀ task ∈ b.tasks, task.state.isCollected = true) (remainingCandidates : ℕ) :
    UnprobedBatchInv settings { b with report := some (b.conclude remainingCandidates) } where
  workers := h.workers.congr rfl rfl h.workers.busy
  distinct := h.distinct
  bounded := h.bounded
  alone := h.alone
  results := by
    intro hnone
    cases hnone
  reports := by
    intro report hreport
    cases hreport
    have hsome : ∀ task ∈ b.tasks, (b.results.lookup task.mailboxId).isSome = true := by
      intro task htask
      rw [h.results hopen task htask, task.isSome_item?]
      exact hall task htask
    obtain ⟨results, hresults, hmap⟩ := exists_mapM hsome
    have hitems : b.tasks.map BatchTask.item? = results.map some := by
      rw [← hmap]
      exact List.map_congr_left fun task htask => (h.results hopen task htask).symm
    have hlength : b.tasks.length = results.length := by
      simpa using congrArg List.length hitems
    have hcount := List.countP_le_length (p := MailboxAccessTokenRefreshItem.successful)
      (l := results)
    show UnprobedBatch.Reports _ (b.conclude remainingCandidates)
    unfold UnprobedBatch.conclude
    rw [hresults]
    refine ⟨hitems, hlength, h.bounded, rfl, ?_⟩
    show _ + (results.length - _) = b.tasks.length
    rw [hlength, Nat.add_sub_cancel' hcount]

/-- **Step lemma.** -/
theorem step {b' : UnprobedBatch} {permits' : ℕ} (h : UnprobedBatchInv settings b)
    (hstep : b.Step permits b' permits') : UnprobedBatchInv settings b' := by
  cases hstep with
  | stay => exact h
  | start k task htask hstate hmay => exact h.start htask hstate hmay
  | acquire k task htask hstate hpermit =>
      refine h.goOn htask ?_ rfl ?_
      · rw [hstate]
        rfl
      · rw [hstate]
        exact fun _ => rfl
  | expire k task htask hstate =>
      refine h.goOn htask ?_ rfl Bool.noConfusion
      rw [hstate]
      rfl
  | finish k task htask hstate outcome =>
      refine h.goOn htask ?_ rfl Bool.noConfusion
      rw [hstate]
      rfl
  | collect k task outcome htask hstate => exact h.collect htask hstate
  | conclude remainingCandidates hopen hall => exact h.conclude hopen hall remainingCandidates

end UnprobedBatchInv

theorem countAvailable_pos (pool : ProxyPool) (policy : ProxyPolicy) (now : ℕ) :
    1 ≤ pool.countAvailable policy now := by
  unfold ProxyPool.countAvailable
  split
  · exact le_rfl
  · simp only
    split
    · assumption
    · exact le_rfl

section

variable [Platform]

theorem listUnprobedOrUnknown_nodup (db : Database) (batchSize : ℕ) :
    (db.listUnprobedOrUnknown batchSize).Nodup := by
  have hrows : (firstRanked Mailbox.unprobedRank batchSize db.unprobedOrUnknown).Nodup := by
    refine List.Nodup.sublist (List.take_sublist _ _) ?_
    refine (List.perm_insertionSort _ _).nodup_iff.mpr ?_
    exact db.mailboxes.nodup_rows.filter _
  refine hrows.map_on fun m hm m' hm' hid => ?_
  have hmem := (Table.mem_select.mp (mem_of_mem_firstRanked hm)).1
  have hmem' := (Table.mem_select.mp (mem_of_mem_firstRanked hm')).1
  exact Table.eq_of_key hmem hmem' hid

theorem count_openBatch (settings : BatchSettings) (counted listed : Database)
    (pool : ProxyPool) (policy : ProxyPolicy) (now batchSize : ℕ) {p : TaskState → Bool}
    (hp : p .queued = false) :
    (settings.openBatch counted listed pool policy now batchSize).count p = 0 := by
  refine List.countP_eq_zero.mpr fun task htask => ?_
  obtain ⟨mailboxId, -, rfl⟩ := List.mem_map.mp htask
  exact Bool.eq_false_iff.mp hp

/-- **A new batch.** -/
theorem unprobedBatchInv_openBatch (settings : BatchSettings) (counted listed : Database)
    (pool : ProxyPool) (policy : ProxyPolicy) (now batchSize : ℕ) :
    UnprobedBatchInv settings (settings.openBatch counted listed pool policy now batchSize) := by
  have hids : (settings.openBatch counted listed pool policy now batchSize).tasks.map
      BatchTask.mailboxId = listed.listUnprobedOrUnknown (max 1 (min batchSize 5000)) := by
    show List.map _ (List.map _ _) = _
    rw [List.map_map]
    exact List.map_id _
  have hworkers := countAvailable_pos pool policy now
  have hconfigured := settings.batchMaxWorkers_pos
  refine ⟨⟨?_, ?_, ?_, ?_, ?_⟩, ?_, ?_, ?_, ?_, ?_⟩
  · exact le_max_left _ _
  · show settings.workerCount _ _ ≤ pool.countAvailable policy now
    unfold BatchSettings.workerCount
    omega
  · show settings.workerCount _ _ ≤ _
    unfold BatchSettings.workerCount
    omega
  · show settings.workerCount _ _ ≤ _
    have hbudget : 1 ≤ settings.databaseWorkerBudget := le_max_left _ _
    unfold BatchSettings.workerCount
    omega
  · rw [count_openBatch _ _ _ _ _ _ _ rfl]
    exact Nat.zero_le _
  · rw [hids]
    exact listUnprobedOrUnknown_nodup _ _
  · have hlength := congrArg List.length hids
    rw [List.length_map] at hlength
    rw [hlength]
    show (List.map _ (List.take _ _)).length ≤ _
    rw [List.length_map]
    exact List.length_take_le _ _
  · intro _
    rw [count_openBatch _ _ _ _ _ _ _ rfl]
    exact Nat.zero_le _
  · intro _ task htask
    obtain ⟨mailboxId, -, rfl⟩ := List.mem_map.mp htask
    rfl
  · intro report hreport
    simp only [BatchSettings.openBatch] at hreport
    split at hreport
    · rename_i hempty
      cases hreport
      rw [hempty] at hids
      refine ⟨?_, rfl, Nat.zero_le _, rfl, rfl⟩
      have htasks := List.map_eq_nil_iff.mp hids
      exact congrArg (List.map BatchTask.item?) htasks
    · cases hreport

end

/-! ## Permits -/

/-- **Conservation**, for one step of a batch. -/
theorem UnprobedBatch.Step.inFlight {b' : UnprobedBatch} {permits' : ℕ}
    (hstep : b.Step permits b' permits') : permits' + b'.inFlight = permits + b.inFlight := by
  have hput : ∀ {k : ℕ} {task : BatchTask} {state : TaskState} (state' : TaskState),
      b.tasks[k]? = some task → task.state = state →
        (b.put k task state').inFlight + (if state = .working then 1 else 0) =
          b.inFlight + (if state' = .working then 1 else 0) := by
    intro k task state state' htask hstate
    have hcount := UnprobedBatch.count_put htask state' (· = .working)
    simp only [hstate, decide_eq_true_eq] at hcount
    exact hcount
  cases hstep with
  | stay => rfl
  | conclude remainingCandidates hopen hall => rfl
  | start k task htask hstate hmay => exact congrArg (permits + ·) (hput .waiting htask hstate)
  | acquire k task htask hstate hpermit =>
      have hown := hput .working htask hstate
      rw [if_neg (by decide), if_pos rfl] at hown
      omega
  | expire k task htask hstate =>
      exact congrArg (permits + ·) (hput (.finished .exhausted) htask hstate)
  | finish k task htask hstate outcome =>
      have hown := hput (.finished (.worked outcome)) htask hstate
      rw [if_pos rfl, if_neg TaskState.noConfusion] at hown
      omega
  | collect k task outcome htask hstate =>
      have hown := hput (.collected outcome) htask hstate
      rw [if_neg TaskState.noConfusion, if_neg TaskState.noConfusion] at hown
      unfold UnprobedBatch.inFlight at hown ⊢
      rw [UnprobedBatch.count_collect]
      exact congrArg (permits + ·) hown

/-! ## The end of a batch -/

def TaskState.stepsLeft : TaskState → ℕ
  | .queued => 3
  | .waiting | .working => 2
  | .finished _ => 1
  | .collected _ => 0

def UnprobedBatch.stepsLeft (b : UnprobedBatch) : ℕ :=
  b.tasks.foldr (fun task rest => task.state.stepsLeft + rest) 0

theorem UnprobedBatch.stepsLeft_put (htask : b.tasks[k]? = some task) {state : TaskState}
    (hless : state.stepsLeft < task.state.stepsLeft) :
    (b.put k task state).stepsLeft < b.stepsLeft := by
  have hset : ∀ (tasks : List BatchTask) (k : ℕ), tasks[k]? = some task →
      (tasks.set k { task with state }).foldr (fun task rest => task.state.stepsLeft + rest) 0 <
        tasks.foldr (fun task rest => task.state.stepsLeft + rest) 0 := by
    intro tasks
    induction tasks with
    | nil =>
        intro k htask
        cases htask
    | cons first rest ih =>
        intro k htask
        cases k with
        | zero =>
            cases htask
            simp only [List.set_cons_zero, List.foldr_cons]
            omega
        | succ k =>
            have hrest := ih k htask
            simp only [List.set_cons_succ, List.foldr_cons]
            omega
  exact hset b.tasks k htask

section

variable [Platform]

/-- **Progress**: as long as a task is not collected, the batch has a step to take that
needs no permit. -/
theorem UnprobedBatchInv.exists_progress (h : UnprobedBatchInv settings b)
    (hopen : b.report = none) (hleft : ∃ task ∈ b.tasks, task.state.isCollected = false) :
    ∃ a, ∀ permits, (b.act permits a).1.stepsLeft < b.stepsLeft := by
  by_cases hin : ∃ (k : ℕ) (task : BatchTask),
      b.tasks[k]? = some task ∧ task.state.inProgress = true
  · -- a task that has begun goes on
    obtain ⟨k, task, htask, hprogress⟩ := hin
    cases hstate : task.state with
    | queued | collected outcome =>
        rw [hstate] at hprogress
        cases hprogress
    | waiting =>
        refine ⟨.expire k, fun permits => ?_⟩
        simp only [UnprobedBatch.act, htask, hstate]
        exact UnprobedBatch.stepsLeft_put htask (by rw [hstate]; decide)
    | working =>
        refine ⟨.finish k (.failed none ""), fun permits => ?_⟩
        simp only [UnprobedBatch.act, htask, hstate]
        exact UnprobedBatch.stepsLeft_put htask (by rw [hstate]; decide)
    | finished outcome =>
        refine ⟨.collect k, fun permits => ?_⟩
        simp only [UnprobedBatch.act, htask, hstate]
        unfold UnprobedBatch.stepsLeft
        rw [UnprobedBatch.tasks_collect]
        exact UnprobedBatch.stepsLeft_put htask (by rw [hstate]; exact Nat.one_pos)
  · -- the first in the queue begins
    have hnone : ∀ task ∈ b.tasks, task.state.inProgress ≠ true := by
      intro task htask hprogress
      obtain ⟨k, hk⟩ := List.mem_iff_getElem?.mp htask
      exact hin ⟨k, task, hk, hprogress⟩
    have hqueued : ∃ (k : ℕ) (task : BatchTask),
        b.tasks[k]? = some task ∧ task.state = .queued := by
      obtain ⟨task, htask, hcollected⟩ := hleft
      obtain ⟨k, hk⟩ := List.mem_iff_getElem?.mp htask
      refine ⟨k, task, hk, ?_⟩
      have hprogress := hnone task htask
      cases hstate : task.state with
      | queued => rfl
      | waiting | working | finished outcome => exact absurd (hstate ▸ rfl) hprogress
      | collected outcome =>
          rw [hstate] at hcollected
          cases hcollected
    classical
    obtain ⟨task, htask, hstate⟩ := Nat.find_spec hqueued
    have hmay : b.MayStart (Nat.find hqueued) := by
      refine ⟨hopen, ?_, ?_⟩
      · intro t ht hqueue
        obtain ⟨j, hj, hget⟩ := List.mem_take_iff_getElem.mp ht
        have hlt : j < Nat.find hqueued := (Nat.lt_min.mp hj).1
        have hjlen : j < b.tasks.length := (Nat.lt_min.mp hj).2
        refine Nat.find_min hqueued hlt ⟨t, ?_, hqueue⟩
        rw [← hget]
        exact List.getElem?_eq_getElem hjlen
      · have hzero : b.count TaskState.inProgress = 0 := List.countP_eq_zero.mpr hnone
        split
        · exact hzero
        · have hbusy : b.count TaskState.busy = 0 := by
            refine List.countP_eq_zero.mpr fun t ht hbusy => hnone t ht ?_
            exact TaskState.inProgress_of_busy hbusy
          rw [hbusy]
          exact h.workers.positive
    refine ⟨.start (Nat.find hqueued), fun permits => ?_⟩
    simp only [UnprobedBatch.act, htask, if_pos (And.intro hstate hmay)]
    exact UnprobedBatch.stepsLeft_put htask (by rw [hstate]; decide)

variable {ι : Type*} [DecidableEq ι]

/-- **Every batch comes to its end**, by steps of its own. -/
theorem UnprobedBatchInv.exists_report (h : UnprobedBatchInv settings b) {i : ι}
    {t : Threads ι (Option UnprobedBatch) ℕ} (hheld : t.held i = some b) :
    ∃ later : List (ι × BatchAction), (∀ e ∈ later, e.1 = i) ∧
      ∃ b' report, (exec (Threads.step (batchAct settings)) t later).held i = some b' ∧
        b'.report = some report := by
  induction hn : b.stepsLeft using Nat.strong_induction_on generalizing b t with
  | h n ih =>
      have hact : ∀ a, (t.step (batchAct settings) (i, a)).held i = some (b.act t.shared a).1 := by
        intro a
        rw [Threads.step_held, if_pos rfl, hheld]
        rfl
      cases hreport : b.report with
      | some report =>
          exact ⟨[], by simp, b, report, hheld, hreport⟩
      | none =>
          by_cases hall : ∀ task ∈ b.tasks, task.state.isCollected = true
          · have hconclude : (b.act t.shared (.conclude { })).1.report =
                some (b.conclude (Database.unprobedOrUnknown { }).length) := by
              simp only [UnprobedBatch.act, if_pos (And.intro hreport hall)]
            exact ⟨[(i, .conclude { })], by simp, _, _, hact _, hconclude⟩
          · push Not at hall
            obtain ⟨task, htask, hcollected⟩ := hall
            obtain ⟨a, ha⟩ :=
              h.exists_progress hreport ⟨task, htask, Bool.eq_false_iff.mpr hcollected⟩
            obtain ⟨later, hlater, hend⟩ :=
              ih _ (hn ▸ ha t.shared) (h.step (b.act_step t.shared a)) (hact a) rfl
            refine ⟨(i, a) :: later, ?_, hend⟩
            rw [List.forall_mem_cons]
            exact ⟨rfl, hlater⟩

/-! ## Many batches -/

theorem batchAct_permits (settings : BatchSettings) (permits : ℕ) (x : Option UnprobedBatch)
    (a : BatchAction) :
    id (batchAct settings permits x a).2 + permitsHeld (batchAct settings permits x a).1 =
      id permits + permitsHeld x := by
  cases x with
  | some b => exact (b.act_step permits a).inFlight
  | none =>
      cases a with
      | open_ counted listed pool policy now batchSize =>
          have hnone : (settings.openBatch counted listed pool policy now batchSize).inFlight = 0 :=
            count_openBatch settings counted listed pool policy now batchSize rfl
          exact congrArg (permits + ·) hnone
      | start _ | acquire _ | expire _ | finish _ _ | collect _ | conclude _ => rfl

theorem batchAct_inv (settings : BatchSettings) {permits : ℕ} {x : Option UnprobedBatch}
    (h : ∀ b, x = some b → UnprobedBatchInv settings b) (a : BatchAction) :
    ∀ b, (batchAct settings permits x a).1 = some b → UnprobedBatchInv settings b := by
  intro b hb
  cases x with
  | some before =>
      cases hb
      exact (h before rfl).step (before.act_step permits a)
  | none =>
      cases a with
      | open_ counted listed pool policy now batchSize =>
          cases hb
          exact unprobedBatchInv_openBatch settings counted listed pool policy now batchSize
      | start _ | acquire _ | expire _ | finish _ _ | collect _ | conclude _ => cases hb

/-- What every request holds is a batch as it should be. -/
def BatchesInv (settings : BatchSettings) (t : Threads ι (Option UnprobedBatch) ℕ) : Prop :=
  ∀ i b, t.held i = some b → UnprobedBatchInv settings b

omit [Platform] [DecidableEq ι] in
theorem batchesInv_start (settings : BatchSettings) (permits : ℕ) :
    BatchesInv settings (Threads.start permits none : Threads ι (Option UnprobedBatch) ℕ) :=
  fun _ _ hb => nomatch hb

theorem batchesInv_step {t : Threads ι (Option UnprobedBatch) ℕ} (e : ι × BatchAction)
    (h : BatchesInv settings t) : BatchesInv settings (t.step (batchAct settings) e) := by
  obtain ⟨j, a⟩ := e
  intro i b hb
  rw [Threads.step_held] at hb
  split at hb
  · exact batchAct_inv settings (h j) a b hb
  · exact h i b hb

/-- **Batches are safe**, in whatever order their workers take turns. -/
theorem batches_safe (settings : BatchSettings) {requests : Finset ι}
    {events : List (ι × BatchAction)} (hrequests : ∀ e ∈ events, e.1 ∈ requests) :
    BatchesSafe settings requests
      (exec (Threads.step (batchAct settings))
        (Threads.start settings.batchMaxWorkers none) events) := by
  have hinv := exec_invariant (fun _ e => batchesInv_step e)
    (batchesInv_start settings settings.batchMaxWorkers) events
  have hpermits := Threads.supply_exec (batchAct_permits settings)
    (Threads.start settings.batchMaxWorkers none) hrequests
  have hnone : (Threads.start settings.batchMaxWorkers none :
      Threads ι (Option UnprobedBatch) ℕ).total permitsHeld requests = 0 :=
    Finset.sum_eq_zero fun _ _ => rfl
  rw [hnone] at hpermits
  exact
    { permits := hpermits
      workers := fun i b hb => (hinv i b hb).workers
      distinct := fun i b hb => (hinv i b hb).distinct
      reports := fun i b report hb => (hinv i b hb).reports report
      completes := fun i b hb => (hinv i b hb).exists_report hb }

end

section Sample

attribute [local instance] asciiPlatform

def imported (id : String) : Mailbox where
  id := id
  primaryEmail := id ++ "@example.com"
  clientId := some "client"
  refreshTokenCiphertext := some "refresh"

def twoImported : Database where
  mailboxes := ⟨[imported "a", imported "b"], by decide⟩

def onePermit : BatchSettings := ⟨1, 20, 10, le_rfl⟩

/-- Two batches with one permit: the second does without. -/
def crowded : List (ℕ × BatchAction) :=
  [(0, .open_ twoImported twoImported {} { allowedProtocols := [] } 0 100),
   (1, .open_ twoImported twoImported {} { allowedProtocols := [] } 0 1),
   (0, .start 0), (0, .acquire 0), (1, .start 0), (1, .acquire 0), (1, .expire 0),
   (1, .collect 0), (1, .conclude twoImported)]

theorem batches_safe_sample :
    BatchesSafe onePermit {0, 1}
      (exec (Threads.step (batchAct onePermit)) (Threads.start 1 none) crowded) :=
  batches_safe onePermit (by decide)

example : ((exec (Threads.step (batchAct onePermit)) (Threads.start 1 none) crowded).held 1).bind
      UnprobedBatch.report =
    some (.ok
      { candidateTotal := 2, processed := 1, successful := 0, failed := 1
        remainingCandidates := 2, batchSize := 1, workerCount := 1
        results := [failedItem "a" none "batch concurrency budget exhausted"] }) := by
  decide +kernel

end Sample

end MailboxService
