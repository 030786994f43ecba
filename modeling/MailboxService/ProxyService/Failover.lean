import MailboxService.ProxyService.Health

/-!
# Failover

`MicrosoftOAuthClient`, `MicrosoftIMAPClient` and `MicrosoftGraphMailReader` run
an operation through the proxy of the mailbox. When the proxy raises a transport
error, that is recorded, the mailbox is bound to another proxy, and the
operation runs once more. Each call of the proxy service is a transaction of its
own, and other sessions may commit in between.

Whatever a run comes to is to be recorded once, with the proxy that it went
through. The transport error of a replacement is not
(`failover_accounted_iff`).
-/

namespace MailboxService

open Foundation

/-! ## Operations -/

/-- How a run of an operation ends. The summary is what `summarize_exception`
makes of an `EgressProxyTransportError`; any other exception is `raised`. -/
inductive OperationEnd (ε α : Type) where
  | returned (result : α)
  | transportError (summary : String)
  | raised (error : ε)
  deriving DecidableEq, Repr

inductive FailoverError (ε : Type) where
  | resolution (error : ProxyError)
  | transportError (summary : String)
  | raised (error : ε)
  deriving DecidableEq, Repr

inductive FailoverEvent (ε α : Type) where
  | ran (proxy : Option ResolvedProxy) (ending : OperationEnd ε α)
  /-- Handed to `record_proxy_observation`. -/
  | observed (proxyId : String) (observation : ProxyObservation)
  deriving DecidableEq, Repr

/-- The tables, and what a call has done so far. -/
structure FailoverRun (ε α : Type) where
  state : ProxyState
  events : List (FailoverEvent ε α) := []

/-- An exception leaves what has been committed. -/
abbrev FailoverM (ε α β : Type) := ExceptT (FailoverError ε) (StateM (FailoverRun ε α)) β

def FailoverM.exec {ε α β : Type} (call : FailoverM ε α β) (run : FailoverRun ε α) :
    Except (FailoverError ε) β × FailoverRun ε α :=
  call.run.run run

structure EgressProxyService where
  settings : ProxySettings
  cipher : Option (String → Except String String)

/-- What a transaction of the service finds: what others have committed since
the last one, and the readings of the clock. -/
structure ProxyTransaction where
  elsewhere : ProxyState → ProxyState := id
  now : ℕ
  views : ℕ → ProxyView

/-! ## The service -/

/-- `record_proxy_observation`: a proxy that is gone is not observed. -/
def ProxyState.recordProxyObservation (settings : ProxySettings) (s : ProxyState)
    (proxyId : String) (observation : ProxyObservation) : ProxyState :=
  match s.pool.proxies.get? proxyId with
  | none => s
  | some proxy =>
      { s with
        pool := s.pool.flushProxy proxy (proxy.record settings s.policy observation) }

namespace EgressProxyService

variable {ε α : Type}

def recordProxyObservation (service : EgressProxyService) (transaction : ProxyTransaction)
    (proxyId : String) (observation : ProxyObservation) : FailoverM ε α Unit :=
  modify fun run =>
    { state := (transaction.elsewhere run.state).recordProxyObservation service.settings
        proxyId observation
      events := run.events ++ [.observed proxyId observation] }

def recordProxySuccess (service : EgressProxyService) (transaction : ProxyTransaction)
    (proxyId : String) : FailoverM ε α Unit :=
  service.recordProxyObservation transaction proxyId
    { outcome := "success", observedAt := transaction.now }

def recordProxyFailure (service : EgressProxyService) (transaction : ProxyTransaction)
    (proxyId summary : String) : FailoverM ε α Unit :=
  service.recordProxyObservation transaction proxyId
    { outcome := "failure", observedAt := transaction.now, errorSummary := some summary }

variable [DatetimeDriver]

/-- `resolve_for_mailbox` among the transactions of others. -/
def resolve (service : EgressProxyService) (transaction : ProxyTransaction)
    (request : ResolveRequest) (s : ProxyState) :
    Except ProxyError (Option ResolvedProxy) × ProxyState :=
  resolveForMailbox service.settings service.cipher (transaction.elsewhere s) request
    transaction.now transaction.views

def resolveProxy (service : EgressProxyService) (transaction : ProxyTransaction)
    (request : ResolveRequest) : FailoverM ε α (Option ResolvedProxy) := do
  let run ← get
  let (outcome, state) := service.resolve transaction request run.state
  set { run with state }
  match outcome with
  | .ok resolved => return resolved
  | .error error => throw (.resolution error)

end EgressProxyService

/-! ## The loop -/

section

variable {ε α : Type}

def runOperation (operation : Option ResolvedProxy → OperationEnd ε α)
    (proxy : Option ResolvedProxy) : FailoverM ε α (OperationEnd ε α) := do
  modify fun run => { run with events := run.events ++ [.ran proxy (operation proxy)] }
  return operation proxy

variable [DatetimeDriver]

def replacementRequest (mailboxId : String) (selected : ResolvedProxy) : ResolveRequest where
  mailboxId := mailboxId
  excludedProxyIds := [selected.id]
  forceRebind := true

/-- The loop of the three callers. The operation is told the number of its run,
and the transactions are those of the resolution, of the failure, of the second
resolution and of the success. -/
def withProxyFailover (service : EgressProxyService) (transactions : Fin 4 → ProxyTransaction)
    (mailboxId : String) (operation : ℕ → Option ResolvedProxy → OperationEnd ε α) :
    FailoverM ε α α := do
  let selectedProxy ← service.resolveProxy (transactions 0) { mailboxId }
  match ← runOperation (operation 0) selectedProxy with
  | .returned result =>
      if let some selected := selectedProxy then
        service.recordProxySuccess (transactions 3) selected.id
      return result
  | .raised error => throw (.raised error)
  | .transportError summary =>
      match selectedProxy with
      | none => throw (.transportError summary)
      | some selected =>
          service.recordProxyFailure (transactions 1) selected.id summary
          let replacementProxy ← service.resolveProxy (transactions 2)
            (replacementRequest mailboxId selected)
          match ← runOperation (operation 1) replacementProxy with
          | .returned result =>
              if let some replacement := replacementProxy then
                service.recordProxySuccess (transactions 3) replacement.id
              return result
          | .raised error => throw (.raised error)
          | .transportError summary => throw (.transportError summary)

def MicrosoftOAuthClient.executeWithProxyRetry (service : EgressProxyService)
    (transactions : Fin 4 → ProxyTransaction) (mailboxId : String)
    (operation : ℕ → Option ResolvedProxy → OperationEnd ε α) : FailoverM ε α α :=
  withProxyFailover service transactions mailboxId operation

def MicrosoftIMAPClient.connect (service : EgressProxyService) (transactions : Fin 4 → ProxyTransaction)
    (connectOnce : ℕ → String → String → String → Option ResolvedProxy → OperationEnd ε α)
    (mailbox : Mailbox) (accessToken : String) : FailoverM ε α α :=
  withProxyFailover service transactions mailbox.id fun n =>
    connectOnce n mailbox.id mailbox.primaryEmail accessToken

def MicrosoftGraphMailReader.listRecentMessages (service : EgressProxyService)
    (transactions : Fin 4 → ProxyTransaction)
    (listOnce : ℕ → Mailbox → String → ℕ → ℕ → Option ResolvedProxy → OperationEnd ε α)
    (mailbox : Mailbox) (accessToken : String) (sinceAt maxMessages : ℕ) : FailoverM ε α α :=
  withProxyFailover service transactions mailbox.id fun n =>
    listOnce n mailbox accessToken sinceAt maxMessages

/-- What a call does, from the tables as they are. -/
def FailoverM.eventsFrom (call : FailoverM ε α α) (s : ProxyState) : List (FailoverEvent ε α) :=
  (call.exec { state := s }).2.events

end

/-! ## Accounting -/

section

variable {ε α : Type}

def proxiesUsed (events : List (FailoverEvent ε α)) : List String :=
  events.filterMap fun
    | .ran (some proxy) _ => some proxy.id
    | _ => none

def proxiesFailed (events : List (FailoverEvent ε α)) : List String :=
  events.filterMap fun
    | .ran (some proxy) (.transportError _) => some proxy.id
    | _ => none

def proxiesSucceeded (events : List (FailoverEvent ε α)) : List String :=
  events.filterMap fun
    | .ran (some proxy) (.returned _) => some proxy.id
    | _ => none

def runCount (events : List (FailoverEvent ε α)) : ℕ :=
  events.countP fun
    | .ran _ _ => true
    | .observed _ _ => false

/-- The proxies with an observation of this outcome, once for each. -/
def proxiesObserved (outcome : String) (events : List (FailoverEvent ε α)) : List String :=
  events.filterMap fun
    | .observed proxyId observation =>
        if observation.outcome = outcome then some proxyId else none
    | .ran _ _ => none

/-- **Accounting**: at most two runs, not through the same proxy; one failure for
each proxy with a transport error and one success for each proxy that returned;
and nothing else is recorded. -/
structure FailoverAccounted (events : List (FailoverEvent ε α)) : Prop where
  atMostTwice : runCount events ≤ 2
  neverSameProxy : (proxiesUsed events).Nodup
  failures : ∀ proxyId, (proxiesObserved "failure" events).count proxyId =
    if proxyId ∈ proxiesFailed events then 1 else 0
  successes : ∀ proxyId, (proxiesObserved "success" events).count proxyId =
    if proxyId ∈ proxiesSucceeded events then 1 else 0
  noOther : ∀ proxyId observation, .observed proxyId observation ∈ events →
    observation.outcome = "failure" ∨ observation.outcome = "success"

def firstFailure (transactions : Fin 4 → ProxyTransaction) (summary : String) :
    ProxyObservation where
  outcome := "failure"
  observedAt := (transactions 1).now
  errorSummary := some summary

variable [DatetimeDriver]

/-- The second resolution, from what the first one has bound. -/
def resolveReplacement (service : EgressProxyService) (transactions : Fin 4 → ProxyTransaction)
    (mailboxId : String) (selected : ResolvedProxy) (summary : String) (bound : ProxyState) :
    Except ProxyError (Option ResolvedProxy) :=
  (service.resolve (transactions 2) (replacementRequest mailboxId selected)
    (((transactions 1).elsewhere bound).recordProxyObservation service.settings selected.id
      (firstFailure transactions summary))).1

/-- The operation fails on the proxy of the mailbox, and again on the
replacement for it. -/
def ReplacementFails (service : EgressProxyService) (transactions : Fin 4 → ProxyTransaction)
    (mailboxId : String) (operation : ℕ → Option ResolvedProxy → OperationEnd ε α)
    (s : ProxyState) : Prop :=
  ∃ selected replacement summary summary' bound,
    service.resolve (transactions 0) { mailboxId } s = (.ok (some selected), bound) ∧
    operation 0 (some selected) = .transportError summary ∧
    resolveReplacement service transactions mailboxId selected summary bound =
      .ok (some replacement) ∧
    operation 1 (some replacement) = .transportError summary'

/-! ## Running a call -/

section

omit [DatetimeDriver]

variable {β γ : Type} {run : FailoverRun ε α}

@[simp] theorem failover_bind (x : FailoverM ε α β) (f : β → FailoverM ε α γ) :
    (x >>= f).exec run =
      match x.exec run with
      | (.ok b, run') => (f b).exec run'
      | (.error error, run') => (.error error, run') := by
  show StateT.run (ExceptT.run (x >>= f)) run = _
  rw [ExceptT.run_bind, StateT.run_bind]
  unfold FailoverM.exec
  rcases x.run.run run with ⟨outcome | b, run'⟩ <;> rfl

@[simp] theorem failover_pure (b : β) :
    (pure b : FailoverM ε α β).exec run = (.ok b, run) := rfl

@[simp] theorem failover_map (f : β → γ) (x : FailoverM ε α β) :
    (f <$> x).exec run =
      match x.exec run with
      | (.ok b, run') => (.ok (f b), run')
      | (.error error, run') => (.error error, run') := by
  rw [map_eq_pure_bind, failover_bind]
  rfl

@[simp] theorem failover_throw (error : FailoverError ε) :
    (throw error : FailoverM ε α β).exec run = (.error error, run) := rfl

@[simp] theorem exec_runOperation (operation : Option ResolvedProxy → OperationEnd ε α)
    (proxy : Option ResolvedProxy) :
    (runOperation operation proxy).exec run =
      (.ok (operation proxy), { run with events := run.events ++ [.ran proxy (operation proxy)] }) :=
  rfl

@[simp] theorem exec_recordProxyObservation (service : EgressProxyService)
    (transaction : ProxyTransaction) (proxyId : String) (observation : ProxyObservation) :
    (service.recordProxyObservation transaction proxyId observation).exec run =
      (.ok (), {
        state := (transaction.elsewhere run.state).recordProxyObservation service.settings
          proxyId observation
        events := run.events ++ [.observed proxyId observation] }) :=
  rfl

end

@[simp] theorem exec_resolveProxy (service : EgressProxyService)
    (transaction : ProxyTransaction) (request : ResolveRequest) (run : FailoverRun ε α) :
    (service.resolveProxy transaction request).exec run =
      ((service.resolve transaction request run.state).1.mapError .resolution,
        { run with state := (service.resolve transaction request run.state).2 }) := by
  have hget : (get : FailoverM ε α (FailoverRun ε α)).exec run = (.ok run, run) := rfl
  unfold EgressProxyService.resolveProxy
  rw [failover_bind, hget]
  rcases h : service.resolve transaction request run.state with ⟨error | resolved, state⟩
  · simp only [h]
    rfl
  · simp only [h]
    rfl

/-! ## The events of a call -/

variable {service : EgressProxyService} {transactions : Fin 4 → ProxyTransaction}
  {mailboxId : String} {operation : ℕ → Option ResolvedProxy → OperationEnd ε α}
  {s bound : ProxyState} {selected replacement : ResolvedProxy}

theorem eventsFrom_resolution_error {error : ProxyError}
    (h : service.resolve (transactions 0) { mailboxId } s = (.error error, bound)) :
    (withProxyFailover service transactions mailboxId operation).eventsFrom s = [] := by
  simp [FailoverM.eventsFrom, withProxyFailover, h, Except.mapError]

theorem eventsFrom_direct
    (h : service.resolve (transactions 0) { mailboxId } s = (.ok none, bound)) :
    (withProxyFailover service transactions mailboxId operation).eventsFrom s =
      [.ran none (operation 0 none)] := by
  cases hend : operation 0 none <;>
    simp [FailoverM.eventsFrom, withProxyFailover, h, hend, Except.mapError]

theorem eventsFrom_returned {result : α}
    (h : service.resolve (transactions 0) { mailboxId } s = (.ok (some selected), bound))
    (hend : operation 0 (some selected) = .returned result) :
    (withProxyFailover service transactions mailboxId operation).eventsFrom s =
      [.ran (some selected) (.returned result),
        .observed selected.id { outcome := "success", observedAt := (transactions 3).now }] := by
  simp [FailoverM.eventsFrom, withProxyFailover, h, hend, Except.mapError,
    EgressProxyService.recordProxySuccess]

theorem eventsFrom_raised {error : ε}
    (h : service.resolve (transactions 0) { mailboxId } s = (.ok (some selected), bound))
    (hend : operation 0 (some selected) = .raised error) :
    (withProxyFailover service transactions mailboxId operation).eventsFrom s =
      [.ran (some selected) (.raised error)] := by
  simp [FailoverM.eventsFrom, withProxyFailover, h, hend, Except.mapError]

def eventsOfRetry (transactions : Fin 4 → ProxyTransaction)
    (operation : Option ResolvedProxy → OperationEnd ε α) :
    Except ProxyError (Option ResolvedProxy) → List (FailoverEvent ε α)
  | .error _ => []
  | .ok none => [.ran none (operation none)]
  | .ok (some replacement) =>
      .ran (some replacement) (operation (some replacement)) ::
        match operation (some replacement) with
        | .returned _ =>
            [.observed replacement.id
              { outcome := "success", observedAt := (transactions 3).now }]
        | .raised _ | .transportError _ => []

theorem eventsFrom_failed {summary : String}
    (h : service.resolve (transactions 0) { mailboxId } s = (.ok (some selected), bound))
    (hend : operation 0 (some selected) = .transportError summary) :
    (withProxyFailover service transactions mailboxId operation).eventsFrom s =
      .ran (some selected) (.transportError summary) ::
      .observed selected.id (firstFailure transactions summary) ::
      eventsOfRetry transactions (operation 1)
        (resolveReplacement service transactions mailboxId selected summary bound) := by
  unfold FailoverM.eventsFrom withProxyFailover resolveReplacement
  simp only [failover_bind, exec_resolveProxy, h, Except.mapError, exec_runOperation, hend,
    EgressProxyService.recordProxyFailure, exec_recordProxyObservation, List.nil_append,
    List.cons_append]
  show _ = _ :: _ :: eventsOfRetry transactions (operation 1)
    (service.resolve (transactions 2) (replacementRequest mailboxId selected)
      (((transactions 1).elsewhere bound).recordProxyObservation service.settings selected.id
        _)).1
  unfold firstFailure
  rcases service.resolve (transactions 2) (replacementRequest mailboxId selected)
    (((transactions 1).elsewhere bound).recordProxyObservation service.settings selected.id
      _) with ⟨error | _ | replacement, final⟩
  · rfl
  · cases hretry : operation 1 none <;> simp [eventsOfRetry, hretry]
  · cases hretry : operation 1 (some replacement) <;>
      simp [eventsOfRetry, hretry, EgressProxyService.recordProxySuccess]

/-! ## Accounting for a call -/

theorem resolveReplacement_ne {summary : String}
    (h : resolveReplacement service transactions mailboxId selected summary bound =
      .ok (some replacement)) : replacement.id ≠ selected.id := by
  have hsafe := resolveForMailbox_safe service.settings service.cipher
    ((transactions 2).elsewhere
      (((transactions 1).elsewhere bound).recordProxyObservation service.settings selected.id
        (firstFailure transactions summary)))
    (replacementRequest mailboxId selected) (transactions 2).now (transactions 2).views
  unfold resolveReplacement EgressProxyService.resolve at h
  rcases hout : resolveForMailbox service.settings service.cipher _
    (replacementRequest mailboxId selected) (transactions 2).now (transactions 2).views with
    ⟨outcome, final⟩
  rw [hout] at h hsafe
  obtain rfl : outcome = .ok (some replacement) := h
  obtain ⟨proxy, -, hid, ⟨t, -, hserve⟩, -⟩ := hsafe
  have hnot : proxy.id ∉ [selected.id] := hserve.notExcluded
  rw [hid]
  simpa using hnot

section

omit [DatetimeDriver]

attribute [local simp] runCount proxiesUsed proxiesFailed proxiesSucceeded proxiesObserved
  firstFailure eventsOfRetry

/-- An observation counts for its own proxy only. -/
theorem count_singleton_eq_ite (a b : String) :
    List.count b [a] = if b ∈ [a] then 1 else 0 := by
  by_cases h : b = a
  · subst h
    simp
  · have hne : (a == b) = false := by simpa using Ne.symm h
    rw [List.count_singleton, hne]
    simp [h]

theorem accounted_nil : FailoverAccounted ([] : List (FailoverEvent ε α)) := by
  constructor <;> simp

/-- A run without a proxy leaves nothing to account for. -/
theorem accounted_direct (ending : OperationEnd ε α) :
    FailoverAccounted [.ran none ending] := by
  constructor <;> simp

theorem accounted_returned (result : α) (now : ℕ) :
    FailoverAccounted ([.ran (some selected) (.returned result),
      .observed selected.id { outcome := "success", observedAt := now }] :
        List (FailoverEvent ε α)) where
  atMostTwice := by simp
  neverSameProxy := by simp
  failures proxyId := by simp
  successes proxyId := count_singleton_eq_ite selected.id proxyId
  noOther := by simp

theorem accounted_raised (error : ε) :
    FailoverAccounted ([.ran (some selected) (.raised error)] : List (FailoverEvent ε α)) := by
  constructor <;> simp

theorem outcome_of_mem_eventsOfRetry {operation : Option ResolvedProxy → OperationEnd ε α}
    {outcome : Except ProxyError (Option ResolvedProxy)} {proxyId : String}
    {observation : ProxyObservation}
    (h : .observed proxyId observation ∈ eventsOfRetry transactions operation outcome) :
    observation.outcome = "success" := by
  match outcome with
  | .error error => simp at h
  | .ok none => simp at h
  | .ok (some replacement) =>
      cases hend : operation (some replacement) with
      | returned result =>
          simp only [eventsOfRetry, hend, List.mem_cons, reduceCtorEq, false_or,
            List.not_mem_nil, or_false, FailoverEvent.observed.injEq] at h
          rw [h.2]
      | transportError summary => simp [hend] at h
      | raised error => simp [hend] at h

/-- **The retry** is accounted for, unless its proxy fails as well. -/
theorem accounted_failed_iff {summary : String}
    {operation : Option ResolvedProxy → OperationEnd ε α}
    {outcome : Except ProxyError (Option ResolvedProxy)}
    (hne : ∀ replacement, outcome = .ok (some replacement) → replacement.id ≠ selected.id) :
    FailoverAccounted (.ran (some selected) (.transportError summary) ::
        .observed selected.id (firstFailure transactions summary) ::
        eventsOfRetry transactions operation outcome) ↔
      ¬ ∃ replacement summary', outcome = .ok (some replacement) ∧
        operation (some replacement) = .transportError summary' := by
  have hfirst : ∀ proxyId, List.count proxyId [selected.id] =
      if proxyId ∈ [selected.id] then 1 else 0 := count_singleton_eq_ite selected.id
  have hother : ∀ proxyId observation, .observed proxyId observation ∈
      .ran (some selected) (.transportError summary) ::
        .observed selected.id (firstFailure transactions summary) ::
        eventsOfRetry transactions operation outcome →
      observation.outcome = "failure" ∨ observation.outcome = "success" := by
    intro proxyId observation h
    rcases List.mem_cons.mp h with h | h
    · cases h
    · rcases List.mem_cons.mp h with h | h
      · cases h
        exact Or.inl rfl
      · exact Or.inr (outcome_of_mem_eventsOfRetry h)
  rcases outcome with error | _ | replacement
  · refine ⟨fun _ => by simp, fun _ => ⟨?_, ?_, ?_, ?_, hother⟩⟩ <;>
      simp [hfirst]
  · refine ⟨fun _ => by simp, fun _ => ⟨?_, ?_, ?_, ?_, hother⟩⟩ <;>
      simp [hfirst]
  · have hne' := hne replacement rfl
    cases hend : operation (some replacement) with
    | returned result =>
        refine ⟨fun _ => by simp [hend], fun _ => ⟨?_, ?_, ?_, ?_, hother⟩⟩ <;>
          simp [hend, hfirst, hne'.symm, count_singleton_eq_ite]
    | raised error =>
        refine ⟨fun _ => by simp [hend], fun _ => ⟨?_, ?_, ?_, ?_, hother⟩⟩ <;>
          simp [hend, hfirst, hne'.symm]
    | transportError summary' =>
        -- one failure is observed, of two
        refine ⟨fun h => ?_, fun h => absurd ⟨replacement, summary', rfl, hend⟩ h⟩
        have hcount := h.failures replacement.id
        simp [hend, hne', hne'.symm] at hcount

end

theorem not_replacementFails
    (h : ∀ selected, (service.resolve (transactions 0) { mailboxId } s).1 ≠ .ok (some selected)) :
    ¬ ReplacementFails service transactions mailboxId operation s := by
  rintro ⟨selected, -, -, -, bound, hresolve, -⟩
  apply h selected
  rw [hresolve]

theorem replacementFails_iff
    (h : service.resolve (transactions 0) { mailboxId } s = (.ok (some selected), bound)) :
    ReplacementFails service transactions mailboxId operation s ↔
      ∃ summary, operation 0 (some selected) = .transportError summary ∧
        ∃ replacement summary',
          resolveReplacement service transactions mailboxId selected summary bound =
            .ok (some replacement) ∧
          operation 1 (some replacement) = .transportError summary' := by
  constructor
  · rintro ⟨selected', replacement, summary, summary', bound', hresolve, hfirst, hretry⟩
    rw [h] at hresolve
    cases hresolve
    exact ⟨summary, hfirst, replacement, summary', hretry⟩
  · rintro ⟨summary, hfirst, replacement, summary', hretry⟩
    exact ⟨selected, replacement, summary, summary', bound, h, hfirst, hretry⟩

theorem withProxyFailover_accounted_iff :
    FailoverAccounted ((withProxyFailover service transactions mailboxId operation).eventsFrom s) ↔
      ¬ ReplacementFails service transactions mailboxId operation s := by
  rcases h : service.resolve (transactions 0) { mailboxId } s with ⟨error | _ | selected, bound⟩
  · rw [eventsFrom_resolution_error h]
    exact iff_of_true accounted_nil (not_replacementFails (by simp [h]))
  · rw [eventsFrom_direct h]
    exact iff_of_true (accounted_direct _) (not_replacementFails (by simp [h]))
  · rw [replacementFails_iff h]
    cases hend : operation 0 (some selected) with
    | returned result =>
        rw [eventsFrom_returned h hend]
        exact iff_of_true (accounted_returned result _) (by simp)
    | raised error =>
        rw [eventsFrom_raised h hend]
        exact iff_of_true (accounted_raised error) (by simp)
    | transportError summary =>
        rw [eventsFrom_failed h hend, accounted_failed_iff fun _ => resolveReplacement_ne]
        simp

end

section Sample

attribute [local instance] naiveDatetimes

def secondProxy : EgressProxy :=
  { id := "second", protocol := .socks5, host := "10.0.0.2", port := 1080 }

def twoProxies : ProxyPool where
  proxies := ⟨[sealedProxy, secondProxy], by decide⟩
  bindings := stickyPool.bindings

end Sample

end MailboxService
