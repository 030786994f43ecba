import MailboxService.Foundation.Interleaving
import MailboxService.Foundation.Newest
import MailboxService.ProxyService.Resolution

/-!
# Proxy health

Observations of one proxy, which arrive in any order of their timestamps, the
recoveries by an operator, and the selections that end an expired cooldown. Each
of them locks the row and is one transaction. But the session may have loaded
the proxy before, as the health probe has before it connects; then it decides on
the instance as it was loaded, and writes the columns that differ from that.

While every session decides on the row as it is, an observation older than the
newest one changes nothing, and a proxy whose newest observation is a success is
healthy (`health_converges`).
-/

namespace MailboxService

open Foundation

/-! ## Transitions -/

/-- `ProxyObservation`; what only the events and the audit log show is left out. -/
structure ProxyObservation where
  outcome : String
  observedAt : ℕ
  errorSummary : Option String := none
  deriving DecidableEq, Repr

namespace EgressProxy

def succeed (proxy : EgressProxy) (o : ProxyObservation) : EgressProxy :=
  { proxy with
    status := .healthy
    consecutiveFailureCount := 0
    cooldownUntil := none
    lastErrorSummary := none
    lastSuccessAt := some o.observedAt }

/-- A failure counts, and starts a cooldown at the threshold. Without a policy
row the settings hold. -/
def fail (settings : ProxySettings) (policy : Option ProxyPolicy) (proxy : EgressProxy)
    (o : ProxyObservation) : EgressProxy :=
  let failureThreshold :=
    (policy.map ProxyPolicy.failureThreshold).getD settings.proxyFailureThreshold
  let cooldownSeconds :=
    (policy.map ProxyPolicy.cooldownSeconds).getD settings.proxyCooldownSeconds
  let failed : EgressProxy :=
    { proxy with
      consecutiveFailureCount := proxy.consecutiveFailureCount + 1
      lastFailureAt := some o.observedAt
      lastErrorSummary := o.errorSummary }
  if failureThreshold ≤ failed.consecutiveFailureCount then
    { failed with
      status := .cooldown, cooldownUntil := some (o.observedAt + seconds cooldownSeconds) }
  else { failed with status := .unknown }

/-- `record_proxy_observation`, on the instance of the proxy. -/
def record (settings : ProxySettings) (policy : Option ProxyPolicy) (o : ProxyObservation)
    (proxy : EgressProxy) : EgressProxy :=
  if Outdated proxy.lastObservedAt o.observedAt then proxy
  else
    let observed :=
      if o.outcome = "success" then proxy.succeed o else proxy.fail settings policy o
    { observed with
      lastObservedAt := some o.observedAt, healthVersion := proxy.healthVersion + 1 }

/-- `recover_proxy`. -/
def recover (proxy : EgressProxy) : EgressProxy :=
  { proxy with
    status := .unknown, consecutiveFailureCount := 0, cooldownUntil := none
    lastErrorSummary := none }

/-- `_select_candidate`, on a candidate that it has locked. Whether the instance
holds naive datetimes depends on where they come from. -/
def selectLocked (policy : ProxyPolicy) (now : ℕ) (aware : Bool) (proxy : EgressProxy) :
    EgressProxy :=
  match @EgressProxy.isAvailable ⟨aware⟩ proxy policy now with
  | .ok true => proxy.leaveCooldown
  | .ok false | .error _ => proxy

def CooldownDated (proxy : EgressProxy) : Prop :=
  proxy.status = .cooldown → proxy.cooldownUntil ≠ none

end EgressProxy

/-! ## Sessions -/

inductive HealthEvent where
  | observed (o : ProxyObservation)
  | recovered
  deriving DecidableEq, Repr

/-- The row; the newest timestamp from before the run; and what has happened. -/
structure HealthShared where
  row : EgressProxy
  since : Option ℕ
  log : List HealthEvent

inductive HealthAction where
  /-- A read without a lock. -/
  | read
  | observe (policy : Option ProxyPolicy) (o : ProxyObservation)
  | recover
  | select (policy : ProxyPolicy) (now : ℕ) (aware : Bool)
  /-- The session is closed, or rolled back. -/
  | close

def HealthAction.assign (settings : ProxySettings) : HealthAction → EgressProxy → EgressProxy
  | .observe policy o => EgressProxy.record settings policy o
  | .recover => EgressProxy.recover
  | .select policy now aware => EgressProxy.selectLocked policy now aware
  | .read | .close => id

def HealthAction.logged : HealthAction → List HealthEvent
  | .observe _ o => [.observed o]
  | .recover => [.recovered]
  | .read | .select _ _ _ | .close => []

def HealthAction.decides : HealthAction → Bool
  | .observe _ _ | .recover | .select _ _ _ => true
  | .read | .close => false

/-- One step of a session, which holds the instance that it has loaded, if it
has. The instance keeps the assigned values after the commit. -/
def healthAct (settings : ProxySettings) (s : HealthShared) (x : Option EgressProxy)
    (a : HealthAction) : Option EgressProxy × HealthShared :=
  match a with
  | .close => (none, s)
  | action =>
      let proxy := x.getD s.row
      let assigned := action.assign settings proxy
      (some assigned,
        { s with row := proxy.flush assigned s.row, log := s.log ++ action.logged })

/-! ## Convergence -/

/-- **Convergence**: where a success is strictly newer than all other
observations, and there was no recovery after it, the proxy is healthy. -/
def HealthShared.Converged (s : HealthShared) : Prop :=
  ∀ earlier o later, s.log = earlier ++ .observed o :: later → o.outcome = "success" →
    .recovered ∉ later → (∀ t ∈ s.since, t < o.observedAt) →
    (∀ o', .observed o' ∈ earlier ++ later → o'.observedAt < o.observedAt) →
    s.row.status = .healthy ∧ s.row.consecutiveFailureCount = 0 ∧ s.row.cooldownUntil = none

structure HealthShared.Lawful (s : HealthShared) : Prop where
  cooldownDated : s.row.CooldownDated
  converged : s.Converged

/-- The newest timestamp never decreases, and an older observation changes
nothing. -/
structure ObservesInOrder (settings : ProxySettings) (s : HealthShared)
    (x : Option EgressProxy) (a : HealthAction) : Prop where
  neverDecreases : ∀ t ∈ s.row.lastObservedAt,
    ∃ t' ∈ (healthAct settings s x a).2.row.lastObservedAt, t ≤ t'
  ignoresOlder : ∀ policy o, a = .observe policy o →
    Outdated s.row.lastObservedAt o.observedAt → (healthAct settings s x a).2.row = s.row

/-- **The condition**: a session that decides on the proxy has not loaded it, or
the row is still as the session holds it. -/
def UpToDate (s : HealthShared) (x : Option EgressProxy) (a : HealthAction) : Prop :=
  a.decides = true → ∀ proxy ∈ x, proxy = s.row

def HealthShared.timestamps (s : HealthShared) : List ℕ :=
  s.since.toList ++ s.log.filterMap fun
    | .observed o => some o.observedAt
    | .recovered => none

/-- What carries the convergence over a run. -/
structure HealthInv (s : HealthShared) : Prop extends s.Lawful where
  newest : IsNewest s.row.lastObservedAt s.timestamps

/-! ## Transitions of the row -/

section

variable {settings : ProxySettings} {policy : Option ProxyPolicy} {o : ProxyObservation}
  {proxy : EgressProxy}

theorem record_of_outdated (h : Outdated proxy.lastObservedAt o.observedAt) :
    proxy.record settings policy o = proxy :=
  if_pos h

theorem record_lastObservedAt : (proxy.record settings policy o).lastObservedAt =
    receive proxy.lastObservedAt o.observedAt := by
  unfold EgressProxy.record receive
  split <;> rfl

theorem record_success (h : ¬ Outdated proxy.lastObservedAt o.observedAt)
    (hsuccess : o.outcome = "success") :
    (proxy.record settings policy o).status = .healthy ∧
      (proxy.record settings policy o).consecutiveFailureCount = 0 ∧
      (proxy.record settings policy o).cooldownUntil = none := by
  unfold EgressProxy.record
  rw [if_neg h, if_pos hsuccess]
  exact ⟨rfl, rfl, rfl⟩

theorem fail_dated : (proxy.fail settings policy o).CooldownDated := by
  unfold EgressProxy.fail EgressProxy.CooldownDated
  simp only
  split
  · intro _ h
    cases h
  · intro h
    cases h

theorem record_dated (h : proxy.CooldownDated) :
    (proxy.record settings policy o).CooldownDated := by
  unfold EgressProxy.record
  split
  · exact h
  · split
    · intro hstatus
      cases hstatus
    · exact fail_dated

theorem selectLocked_cases (policy : ProxyPolicy) (now : ℕ) (aware : Bool)
    (proxy : EgressProxy) :
    proxy.selectLocked policy now aware = proxy ∨
      proxy.status = .cooldown ∧ proxy.selectLocked policy now aware =
        { proxy with status := .unknown, cooldownUntil := none } := by
  unfold EgressProxy.selectLocked
  split
  · unfold EgressProxy.leaveCooldown
    split
    · rename_i hstatus
      exact Or.inr ⟨hstatus, rfl⟩
    · exact Or.inl rfl
  · exact Or.inl rfl
  · exact Or.inl rfl

theorem flush_assign (a : HealthAction) :
    proxy.flush (a.assign settings proxy) proxy = a.assign settings proxy := by
  cases a with
  | read => simp [HealthAction.assign, EgressProxy.flush]
  | close => simp [HealthAction.assign, EgressProxy.flush]
  | recover => simp [HealthAction.assign, EgressProxy.flush, EgressProxy.recover]
  | select policy now aware =>
      show proxy.flush (proxy.selectLocked policy now aware) proxy = _
      rcases selectLocked_cases policy now aware proxy with h | ⟨-, h⟩
      · rw [h]
        simp [EgressProxy.flush, HealthAction.assign, h]
      · rw [h]
        simp [EgressProxy.flush, HealthAction.assign, h]
  | observe policy o =>
      show proxy.flush (proxy.record settings policy o) proxy = proxy.record settings policy o
      unfold EgressProxy.record
      split
      · simp [EgressProxy.flush]
      · split
        · simp [EgressProxy.flush, EgressProxy.succeed]
        · unfold EgressProxy.fail
          simp only
          split <;> simp [EgressProxy.flush]

theorem healthAct_upToDate {s : HealthShared} {x : Option EgressProxy} {a : HealthAction}
    (h : UpToDate s x a) :
    (healthAct settings s x a).2 =
      { s with row := a.assign settings s.row, log := s.log ++ a.logged } := by
  have hproxy : a.decides = true → x.getD s.row = s.row := by
    intro hdecides
    cases x with
    | none => rfl
    | some proxy => exact h hdecides proxy rfl
  cases a with
  | close => simp [healthAct, HealthAction.assign, HealthAction.logged]
  | read => simp [healthAct, HealthAction.assign, HealthAction.logged, EgressProxy.flush]
  | observe policy o => simp only [healthAct, hproxy rfl, flush_assign]
  | recover => simp only [healthAct, hproxy rfl, flush_assign]
  | select policy now aware => simp only [healthAct, hproxy rfl, flush_assign]

/-! ## Steps -/

/-- An observation takes its place among the timestamps. -/
theorem newest_observe {s : HealthShared} (h : IsNewest s.row.lastObservedAt s.timestamps) :
    IsNewest (s.row.record settings policy o).lastObservedAt
      (HealthShared.timestamps
        { s with row := s.row.record settings policy o, log := s.log ++ [.observed o] }) := by
  have htimes : HealthShared.timestamps
      { s with row := s.row.record settings policy o, log := s.log ++ [.observed o] } =
        s.timestamps ++ [o.observedAt] := by
    unfold HealthShared.timestamps
    rw [List.filterMap_append, List.append_assoc]
    rfl
  rw [htimes, record_lastObservedAt]
  exact h.receive o.observedAt

theorem mem_timestamps {s : HealthShared} (h : .observed o ∈ s.log) :
    o.observedAt ∈ s.timestamps :=
  List.mem_append_right _ (List.mem_filterMap.mpr ⟨_, h, rfl⟩)

theorem timestamps_lt {s : HealthShared} {t : ℕ} (hsince : ∀ t' ∈ s.since, t' < t)
    (hlog : ∀ o, .observed o ∈ s.log → o.observedAt < t) : ∀ t' ∈ s.timestamps, t' ≤ t := by
  intro t' ht'
  rcases List.mem_append.mp ht' with ht' | ht'
  · exact (hsince t' (Option.mem_toList.mp ht')).le
  · obtain ⟨e, he, heq⟩ := List.mem_filterMap.mp ht'
    cases e with
    | recovered => cases heq
    | observed o =>
        cases heq
        exact (hlog o he).le

theorem log_split {log earlier later : List HealthEvent} {last e : HealthEvent}
    (h : log ++ [last] = earlier ++ e :: later) :
    (later = [] ∧ log = earlier ∧ last = e) ∨
      ∃ before, later = before ++ [last] ∧ log = earlier ++ e :: before := by
  rcases List.eq_nil_or_concat later with rfl | ⟨before, x, rfl⟩
  · obtain ⟨hlog, hlast⟩ := List.append_inj' h rfl
    exact Or.inl ⟨rfl, hlog, List.singleton_inj.mp hlast⟩
  · right
    rw [List.concat_eq_append] at h ⊢
    rw [show earlier ++ e :: (before ++ [x]) = (earlier ++ e :: before) ++ [x] by simp] at h
    obtain ⟨hlog, hlast⟩ := List.append_inj' h rfl
    exact ⟨before, by rw [List.singleton_inj.mp hlast], hlog⟩

/-- **Observation lemma**: whatever arrives next, the proxies converge. -/
theorem converged_observe {s : HealthShared} (h : HealthInv s) :
    HealthShared.Converged
      { s with row := s.row.record settings policy o, log := s.log ++ [.observed o] } := by
  intro earlier best later hlog hsuccess hrecovered hsince hothers
  rcases log_split hlog with ⟨rfl, rfl, hlast⟩ | ⟨later, rfl, hbefore⟩
  · -- the success is what has arrived
    cases hlast
    refine record_success (h.newest.not_outdated (timestamps_lt hsince ?_)) hsuccess
    intro o' ho'
    exact hothers o' (List.mem_append_left _ ho')
  · -- the success was there before, and what has arrived is older
    have hbest : .observed best ∈ s.log := by
      rw [hbefore]
      exact List.mem_append_right _ (List.mem_cons_self ..)
    have hlt : o.observedAt < best.observedAt := by
      refine hothers o (List.mem_append_right _ (List.mem_append_right _ ?_))
      exact List.mem_singleton_self _
    have hold := h.newest.outdated_of_lt (mem_timestamps hbest) hlt
    show (s.row.record settings policy o).status = _ ∧ _
    rw [record_of_outdated hold]
    refine h.converged earlier best later hbefore hsuccess ?_ hsince ?_
    · exact fun hmem => hrecovered (List.mem_append_left _ hmem)
    · intro o' ho'
      refine hothers o' ?_
      rcases List.mem_append.mp ho' with ho' | ho'
      · exact List.mem_append_left _ ho'
      · exact List.mem_append_right _ (List.mem_append_left _ ho')

/-- **Step lemma.** -/
theorem healthInv_step {s : HealthShared} {x : Option EgressProxy} {a : HealthAction}
    (h : HealthInv s) (hfresh : UpToDate s x a) : HealthInv (healthAct settings s x a).2 := by
  rw [healthAct_upToDate hfresh]
  cases a with
  | read =>
      rw [show HealthAction.logged .read = [] from rfl, List.append_nil]
      exact h
  | close =>
      rw [show HealthAction.logged .close = [] from rfl, List.append_nil]
      exact h
  | observe policy o =>
      exact ⟨⟨record_dated h.cooldownDated, converged_observe h⟩, newest_observe h.newest⟩
  | recover =>
      refine ⟨⟨?_, ?_⟩, ?_⟩
      · intro hstatus
        cases hstatus
      · -- the recovery comes after every observation
        intro earlier best later hlog _ hrecovered _ _
        exfalso
        rcases log_split hlog with ⟨-, -, hlast⟩ | ⟨later, rfl, -⟩
        · cases hlast
        · exact hrecovered (List.mem_append_right _ (List.mem_singleton_self _))
      · have hnewest := h.newest
        unfold HealthShared.timestamps at hnewest ⊢
        simpa [HealthAction.logged, HealthAction.assign, EgressProxy.recover] using hnewest
  | select policy now aware =>
      rw [show HealthAction.logged (.select policy now aware) = [] from rfl, List.append_nil]
      show HealthInv { s with row := s.row.selectLocked policy now aware, log := s.log }
      rcases selectLocked_cases policy now aware s.row with heq | ⟨hstatus, heq⟩
      · rw [heq]
        exact h
      · rw [heq]
        refine ⟨⟨?_, ?_⟩, h.newest⟩
        · intro hunknown
          cases hunknown
        · -- a healthy proxy is in no cooldown
          intro earlier best later hlog hsuccess hrecovered hsince hothers
          have hhealthy := h.converged earlier best later hlog hsuccess hrecovered hsince hothers
          rw [hstatus] at hhealthy
          cases hhealthy.1

theorem observesInOrder_of_upToDate {s : HealthShared} {x : Option EgressProxy}
    {a : HealthAction} (hfresh : UpToDate s x a) : ObservesInOrder settings s x a := by
  constructor
  · intro t ht
    rw [healthAct_upToDate hfresh]
    cases a with
    | read => exact ⟨t, ht, le_rfl⟩
    | close => exact ⟨t, ht, le_rfl⟩
    | recover => exact ⟨t, ht, le_rfl⟩
    | select policy now aware =>
        refine ⟨t, ?_, le_rfl⟩
        show t ∈ (s.row.selectLocked policy now aware).lastObservedAt
        rcases selectLocked_cases policy now aware s.row with heq | ⟨-, heq⟩
        · rw [heq]
          exact ht
        · rw [heq]
          exact ht
    | observe policy o =>
        show ∃ t' ∈ (s.row.record settings policy o).lastObservedAt, t ≤ t'
        rw [record_lastObservedAt]
        unfold receive
        split
        · exact ⟨t, ht, le_rfl⟩
        · rename_i hnew
          exact ⟨_, rfl, not_lt.mp fun hlt => hnew ⟨t, ht, hlt⟩⟩
  · rintro policy o rfl hold
    rw [healthAct_upToDate hfresh]
    exact record_of_outdated hold

/-! ## Runs -/

/-- **Proxy health.** In every run of any sessions in which every session that
writes is up to date: a cooldown always has an end, a proxy whose newest
observation is a success is healthy until an operator recovers it, the newest
timestamp never decreases, and an older observation changes nothing. -/
theorem health_converges {ι : Type*} [DecidableEq ι] (settings : ProxySettings)
    (row : EgressProxy) (hdated : row.CooldownDated) (es : List (ι × HealthAction))
    (hfresh : Meets (Threads.step (healthAct settings)) (Threads.At UpToDate)
      (.start ⟨row, row.lastObservedAt, []⟩ none) es) :
    Throughout (Threads.step (healthAct settings)) (fun t => t.shared.Lawful)
        (.start ⟨row, row.lastObservedAt, []⟩ none) es ∧
      Meets (Threads.step (healthAct settings)) (Threads.At (ObservesInOrder settings))
        (.start ⟨row, row.lastObservedAt, []⟩ none) es := by
  have hstart : HealthInv ⟨row, row.lastObservedAt, []⟩ := by
    refine ⟨⟨hdated, ?_⟩, ?_, ?_⟩
    · intro earlier best later hlog
      simp at hlog
    · intro t ht
      exact List.mem_append_left _ (Option.mem_toList.mpr ht)
    · intro t ht
      rcases List.mem_append.mp ht with ht | ht
      · exact ⟨t, Option.mem_toList.mp ht, le_rfl⟩
      · cases ht
  have hstep : ∀ (t : Threads ι (Option EgressProxy) HealthShared) (e : ι × HealthAction),
      HealthInv t.shared → t.At UpToDate e →
      HealthInv (t.step (healthAct settings) e).shared :=
    fun t e ht he => healthInv_step ht he
  constructor
  · exact (throughout_of_meets hstep hstart hfresh).imp fun t ht => ht.toLawful
  · exact Meets.imp_of_invariant hstep
      (fun t e _ he => observesInOrder_of_upToDate he) hstart hfresh

end

/-! ## A probe that has loaded the proxy -/

section Sample

def probedProxy : EgressProxy :=
  { id := "proxy", protocol := .socks5, host := "10.0.0.1", port := 1080, status := .healthy }

def observation (outcome : String) (observedAt : ℕ) : HealthAction :=
  .observe (some { openPolicy with failureThreshold := 1 }) ⟨outcome, observedAt, none⟩

def healthyStart : Threads Bool (Option EgressProxy) HealthShared :=
  .start ⟨probedProxy, none, []⟩ none

/-- Sessions that record at once what they have observed. -/
def shortRun : List (Bool × HealthAction) :=
  [(false, observation "failure" 10), (false, .close), (true, observation "success" 20)]

theorem health_converges_sample :
    Throughout (Threads.step (healthAct proxySettings)) (fun t => t.shared.Lawful)
        healthyStart shortRun ∧
      Meets (Threads.step (healthAct proxySettings))
        (Threads.At (ObservesInOrder proxySettings)) healthyStart shortRun := by
  refine health_converges proxySettings probedProxy (fun h => nomatch h) shortRun
    ⟨?_, ?_, ?_, trivial⟩
  · rintro - proxy hproxy
    cases hproxy
  · intro hdecides
    cases hdecides
  · rintro - proxy hproxy
    cases hproxy

/-- The probe loads the proxy and connects; meanwhile a failure is recorded. -/
def loadedProbeRun (outcome : String) (observedAt : ℕ) : List (Bool × HealthAction) :=
  [(false, .read), (true, observation outcome observedAt), (false, observation "success" 20)]

/-- The newest observation is a success, and the proxy stays in its cooldown;
and the newest timestamp goes back. -/
theorem probe_on_loaded_proxy :
    ¬ Throughout (Threads.step (healthAct proxySettings)) (fun t => t.shared.Lawful)
        healthyStart (loadedProbeRun "failure" 10) ∧
      ¬ Meets (Threads.step (healthAct proxySettings))
        (Threads.At (ObservesInOrder proxySettings)) healthyStart (loadedProbeRun "success" 30) := by
  constructor
  · intro h
    have hlast := h.last
    have hstatus : (exec (Threads.step (healthAct proxySettings)) healthyStart
        (loadedProbeRun "failure" 10)).shared.row.status = .cooldown := by
      decide +kernel
    have hhealthy := hlast.converged [.observed ⟨"failure", 10, none⟩] ⟨"success", 20, none⟩ []
      (by decide +kernel) rfl List.not_mem_nil (by decide +kernel) ?_
    · rw [hstatus] at hhealthy
      cases hhealthy.1
    · intro o ho
      rcases List.mem_singleton.mp ho with ⟨⟩
      decide
  · rintro ⟨-, -, hlast, -⟩
    obtain ⟨t, ht, hle⟩ := hlast.neverDecreases 30 (by decide +kernel)
    have hback : (exec (Threads.step (healthAct proxySettings)) healthyStart
        (loadedProbeRun "success" 30)).shared.row.lastObservedAt = some 20 := by
      decide +kernel
    obtain rfl : (20 : ℕ) = t := Option.some.inj (hback.symm.trans ht)
    omega

end Sample

end MailboxService
