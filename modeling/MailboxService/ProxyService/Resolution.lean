import Mathlib.Data.List.Sort
import Mathlib.Data.Prod.Lex
import Mathlib.Data.String.Basic
import MailboxService.Foundation.IdentityMap
import MailboxService.Foundation.Loop
import MailboxService.Foundation.Table
import MailboxService.Models

/-!
# Proxy resolution

`proxy_service.py`: the egress proxies, the policy, and the choice of a proxy
for a mailbox. A call first reads the binding without a lock and keeps it where
its proxy can be used; otherwise it locks the mailbox, looks again, and binds it
to the first candidate that it can lock and use.

The second look is at the instances that the first one has loaded: a session
does not refresh them.
-/

namespace MailboxService

open Foundation

/-- Whether the driver hands out stored datetimes aware. Naive ones do not
compare with `utc_now()`. -/
class DatetimeDriver where
  aware : Bool

/-! ## Data -/

inductive EgressProxyProtocol where
  | httpConnect
  | socks5
  deriving DecidableEq, Repr

def EgressProxyProtocol.value : EgressProxyProtocol → String
  | httpConnect => "http_connect"
  | socks5 => "socks5"

inductive EgressProxyStatus where
  | healthy
  | cooldown
  | unknown
  deriving DecidableEq, Repr

structure EgressProxy where
  id : String
  protocol : EgressProxyProtocol
  host : String
  port : ℕ
  usernameCiphertext : Option String := none
  passwordCiphertext : Option String := none
  enabled : Bool := true
  priority : ℤ := 100
  status : EgressProxyStatus := .unknown
  consecutiveFailureCount : ℕ := 0
  cooldownUntil : Option ℕ := none
  lastSuccessAt : Option ℕ := none
  lastFailureAt : Option ℕ := none
  lastErrorSummary : Option String := none
  lastObservedAt : Option ℕ := none
  healthVersion : ℕ := 0
  deriving DecidableEq, Repr

/-- The singleton policy; its timeouts are left out. -/
structure ProxyPolicy where
  enabled : Bool := true
  required : Bool := false
  allowedProtocols : List String
  failureThreshold : ℕ := 3
  cooldownSeconds : ℕ := 300
  allowDirectDevelopment : Bool := true
  deriving DecidableEq, Repr

structure MailboxBinding where
  id : String
  egressProxyId : Option String := none
  proxyBoundAt : Option ℕ := none
  proxyLastSwitchAt : Option ℕ := none
  deriving DecidableEq, Repr

structure ResolvedProxy where
  id : String
  protocol : EgressProxyProtocol
  host : String
  port : ℕ
  username : Option String
  password : Option String
  deriving DecidableEq, Repr

structure ProxySettings where
  proxyEnabled : Bool
  proxyRequired : Bool
  proxyFailureThreshold : ℕ
  proxyCooldownSeconds : ℕ
  deriving DecidableEq, Repr

inductive ProxyError where
  | noHealthyEgressProxy (message : String)
  | lookup (message : String)
  | credentials (message : String)
  /-- `TypeError`: a naive and an aware datetime. -/
  | incomparable
  deriving DecidableEq, Repr

def egressProxySchema : Schema EgressProxy String := .keyed EgressProxy.id

def bindingSchema : Schema MailboxBinding String := .keyed MailboxBinding.id

structure ProxyPool where
  proxies : Table egressProxySchema := ∅
  bindings : Table bindingSchema := ∅

/-- What an attempt finds beside the tables: the time, and the proxies whose
rows other sessions hold locked. -/
structure ProxyView where
  now : ℕ
  locked : String → Bool

/-- The arguments of `resolve_for_mailbox`. -/
structure ResolveRequest where
  mailboxId : String
  excludedProxyIds : List String := []
  forceRebind : Bool := false
  deriving DecidableEq, Repr

/-! ## The policy -/

def ProxySettings.defaultPolicy (settings : ProxySettings) : ProxyPolicy where
  enabled := settings.proxyEnabled
  required := settings.proxyRequired
  allowedProtocols :=
    [EgressProxyProtocol.httpConnect.value, EgressProxyProtocol.socks5.value]
  failureThreshold := settings.proxyFailureThreshold
  cooldownSeconds := settings.proxyCooldownSeconds
  allowDirectDevelopment := !settings.proxyRequired

def ensurePolicy (settings : ProxySettings) (policy : Option ProxyPolicy) : ProxyPolicy :=
  policy.getD settings.defaultPolicy

def ProxyPolicy.allowsDirect (policy : ProxyPolicy) : Bool :=
  !(policy.required || !policy.allowDirectDevelopment)

/-! ## Proxies -/

/-- `_is_proxy_available`, on a row as the driver hands it out. -/
def EgressProxy.isAvailable [DatetimeDriver] (proxy : EgressProxy) (policy : ProxyPolicy)
    (now : ℕ) : Except ProxyError Bool :=
  if proxy.enabled = false ∨ proxy.protocol.value ∉ policy.allowedProtocols then .ok false
  else if proxy.status ≠ .cooldown then .ok true
  else
    match proxy.cooldownUntil with
    | none => .ok false
    | some cooldownUntil =>
        if DatetimeDriver.aware then .ok (cooldownUntil ≤ now) else .error .incomparable

def EgressProxy.leaveCooldown (proxy : EgressProxy) : EgressProxy :=
  if proxy.status = .cooldown then { proxy with status := .unknown, cooldownUntil := none }
  else proxy

/-- What a flush of the assigned values leaves in the row of a proxy. -/
def EgressProxy.flush (loaded assigned current : EgressProxy) : EgressProxy :=
  { current with
    status := flushColumn loaded.status assigned.status current.status
    consecutiveFailureCount := flushColumn loaded.consecutiveFailureCount
      assigned.consecutiveFailureCount current.consecutiveFailureCount
    cooldownUntil := flushColumn loaded.cooldownUntil assigned.cooldownUntil
      current.cooldownUntil
    lastSuccessAt := flushColumn loaded.lastSuccessAt assigned.lastSuccessAt
      current.lastSuccessAt
    lastFailureAt := flushColumn loaded.lastFailureAt assigned.lastFailureAt
      current.lastFailureAt
    lastErrorSummary := flushColumn loaded.lastErrorSummary assigned.lastErrorSummary
      current.lastErrorSummary
    lastObservedAt := flushColumn loaded.lastObservedAt assigned.lastObservedAt
      current.lastObservedAt
    healthVersion := flushColumn loaded.healthVersion assigned.healthVersion
      current.healthVersion }

/-- `_decrypt_optional`: without a configured key nothing can be decrypted. -/
def decryptOptional (cipher : Option (String → Except String String)) :
    Option String → Except ProxyError (Option String)
  | none => .ok none
  | some ciphertext =>
      match cipher with
      | none => .error (.credentials "未配置 credential_encryption_key，无法使用代理凭证")
      | some decrypt =>
          match decrypt ciphertext with
          | .ok plaintext => .ok (some plaintext)
          | .error message => .error (.credentials message)

def toResolvedProxy (cipher : Option (String → Except String String)) (proxy : EgressProxy) :
    Except ProxyError ResolvedProxy := do
  let username ← decryptOptional cipher proxy.usernameCiphertext
  let password ← decryptOptional cipher proxy.passwordCiphertext
  return { id := proxy.id, protocol := proxy.protocol, host := proxy.host, port := proxy.port
           username, password }

/-! ## Bindings -/

/-- `_update_binding`, on the instance of the mailbox. -/
def MailboxBinding.updateBinding (mailbox : MailboxBinding) (newProxyId : Option String)
    (now : ℕ) : MailboxBinding :=
  if mailbox.egressProxyId = newProxyId then mailbox
  else
    { mailbox with
      egressProxyId := newProxyId
      proxyBoundAt := if newProxyId.isSome then some now else none
      proxyLastSwitchAt := some now }

/-- What a flush of the assigned values leaves in the row of a mailbox. -/
def MailboxBinding.flush (loaded assigned current : MailboxBinding) : MailboxBinding :=
  { current with
    egressProxyId := flushColumn loaded.egressProxyId assigned.egressProxyId
      current.egressProxyId
    proxyBoundAt := flushColumn loaded.proxyBoundAt assigned.proxyBoundAt current.proxyBoundAt
    proxyLastSwitchAt := flushColumn loaded.proxyLastSwitchAt assigned.proxyLastSwitchAt
      current.proxyLastSwitchAt }

theorem MailboxBinding.flush_keeps (loaded assigned : MailboxBinding) :
    bindingSchema.Keeps (loaded.flush assigned) :=
  Schema.keyed_keeps fun _ => rfl

theorem EgressProxy.flush_keeps (loaded assigned : EgressProxy) :
    egressProxySchema.Keeps (loaded.flush assigned) :=
  Schema.keyed_keeps fun _ => rfl

namespace ProxyPool

/-- `_load_current_proxy`, on a fresh session. -/
def currentProxy (pool : ProxyPool) (mailbox : MailboxBinding) : Option EgressProxy :=
  mailbox.egressProxyId.bind pool.proxies.get?

def boundTo (pool : ProxyPool) (mailboxId : String) : Option String :=
  (pool.bindings.get? mailboxId).bind MailboxBinding.egressProxyId

def boundMailboxCount (pool : ProxyPool) (proxyId : String) : ℕ :=
  pool.bindings.rowcount fun m => m.egressProxyId = some proxyId

def flushBinding (pool : ProxyPool) (loaded assigned : MailboxBinding) : ProxyPool :=
  { pool with
    bindings := pool.bindings.updateWhere
      (Table.whereKey bindingSchema loaded.id fun _ => true) (loaded.flush assigned)
      (MailboxBinding.flush_keeps loaded assigned) }

def flushProxy (pool : ProxyPool) (loaded assigned : EgressProxy) : ProxyPool :=
  { pool with
    proxies := pool.proxies.updateWhere
      (Table.whereKey egressProxySchema loaded.id fun _ => true) (loaded.flush assigned)
      (EgressProxy.flush_keeps loaded assigned) }

/-- The order of the candidates: priority, number of bound mailboxes, id. -/
def rank (pool : ProxyPool) (proxy : EgressProxy) : ℤ ×ₗ ℕ ×ₗ String :=
  toLex (proxy.priority, toLex (pool.boundMailboxCount proxy.id, proxy.id))

/-- The ids that `_select_candidate` ranks, without a lock. -/
def candidateProxyIds (pool : ProxyPool) (policy : ProxyPolicy) (now : ℕ)
    (excludedProxyIds : List String) : List String :=
  ((pool.proxies.select fun p =>
      p.enabled && policy.allowedProtocols.contains p.protocol.value &&
        (p.status != .cooldown || p.cooldownUntil.all (· ≤ now)) &&
        !excludedProxyIds.contains p.id).insertionSort
    fun a b => pool.rank a ≤ pool.rank b).map EgressProxy.id

/-- `FOR UPDATE SKIP LOCKED`, by primary key. -/
def lockProxy (pool : ProxyPool) (view : ProxyView) (proxyId : String) : Option EgressProxy :=
  if view.locked proxyId then none else pool.proxies.get? proxyId

end ProxyPool

/-! ## A call -/

section

variable [DatetimeDriver]

/-- What a session holds when it asks for the row lock: the tables as its plain
reads see them, and the instances it has loaded. -/
structure ProxySession where
  snapshot : ProxyPool
  mailbox : MailboxBinding
  proxies : Dict String EgressProxy

/-- `session.get` of the loaded mailbox's proxy. -/
def ProxySession.currentProxy (session : ProxySession) : Option EgressProxy :=
  session.mailbox.egressProxyId.bind session.proxies.lookup

/-- A session that has read the mailbox, and its proxy if it has one. -/
def ProxyPool.openSession (pool : ProxyPool) (mailbox : MailboxBinding) : ProxySession where
  snapshot := pool
  mailbox := mailbox
  proxies :=
    match pool.currentProxy mailbox with
    | some proxy => (load ∅ proxy.id proxy).2
    | none => ∅

/-- What the unlocked read comes to. -/
inductive Peek where
  | answered (resolved : Option ResolvedProxy)
  | unusable (session : ProxySession)

/-- The current proxy, if it may be kept. -/
def ResolveRequest.reusable (request : ResolveRequest) (policy : ProxyPolicy) (now : ℕ) :
    Option EgressProxy → Except ProxyError (Option EgressProxy)
  | none => .ok none
  | some proxy =>
      if request.forceRebind || request.excludedProxyIds.contains proxy.id then .ok none
      else
        match proxy.isAvailable policy now with
        | .ok available => .ok (if available then some proxy else none)
        | .error e => .error e

/-- The first part of `_resolve_for_mailbox_in_session`: without a lock. -/
def peekBinding (cipher : Option (String → Except String String)) (policy : ProxyPolicy)
    (pool : ProxyPool) (request : ResolveRequest) (now : ℕ) : Except ProxyError Peek :=
  if policy.enabled = false then
    if policy.allowsDirect then .ok (.answered none)
    else .error (.noHealthyEgressProxy "代理池已关闭，且当前策略不允许直连")
  else
    match pool.bindings.get? request.mailboxId with
    | none => .error (.lookup "邮箱不存在")
    | some mailbox =>
        match request.reusable policy now (pool.currentProxy mailbox) with
        | .error e => .error e
        | .ok (some proxy) => (toResolvedProxy cipher proxy).map fun r => .answered (some r)
        | .ok none => .ok (.unusable (pool.openSession mailbox))

/-- One attempt of `_select_candidate` on the ranked ids: a candidate that is
locked elsewhere or not available is passed over. -/
def selectCandidate (policy : ProxyPolicy) (session : ProxySession) (pool : ProxyPool)
    (view : ProxyView) : List String → Except ProxyError (Option EgressProxy)
  | [] => .ok none
  | proxyId :: proxyIds =>
      match pool.lockProxy view proxyId with
      | none => selectCandidate policy session pool view proxyIds
      | some row =>
          -- a loaded proxy is handed out as it was loaded
          let proxy := (load session.proxies proxyId row).1
          match proxy.isAvailable policy view.now with
          | .error e => .error e
          | .ok false => selectCandidate policy session pool view proxyIds
          | .ok true => .ok (some proxy)

/-- An attempt of `_select_candidate_with_retry`; another one follows where it
finds nothing. -/
def selectionAttempt (policy : ProxyPolicy) (session : ProxySession) (pool : ProxyPool)
    (request : ResolveRequest) (views : ℕ → ProxyView) (attempt : ℕ) (_ : Unit) :
    Round Unit (Except ProxyError EgressProxy) :=
  let view := views attempt
  match selectCandidate policy session pool view
      (session.snapshot.candidateProxyIds policy view.now request.excludedProxyIds) with
  | .error e => .leave (.error e)
  | .ok (some proxy) => .leave (.ok proxy)
  | .ok none => .again ()

/-- `_select_candidate_with_retry`: eight attempts. -/
def selectCandidateWithRetry (policy : ProxyPolicy) (session : ProxySession)
    (pool : ProxyPool) (request : ResolveRequest) (views : ℕ → ProxyView) :
    Option (Except ProxyError EgressProxy) :=
  loop (selectionAttempt policy session pool request views) 8 1 ()

/-- The second part, under the lock on the mailbox, and the commit. View 0 is
that of the second look, views 1 to 8 are those of the attempts, and view 9 is
that of the binding. -/
def rebindMailbox (cipher : Option (String → Except String String)) (policy : ProxyPolicy)
    (session : ProxySession) (pool : ProxyPool) (request : ResolveRequest)
    (views : ℕ → ProxyView) : Except ProxyError (Option ResolvedProxy × ProxyPool) :=
  if (pool.bindings.get? request.mailboxId).isNone then .error (.lookup "邮箱不存在")
  else
    match request.reusable policy (views 0).now session.currentProxy with
    | .error e => .error e
    | .ok (some proxy) => (toResolvedProxy cipher proxy).map fun r => (some r, pool)
    | .ok none =>
        match selectCandidateWithRetry policy session pool request views with
        | some (.error e) => .error e
        | some (.ok proxy) =>
            let mailbox := session.mailbox.updateBinding (some proxy.id) (views 9).now
            (toResolvedProxy cipher proxy).map fun r =>
              (some r, (pool.flushProxy proxy proxy.leaveCooldown).flushBinding
                session.mailbox mailbox)
        | none =>
            if policy.allowsDirect then
              let mailbox := session.mailbox.updateBinding none (views 9).now
              .ok (none, pool.flushBinding session.mailbox mailbox)
            else .error (.noHealthyEgressProxy "没有可用的全局出口代理")

structure ProxyState where
  policy : Option ProxyPolicy
  pool : ProxyPool

/-- `resolve_for_mailbox` in a transaction of its own, while no other session
changes anything. It is committed unless it raises. -/
def resolveForMailbox (settings : ProxySettings)
    (cipher : Option (String → Except String String)) (s : ProxyState)
    (request : ResolveRequest) (now : ℕ) (views : ℕ → ProxyView) :
    Except ProxyError (Option ResolvedProxy) × ProxyState :=
  let policy := ensurePolicy settings s.policy
  match peekBinding cipher policy s.pool request now with
  | .error e => (.error e, s)
  | .ok (.answered resolved) => (.ok resolved, { s with policy := some policy })
  | .ok (.unusable session) =>
      match rebindMailbox cipher policy session s.pool request views with
      | .error e => (.error e, s)
      | .ok (resolved, pool) => (.ok resolved, ⟨some policy, pool⟩)

/-! ## What a call may come to -/

omit [DatetimeDriver] in
def EgressProxy.InCooldown (proxy : EgressProxy) (now : ℕ) : Prop :=
  proxy.status = .cooldown ∧ ∀ cooldownUntil ∈ proxy.cooldownUntil, now < cooldownUntil

structure EgressProxy.MayServe (proxy : EgressProxy) (policy : ProxyPolicy)
    (excludedProxyIds : List String) (now : ℕ) : Prop where
  enabled : proxy.enabled = true
  protocol : proxy.protocol.value ∈ policy.allowedProtocols
  notExcluded : proxy.id ∉ excludedProxyIds
  notInCooldown : ¬ proxy.InCooldown now

/-- **A safe outcome**: nothing has changed; or the mailbox is bound to the
proxy that is returned, which may serve it at one of the readings of the clock;
or the policy allows it to go direct. -/
def ResolutionSafe (s : ProxyState) (policy : ProxyPolicy) (request : ResolveRequest)
    (readings : ℕ → Prop) :
    Except ProxyError (Option ResolvedProxy) × ProxyState → Prop
  | (.error _, s') => s' = s
  | (.ok (some resolved), s') =>
      ∃ proxy ∈ s.pool.proxies, resolved.id = proxy.id ∧
        (∃ t, readings t ∧ proxy.MayServe policy request.excludedProxyIds t) ∧
        s'.pool.boundTo request.mailboxId = some proxy.id
  | (.ok none, _) => policy.required = false ∧ policy.allowDirectDevelopment = true

/-- **Stickiness**: with an enabled policy, a current proxy that is available,
not excluded and whose credentials can be decrypted is returned unless a
rebinding is forced. Nothing changes but the policy row, where there was none. -/
def KeepsSticky (cipher : Option (String → Except String String)) (s : ProxyState)
    (policy : ProxyPolicy) (request : ResolveRequest) (now : ℕ)
    (outcome : Except ProxyError (Option ResolvedProxy) × ProxyState) : Prop :=
  ∀ mailbox proxy resolved, policy.enabled = true → request.forceRebind = false →
    s.pool.bindings.get? request.mailboxId = some mailbox →
    s.pool.currentProxy mailbox = some proxy → proxy.id ∉ request.excludedProxyIds →
    proxy.isAvailable policy now = .ok true → toResolvedProxy cipher proxy = .ok resolved →
    outcome = (.ok (some resolved), { s with policy := some policy })

/-! ## Availability -/

variable {policy : ProxyPolicy} {now : ℕ}

theorem isAvailable_ok {proxy : EgressProxy} (h : proxy.isAvailable policy now = .ok true) :
    proxy.enabled = true ∧ proxy.protocol.value ∈ policy.allowedProtocols ∧
      ¬ proxy.InCooldown now := by
  unfold EgressProxy.isAvailable at h
  split at h
  · cases h
  · rename_i hcan
    rw [not_or, Bool.not_eq_false, not_not] at hcan
    refine ⟨hcan.1, hcan.2, ?_⟩
    rintro ⟨hstatus, hlater⟩
    rw [if_neg (not_not.mpr hstatus)] at h
    split at h
    · cases h
    · rename_i t ht
      split at h
      · rw [Except.ok.injEq, decide_eq_true_eq] at h
        exact absurd h (Nat.not_le.mpr (hlater t ht))
      · cases h

theorem reusable_ok {request : ResolveRequest} {current : Option EgressProxy}
    {proxy : EgressProxy} (h : request.reusable policy now current = .ok (some proxy)) :
    current = some proxy ∧ request.forceRebind = false ∧
      proxy.id ∉ request.excludedProxyIds ∧ proxy.isAvailable policy now = .ok true := by
  unfold ResolveRequest.reusable at h
  split at h
  · cases h
  · rename_i p
    split at h
    · cases h
    · rename_i hkept
      rw [Bool.or_eq_true, not_or, Bool.not_eq_true, List.contains_iff_mem] at hkept
      split at h
      · rename_i available havailable
        cases available with
        | false => cases h
        | true =>
            cases h
            exact ⟨rfl, hkept.1, hkept.2, havailable⟩
      · cases h

theorem reusable_of_available {request : ResolveRequest} {proxy : EgressProxy}
    (hforce : request.forceRebind = false) (hexcluded : proxy.id ∉ request.excludedProxyIds)
    (h : proxy.isAvailable policy now = .ok true) :
    request.reusable policy now (some proxy) = .ok (some proxy) := by
  unfold ResolveRequest.reusable
  have hkept : ¬ (request.forceRebind || request.excludedProxyIds.contains proxy.id) = true := by
    rw [Bool.or_eq_true, not_or, hforce, List.contains_iff_mem]
    exact ⟨Bool.false_ne_true, hexcluded⟩
  simp only [if_neg hkept, h, if_true]

omit [DatetimeDriver] in
theorem toResolvedProxy_id {cipher : Option (String → Except String String)}
    {proxy : EgressProxy} {resolved : ResolvedProxy}
    (h : toResolvedProxy cipher proxy = .ok resolved) : resolved.id = proxy.id := by
  unfold toResolvedProxy at h
  cases huser : decryptOptional cipher proxy.usernameCiphertext with
  | error e =>
      rw [huser] at h
      cases h
  | ok username =>
      cases hpass : decryptOptional cipher proxy.passwordCiphertext with
      | error e =>
          rw [huser, hpass] at h
          cases h
      | ok password =>
          rw [huser, hpass] at h
          cases h
          rfl

omit [DatetimeDriver] in
theorem allowsDirect_iff : policy.allowsDirect = true ↔
    policy.required = false ∧ policy.allowDirectDevelopment = true := by
  unfold ProxyPolicy.allowsDirect
  rw [Bool.not_eq_true', Bool.or_eq_false_iff, Bool.not_eq_false']

/-! ## Selection -/

section

variable {session : ProxySession} {pool : ProxyPool} {request : ResolveRequest}
  {view : ProxyView} {views : ℕ → ProxyView}

/-- A candidate that an attempt passes over: locked elsewhere, gone, or not
available. -/
def PassedOver (policy : ProxyPolicy) (session : ProxySession) (pool : ProxyPool)
    (view : ProxyView) (proxyId : String) : Prop :=
  ∀ row, pool.lockProxy view proxyId = some row →
    (load session.proxies proxyId row).1.isAvailable policy view.now = .ok false

/-- The candidate that an attempt takes, as the session sees it. -/
def TakenAs (policy : ProxyPolicy) (session : ProxySession) (pool : ProxyPool)
    (view : ProxyView) (proxyId : String) (proxy : EgressProxy) : Prop :=
  ∃ row, pool.lockProxy view proxyId = some row ∧
    (load session.proxies proxyId row).1 = proxy ∧
    proxy.isAvailable policy view.now = .ok true

/-- **An attempt** takes the first candidate that it does not pass over. -/
theorem selectCandidate_some {proxyIds : List String} {proxy : EgressProxy} :
    selectCandidate policy session pool view proxyIds = .ok (some proxy) ↔
      ∃ before proxyId after, proxyIds = before ++ proxyId :: after ∧
        (∀ x ∈ before, PassedOver policy session pool view x) ∧
        TakenAs policy session pool view proxyId proxy := by
  induction proxyIds with
  | nil =>
      constructor
      · intro h
        cases h
      · rintro ⟨before, proxyId, after, h, -⟩
        simp at h
  | cons x proxyIds ih =>
      have hskip : PassedOver policy session pool view x →
          selectCandidate policy session pool view (x :: proxyIds) =
            selectCandidate policy session pool view proxyIds := by
        intro hx
        rw [selectCandidate]
        split
        · rfl
        · rename_i row hrow
          simp only [hx row hrow]
      -- a candidate that is not passed over decides the attempt
      have hstop : ¬ PassedOver policy session pool view x →
          (selectCandidate policy session pool view (x :: proxyIds) = .ok (some proxy) ↔
            TakenAs policy session pool view x proxy) := by
        intro hx
        unfold PassedOver at hx
        push Not at hx
        obtain ⟨row, hrow, hnot⟩ := hx
        rw [selectCandidate, hrow]
        simp only
        cases havailable : (load session.proxies x row).1.isAvailable policy view.now with
        | error e =>
            constructor
            · intro h
              cases h
            · rintro ⟨row', hrow', rfl, htrue⟩
              rw [hrow] at hrow'
              cases hrow'
              rw [havailable] at htrue
              cases htrue
        | ok available =>
            cases available with
            | false => exact absurd havailable hnot
            | true =>
                constructor
                · intro h
                  cases h
                  exact ⟨row, hrow, rfl, havailable⟩
                · rintro ⟨row', hrow', rfl, -⟩
                  rw [hrow] at hrow'
                  cases hrow'
                  rfl
      by_cases hx : PassedOver policy session pool view x
      · rw [hskip hx, ih]
        constructor
        · rintro ⟨before, proxyId, after, rfl, hbefore, htaken⟩
          exact ⟨x :: before, proxyId, after, rfl, List.forall_mem_cons.mpr ⟨hx, hbefore⟩,
            htaken⟩
        · rintro ⟨before, proxyId, after, heq, hbefore, htaken⟩
          cases before with
          | nil =>
              obtain ⟨rfl, rfl⟩ := List.cons.inj heq
              obtain ⟨row, hrow, rfl, htrue⟩ := htaken
              rw [hx row hrow] at htrue
              cases htrue
          | cons y before =>
              obtain ⟨rfl, rfl⟩ := List.cons.inj heq
              exact ⟨before, proxyId, after, rfl,
                fun z hz => hbefore z (List.mem_cons_of_mem _ hz), htaken⟩
      · rw [hstop hx]
        constructor
        · intro htaken
          exact ⟨[], x, proxyIds, rfl, fun y hy => absurd hy List.not_mem_nil, htaken⟩
        · rintro ⟨before, proxyId, after, heq, hbefore, htaken⟩
          cases before with
          | nil =>
              obtain ⟨rfl, rfl⟩ := List.cons.inj heq
              exact htaken
          | cons y before =>
              obtain ⟨rfl, rfl⟩ := List.cons.inj heq
              exact absurd (hbefore x (List.mem_cons_self ..)) hx

def attemptCandidates (policy : ProxyPolicy) (session : ProxySession) (request : ResolveRequest)
    (view : ProxyView) : List String :=
  session.snapshot.candidateProxyIds policy view.now request.excludedProxyIds

/-- **The selection** takes what the first attempt finds that does not find
nothing. -/
theorem selectCandidateWithRetry_ok {proxy : EgressProxy} :
    selectCandidateWithRetry policy session pool request views = some (.ok proxy) ↔
      ∃ n < 8, (∀ j < n, selectCandidate policy session pool (views (1 + j))
          (attemptCandidates policy session request (views (1 + j))) = .ok none) ∧
        selectCandidate policy session pool (views (1 + n))
          (attemptCandidates policy session request (views (1 + n))) = .ok (some proxy) := by
  have hagain : ∀ k, selectionAttempt policy session pool request views k () = .again () ↔
      selectCandidate policy session pool (views k)
        (attemptCandidates policy session request (views k)) = .ok none := by
    intro k
    unfold selectionAttempt attemptCandidates
    simp only
    split <;> simp_all
  have hleave : ∀ k, selectionAttempt policy session pool request views k () = .leave (.ok proxy) ↔
      selectCandidate policy session pool (views k)
        (attemptCandidates policy session request (views k)) = .ok (some proxy) := by
    intro k
    unfold selectionAttempt attemptCandidates
    simp only
    split <;> simp_all
  unfold selectCandidateWithRetry
  rw [retry_eq_some]
  simp only [hagain, hleave]

omit [DatetimeDriver] in
theorem not_excluded_of_candidate {proxyId : String} {excluded : List String}
    (h : proxyId ∈ pool.candidateProxyIds policy now excluded) : proxyId ∉ excluded := by
  obtain ⟨p, hp, rfl⟩ := List.mem_map.mp h
  rw [List.mem_insertionSort, Table.mem_select, Bool.and_eq_true, Bool.not_eq_true'] at hp
  intro hmem
  rw [← List.contains_iff_mem, hp.2.2] at hmem
  cases hmem

/-! ## Bindings -/

omit [DatetimeDriver] in
theorem updateBinding_proxy (mailbox : MailboxBinding) (newProxyId : Option String) (now : ℕ) :
    (mailbox.updateBinding newProxyId now).egressProxyId = newProxyId := by
  unfold MailboxBinding.updateBinding
  split
  · assumption
  · rfl

omit [DatetimeDriver] in
theorem boundTo_flushBinding {loaded assigned current : MailboxBinding}
    (hcurrent : pool.bindings.get? loaded.id = some current) :
    (pool.flushBinding loaded assigned).boundTo loaded.id =
      flushColumn loaded.egressProxyId assigned.egressProxyId current.egressProxyId := by
  unfold ProxyPool.boundTo ProxyPool.flushBinding
  simp only
  rw [Table.get?_updateWhere_key, hcurrent]
  rfl

omit [DatetimeDriver] in
@[simp] theorem flushProxy_bindings (loaded assigned : EgressProxy) :
    (pool.flushProxy loaded assigned).bindings = pool.bindings := rfl

/-! ## The call -/

omit [DatetimeDriver] in
theorem currentProxy_id {mailbox : MailboxBinding} {proxy : EgressProxy}
    (h : pool.currentProxy mailbox = some proxy) :
    mailbox.egressProxyId = some proxy.id ∧ pool.proxies.get? proxy.id = some proxy := by
  obtain ⟨k, hk, hget⟩ := Option.bind_eq_some_iff.mp h
  have hid : proxy.id = k := Table.key_of_get? hget
  rw [hid]
  exact ⟨hk, hget⟩

omit [DatetimeDriver] in
theorem load_openSession {mailbox : MailboxBinding} {proxyId : String} {row : EgressProxy}
    (h : pool.proxies.get? proxyId = some row) :
    (load (pool.openSession mailbox).proxies proxyId row).1 = row := by
  unfold ProxyPool.openSession
  cases hcurrent : pool.currentProxy mailbox with
  | none => rfl
  | some proxy =>
      simp only [load_fresh]
      by_cases heq : proxyId = proxy.id
      · subst heq
        rw [load_loaded]
        have hget := (currentProxy_id hcurrent).2
        rw [hget] at h
        exact Option.some.inj h
      · have hmiss : ((∅ : Dict String EgressProxy).set proxy.id proxy).lookup proxyId = none := by
          rw [Dict.lookup_set, if_neg heq]
          rfl
        unfold load
        rw [hmiss]

omit [DatetimeDriver] in
theorem currentProxy_openSession (mailbox : MailboxBinding) :
    (pool.openSession mailbox).currentProxy = pool.currentProxy mailbox := by
  unfold ProxySession.currentProxy
  cases hcurrent : pool.currentProxy mailbox with
  | none =>
      have hproxies : (pool.openSession mailbox).proxies = ∅ := by
        unfold ProxyPool.openSession
        rw [hcurrent]
      rw [hproxies]
      show mailbox.egressProxyId.bind _ = none
      rw [Option.bind_eq_none_iff]
      intro k _
      rfl
  | some proxy =>
      obtain ⟨hk, -⟩ := currentProxy_id hcurrent
      have hproxies : (pool.openSession mailbox).proxies = (∅ : Dict String EgressProxy).set
          proxy.id proxy := by
        unfold ProxyPool.openSession
        rw [hcurrent]
        rfl
      show mailbox.egressProxyId.bind _ = some proxy
      rw [hk, Option.bind_some, hproxies, Dict.lookup_set, if_pos rfl]

theorem mayServe_of_taken {mailbox : MailboxBinding} {proxyId : String} {proxy : EgressProxy}
    {excluded : List String}
    (htaken : TakenAs policy (pool.openSession mailbox) pool view proxyId proxy)
    (hcandidate : proxyId ∈ pool.candidateProxyIds policy view.now excluded) :
    proxy ∈ pool.proxies ∧ proxy.MayServe policy excluded view.now := by
  obtain ⟨row, hrow, heq, havailable⟩ := htaken
  unfold ProxyPool.lockProxy at hrow
  split at hrow
  · cases hrow
  · rw [load_openSession hrow] at heq
    subst heq
    have hid : row.id = proxyId := Table.key_of_get? hrow
    obtain ⟨henabled, hprotocol, hcooldown⟩ := isAvailable_ok havailable
    refine ⟨Table.mem_of_get? hrow, henabled, hprotocol, ?_, hcooldown⟩
    rw [hid]
    exact not_excluded_of_candidate hcandidate

/-- What the selection finds may serve, while nothing changes. -/
theorem mayServe_of_selected {mailbox : MailboxBinding} {proxy : EgressProxy}
    (h : selectCandidateWithRetry policy (pool.openSession mailbox) pool request views =
      some (.ok proxy)) :
    proxy ∈ pool.proxies ∧
      ∃ k, proxy.MayServe policy request.excludedProxyIds (views k).now := by
  obtain ⟨n, -, -, hfound⟩ := selectCandidateWithRetry_ok.mp h
  obtain ⟨before, proxyId, after, hids, -, htaken⟩ := selectCandidate_some.mp hfound
  have hcandidate : proxyId ∈ attemptCandidates policy (pool.openSession mailbox) request
      (views (1 + n)) := by
    rw [hids]
    exact List.mem_append_right _ (List.mem_cons_self ..)
  obtain ⟨hmem, hserve⟩ := mayServe_of_taken htaken hcandidate
  exact ⟨hmem, 1 + n, hserve⟩

theorem kept_safe {cipher : Option (String → Except String String)} {mailbox : MailboxBinding}
    {proxy : EgressProxy} {resolved : ResolvedProxy}
    (hmailbox : pool.bindings.get? request.mailboxId = some mailbox)
    (hreuse : request.reusable policy now (pool.currentProxy mailbox) = .ok (some proxy))
    (hresolved : toResolvedProxy cipher proxy = .ok resolved) :
    proxy ∈ pool.proxies ∧ resolved.id = proxy.id ∧
      proxy.MayServe policy request.excludedProxyIds now ∧
      pool.boundTo request.mailboxId = some proxy.id := by
  obtain ⟨hcurrent, -, hnot, havailable⟩ := reusable_ok hreuse
  obtain ⟨hbound, hget⟩ := currentProxy_id hcurrent
  obtain ⟨henabled, hprotocol, hcooldown⟩ := isAvailable_ok havailable
  refine ⟨Table.mem_of_get? hget, toResolvedProxy_id hresolved,
    ⟨henabled, hprotocol, hnot, hcooldown⟩, ?_⟩
  unfold ProxyPool.boundTo
  rw [hmailbox]
  exact hbound

/-- The unlocked read goes direct, or keeps the current proxy. -/
theorem peekBinding_answered {cipher : Option (String → Except String String)}
    {resolved : Option ResolvedProxy}
    (h : peekBinding cipher policy pool request now = .ok (.answered resolved)) :
    (resolved = none ∧ policy.allowsDirect = true) ∨
      ∃ mailbox proxy r, resolved = some r ∧
        pool.bindings.get? request.mailboxId = some mailbox ∧
        request.reusable policy now (pool.currentProxy mailbox) = .ok (some proxy) ∧
        toResolvedProxy cipher proxy = .ok r := by
  unfold peekBinding at h
  split at h
  · split at h
    · rename_i hdirect
      cases h
      exact Or.inl ⟨rfl, hdirect⟩
    · cases h
  · split at h
    · cases h
    · rename_i mailbox hmailbox
      split at h
      · cases h
      · rename_i proxy hreuse
        cases hr : toResolvedProxy cipher proxy with
        | error e =>
            rw [hr] at h
            cases h
        | ok r =>
            rw [hr] at h
            cases h
            exact Or.inr ⟨mailbox, proxy, r, rfl, hmailbox, hreuse, hr⟩
      · cases h

theorem peekBinding_unusable {cipher : Option (String → Except String String)}
    {session : ProxySession}
    (h : peekBinding cipher policy pool request now = .ok (.unusable session)) :
    policy.enabled = true ∧ ∃ mailbox, pool.bindings.get? request.mailboxId = some mailbox ∧
      request.reusable policy now (pool.currentProxy mailbox) = .ok none ∧
      session = pool.openSession mailbox := by
  unfold peekBinding at h
  split at h
  · split at h <;> cases h
  · rename_i henabled
    refine ⟨Bool.not_eq_false _ ▸ henabled, ?_⟩
    split at h
    · cases h
    · rename_i mailbox hmailbox
      split at h
      · cases h
      · rename_i proxy hreuse
        cases hr : toResolvedProxy cipher proxy with
        | error e =>
            rw [hr] at h
            cases h
        | ok r =>
            rw [hr] at h
            cases h
      · rename_i hreuse
        cases h
        exact ⟨mailbox, hmailbox, hreuse, rfl⟩

/-- **The second part** keeps the proxy that the session has loaded, binds the
mailbox to what it selects, or unbinds it. -/
theorem rebindMailbox_ok {cipher : Option (String → Except String String)}
    {session : ProxySession} {resolved : Option ResolvedProxy} {pool' : ProxyPool}
    (h : rebindMailbox cipher policy session pool request views = .ok (resolved, pool')) :
    (∃ proxy r, request.reusable policy (views 0).now session.currentProxy =
        .ok (some proxy) ∧ toResolvedProxy cipher proxy = .ok r ∧ resolved = some r ∧
        pool' = pool) ∨
      request.reusable policy (views 0).now session.currentProxy = .ok none ∧
        ((∃ proxy r, selectCandidateWithRetry policy session pool request views =
            some (.ok proxy) ∧ toResolvedProxy cipher proxy = .ok r ∧ resolved = some r ∧
            pool' = (pool.flushProxy proxy proxy.leaveCooldown).flushBinding session.mailbox
              (session.mailbox.updateBinding (some proxy.id) (views 9).now)) ∨
          policy.allowsDirect = true ∧ resolved = none ∧
            selectCandidateWithRetry policy session pool request views = none ∧
            pool' = pool.flushBinding session.mailbox
              (session.mailbox.updateBinding none (views 9).now)) := by
  unfold rebindMailbox at h
  split at h
  · cases h
  · split at h
    · cases h
    · rename_i proxy hreuse
      left
      -- the loaded proxy is usable again, and nothing is written
      cases hr : toResolvedProxy cipher proxy with
      | error e =>
          rw [hr] at h
          cases h
      | ok r =>
          rw [hr] at h
          cases h
          exact ⟨proxy, r, hreuse, hr, rfl, rfl⟩
    · rename_i hreuse
      refine Or.inr ⟨hreuse, ?_⟩
      split at h
      · cases h
      · rename_i proxy hselect
        left
        cases hr : toResolvedProxy cipher proxy with
        | error e =>
            simp only [hr] at h
            cases h
        | ok r =>
            simp only [hr] at h
            cases h
            exact ⟨proxy, r, hselect, hr, rfl, rfl⟩
      · rename_i hselect
        right
        -- no candidate: the policy lets the mailbox go direct, or the call fails
        split at h
        · rename_i hdirect
          cases h
          exact ⟨hdirect, rfl, hselect, rfl⟩
        · cases h

end

section

variable (settings : ProxySettings) (cipher : Option (String → Except String String))
  (s : ProxyState) (request : ResolveRequest) (now : ℕ) (views : ℕ → ProxyView)

theorem resolveForMailbox_safe :
    ResolutionSafe s (ensurePolicy settings s.policy) request
      (fun t => t = now ∨ ∃ k, t = (views k).now)
      (resolveForMailbox settings cipher s request now views) := by
  unfold resolveForMailbox
  simp only
  set policy := ensurePolicy settings s.policy
  cases hpeek : peekBinding cipher policy s.pool request now with
  | error e => rfl
  | ok peek =>
      cases peek with
      | answered resolved =>
          rcases peekBinding_answered hpeek with
            ⟨rfl, hdirect⟩ | ⟨mailbox, proxy, r, rfl, hmailbox, hreuse, hr⟩
          · exact allowsDirect_iff.mp hdirect
          · obtain ⟨hmem, hid, hserve, hbound⟩ := kept_safe hmailbox hreuse hr
            exact ⟨proxy, hmem, hid, ⟨now, Or.inl rfl, hserve⟩, hbound⟩
      | unusable session =>
          obtain ⟨-, mailbox, hmailbox, -, rfl⟩ := peekBinding_unusable hpeek
          have hid : mailbox.id = request.mailboxId := Table.key_of_get? hmailbox
          simp only
          cases hrebind : rebindMailbox cipher policy (s.pool.openSession mailbox) s.pool request
              views with
          | error e => rfl
          | ok outcome =>
              obtain ⟨resolved, pool'⟩ := outcome
              rcases rebindMailbox_ok hrebind with ⟨proxy, r, hreuse, hr, rfl, rfl⟩ |
                ⟨-, ⟨proxy, r, hselect, hr, rfl, rfl⟩ | ⟨hdirect, rfl, -, -⟩⟩
              · rw [currentProxy_openSession] at hreuse
                obtain ⟨hmem, hid, hserve, hbound⟩ := kept_safe hmailbox hreuse hr
                exact ⟨proxy, hmem, hid, ⟨_, Or.inr ⟨0, rfl⟩, hserve⟩, hbound⟩
              · obtain ⟨hmem, k, hserve⟩ := mayServe_of_selected hselect
                refine ⟨proxy, hmem, toResolvedProxy_id hr, ⟨_, Or.inr ⟨k, rfl⟩, hserve⟩, ?_⟩
                show ((s.pool.flushProxy _ _).flushBinding mailbox _).boundTo _ = _
                rw [← hid] at hmailbox ⊢
                rw [boundTo_flushBinding (by rw [flushProxy_bindings]; exact hmailbox)]
                show flushColumn mailbox.egressProxyId (mailbox.updateBinding _ _).egressProxyId
                  mailbox.egressProxyId = _
                rw [updateBinding_proxy, flushColumn_current]
              · exact allowsDirect_iff.mp hdirect

theorem resolveForMailbox_sticky :
    KeepsSticky cipher s (ensurePolicy settings s.policy) request now
      (resolveForMailbox settings cipher s request now views) := by
  intro mailbox proxy resolved henabled hforce hmailbox hcurrent hnot havailable hresolved
  have hreuse : request.reusable (ensurePolicy settings s.policy) now
      (s.pool.currentProxy mailbox) = .ok (some proxy) := by
    rw [hcurrent]
    exact reusable_of_available hforce hnot havailable
  have hpeek : peekBinding cipher (ensurePolicy settings s.policy) s.pool request now =
      .ok (.answered (some resolved)) := by
    unfold peekBinding
    rw [henabled, hmailbox]
    simp only [hreuse, hresolved]
    rfl
  unfold resolveForMailbox
  simp only [hpeek]

/-- **Resolution.** Whatever the policy, the proxies, the binding, the rows that
other sessions hold locked and the clock: a call comes to a safe outcome, and
it keeps a sticky proxy. -/
theorem resolution_safe :
    ResolutionSafe s (ensurePolicy settings s.policy) request
        (fun t => t = now ∨ ∃ k, t = (views k).now)
        (resolveForMailbox settings cipher s request now views) ∧
      KeepsSticky cipher s (ensurePolicy settings s.policy) request now
        (resolveForMailbox settings cipher s request now views) :=
  ⟨resolveForMailbox_safe settings cipher s request now views,
    resolveForMailbox_sticky settings cipher s request now views⟩

end

end

/-! ## Sticky proxies that are not returned -/

section Sample

@[reducible] def naiveDatetimes : DatetimeDriver := ⟨false⟩

attribute [local instance] naiveDatetimes

def sealedProxy : EgressProxy :=
  { id := "proxy", protocol := .socks5, host := "10.0.0.1", port := 1080
    usernameCiphertext := some "sealed" }

def stickyPool : ProxyPool where
  proxies := ⟨[sealedProxy], List.pairwise_singleton _ _⟩
  bindings := ⟨[{ id := "mailbox", egressProxyId := some "proxy" }], List.pairwise_singleton _ _⟩

def openPolicy : ProxyPolicy := { allowedProtocols := ["socks5"] }

def closedPolicy : ProxyPolicy := { openPolicy with enabled := false }

def proxySettings : ProxySettings where
  proxyEnabled := true
  proxyRequired := false
  proxyFailureThreshold := 3
  proxyCooldownSeconds := 300

def stickyRequest : ResolveRequest := { mailboxId := "mailbox" }

/-- An available sticky proxy is not returned while the policy is disabled, nor
where its credentials cannot be decrypted; and where there is no policy row,
returning it creates one. -/
theorem sticky_not_returned :
    sealedProxy.isAvailable closedPolicy 0 = .ok true ∧
      stickyPool.boundTo "mailbox" = some sealedProxy.id ∧
      (resolveForMailbox proxySettings (some .ok) ⟨some closedPolicy, stickyPool⟩ stickyRequest 0
        fun _ => ⟨0, fun _ => false⟩).1 = .ok none ∧
      (resolveForMailbox proxySettings none ⟨some openPolicy, stickyPool⟩ stickyRequest 0
        fun _ => ⟨0, fun _ => false⟩).1 =
          .error (.credentials "未配置 credential_encryption_key，无法使用代理凭证") ∧
      (resolveForMailbox proxySettings (some .ok) ⟨none, stickyPool⟩ stickyRequest 0
        fun _ => ⟨0, fun _ => false⟩).2.policy = some proxySettings.defaultPolicy := by
  decide +kernel

end Sample

end MailboxService
