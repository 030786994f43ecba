import MailboxService.Foundation.Interleaving
import MailboxService.ProxyService.Resolution

/-!
# Concurrent rebinding

Callers of `resolve_for_mailbox`, each with a session of its own. A caller that
finds the current proxy unusable waits for the row lock of the mailbox; whoever
was granted it before has committed by then. The second look under the lock is
meant to honour such a binding, but it is at the instance that the first one has
loaded.

So a caller that has missed a rebinding selects a proxy as if there had been
none. It honours the winner exactly if the winner is what it selects, or if it had
found the mailbox bound to the same proxy before and can use it by then
(`rebindings_honoured_iff`).
-/

namespace MailboxService

open Foundation

section

variable [DatetimeDriver]

/-! ## Callers -/

structure ProxyShared where
  policy : ProxyPolicy
  pool : ProxyPool

/-- A caller: before a call, waiting for the lock, or with the outcome of its
last call. -/
inductive ProxyCaller where
  | idle
  | waiting (request : ResolveRequest) (policy : ProxyPolicy) (session : ProxySession)
  | done (outcome : Except ProxyError (Option ResolvedProxy))

inductive RebindAction where
  | peek (request : ResolveRequest) (now : ℕ)
  | lock (views : ℕ → ProxyView)
  /-- Anything else that is committed in between. -/
  | world (s : ProxyShared)

/-- One step of a caller. From the grant of the lock to the commit no other
session can change the mailbox, so this is one step. -/
def rebindAct (cipher : Option (String → Except String String)) (s : ProxyShared)
    (x : ProxyCaller) : RebindAction → ProxyCaller × ProxyShared
  | .peek request now =>
      match x with
      | .waiting request policy session => (.waiting request policy session, s)
      | .idle | .done _ =>
          match peekBinding cipher s.policy s.pool request now with
          | .error e => (.done (.error e), s)
          | .ok (.answered resolved) => (.done (.ok resolved), s)
          | .ok (.unusable session) => (.waiting request s.policy session, s)
  | .lock views =>
      match x with
      | .waiting request policy session =>
          match rebindMailbox cipher policy session s.pool request views with
          | .error e => (.done (.error e), s)
          | .ok (resolved, pool) => (.done (.ok resolved), { s with pool })
      | other => (other, s)
  | .world s' => (x, s')

/-! ## The winner -/

/-- The mailbox is bound to the winner, an available proxy that the request does
not exclude. -/
structure Wins (cipher : Option (String → Except String String)) (policy : ProxyPolicy)
    (pool : ProxyPool) (request : ResolveRequest) (now : ℕ) (winner : EgressProxy)
    (resolved : ResolvedProxy) : Prop where
  bound : pool.boundTo request.mailboxId = some winner.id
  row : pool.proxies.get? winner.id = some winner
  notForced : request.forceRebind = false
  notExcluded : winner.id ∉ request.excludedProxyIds
  available : winner.isAvailable policy now = .ok true
  resolves : toResolvedProxy cipher winner = .ok resolved

/-- **A caller honours the winner**: it returns the proxy that the mailbox was
bound to by the time of its read, or since its read by the grant of the lock,
and leaves the mailbox bound to it. -/
structure HonoursWinner (cipher : Option (String → Except String String)) (s : ProxyShared)
    (x : ProxyCaller) (a : RebindAction) : Prop where
  peek : ∀ request now winner resolved, a = .peek request now →
    (∀ request policy session, x ≠ .waiting request policy session) →
    s.policy.enabled = true → Wins cipher s.policy s.pool request now winner resolved →
    rebindAct cipher s x a = (.done (.ok (some resolved)), s)
  lock : ∀ request policy session views winner resolved,
    x = .waiting request policy session → a = .lock views →
    Wins cipher policy s.pool request (views 0).now winner resolved →
    (rebindAct cipher s x a).1 = .done (.ok (some resolved)) ∧
      (rebindAct cipher s x a).2.pool.boundTo request.mailboxId = some winner.id

/-- The winner as the caller sees it: a proxy that it has loaded stays as it was then. -/
def ProxySession.sees (session : ProxySession) (proxy : EgressProxy) : EgressProxy :=
  (load session.proxies proxy.id proxy).1

/-- The caller keeps the winner, which it has found the mailbox bound to before and can
use by now. -/
def KeepsWinner (cipher : Option (String → Except String String)) (policy : ProxyPolicy)
    (session : ProxySession) (request : ResolveRequest) (views : ℕ → ProxyView)
    (winner : EgressProxy) (resolved : ResolvedProxy) : Prop :=
  ∃ proxy, request.reusable policy (views 0).now session.currentProxy = .ok (some proxy) ∧
    proxy.id = winner.id ∧ toResolvedProxy cipher proxy = .ok resolved

/-- The winner is what the caller selects: the proxy it has loaded is still
unusable, earlier attempts pass over everything, and one attempt passes over
whatever ranks before the winner and finds it unlocked and available. -/
def PrefersWinner (cipher : Option (String → Except String String)) (policy : ProxyPolicy)
    (session : ProxySession) (pool : ProxyPool) (request : ResolveRequest)
    (views : ℕ → ProxyView) (winner : EgressProxy) (resolved : ResolvedProxy) : Prop :=
  request.reusable policy (views 0).now session.currentProxy = .ok none ∧
    toResolvedProxy cipher (session.sees winner) = .ok resolved ∧
    ∃ n < 8,
      (∀ j < n, ∀ x ∈ attemptCandidates policy session request (views (1 + j)),
        PassedOver policy session pool (views (1 + j)) x) ∧
      ∃ before after,
        attemptCandidates policy session request (views (1 + n)) =
          before ++ winner.id :: after ∧
        (∀ x ∈ before, PassedOver policy session pool (views (1 + n)) x) ∧
        (views (1 + n)).locked winner.id = false ∧
        (session.sees winner).isAvailable policy (views (1 + n)).now = .ok true

/-- **The condition**: a caller that waited for the lock while the mailbox was bound keeps
the winner or prefers it. -/
def MissesNoWinner (cipher : Option (String → Except String String)) (s : ProxyShared)
    (x : ProxyCaller) (a : RebindAction) : Prop :=
  ∀ request policy session views winner resolved,
    x = .waiting request policy session → a = .lock views →
    Wins cipher policy s.pool request (views 0).now winner resolved →
    KeepsWinner cipher policy session request views winner resolved ∨
      PrefersWinner cipher policy session s.pool request views winner resolved

/-- A waiting caller has loaded the mailbox and its proxy, as they were. -/
def ProxyLink (x : ProxyCaller) (_ : ProxyShared) : Prop :=
  ∀ request policy session, x = .waiting request policy session →
    session = session.snapshot.openSession session.mailbox ∧
      session.mailbox.id = request.mailboxId

/-! ## Loaded proxies -/

variable {policy : ProxyPolicy} {session : ProxySession} {pool : ProxyPool}
  {request : ResolveRequest} {views : ℕ → ProxyView} {view : ProxyView}
  {cipher : Option (String → Except String String)}

omit [DatetimeDriver] in
theorem load_id (h : session = session.snapshot.openSession session.mailbox)
    {proxyId : String} {row : EgressProxy} (hrow : row.id = proxyId) :
    (load session.proxies proxyId row).1.id = proxyId := by
  have hproxies : session.proxies =
      (session.snapshot.openSession session.mailbox).proxies := congrArg _ h
  unfold load
  cases hloaded : session.proxies.lookup proxyId with
  | none => exact hrow
  | some proxy =>
      rw [hproxies] at hloaded
      unfold ProxyPool.openSession at hloaded
      cases hcurrent : session.snapshot.currentProxy session.mailbox with
      | none =>
          rw [hcurrent] at hloaded
          cases hloaded
      | some current =>
          simp only [hcurrent, load_fresh] at hloaded
          rw [Dict.lookup_set] at hloaded
          split at hloaded
          · rename_i heq
            cases hloaded
            exact heq.symm
          · cases hloaded

theorem selectCandidate_none {proxyIds : List String} :
    selectCandidate policy session pool view proxyIds = .ok none ↔
      ∀ x ∈ proxyIds, PassedOver policy session pool view x := by
  induction proxyIds with
  | nil => simp [selectCandidate]
  | cons x proxyIds ih =>
      rw [List.forall_mem_cons, ← ih, selectCandidate]
      unfold PassedOver
      cases hrow : pool.lockProxy view x with
      | none => simp
      | some row =>
          simp only [Option.some.injEq, forall_eq']
          cases havailable : (load session.proxies x row).1.isAvailable policy view.now with
          | error e => simp
          | ok available => cases available <;> simp

/-- **The winner is selected** exactly if an attempt gets to it. -/
theorem selects_winner_iff (h : session = session.snapshot.openSession session.mailbox)
    {winner proxy : EgressProxy} (hrow : pool.proxies.get? winner.id = some winner)
    (hid : proxy.id = winner.id) :
    selectCandidateWithRetry policy session pool request views = some (.ok proxy) ↔
      proxy = session.sees winner ∧ ∃ n < 8,
        (∀ j < n, ∀ x ∈ attemptCandidates policy session request (views (1 + j)),
          PassedOver policy session pool (views (1 + j)) x) ∧
        ∃ before after,
          attemptCandidates policy session request (views (1 + n)) =
            before ++ winner.id :: after ∧
          (∀ x ∈ before, PassedOver policy session pool (views (1 + n)) x) ∧
          (views (1 + n)).locked winner.id = false ∧
          (session.sees winner).isAvailable policy (views (1 + n)).now = .ok true := by
  constructor
  · intro hselect
    obtain ⟨n, hn, hnone, hfound⟩ := selectCandidateWithRetry_ok.mp hselect
    obtain ⟨before, proxyId, after, hids, hbefore, row, hlock, htaken, havailable⟩ :=
      selectCandidate_some.mp hfound
    unfold ProxyPool.lockProxy at hlock
    split at hlock
    · cases hlock
    · rename_i hfree
      have hrowid : row.id = proxyId := Table.key_of_get? hlock
      have hproxyId : proxyId = winner.id := by
        rw [← hid, ← htaken, load_id h hrowid]
      subst hproxyId
      rw [hrow] at hlock
      cases hlock
      subst htaken
      exact ⟨rfl, n, hn, fun j hj => selectCandidate_none.mp (hnone j hj), before, after, hids,
        hbefore, Bool.not_eq_true _ ▸ hfree, havailable⟩
  · rintro ⟨rfl, n, hn, hpassed, before, after, hids, hbefore, hfree, havailable⟩
    refine selectCandidateWithRetry_ok.mpr
      ⟨n, hn, fun j hj => selectCandidate_none.mpr (hpassed j hj), ?_⟩
    refine selectCandidate_some.mpr ⟨before, winner.id, after, hids, hbefore, winner, ?_,
      rfl, havailable⟩
    unfold ProxyPool.lockProxy
    rw [hfree]
    exact hrow

/-! ## The lock step -/

/-- **Lock lemma**: what a caller that has waited for the winner commits. -/
theorem rebindMailbox_honours_iff (h : session = session.snapshot.openSession session.mailbox)
    (hid : session.mailbox.id = request.mailboxId) {winner : EgressProxy}
    {resolved : ResolvedProxy}
    (hwins : Wins cipher policy pool request (views 0).now winner resolved) :
    (∃ pool', rebindMailbox cipher policy session pool request views =
        .ok (some resolved, pool') ∧ pool'.boundTo request.mailboxId = some winner.id) ↔
      KeepsWinner cipher policy session request views winner resolved ∨
        PrefersWinner cipher policy session pool request views winner resolved := by
  have hresolvedId : resolved.id = winner.id := toResolvedProxy_id hwins.resolves
  obtain ⟨current, hcurrent, hbound⟩ := Option.bind_eq_some_iff.mp hwins.bound
  constructor
  · rintro ⟨pool', hrebind, -⟩
    rcases rebindMailbox_ok hrebind with ⟨proxy, r, hreuse, hr, heq, -⟩ |
      ⟨hreuse, ⟨proxy, r, hselect, hr, heq, -⟩ | ⟨-, heq, -, -⟩⟩
    · cases heq
      exact Or.inl ⟨proxy, hreuse, (toResolvedProxy_id hr).symm.trans hresolvedId, hr⟩
    · cases heq
      have hproxyId : proxy.id = winner.id := (toResolvedProxy_id hr).symm.trans hresolvedId
      obtain ⟨rfl, hprefers⟩ := (selects_winner_iff h hwins.row hproxyId).mp hselect
      exact Or.inr ⟨hreuse, hr, hprefers⟩
    · cases heq
  · rintro (⟨proxy, hreuse, -, hr⟩ | ⟨hreuse, hr, hprefers⟩)
    · -- nothing is written
      refine ⟨pool, ?_, hwins.bound⟩
      unfold rebindMailbox
      rw [hcurrent]
      simp only [Option.isNone_some, Bool.false_eq_true, if_false, hreuse, hr]
      rfl
    · have hseenId : (session.sees winner).id = winner.id := load_id h rfl
      have hselect : selectCandidateWithRetry policy session pool request views =
          some (.ok (session.sees winner)) :=
        (selects_winner_iff h hwins.row hseenId).mpr ⟨rfl, hprefers⟩
      refine ⟨(pool.flushProxy (session.sees winner)
        (session.sees winner).leaveCooldown).flushBinding session.mailbox
          (session.mailbox.updateBinding (some (session.sees winner).id) (views 9).now), ?_, ?_⟩
      · unfold rebindMailbox
        rw [hcurrent]
        simp only [Option.isNone_some, Bool.false_eq_true, if_false, hreuse, hselect, hr]
        rfl
      · -- the binding is written, or it was the winner already
        rw [← hid] at hcurrent ⊢
        rw [boundTo_flushBinding (by rw [flushProxy_bindings]; exact hcurrent),
          updateBinding_proxy, hseenId, hbound]
        rcases flushColumn_eq session.mailbox.egressProxyId (some winner.id) (some winner.id)
          with hsame | hsame
        · exact hsame
        · exact hsame

theorem honoursWinner_iff {s : ProxyShared} {x : ProxyCaller} {a : RebindAction}
    (hlink : ProxyLink x s) : HonoursWinner cipher s x a ↔ MissesNoWinner cipher s x a := by
  constructor
  · rintro h request policy session views winner resolved rfl rfl hwins
    obtain ⟨hopen, hid⟩ := hlink _ _ _ rfl
    obtain ⟨hdone, hbound⟩ := h.lock _ _ _ _ _ _ rfl rfl hwins
    refine (rebindMailbox_honours_iff hopen hid hwins).mp ?_
    simp only [rebindAct] at hdone hbound
    cases hrebind : rebindMailbox cipher policy session s.pool request views with
    | error e =>
        rw [hrebind] at hdone
        cases hdone
    | ok outcome =>
        obtain ⟨result, pool'⟩ := outcome
        rw [hrebind] at hdone hbound
        cases hdone
        exact ⟨pool', rfl, hbound⟩
  · intro h
    constructor
    · rintro request now winner resolved rfl hidle henabled hwins
      obtain ⟨mailbox, hmailbox, hbound⟩ := Option.bind_eq_some_iff.mp hwins.bound
      have hcurrent : s.pool.currentProxy mailbox = some winner := by
        unfold ProxyPool.currentProxy
        rw [hbound, Option.bind_some]
        exact hwins.row
      have hreuse : request.reusable s.policy now (s.pool.currentProxy mailbox) =
          .ok (some winner) := by
        rw [hcurrent]
        exact reusable_of_available hwins.notForced hwins.notExcluded hwins.available
      have hpeek : peekBinding cipher s.policy s.pool request now =
          .ok (.answered (some resolved)) := by
        unfold peekBinding
        rw [henabled, hmailbox]
        simp only [hreuse, hwins.resolves]
        rfl
      cases x with
      | waiting request policy session => exact absurd rfl (hidle _ _ _)
      | idle => simp only [rebindAct, hpeek]
      | done outcome => simp only [rebindAct, hpeek]
    · rintro request policy session views winner resolved rfl rfl hwins
      obtain ⟨hopen, hid⟩ := hlink _ _ _ rfl
      obtain ⟨pool', hrebind, hbound⟩ :=
        (rebindMailbox_honours_iff hopen hid hwins).mpr (h _ _ _ _ _ _ rfl rfl hwins)
      simp only [rebindAct, hrebind]
      exact ⟨trivial, hbound⟩

/-! ## Runs -/

theorem proxyLink_own (cipher : Option (String → Except String String)) (s : ProxyShared)
    (x : ProxyCaller) (a : RebindAction) (h : ProxyLink x s) :
    ProxyLink (rebindAct cipher s x a).1 (rebindAct cipher s x a).2 := by
  have hpeek : ∀ request now, (∀ request policy session, x ≠ .waiting request policy session) →
      ProxyLink (rebindAct cipher s x (.peek request now)).1
        (rebindAct cipher s x (.peek request now)).2 := by
    intro request now hidle request' policy session hwaiting
    have hcases : (rebindAct cipher s x (.peek request now)).1 =
        match peekBinding cipher s.policy s.pool request now with
        | .error e => .done (.error e)
        | .ok (.answered resolved) => .done (.ok resolved)
        | .ok (.unusable session) => .waiting request s.policy session := by
      cases x with
      | waiting request policy session => exact absurd rfl (hidle _ _ _)
      | idle =>
          simp only [rebindAct]
          split <;> rfl
      | done outcome =>
          simp only [rebindAct]
          split <;> rfl
    rw [hcases] at hwaiting
    split at hwaiting
    · cases hwaiting
    · cases hwaiting
    · rename_i hunusable
      cases hwaiting
      obtain ⟨-, mailbox, hmailbox, -, rfl⟩ := peekBinding_unusable hunusable
      exact ⟨rfl, Table.key_of_get? hmailbox⟩
  cases a with
  | world s' => exact h
  | peek request now =>
      cases x with
      | waiting request policy session => exact h
      | idle => exact hpeek request now fun _ _ _ => by simp
      | done outcome => exact hpeek request now fun _ _ _ => by simp
  | lock views =>
      cases x with
      | idle => exact h
      | done outcome => exact h
      | waiting request policy session =>
          intro request' policy' session' hwaiting
          simp only [rebindAct] at hwaiting
          split at hwaiting <;> cases hwaiting

/-- **Winners are honoured.** In every run of any number of callers, whatever
else is committed in between, every caller honours the winner, if and only if
every caller that is granted the lock when a winner is bound keeps or prefers it. -/
theorem rebindings_honoured_iff {ι : Type*} [DecidableEq ι]
    (cipher : Option (String → Except String String)) (s : ProxyShared)
    (es : List (ι × RebindAction)) :
    Meets (Threads.step (rebindAct cipher)) (Threads.At (HonoursWinner cipher))
        (.start s .idle) es ↔
      Meets (Threads.step (rebindAct cipher)) (Threads.At (MissesNoWinner cipher))
        (.start s .idle) es := by
  have hstart : (Threads.start s .idle : Threads ι ProxyCaller ProxyShared).Linked ProxyLink := by
    intro i request policy session hwaiting
    cases hwaiting
  exact Threads.meets_iff (fun s x a hx _ => proxyLink_own cipher s x a hx)
    (fun _ _ _ _ hx _ _ => hx) (fun _ _ _ hx => honoursWinner_iff hx) hstart

end

/-! ## A binding overwritten -/

section Sample

attribute [local instance] naiveDatetimes

def plainProxy (id : String) (enabled : Bool) : EgressProxy :=
  { id, protocol := .socks5, host := id, port := 1080, enabled }

theorem plainProxies_distinct :
    [plainProxy "p0" false, plainProxy "p1" true, plainProxy "p2" true].Pairwise
      egressProxySchema.Distinct := by
  decide +kernel

def disabledBinding : MailboxBinding := { id := "mailbox", egressProxyId := some "p0" }

def rebindingPool : ProxyPool where
  proxies := ⟨_, plainProxies_distinct⟩
  bindings := ⟨[disabledBinding], List.pairwise_singleton _ _⟩

def rebindingStart : Threads Bool ProxyCaller ProxyShared :=
  .start ⟨openPolicy, rebindingPool⟩ .idle

/-- The failover request of a caller that could not use the first proxy. -/
def failoverRequest : ResolveRequest := { stickyRequest with excludedProxyIds := ["p1"] }

def quietViews : ℕ → ProxyView := fun _ => ⟨0, fun _ => false⟩

/-- Both callers read; the first one binds the mailbox, then the second one is
granted the lock. -/
def overwritingRun : List (Bool × RebindAction) :=
  [(false, .peek failoverRequest 0), (true, .peek stickyRequest 0), (false, .lock quietViews),
   (true, .lock quietViews)]

/-- The second caller binds the mailbox to another proxy than the winner. -/
theorem winner_overwritten :
    ¬ Meets (Threads.step (rebindAct (some .ok))) (Threads.At (HonoursWinner (some .ok)))
        rebindingStart overwritingRun := by
  rintro ⟨-, -, -, hlast, -⟩
  have hbound : ((exec (Threads.step (rebindAct (some .ok))) rebindingStart
      overwritingRun).shared.pool.boundTo "mailbox") = some "p1" := by
    decide +kernel
  have hwins : Wins (some .ok) openPolicy (exec (Threads.step (rebindAct (some .ok)))
      rebindingStart (overwritingRun.take 3)).shared.pool stickyRequest 0
      (plainProxy "p2" true) ⟨"p2", .socks5, "p2", 1080, none, none⟩ := by
    constructor <;> decide +kernel
  obtain ⟨-, hkept⟩ := hlast.lock stickyRequest openPolicy
    (rebindingPool.openSession disabledBinding) quietViews _ _ rfl rfl hwins
  have hsame : some "p1" = some "p2" := hbound.symm.trans hkept
  revert hsame
  decide

end Sample

end MailboxService
