import MailboxService.LeaseService.LockedAcquire
import MailboxService.TokenService.ClaimDisposal

/-!
# Row locks of `ensure_access_token`

The units of a call of `ensure_access_token` in production, each in a short
session of its own, with the rows they lock and the connections they make. The
exchange is made between two units; the two probes are made inside one, the
first under the lock that the cache check has taken on the mailbox.

What a unit commits is what its step of the call does to the database, so the
log is one of the runs of `ensureStep`.
-/

namespace MailboxService

open Foundation

/-- The exceptions of a unit: those of the call, and the session's. -/
inductive EnsureUnitError where
  | raised (e : EnsureError)
  | integrity
  | pendingRollback

instance : SessionErrors EnsureUnitError where
  integrityError := .integrity
  pendingRollback := .pendingRollback

/-- The phase that a unit ends in, unless its session has failed. -/
def unitPhase : Except EnsureUnitError EnsurePhase → Option EnsurePhase
  | .ok phase => some phase
  | .error (.raised e) => some (.raised e)
  | .error _ => none

def orUnreadable {α : Type} (r : Except String α) : Except EnsureUnitError α :=
  r.mapError fun _ => .raised .unreadableCredential

def orProbeFailed : Option CapabilityProbeResult → Except EnsureUnitError CapabilityProbeResult
  | some result => .ok result
  | none => .error (.raised .probeFailed)

section

variable [Platform]

abbrev EnsureWork (α : Type) := Traced Database EnsureUnitError HeldRow α

/-! ## Units -/

def mailboxRows (mailboxId : String) (db : Database) : List HeldRow :=
  ((db.mailboxes.get? mailboxId).map fun m => HeldRow.mailbox m.id).toList

/-- `_load_mailbox`: the mailbox `FOR UPDATE`. -/
def loadMailbox (mailboxId : String) : EnsureWork Mailbox := do
  let row ← Traced.lockingRead (mailboxRows mailboxId) fun db => db.mailboxes.get? mailboxId
  match row with
  | none => Traced.raise (.raised .mailboxNotFound)
  | some m => if m.isMicrosoft then pure m else Traced.raise (.raised .notMicrosoft)

/-- The probe of a cached token, in the session that has loaded its mailbox. -/
def probeCached (settings : TokenSettings) (now connections : ℕ)
    (probe : Option CapabilityProbeResult) (nonce : ℕ) (accessToken : String) (m : Mailbox) :
    EnsureWork EnsurePhase := do
  Traced.write fun db => db.writeMailbox m.id (assignScope settings now accessToken m)
  if m.capability.isSome then pure .returned
  else do
    let result ← Traced.call connections (orProbeFailed probe)
    let assigned := settings.persistScopeIfMissing now accessToken m
    Traced.write fun db =>
      db.writeMailbox m.id (assignProbe settings now nonce assigned assigned result)
    pure .returned

/-- The cache check of a call that does not force a refresh. -/
def checkCacheUnit (settings : TokenSettings) (request : EnsureRequest) (now connections : ℕ)
    (probe : Option CapabilityProbeResult) (nonce : ℕ) : EnsureWork EnsurePhase := do
  let m ← loadMailbox request.mailboxId
  let cached ← Traced.ofExcept (orUnreadable
    (settings.cacheHit now (m.preferredMailChannel request.preferredChannel) m))
  match cached with
  | none => do
      Traced.rollback
      pure (.claiming false)
  | some accessToken => do
      let m ← loadMailbox request.mailboxId
      probeCached settings now connections probe nonce accessToken m

def phaseAUnit (settings : TokenSettings) (request : EnsureRequest) (now : ℕ) (retry : Bool)
    (claimId : String) : EnsureWork EnsurePhase := do
  let m ← loadMailbox request.mailboxId
  let target := m.preferredMailChannel request.preferredChannel
  let cached ← Traced.ofExcept (orUnreadable
    (if request.forceRefresh || retry then .ok none
      else settings.cachedAccessToken now target m))
  match cached with
  | some _ => pure .returned
  | none => do
      let attempt ← Traced.read fun db =>
        claimTokenRefresh db now claimId request.mailboxId settings.decrypt
          settings.tokenRefreshClaimTtlSeconds request.skipActiveRtLeaseCheck
      match attempt with
      | .ok (claim, claimed) => do
          Traced.write fun _ => claimed
          pure (.exchanging retry target claim now)
      | .error (.refreshAlreadyClaimed _ installed _) =>
          if (settings.winnerAccessToken now request.preferredChannel (some m)).isSome then
            pure .returned
          else Traced.raise (.raised (.alreadyRefreshing installed))
      | .error e => Traced.raise (.raised (.refused e))

/-- Phase C, or what takes its place after a failed exchange. -/
def phaseCUnit (settings : TokenSettings) (now : ℕ) (retry : Bool)
    (target : Option MailAccessChannel) (claim : TokenRefreshClaim) (startedAt nonce : ℕ) :
    Except ExchangeFailure MicrosoftTokenResponse → EnsureWork EnsurePhase
  | .error .invalidGrant => do
      Traced.write fun db => (failTokenRefreshInvalidGrant db now claim).2
      pure (.raised .invalidGrant)
  | .error .other => do
      Traced.write fun db => releaseTokenRefreshClaim db now claim
      pure (.raised .exchangeFailed)
  | .ok response => do
      let matched ← Traced.read fun db => (db.mailboxes.get? claim.mailboxId).any claim.current
      if response.storable startedAt matched = false then
        Traced.raise (.raised .unstorableAnswer)
      else do
        let completed ← Traced.read fun db => completeTokenRefresh db claim
          (settings.completion nonce startedAt claim.refreshToken response)
        match completed with
        | .error e => Traced.raise (.raised (.refused e))
        | .ok (none, db) => do
            Traced.write fun _ => db
            pure (.outrun retry)
        | .ok (some _, db) => do
            Traced.write fun _ => db
            pure (.refreshed retry target)

/-- The probe after a refresh, in the session that has read the row. A row that
is gone cannot be flushed. -/
def finishProbeUnit (settings : TokenSettings) (now : ℕ) (loaded : Mailbox) (connections : ℕ)
    (probe : Option CapabilityProbeResult) (nonce : ℕ) : EnsureWork EnsurePhase := do
  let result ← Traced.call connections (orProbeFailed probe)
  let current ← Traced.read fun db => db.mailboxes.get? loaded.id
  match current with
  | none => Traced.raise (.raised .probeFailed)
  | some _ => do
      Traced.write fun db =>
        db.writeMailbox loaded.id (assignProbe settings now nonce loaded loaded result)
      pure .returned

/-! ## The call with its log -/

/-- A call with the log of the session that it has open, if any. -/
structure EnsureTrace where
  state : EnsureState
  log : LockLog HeldRow

namespace EnsureTrace

def start (db : Database) (now : ℕ) : EnsureTrace := ⟨.start db now, {}⟩

/-- The log after a step. An event says how many connections it makes; the read
of the winner's token and the one before a probe take no lock. -/
def logAfter (settings : TokenSettings) (request : EnsureRequest) (s : EnsureState)
    (l : LockLog HeldRow) (connections : ℕ) : EnsureEvent → LockLog HeldRow
  | .checkCache probe nonce =>
      match s.phase with
      | .starting =>
          if request.forceRefresh then l
          else (checkCacheUnit settings request s.now connections probe nonce).inOwnSession
            s.db l
      | _ => l
  | .claim claimId =>
      match s.phase with
      | .claiming retry => (phaseAUnit settings request s.now retry claimId).inOwnSession s.db l
      | _ => l
  | .exchange answer nonce =>
      match s.phase with
      | .exchanging retry target claim startedAt =>
          (phaseCUnit settings s.now retry target claim startedAt nonce answer).inOwnSession
            s.db (l.call connections)
      | _ => l
  | .finishProbe probe nonce =>
      match s.phase with
      | .probing loaded =>
          (finishProbeUnit settings s.now loaded connections probe nonce).inOwnSession s.db l
      | _ => l
  | .readWinner _ => l
  | .readForProbe => l
  | .others _ => l
  | .removed _ => l

def step (settings : TokenSettings) (request : EnsureRequest) (t : EnsureTrace)
    (e : EnsureEvent × ℕ) : EnsureTrace where
  state := ensureStep settings request t.state e.1
  log := logAfter settings request t.state t.log e.2 e.1

end EnsureTrace

/-- The mailbox has a usable token in the cache and no capability yet. -/
def Database.cachedUnprobed (db : Database) (settings : TokenSettings)
    (request : EnsureRequest) (now : ℕ) : Bool :=
  (db.mailboxes.get? request.mailboxId).any fun m =>
    m.isMicrosoft && m.capability.isNone &&
      match settings.cacheHit now (m.preferredMailChannel request.preferredChannel) m
        with
      | .ok (some _) => true
      | _ => false

/-- The cache check does not connect for a probe. -/
def ChecksCacheOnly (settings : TokenSettings) (request : EnsureRequest) (t : EnsureTrace)
    (e : EnsureEvent × ℕ) : Prop :=
  match e.1 with
  | .checkCache _ _ =>
      t.state.phase = .starting → request.forceRefresh = false →
        t.state.db.cachedUnprobed settings request t.state.now = true → e.2 = 0
  | _ => True

instance (settings : TokenSettings) (request : EnsureRequest) (t : EnsureTrace)
    (e : EnsureEvent × ℕ) : Decidable (ChecksCacheOnly settings request t e) :=
  match e with
  | (.checkCache _ _, _) => inferInstanceAs (Decidable (_ → _ → _ → _))
  | (.claim _, _) | (.exchange _ _, _) | (.readWinner _, _) | (.readForProbe, _)
  | (.finishProbe _ _, _) | (.others _, _) | (.removed _, _) => inferInstanceAs (Decidable True)

/-! ## Loading a mailbox -/

section Load

variable {mailboxId : String} {db : Database} {s : Session Database} {l : LockLog HeldRow}
  {m : Mailbox}

theorem loadMailbox_steady (mailboxId : String) : (loadMailbox mailboxId).Steady := by
  refine (Traced.steady_lockingRead _ _).bind fun row => ?_
  cases row with
  | none => exact Traced.steady_raise _
  | some m =>
      dsimp only
      split
      · exact Traced.steady_pure _
      · exact Traced.steady_raise _

theorem loadMailbox_work (hs : s.usable = true) :
    (loadMailbox mailboxId).work db s =
      (match s.db.mailboxes.get? mailboxId with
        | none => .error (.raised .mailboxNotFound)
        | some m => if m.isMicrosoft then .ok m else .error (.raised .notMicrosoft), s) := by
  unfold loadMailbox
  rw [Traced.bind_work, Traced.lockingRead_work, Work.bind_of_ok (Work.read_of_usable hs)]
  cases s.db.mailboxes.get? mailboxId with
  | none => rfl
  | some m =>
      dsimp only
      split <;> rfl

theorem loadMailbox_log (hs : s.usable = true) :
    (loadMailbox mailboxId).log db s l = l.hold (mailboxRows mailboxId s.db) := by
  have hread : (Traced.lockingRead (mailboxRows mailboxId) fun db =>
      db.mailboxes.get? mailboxId : EnsureWork (Option Mailbox)).work db s =
        (.ok (s.db.mailboxes.get? mailboxId), s) := by
    rw [Traced.lockingRead_work]
    exact Work.read_of_usable hs
  unfold loadMailbox
  rw [Traced.bind_log_of_ok hread, Traced.lockingRead_log _ _ hs]
  cases s.db.mailboxes.get? mailboxId with
  | none => rfl
  | some m =>
      dsimp only
      split <;> rfl

theorem mailboxRows_ne_nil (hm : db.mailboxes.get? mailboxId = some m) :
    mailboxRows mailboxId db ≠ [] := by
  unfold mailboxRows
  rw [hm]
  simp

end Load

/-! ## What the units commit -/

section Commit

variable {settings : TokenSettings} {request : EnsureRequest} {now nonce : ℕ}

omit [Platform] in
/-- Onto the row as it was loaded, a flush writes what was assigned. -/
theorem flush_loaded (x y : Mailbox) :
    x.flush y x =
      { x with
        status := y.status
        clientId := y.clientId
        mailPasswordCiphertext := y.mailPasswordCiphertext
        refreshTokenCiphertext := y.refreshTokenCiphertext
        refreshTokenUpdatedAt := y.refreshTokenUpdatedAt
        refreshTokenExpiresAt := y.refreshTokenExpiresAt
        accessTokenCiphertext := y.accessTokenCiphertext
        accessTokenExpiresAt := y.accessTokenExpiresAt
        accessTokenRefreshedAt := y.accessTokenRefreshedAt
        accessTokenSourceVersion := y.accessTokenSourceVersion
        scope := y.scope
        capability := y.capability
        updatedAt := y.updatedAt } := by
  unfold Mailbox.flush
  simp only [flushColumn_current]

omit [Platform] in
theorem writeProbe_scoped (accessToken : String) (result : CapabilityProbeResult)
    (m : Mailbox) :
    let assigned := settings.persistScopeIfMissing now accessToken m
    settings.writeProbe now nonce assigned assigned result (m.flush assigned m) =
      settings.writeProbe now nonce m assigned result m := by
  dsimp only
  have hassigned : m.flush (settings.persistScopeIfMissing now accessToken m) m =
      settings.persistScopeIfMissing now accessToken m := by
    rw [flush_loaded]
    unfold TokenSettings.persistScopeIfMissing
    split <;> rfl
  have hflush : ∀ y, (settings.persistScopeIfMissing now accessToken m).flush y
      (settings.persistScopeIfMissing now accessToken m) = m.flush y m := by
    intro y
    rw [flush_loaded, flush_loaded]
    unfold TokenSettings.persistScopeIfMissing
    split <;> rfl
  rw [hassigned]
  unfold TokenSettings.writeProbe
  simp only [hflush]

theorem writeMailbox_twice {db : Database} {mailboxId : String} {m : Mailbox}
    {f g h : MailboxAssignment} (hm : db.mailboxes.get? mailboxId = some m)
    (hgf : g.set (f.set m) = h.set m) :
    (db.writeMailbox mailboxId f).writeMailbox mailboxId g = db.writeMailbox mailboxId h := by
  obtain ⟨hmem, hkey⟩ := Table.get?_eq_some.mp hm
  have hrows : ((db.mailboxes.updateWhere (Table.whereKey mailboxSchema mailboxId fun _ => true)
      f.set f.keeps).updateWhere (Table.whereKey mailboxSchema mailboxId fun _ => true)
        g.set g.keeps) =
      db.mailboxes.updateWhere (Table.whereKey mailboxSchema mailboxId fun _ => true)
        h.set h.keeps := by
    apply Table.ext
    show List.map _ (List.map _ db.mailboxes.rows) = List.map _ db.mailboxes.rows
    rw [List.map_map]
    refine List.map_congr_left fun r hr => ?_
    simp only [Function.comp_apply, Table.whereKey, Bool.and_true, decide_eq_true_eq]
    by_cases hid : mailboxSchema.key r = mailboxId
    · have hsame : r = m := Table.eq_of_key hr hmem (hid.trans hkey.symm)
      have hid' : mailboxSchema.key (f.set r) = mailboxId := (f.keeps r).1.trans hid
      rw [if_pos hid, if_pos hid', if_pos hid, hsame, hgf]
    · simp only [if_neg hid]
  unfold Database.writeMailbox Database.updateMailbox
  dsimp only
  rw [hrows]

/-- A unit does to the call what its step does. -/
def Commits (x : EnsureWork EnsurePhase) (db : Database) (t : EnsureState) : Prop :=
  unitPhase (x.work.transact db).1 = some t.phase ∧ (x.work.transact db).2 = t.db

theorem commits_of_ok {x : EnsureWork EnsurePhase} {db : Database} {t : EnsureState}
    (h : x.work db ⟨db, true⟩ = (.ok t.phase, ⟨t.db, true⟩)) : Commits x db t := by
  unfold Commits
  rw [Work.transact_eq_ok.mpr h]
  exact ⟨rfl, rfl⟩

theorem commits_of_error {x : EnsureWork EnsurePhase} {db : Database} {t : EnsureState}
    {e : EnsureError} (h : (x.work db ⟨db, true⟩).1 = .error (.raised e))
    (hphase : t.phase = .raised e) (hdb : t.db = db) : Commits x db t := by
  unfold Commits
  rw [Work.transact_of_error (Prod.ext h rfl), hphase, hdb]
  exact ⟨rfl, rfl⟩

theorem Commits.bind {α : Type} {x : EnsureWork α} {k : α → EnsureWork EnsurePhase} {a : α}
    {db : Database} {t : EnsureState} (hx : x.work db ⟨db, true⟩ = (.ok a, ⟨db, true⟩))
    (h : Commits (k a) db t) : Commits (x >>= k) db t := by
  unfold Commits Work.transact at h ⊢
  rw [Traced.bind_work, Work.bind_of_ok hx]
  exact h

theorem read_unit {α : Type} (f : Database → α) (db : Database) :
    (Traced.read f : EnsureWork α).work db ⟨db, true⟩ = (.ok (f db), ⟨db, true⟩) := by
  rw [Traced.read_work]
  exact Work.read_of_usable rfl

variable {s : EnsureState}

theorem probeCached_commits {connections : ℕ} {probe : Option CapabilityProbeResult}
    {accessToken : String} {m : Mailbox} (hm : s.db.mailboxes.get? m.id = some m) :
    Commits (probeCached settings s.now connections probe nonce accessToken m) s.db
      (if m.capability.isSome then
        { s with
          db := s.db.writeMailbox m.id (assignScope settings s.now accessToken m)
          phase := .returned }
      else
        match probe with
        | none => { s with phase := .raised .probeFailed }
        | some result =>
            let assigned := settings.persistScopeIfMissing s.now accessToken m
            { s with
              db := s.db.writeMailbox m.id
                (assignProbe settings s.now nonce m assigned result)
              phase := .returned }) := by
  have hscope : (Traced.write fun db =>
      db.writeMailbox m.id (assignScope settings s.now accessToken m) : EnsureWork Unit).work
        s.db ⟨s.db, true⟩ =
      (.ok (), ⟨s.db.writeMailbox m.id (assignScope settings s.now accessToken m), true⟩) := by
    rw [Traced.write_work]
    exact Work.write_of_usable rfl
  by_cases hcapability : m.capability.isSome = true
  · rw [if_pos hcapability]
    apply commits_of_ok
    unfold probeCached
    rw [Traced.bind_work, Work.bind_of_ok hscope, if_pos hcapability]
    rfl
  · rw [if_neg hcapability]
    cases probe with
    | none =>
        refine commits_of_error (e := .probeFailed) ?_ rfl rfl
        unfold probeCached
        rw [Traced.bind_work, Work.bind_of_ok hscope, if_neg hcapability]
        rfl
    | some result =>
        apply commits_of_ok
        -- the scope is flushed before the probe, and the probe writes over it
        have htwice : (s.db.writeMailbox m.id (assignScope settings s.now accessToken
              m)).writeMailbox m.id (assignProbe settings s.now nonce
                (settings.persistScopeIfMissing s.now accessToken m)
                (settings.persistScopeIfMissing s.now accessToken m) result) =
            s.db.writeMailbox m.id (assignProbe settings s.now nonce m
              (settings.persistScopeIfMissing s.now accessToken m) result) :=
          writeMailbox_twice hm (writeProbe_scoped accessToken result m)
        unfold probeCached
        rw [Traced.bind_work, Work.bind_of_ok hscope, if_neg hcapability]
        dsimp only
        rw [← htwice]
        rfl

theorem Commits.of_load {k : Mailbox → EnsureWork EnsurePhase} {mailboxId : String}
    {t : EnsureState} {db : Database} {m : Mailbox} (hm : db.mailboxes.get? mailboxId = some m)
    (hmicrosoft : m.isMicrosoft = true) (h : Commits (k m) db t) :
    Commits (loadMailbox mailboxId >>= k) db t := by
  have hload : (loadMailbox mailboxId).work db ⟨db, true⟩ = (.ok m, ⟨db, true⟩) := by
    rw [loadMailbox_work rfl]
    dsimp only
    rw [hm]
    dsimp only
    rw [if_pos hmicrosoft]
  exact h.bind hload

theorem commits_loadMailbox {k : Mailbox → EnsureWork EnsurePhase} {mailboxId : String}
    {t : Mailbox → EnsureState}
    (hk : ∀ m, s.db.mailboxes.get? mailboxId = some m → m.isMicrosoft = true →
      Commits (k m) s.db (t m)) :
    Commits (loadMailbox mailboxId >>= k) s.db
      (match s.db.mailboxes.get? mailboxId with
        | none => { s with phase := .raised .mailboxNotFound }
        | some m => if !m.isMicrosoft then { s with phase := .raised .notMicrosoft } else t m) := by
  have hload : (loadMailbox mailboxId).work s.db ⟨s.db, true⟩ = _ := loadMailbox_work rfl
  cases hm : s.db.mailboxes.get? mailboxId with
  | none =>
      rw [hm] at hload
      refine commits_of_error (e := .mailboxNotFound) ?_ rfl rfl
      rw [Traced.bind_work, Work.bind_of_error hload]
  | some m =>
      dsimp only
      cases hmicrosoft : m.isMicrosoft with
      | false =>
          rw [hm] at hload
          dsimp only at hload
          rw [hmicrosoft] at hload
          refine commits_of_error (e := .notMicrosoft) ?_ rfl rfl
          rw [Traced.bind_work, Work.bind_of_error hload]
      | true => exact (hk m hm hmicrosoft).of_load hm hmicrosoft

/-- **The cache check** in its own session. -/
theorem checkCacheUnit_commits (connections : ℕ) (probe : Option CapabilityProbeResult)
    (hforce : request.forceRefresh = false) :
    Commits (checkCacheUnit settings request s.now connections probe nonce) s.db
      (checkCacheStep settings request s probe nonce) := by
  unfold checkCacheStep
  rw [if_neg (by rw [hforce]; exact Bool.false_ne_true)]
  refine commits_loadMailbox ?_
  intro m hm hmicrosoft
  dsimp only
  cases hcached : settings.cacheHit s.now
    (m.preferredMailChannel request.preferredChannel) m with
  | error reason => exact commits_of_error rfl rfl rfl
  | ok cached =>
      cases cached with
      | none => exact commits_of_ok rfl
      | some accessToken =>
          have hkey : m.id = request.mailboxId := (Table.get?_eq_some.mp hm).2
          have hprobe : Commits
              (probeCached settings s.now connections probe nonce accessToken m) s.db _ :=
            probeCached_commits (hkey ▸ hm)
          exact hprobe.of_load hm hmicrosoft

/-- **Phase A** in its own session. -/
theorem phaseAUnit_commits (retry : Bool) (claimId : String) :
    Commits (phaseAUnit settings request s.now retry claimId) s.db
      (phaseAStep settings request s retry claimId) := by
  unfold phaseAStep
  refine commits_loadMailbox ?_
  intro m hm hmicrosoft
  dsimp only
  cases (if request.forceRefresh || retry then .ok none
    else settings.cachedAccessToken s.now (m.preferredMailChannel request.preferredChannel)
      m : Except String (Option String)) with
  | error reason => exact commits_of_error rfl rfl rfl
  | ok cached =>
      cases cached with
      | some accessToken => exact commits_of_ok rfl
      | none =>
          refine Commits.bind (a := none) rfl (Commits.bind (read_unit _ _) ?_)
          cases claimTokenRefresh s.db s.now claimId request.mailboxId settings.decrypt
              settings.tokenRefreshClaimTtlSeconds request.skipActiveRtLeaseCheck with
          | ok claimed => exact commits_of_ok rfl
          | error e =>
              cases e with
              | refreshAlreadyClaimed blocked installed expiresAt =>
                  dsimp only
                  cases settings.winnerAccessToken s.now request.preferredChannel (some m) with
                  | some accessToken => exact commits_of_ok rfl
                  | none => exact commits_of_error rfl rfl rfl
              | _ => exact commits_of_error rfl rfl rfl

/-- **Phase C** in its own session. -/
theorem phaseCUnit_commits (retry : Bool) (target : Option MailAccessChannel)
    (claim : TokenRefreshClaim) (startedAt nonce : ℕ)
    (answer : Except ExchangeFailure MicrosoftTokenResponse) :
    Commits (phaseCUnit settings s.now retry target claim startedAt nonce answer) s.db
      (phaseCStep settings s retry target claim startedAt nonce answer) := by
  cases answer with
  | error failure => cases failure <;> exact commits_of_ok rfl
  | ok response =>
      unfold phaseCUnit phaseCStep
      dsimp only
      refine Commits.bind (read_unit _ _) ?_
      by_cases hlost : response.storable startedAt
          ((s.db.mailboxes.get? claim.mailboxId).any claim.current) = false
      · rw [if_pos hlost, if_pos hlost]
        exact commits_of_error rfl rfl rfl
      · rw [if_neg hlost, if_neg hlost]
        refine Commits.bind (read_unit _ _) ?_
        rcases completeTokenRefresh s.db claim
          (settings.completion nonce startedAt claim.refreshToken response) with
          e | ⟨version, db⟩
        · exact commits_of_error rfl rfl rfl
        · cases version with
          | none => exact commits_of_ok rfl
          | some version => exact commits_of_ok rfl

/-- **The probe after a refresh.** -/
theorem finishProbeUnit_commits (loaded : Mailbox) (connections : ℕ)
    (probe : Option CapabilityProbeResult) :
    Commits (finishProbeUnit settings s.now loaded connections probe nonce) s.db
      (finishProbeStep settings s loaded probe nonce) := by
  unfold finishProbeStep
  cases probe with
  | none => exact commits_of_error rfl rfl rfl
  | some result =>
      refine Commits.bind (a := result) rfl (Commits.bind (read_unit _ _) ?_)
      cases s.db.mailboxes.get? loaded.id with
      | none => exact commits_of_error rfl rfl rfl
      | some current => exact commits_of_ok rfl

end Commit

/-! ## What the units log -/

section Log

variable {settings : TokenSettings} {request : EnsureRequest} {now nonce connections : ℕ}
  {probe : Option CapabilityProbeResult} {db : Database} {s : Session Database}
  {l : LockLog HeldRow}

theorem phaseAUnit_steady (retry : Bool) (claimId : String) :
    (phaseAUnit settings request now retry claimId).Steady := by
  unfold phaseAUnit
  refine (loadMailbox_steady _).bind fun m => ?_
  refine (Traced.steady_ofExcept _).bind fun cached => ?_
  cases cached with
  | some accessToken => exact Traced.steady_pure _
  | none =>
      refine (Traced.steady_read _).bind fun attempt => ?_
      split
      · exact (Traced.steady_write _).bind fun _ => Traced.steady_pure _
      · split
        · exact Traced.steady_pure _
        · exact Traced.steady_raise _
      · exact Traced.steady_raise _

theorem phaseCUnit_steady (retry : Bool) (target : Option MailAccessChannel)
    (claim : TokenRefreshClaim) (startedAt : ℕ)
    (answer : Except ExchangeFailure MicrosoftTokenResponse) :
    (phaseCUnit settings now retry target claim startedAt nonce answer).Steady := by
  unfold phaseCUnit
  split
  · exact (Traced.steady_write _).bind fun _ => Traced.steady_pure _
  · exact (Traced.steady_write _).bind fun _ => Traced.steady_pure _
  · refine (Traced.steady_read _).bind fun matched => ?_
    split
    · exact Traced.steady_raise _
    · refine (Traced.steady_read _).bind fun completed => ?_
      split
      · exact Traced.steady_raise _
      · exact (Traced.steady_write _).bind fun _ => Traced.steady_pure _
      · exact (Traced.steady_write _).bind fun _ => Traced.steady_pure _

/-- The probe after a refresh goes out with what is held before it. -/
theorem finishProbeUnit_unlocked_iff {loaded : Mailbox} :
    ((finishProbeUnit settings now loaded connections probe nonce).log db s l).Unlocked ↔
      (l.call connections).Unlocked := by
  refine Traced.unlocked_call_bind_iff fun result => ?_
  refine Traced.Steady.silent ((Traced.steady_read _).bind fun current => ?_)
  cases current with
  | none => exact Traced.steady_raise _
  | some m => exact (Traced.steady_write _).bind fun _ => Traced.steady_pure _

theorem probeCached_unlocked_iff {accessToken : String} {m : Mailbox} (hs : s.usable = true)
    (hl : l.held ≠ []) :
    ((probeCached settings now connections probe nonce accessToken m).log db s l).Unlocked ↔
      l.Unlocked ∧ (m.capability.isNone = true → connections = 0) := by
  have hwrite : (Traced.write fun db =>
      db.writeMailbox m.id (assignScope settings now accessToken m) : EnsureWork Unit).work db s =
        (.ok (), ⟨s.db.writeMailbox m.id (assignScope settings now accessToken m), true⟩) := by
    rw [Traced.write_work]
    exact Work.write_of_usable hs
  have hgathers : (Traced.write fun db =>
      db.writeMailbox m.id (assignScope settings now accessToken m) : EnsureWork Unit).Steady :=
    Traced.steady_write _
  have hheld := (hgathers db s l).grows (by rw [hwrite])
  unfold probeCached
  rw [Traced.bind_log_of_ok hwrite]
  cases hcapability : m.capability with
  | some capability =>
      rw [Option.isSome_some, if_pos rfl, (Traced.steady_pure _).silent.unlocked_iff, hgathers.silent.unlocked_iff]
      simp
  | none =>
      rw [Option.isSome_none, if_neg Bool.false_ne_true, Traced.unlocked_call_bind_iff
        (fun _ => ((Traced.steady_write _).bind fun _ => Traced.steady_pure _).silent),
        LockLog.unlocked_call_iff, hgathers.silent.unlocked_iff]
      refine and_congr_right fun _ => ?_
      constructor
      · intro hfree _
        by_contra hn
        rw [hfree hn, List.subset_nil] at hheld
        exact hl hheld
      · intro hnone hn
        exact absurd (hnone rfl) hn

/-- **The cache check** connects with the mailbox locked exactly if it connects
for the probe of a cached token. -/
theorem checkCacheUnit_unlocked_iff :
    ((checkCacheUnit settings request now connections probe nonce).log db ⟨db, true⟩
        l).Unlocked ↔
      l.Unlocked ∧ (db.cachedUnprobed settings request now = true → connections = 0) := by
  have hload : (loadMailbox request.mailboxId).work db ⟨db, true⟩ = _ := loadMailbox_work rfl
  have hloaded : ∀ l, ((loadMailbox request.mailboxId).log db ⟨db, true⟩ l).Unlocked ↔
      l.Unlocked := fun l => (loadMailbox_steady _).silent.unlocked_iff
  unfold checkCacheUnit Database.cachedUnprobed
  cases hm : db.mailboxes.get? request.mailboxId with
  | none =>
      rw [hm] at hload
      rw [Traced.bind_log_of_error hload, hloaded]
      simp
  | some m =>
      rw [hm] at hload
      dsimp only at hload
      rw [Option.any_some]
      cases hmicrosoft : m.isMicrosoft with
      | false =>
          rw [hmicrosoft] at hload
          rw [Traced.bind_log_of_error hload, hloaded]
          simp
      | true =>
          rw [hmicrosoft] at hload
          rw [Traced.bind_log_of_ok hload]
          rcases settings.cacheHit now
            (m.preferredMailChannel request.preferredChannel) m with reason | _ | accessToken
          · -- the token cannot be read
            have hcached : (Traced.ofExcept (orUnreadable (.error reason)) :
                EnsureWork (Option String)).work db ⟨db, true⟩ =
                  (.error (.raised .unreadableCredential), ⟨db, true⟩) := rfl
            rw [Traced.bind_log_of_error hcached, (Traced.steady_ofExcept _).silent.unlocked_iff,
              hloaded]
            simp
          · have hcached : (Traced.ofExcept (orUnreadable (.ok none)) :
                EnsureWork (Option String)).work db ⟨db, true⟩ = (.ok none, ⟨db, true⟩) := rfl
            rw [Traced.bind_log_of_ok hcached, (Traced.silent_rollback.bind fun _ =>
              (Traced.steady_pure _).silent).unlocked_iff,
              (Traced.steady_ofExcept _).silent.unlocked_iff, hloaded]
            simp
          · -- the mailbox is loaded again, and stays locked
            have hcached : (Traced.ofExcept (orUnreadable (.ok (some accessToken))) :
                EnsureWork (Option String)).work db ⟨db, true⟩ =
                  (.ok (some accessToken), ⟨db, true⟩) := rfl
            have hrows : ∀ l, ((loadMailbox request.mailboxId).log db ⟨db, true⟩ l).held ≠ [] := by
              intro l hnil
              rw [loadMailbox_log rfl, LockLog.hold_held] at hnil
              exact mailboxRows_ne_nil hm (List.append_eq_nil_iff.mp hnil).2
            rw [Traced.bind_log_of_ok hcached]
            dsimp only
            rw [Traced.bind_log_of_ok hload, probeCached_unlocked_iff rfl (hrows _), hloaded,
              (Traced.steady_ofExcept _).silent.unlocked_iff, hloaded]
            simp

end Log

/-! ## Every call -/

namespace EnsureTrace

variable {settings : TokenSettings} {request : EnsureRequest} {t : EnsureTrace}
  {e : EnsureEvent × ℕ}

/-- The trace runs through the phases as the call does. -/
theorem exec_step_state (settings : TokenSettings) (request : EnsureRequest)
    (t : EnsureTrace) (events : List (EnsureEvent × ℕ)) :
    (exec (step settings request) t events).state =
      exec (ensureStep settings request) t.state (events.map Prod.fst) := by
  induction events generalizing t with
  | nil => rfl
  | cons e rest ih =>
      rw [exec_cons, ih]
      rfl

theorem step_held (h : t.log.held = []) : (step settings request t e).log.held = [] := by
  obtain ⟨event, connections⟩ := e
  show (logAfter settings request t.state t.log connections event).held = []
  cases event with
  | checkCache probe nonce =>
      simp only [logAfter]
      split
      · split
        · exact h
        · rfl
      · exact h
  | claim claimId =>
      simp only [logAfter]
      split
      · rfl
      · exact h
  | exchange answer nonce =>
      simp only [logAfter]
      split
      · rfl
      · exact h
  | finishProbe probe nonce =>
      simp only [logAfter]
      split
      · rfl
      · exact h
  | readWinner seen => exact h
  | readForProbe => exact h
  | others call => exact h
  | removed mailboxIds => exact h

/-- **Step lemma**: a step connects with nothing locked exactly if it does not
connect for the probe of a cached token. -/
theorem unlocked_step_iff (h : t.log.held = []) (hunlocked : t.log.Unlocked) :
    (step settings request t e).log.Unlocked ↔ ChecksCacheOnly settings request t e := by
  obtain ⟨event, connections⟩ := e
  have hcall : (t.log.call connections).Unlocked :=
    LockLog.unlocked_call_iff.mpr ⟨hunlocked, fun _ => h⟩
  show (logAfter settings request t.state t.log connections event).Unlocked ↔ _
  cases event with
  | checkCache probe nonce =>
      simp only [logAfter, ChecksCacheOnly]
      split
      · rename_i hphase
        cases hforce : request.forceRefresh with
        | true => simpa using hunlocked
        | false =>
            rw [if_neg Bool.false_ne_true, Traced.inOwnSession_unlocked,
              checkCacheUnit_unlocked_iff]
            exact ⟨fun hchecks _ _ => hchecks.2, fun hchecks =>
              ⟨hunlocked, hchecks hphase rfl⟩⟩
      · rename_i hphase
        exact iff_of_true hunlocked fun hstarting => absurd hstarting hphase
  | claim claimId =>
      refine iff_of_true ?_ trivial
      simp only [logAfter]
      split
      · rw [Traced.inOwnSession_unlocked, (phaseAUnit_steady _ _).silent.unlocked_iff]
        exact hunlocked
      · exact hunlocked
  | exchange answer nonce =>
      refine iff_of_true ?_ trivial
      simp only [logAfter]
      split
      · rw [Traced.inOwnSession_unlocked, (phaseCUnit_steady _ _ _ _ _).silent.unlocked_iff]
        exact hcall
      · exact hunlocked
  | finishProbe probe nonce =>
      refine iff_of_true ?_ trivial
      simp only [logAfter]
      split
      · rw [Traced.inOwnSession_unlocked, finishProbeUnit_unlocked_iff]
        exact hcall
      · exact hunlocked
  | readWinner seen => exact iff_of_true hunlocked trivial
  | readForProbe => exact iff_of_true hunlocked trivial
  | others call => exact iff_of_true hunlocked trivial
  | removed mailboxIds => exact iff_of_true hunlocked trivial

/-- **Connections of a call**: none is ever made while a row is locked if and
only if no cache check connects for a probe. -/
theorem ensure_unlocked_iff (settings : TokenSettings) (request : EnsureRequest)
    (db : Database) (now : ℕ) (events : List (EnsureEvent × ℕ)) :
    Throughout (step settings request) (·.log.Unlocked) (start db now) events ↔
      Meets (step settings request) (ChecksCacheOnly settings request) (start db now)
        events := by
  refine meets_iff_throughout (I := fun (t : EnsureTrace) => t.log.held = []) (fun t e h => step_held h)
    (fun t e h hunlocked => unlocked_step_iff h hunlocked) rfl ?_
  intro rows hrows
  cases hrows

end EnsureTrace

end

end MailboxService
