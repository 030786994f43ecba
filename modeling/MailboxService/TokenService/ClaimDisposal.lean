import MailboxService.CompletionReports
import MailboxService.TokenService.TokenRuns

/-!
# What becomes of a refresh claim

One whole call of `ensure_access_token`: the cached token, the claim, the
exchange, its completion, the winner's token, the single retry with a claim of
its own, and the probe, with the calls of others between any two steps. The
state adds the ids of the claims that the call has installed.

`ensure_leaves_no_claim` is about the end of a call. An exchange that fails is
followed by a release, which asks for the claim alone. The update of an invalid
grant and that of a completion also ask for the version, and match nothing once
the version has moved.
-/

namespace MailboxService

open Foundation

/-! ## The phases of a call -/

/-- What a call of `ensure_access_token` raises. A call that is turned away by
a claim names it. -/
inductive EnsureError where
  | mailboxNotFound
  | notMicrosoft
  | unreadableCredential
  | alreadyRefreshing (claimId : String)
  | refused (e : TokenRepositoryError)
  | invalidGrant
  | exchangeFailed
  | unstorableAnswer
  | versionConflict
  | probeFailed
  deriving DecidableEq, Repr

/-- A call between its steps; `retry` is the second attempt. -/
inductive EnsurePhase where
  | starting
  | claiming (retry : Bool)
  | exchanging (retry : Bool) (target : Option MailAccessChannel)
      (claim : TokenRefreshClaim) (startedAt : ℕ)
  | outrun (retry : Bool)
  | refreshed (retry : Bool) (target : Option MailAccessChannel)
  | probing (loaded : Mailbox)
  | returned
  | raised (e : EnsureError)
  deriving DecidableEq, Repr

def EnsurePhase.over : EnsurePhase → Bool
  | .returned => true
  | .raised _ => true
  | _ => false

def EnsurePhase.pending : EnsurePhase → Option TokenRefreshClaim
  | .exchanging _ _ claim _ => some claim
  | _ => none

def EnsurePhase.underWay : EnsurePhase → Option (TokenRefreshClaim × ℕ)
  | .exchanging _ _ claim startedAt => some (claim, startedAt)
  | _ => none

/-- A step of the call, or what others do in between. The winner's token is
read in the session of the caller, which may show the row as it was. -/
inductive EnsureEvent where
  | checkCache (probe : Option CapabilityProbeResult) (nonce : ℕ)
  | claim (claimId : String)
  | exchange (answer : Except ExchangeFailure MicrosoftTokenResponse) (nonce : ℕ)
  | readWinner (seen : Option Mailbox)
  | readForProbe
  | finishProbe (probe : Option CapabilityProbeResult) (nonce : ℕ)
  | others (call : RefreshCall)
  | removed (mailboxIds : List String)

def RefreshCall.draws : RefreshCall → Option String
  | .claim claimId _ _ _ _ => some claimId
  | _ => none

/-- `_read_winner_access_token_if_usable`. -/
def TokenSettings.winnerAccessToken (settings : TokenSettings) (now : ℕ)
    (preferred : Option MailAccessChannel) (seen : Option Mailbox) : Option String :=
  seen.bind fun m =>
    if settings.hasUsableCachedAccessToken now m &&
        (m.preferredMailChannel preferred).all (settings.matchesChannel m.scope) then
      (settings.decrypt (m.accessTokenCiphertext.getD "")).toOption
    else none

def assignScope (settings : TokenSettings) (now : ℕ) (accessToken : String)
    (loaded : Mailbox) : MailboxAssignment where
  set := loaded.flush (settings.persistScopeIfMissing now accessToken loaded)

section

variable [Platform]

structure EnsureState where
  db : Database
  now : ℕ
  phase : EnsurePhase
  /-- The claims that the call has installed, the newest first. -/
  issued : List String

def EnsureState.start (db : Database) (now : ℕ) : EnsureState := ⟨db, now, .starting, []⟩

/-! ## Steps -/

def checkCacheStep (settings : TokenSettings) (request : EnsureRequest) (s : EnsureState)
    (probe : Option CapabilityProbeResult) (nonce : ℕ) : EnsureState :=
  if request.forceRefresh then { s with phase := .claiming false }
  else
    match s.db.mailboxes.get? request.mailboxId with
    | none => { s with phase := .raised .mailboxNotFound }
    | some m =>
        if !m.isMicrosoft then { s with phase := .raised .notMicrosoft }
        else
          let target := m.preferredMailChannel request.preferredChannel
          match settings.cacheHit s.now target m with
          | .error _ => { s with phase := .raised .unreadableCredential }
          | .ok none => { s with phase := .claiming false }
          | .ok (some accessToken) =>
              if m.capability.isSome then
                { s with
                  db := s.db.writeMailbox m.id (assignScope settings s.now accessToken m)
                  phase := .returned }
              else
                match probe with
                | none => { s with phase := .raised .probeFailed }
                | some result =>
                    let assigned := settings.persistScopeIfMissing s.now accessToken m
                    { s with
                      db := s.db.writeMailbox m.id
                        (assignProbe settings s.now nonce m assigned result)
                      phase := .returned }

def phaseAStep (settings : TokenSettings) (request : EnsureRequest) (s : EnsureState)
    (retry : Bool) (claimId : String) : EnsureState :=
  match s.db.mailboxes.get? request.mailboxId with
  | none => { s with phase := .raised .mailboxNotFound }
  | some m =>
      if !m.isMicrosoft then { s with phase := .raised .notMicrosoft }
      else
        let target := m.preferredMailChannel request.preferredChannel
        let cached :=
          if request.forceRefresh || retry then .ok none
          else settings.cachedAccessToken s.now target m
        match cached with
        | .error _ => { s with phase := .raised .unreadableCredential }
        | .ok (some _) => { s with phase := .returned }
        | .ok none =>
            match claimTokenRefresh s.db s.now claimId request.mailboxId settings.decrypt
                settings.tokenRefreshClaimTtlSeconds request.skipActiveRtLeaseCheck with
            | .ok (claim, db) =>
                { s with
                  db
                  phase := .exchanging retry target claim s.now
                  issued := claimId :: s.issued }
            | .error (.refreshAlreadyClaimed _ installed _) =>
                match settings.winnerAccessToken s.now request.preferredChannel (some m) with
                | some _ => { s with phase := .returned }
                | none => { s with phase := .raised (.alreadyRefreshing installed) }
            | .error e => { s with phase := .raised (.refused e) }

/-- Phases B and C, from the answer of the token endpoint on. What an answer makes
impossible to store raises before phase C, or in its update. -/
def phaseCStep (settings : TokenSettings) (s : EnsureState) (retry : Bool)
    (target : Option MailAccessChannel) (claim : TokenRefreshClaim) (startedAt nonce : ℕ) :
    Except ExchangeFailure MicrosoftTokenResponse → EnsureState
  | .error .invalidGrant =>
      { s with
        db := (failTokenRefreshInvalidGrant s.db s.now claim).2
        phase := .raised .invalidGrant }
  | .error .other =>
      { s with
        db := releaseTokenRefreshClaim s.db s.now claim
        phase := .raised .exchangeFailed }
  | .ok response =>
      let matched := (s.db.mailboxes.get? claim.mailboxId).any claim.current
      if response.storable startedAt matched = false then
        { s with phase := .raised .unstorableAnswer }
      else
        match completeTokenRefresh s.db claim
            (settings.completion nonce startedAt claim.refreshToken response) with
        | .error e => { s with phase := .raised (.refused e) }
        | .ok (none, db) => { s with db, phase := .outrun retry }
        | .ok (some _, db) => { s with db, phase := .refreshed retry target }

def winnerStep (settings : TokenSettings) (request : EnsureRequest) (s : EnsureState)
    (retry : Bool) (seen : Option Mailbox) : EnsureState :=
  match settings.winnerAccessToken s.now request.preferredChannel seen, retry with
  | some _, _ => { s with phase := .returned }
  | none, false => { s with phase := .claiming true }
  | none, true => { s with phase := .raised .versionConflict }

/-- The read of the row after a completion. -/
def reloadStep (settings : TokenSettings) (request : EnsureRequest) (s : EnsureState)
    (retry : Bool) (target : Option MailAccessChannel) : EnsureState :=
  match s.db.mailboxes.get? request.mailboxId with
  | none => { s with phase := .raised .mailboxNotFound }
  | some loaded =>
      if !missing loaded.accessTokenCiphertext &&
          !(settings.decrypt (loaded.accessTokenCiphertext.getD "")).toOption.isSome then
        { s with phase := .raised .unreadableCredential }
      else if settings.shouldRunProbe (request.forceRefresh || retry)
          request.preferredChannel target loaded then
        { s with phase := .probing loaded }
      else { s with phase := .returned }

def finishProbeStep (settings : TokenSettings) (s : EnsureState) (loaded : Mailbox)
    (probe : Option CapabilityProbeResult) (nonce : ℕ) : EnsureState :=
  match probe, s.db.mailboxes.get? loaded.id with
  | some result, some _ =>
      { s with
        db := s.db.writeMailbox loaded.id
          (assignProbe settings s.now nonce loaded loaded result)
        phase := .returned }
  | _, _ => { s with phase := .raised .probeFailed }

/-- A call of another caller. The id of its claim is drawn anew. -/
def othersStep (s : EnsureState) (call : RefreshCall) : EnsureState :=
  if call.draws.any (s.issued.contains ·) then s
  else
    let t := refreshStep ⟨s.db, s.now, []⟩ call
    { s with db := t.db, now := t.now }

def ensureStep (settings : TokenSettings) (request : EnsureRequest) (s : EnsureState) :
    EnsureEvent → EnsureState
  | .checkCache probe nonce =>
      match s.phase with
      | .starting => checkCacheStep settings request s probe nonce
      | _ => s
  | .claim claimId =>
      match s.phase with
      | .claiming retry => phaseAStep settings request s retry claimId
      | _ => s
  | .exchange answer nonce =>
      match s.phase with
      | .exchanging retry target claim startedAt =>
          phaseCStep settings s retry target claim startedAt nonce answer
      | _ => s
  | .readWinner seen =>
      match s.phase with
      | .outrun retry => winnerStep settings request s retry seen
      | _ => s
  | .readForProbe =>
      match s.phase with
      | .refreshed retry target => reloadStep settings request s retry target
      | _ => s
  | .finishProbe probe nonce =>
      match s.phase with
      | .probing loaded => finishProbeStep settings s loaded probe nonce
      | _ => s
  | .others call => othersStep s call
  | .removed mailboxIds => { s with db := s.db.deleteMailboxes mailboxIds }

/-! ## The promise and its condition -/

def Database.carriesClaim (db : Database) (mailboxId claimId : String) : Bool :=
  (db.mailboxes.get? mailboxId).any fun m => m.tokenRefreshClaimId = some claimId

/-- A call that is over has left none of its claims on the mailbox, and was not
turned away by one of its own. -/
structure LeavesNoClaim (request : EnsureRequest) (s : EnsureState) : Prop where
  cleared : s.phase.over = true → ∀ id ∈ s.issued,
    s.db.carriesClaim request.mailboxId id = false
  not_own : ∀ id, s.phase = .raised (.alreadyRefreshing id) → id ∉ s.issued

/-- A claim whose exchange has ended so can be disposed of, on a row that still
carries it. -/
def TokenRefreshClaim.Disposable (claim : TokenRefreshClaim) (startedAt : ℕ) (m : Mailbox) :
    Except ExchangeFailure MicrosoftTokenResponse → Prop
  | .error .other => True
  | .error .invalidGrant => m.tokenVersion = claim.expectedTokenVersion
  | .ok response => m.tokenVersion = claim.expectedTokenVersion ∧
      response.storable startedAt true = true

instance (claim : TokenRefreshClaim) (startedAt : ℕ) (m : Mailbox) :
    ∀ answer, Decidable (claim.Disposable startedAt m answer)
  | .error .other => inferInstanceAs (Decidable True)
  | .error .invalidGrant => inferInstanceAs (Decidable (_ = _))
  | .ok _ => inferInstanceAs (Decidable (_ ∧ _))

/-- An exchange ends on a row that has lost its claim, or on which the claim can
be disposed of. -/
def FinalizesOwnClaim (s : EnsureState) : EnsureEvent → Prop
  | .exchange answer _ =>
      ∀ x ∈ s.phase.underWay, ∀ m ∈ s.db.mailboxes.get? x.1.mailboxId,
        x.1.installed m = true → x.1.Disposable x.2 m answer
  | _ => True

instance (s : EnsureState) : ∀ e, Decidable (FinalizesOwnClaim s e)
  | .exchange _ _ => inferInstanceAs (Decidable (∀ x ∈ s.phase.underWay, ∀ _ ∈ _, _ → _))
  | .checkCache _ _ => inferInstanceAs (Decidable True)
  | .claim _ => inferInstanceAs (Decidable True)
  | .readWinner _ => inferInstanceAs (Decidable True)
  | .readForProbe => inferInstanceAs (Decidable True)
  | .finishProbe _ _ => inferInstanceAs (Decidable True)
  | .others _ => inferInstanceAs (Decidable True)
  | .removed _ => inferInstanceAs (Decidable True)

/-- The invariant: of the claims of the call, only the pending one can be on the
mailbox. -/
structure OnlyPending (request : EnsureRequest) (s : EnsureState) : Prop where
  stored : ∀ id ∈ s.issued, s.db.carriesClaim request.mailboxId id = true →
    ∃ claim, s.phase.pending = some claim ∧ claim.claimId = id
  mailbox : ∀ claim, s.phase.pending = some claim → claim.mailboxId = request.mailboxId
  not_own : ∀ id, s.phase = .raised (.alreadyRefreshing id) → id ∉ s.issued

theorem OnlyPending.leavesNoClaim {request : EnsureRequest} {s : EnsureState}
    (h : OnlyPending request s) : LeavesNoClaim request s where
  cleared hover id hid := by
    rw [← Bool.not_eq_true]
    intro hcarries
    obtain ⟨claim, hpending, -⟩ := h.stored id hid hcarries
    cases hphase : s.phase <;> rw [hphase] at hover hpending
    case exchanging => cases hover
    all_goals cases hpending
  not_own := h.not_own

/-! ## Which claim a row carries -/

variable {db db' : Database} {k id : String}

theorem carriesClaim_iff : db.carriesClaim k id = true ↔
    ∃ m, db.mailboxes.get? k = some m ∧ m.tokenRefreshClaimId = some id := by
  unfold Database.carriesClaim
  rw [Option.any_eq_true]
  simp only [decide_eq_true_eq]

def NoNewClaim (db db' : Database) (k id : String) : Prop :=
  db'.carriesClaim k id = true → db.carriesClaim k id = true

theorem carriesClaim_update {mailboxId : String} {q : Mailbox → Bool} {f : MailboxAssignment}
    (h : (db.updateMailbox mailboxId q f).db.carriesClaim k id = true) :
    ∃ m, db.mailboxes.get? k = some m ∧
      (m.tokenRefreshClaimId = some id ∧ ¬ (k = mailboxId ∧ q m = true) ∨
        (k = mailboxId ∧ q m = true) ∧ (f.set m).tokenRefreshClaimId = some id) := by
  obtain ⟨m', hm', hid⟩ := carriesClaim_iff.mp h
  cases hm : db.mailboxes.get? k with
  | none =>
      have hnone : (db.updateMailbox mailboxId q f).db.mailboxes.get? k = none := by
        by_cases hk : k = mailboxId
        · rw [hk, updateMailbox_get?, ← hk, hm]
          rfl
        · rw [updateMailbox_get?_ne hk, hm]
      rw [hnone] at hm'
      cases hm'
  | some m =>
      rw [updateMailbox_row hm] at hm'
      obtain rfl := Option.some.inj hm'
      refine ⟨m, rfl, ?_⟩
      by_cases hmatch : k = mailboxId ∧ q m = true
      · rw [if_pos hmatch] at hid
        exact Or.inr ⟨hmatch, hid⟩
      · rw [if_neg hmatch] at hid
        exact Or.inl ⟨hid, hmatch⟩

/-- An update that leaves the claim alone, or clears it, brings no new one. -/
theorem noNewClaim_update {mailboxId : String} {q : Mailbox → Bool} {f : MailboxAssignment}
    (hf : ∀ m, (f.set m).tokenRefreshClaimId = m.tokenRefreshClaimId ∨
      (f.set m).tokenRefreshClaimId = none) :
    NoNewClaim db (db.updateMailbox mailboxId q f).db k id := by
  intro h
  obtain ⟨m, hm, ⟨hid, -⟩ | ⟨-, hid⟩⟩ := carriesClaim_update h
  · exact carriesClaim_iff.mpr ⟨m, hm, hid⟩
  · rcases hf m with hsame | hnone
    · exact carriesClaim_iff.mpr ⟨m, hm, hsame.symm.trans hid⟩
    · rw [hnone] at hid
      cases hid

omit [Platform] in
theorem writeProbe_claim {settings : TokenSettings} {now nonce : ℕ}
    {loaded assigned : Mailbox} {result : CapabilityProbeResult} (m : Mailbox) :
    (settings.writeProbe now nonce loaded assigned result m).tokenRefreshClaimId =
      m.tokenRefreshClaimId := by
  unfold TokenSettings.writeProbe
  split
  · rfl
  · dsimp only
    split <;> rfl

omit [Platform] in
theorem assignRefreshToken_claim {w : RefreshTokenWrite} {version : Mailbox → ℕ}
    (m : Mailbox) :
    ((assignRefreshToken w version).set m).tokenRefreshClaimId = m.tokenRefreshClaimId := by
  unfold assignRefreshToken
  dsimp only
  split <;> rfl

theorem not_carriesClaim_finalized {claim : TokenRefreshClaim} {q : Mailbox → Bool}
    {f : MailboxAssignment} (hf : ∀ m, (f.set m).tokenRefreshClaimId = none)
    (hq : ∀ m, db.mailboxes.get? claim.mailboxId = some m → claim.installed m = true →
      q m = true) :
    (db.updateMailbox claim.mailboxId q f).db.carriesClaim claim.mailboxId claim.claimId =
      false := by
  rw [← Bool.not_eq_true]
  intro h
  obtain ⟨m, hm, ⟨hid, hmiss⟩ | ⟨-, hid⟩⟩ := carriesClaim_update h
  · exact hmiss ⟨rfl, hq m hm (by simpa [TokenRefreshClaim.installed] using hid)⟩
  · rw [hf m] at hid
    cases hid

theorem noNewClaim_refl : NoNewClaim db db k id := fun h => h

/-- A call of the repository puts no claim on a row but the one it draws. -/
theorem refreshStep_noNewClaim {s : RefreshState} {call : RefreshCall}
    (h : call.draws ≠ some id) : NoNewClaim s.db (refreshStep s call).db k id := by
  cases call with
  | claim claimId mailboxId decrypt ttl skip =>
      simp only [refreshStep]
      split
      · exact noNewClaim_refl
      · rename_i granted db' hok
        obtain ⟨-, -, -, -, -, -, -, -, rfl⟩ := claimTokenRefresh_ok hok
        intro hcarries
        obtain ⟨m, hm, ⟨hid, -⟩ | ⟨-, hid⟩⟩ := carriesClaim_update hcarries
        · exact carriesClaim_iff.mpr ⟨m, hm, hid⟩
        · exact absurd hid h
  | complete claim c =>
      simp only [refreshStep]
      split
      · exact noNewClaim_refl
      · rename_i v db' hok
        rcases completeTokenRefresh_ok hok with ⟨-, -, -, encrypted, -, rfl⟩ | ⟨-, rfl⟩
        · exact noNewClaim_update fun _ => Or.inr rfl
        · exact noNewClaim_update fun _ => Or.inr rfl
  | failInvalidGrant claim => exact noNewClaim_update fun _ => Or.inr rfl
  | release claim => exact noNewClaim_update fun _ => Or.inr rfl
  | compareAndSwap mailboxId expected w =>
      simp only [refreshStep]
      split
      · exact noNewClaim_refl
      · rename_i v db' hok
        rw [(compareAndSwapRefreshToken_ok hok).2]
        exact noNewClaim_update fun m => Or.inl (assignRefreshToken_claim m)
  | increment mailboxId w =>
      simp only [refreshStep]
      split
      · exact noNewClaim_refl
      · rename_i v db' hok
        rw [incrementTokenVersionUnderLock_ok hok]
        exact noNewClaim_update fun m => Or.inl (assignRefreshToken_claim m)
  | advance elapsed => exact noNewClaim_refl

theorem deleteMailboxes_noNewClaim {mailboxIds : List String} :
    NoNewClaim db (db.deleteMailboxes mailboxIds) k id := by
  intro h
  obtain ⟨m, hm, hid⟩ := carriesClaim_iff.mp h
  obtain ⟨hmem, hkey⟩ := Table.get?_eq_some.mp hm
  exact carriesClaim_iff.mpr
    ⟨m, Table.get?_eq_some.mpr ⟨(Table.mem_deleteWhere.mp hmem).1, hkey⟩, hid⟩

omit [Platform] in
theorem completion_stamped {settings : TokenSettings} {startedAt nonce : ℕ}
    {refreshToken : String} {response : MicrosoftTokenResponse} :
    (settings.completion nonce startedAt refreshToken response).Stamped := by
  intro hrotated
  refine ⟨?_, rfl, rfl⟩
  have hencrypted : (settings.completion nonce startedAt refreshToken
      response).encryptedRefreshToken =
      some (settings.encrypt (nonce + 1) (response.rotatedRefreshToken.getD "")) :=
    if_pos hrotated
  rw [hencrypted]
  rfl

theorem completion_not_refused {settings : TokenSettings} {claim : TokenRefreshClaim}
    {startedAt nonce : ℕ} {refreshToken : String} {response : MicrosoftTokenResponse}
    (e : TokenRepositoryError) :
    completeTokenRefresh db claim (settings.completion nonce startedAt refreshToken response) ≠
      .error e := by
  rw [completeTokenRefresh_eq _ _ completion_stamped]
  split
  · intro h
    cases h
  · intro h
    cases h

/-! ## Every step -/

variable {settings : TokenSettings} {request : EnsureRequest} {s : EnsureState}

theorem OnlyPending.move {s' : EnsureState} (h : OnlyPending request s)
    (hbefore : s.phase.pending = none) (hafter : s'.phase.pending = none)
    (hissued : s'.issued = s.issued)
    (hdb : ∀ id ∈ s.issued, NoNewClaim s.db s'.db request.mailboxId id)
    (hraised : ∀ id, s'.phase = .raised (.alreadyRefreshing id) → id ∉ s.issued) :
    OnlyPending request s' where
  stored id hid hcarries := by
    rw [hissued] at hid
    obtain ⟨claim, hpending, -⟩ := h.stored id hid (hdb id hid hcarries)
    rw [hbefore] at hpending
    cases hpending
  mailbox claim hpending := by
    rw [hafter] at hpending
    cases hpending
  not_own id hphase := by
    rw [hissued]
    exact hraised id hphase

theorem OnlyPending.world {s' : EnsureState} (h : OnlyPending request s)
    (hphase : s'.phase = s.phase) (hissued : s'.issued = s.issued)
    (hdb : ∀ id ∈ s.issued, NoNewClaim s.db s'.db request.mailboxId id) :
    OnlyPending request s' where
  stored id hid hcarries := by
    rw [hissued] at hid
    rw [hphase]
    exact h.stored id hid (hdb id hid hcarries)
  mailbox := by
    rw [hphase]
    exact h.mailbox
  not_own := by
    rw [hphase, hissued]
    exact h.not_own

theorem OnlyPending.finalize {s' : EnsureState} {claim : TokenRefreshClaim}
    (h : OnlyPending request s) (hbefore : s.phase.pending = some claim)
    (hafter : s'.phase.pending = none) (hissued : s'.issued = s.issued)
    (hdb : ∀ id ∈ s.issued, NoNewClaim s.db s'.db request.mailboxId id)
    (hgone : s'.db.carriesClaim claim.mailboxId claim.claimId = false)
    (hraised : ∀ id, s'.phase ≠ .raised (.alreadyRefreshing id)) :
    OnlyPending request s' where
  stored id hid hcarries := by
    rw [hissued] at hid
    obtain ⟨claim', hpending, rfl⟩ := h.stored id hid (hdb id hid hcarries)
    rw [hbefore] at hpending
    obtain rfl := Option.some.inj hpending
    rw [h.mailbox _ hbefore, hcarries] at hgone
    cases hgone
  mailbox claim' hpending := by
    rw [hafter] at hpending
    cases hpending
  not_own id hphase := absurd hphase (hraised id)

theorem onlyPending_checkCache (h : OnlyPending request s) (hphase : s.phase = .starting)
    (probe : Option CapabilityProbeResult) (nonce : ℕ) :
    OnlyPending request (checkCacheStep settings request s probe nonce) := by
  have hpending : s.phase.pending = none := by
    rw [hphase]
    rfl
  have hkeep : ∀ phase : EnsurePhase, phase.pending = none →
      (∀ id, phase ≠ .raised (.alreadyRefreshing id)) →
      OnlyPending request { s with phase } := fun phase hnone hraised =>
    h.move hpending hnone rfl (fun _ _ => noNewClaim_refl) fun id heq => absurd heq (hraised id)
  have hwrite : ∀ (mailboxId : String) (f : MailboxAssignment),
      (∀ m, (f.set m).tokenRefreshClaimId = m.tokenRefreshClaimId) →
      OnlyPending request
        { s with db := s.db.writeMailbox mailboxId f, phase := .returned } :=
    fun mailboxId f hf => h.move hpending rfl rfl
      (fun _ _ => noNewClaim_update fun m => Or.inl (hf m)) fun id heq => by cases heq
  unfold checkCacheStep
  split
  · exact hkeep _ rfl (by intro id; simp)
  split
  · exact hkeep _ rfl (by intro id; simp)
  · split
    · exact hkeep _ rfl (by intro id; simp)
    · dsimp only
      split
      · exact hkeep _ rfl (by intro id; simp)
      · exact hkeep _ rfl (by intro id; simp)
      · split
        · exact hwrite _ _ fun _ => rfl
        · split
          · exact hkeep _ rfl (by intro id; simp)
          · exact hwrite _ _ writeProbe_claim

theorem claimTokenRefresh_claimed {now : ℕ} {claimId mailboxId : String}
    {decrypt : String → Except String String} {ttl : ℕ} {skip : Bool}
    {blocked installed : String} {expiresAt : ℕ}
    (h : claimTokenRefresh db now claimId mailboxId decrypt ttl skip =
      .error (.refreshAlreadyClaimed blocked installed expiresAt)) :
    db.carriesClaim mailboxId installed = true := by
  unfold claimTokenRefresh at h
  cases hrow : db.mailboxes.get? mailboxId with
  | none => simp only [hrow, Except.error.injEq, reduceCtorEq] at h
  | some m =>
      simp only [hrow] at h
      split at h
      · cases h
      split at h
      · cases h
      split at h
      · rename_i hclaimed
        unfold Mailbox.claimedAt at hclaimed
        split at hclaimed
        · rename_i claimId' expiresAt' hid hexpires
          unfold Mailbox.alreadyClaimed at h
          rw [hid] at h
          obtain ⟨-, rfl, -⟩ := TokenRepositoryError.refreshAlreadyClaimed.inj
            (Except.error.inj h)
          exact carriesClaim_iff.mpr ⟨m, hrow, hid⟩
        · cases hclaimed
      split at h
      · cases h
      split at h
      · -- the row that was read is there to be updated
        rename_i hclaimed _ hcount
        rw [updateMailbox_rowcount, hrow, Option.any_some] at hcount
        simp only [Bool.not_eq_true] at hclaimed
        simp [hclaimed] at hcount
      split at h
      · cases h
      · cases h

theorem onlyPending_phaseA (h : OnlyPending request s) {retry : Bool}
    (hphase : s.phase = .claiming retry) (claimId : String) :
    OnlyPending request (phaseAStep settings request s retry claimId) := by
  have hpending : s.phase.pending = none := by
    rw [hphase]
    rfl
  have hkeep : ∀ phase : EnsurePhase, phase.pending = none →
      (∀ id, phase = .raised (.alreadyRefreshing id) → id ∉ s.issued) →
      OnlyPending request { s with phase } := fun phase hnone hraised =>
    h.move hpending hnone rfl (fun _ _ => noNewClaim_refl) hraised
  unfold phaseAStep
  split
  · exact hkeep _ rfl (by intro id heq; cases heq)
  · rename_i m hrow
    split
    · exact hkeep _ rfl (by intro id heq; cases heq)
    · dsimp only
      split
      · exact hkeep _ rfl (by intro id heq; cases heq)
      · exact hkeep _ rfl (by intro id heq; cases heq)
      · split
        · rename_i claim db' hok
          obtain ⟨row, -, -, hmailbox, hid, -, -, -, rfl⟩ := claimTokenRefresh_ok hok
          refine ⟨?_, ?_, fun id heq => by cases heq⟩
          · intro id hissued hcarries
            refine ⟨claim, rfl, ?_⟩
            obtain ⟨m', hm', ⟨hold, -⟩ | ⟨-, hnew⟩⟩ := carriesClaim_update hcarries
            · -- a claim from before would have been one of the call's
              rcases List.mem_cons.mp hissued with rfl | hissued
              · exact hid
              · obtain ⟨claim', hpending', -⟩ := h.stored id hissued
                  (carriesClaim_iff.mpr ⟨m', hm', hold⟩)
                rw [hpending] at hpending'
                cases hpending'
            · exact hid.trans (Option.some.inj hnew)
          · intro claim' heq
            obtain rfl := Option.some.inj heq
            exact hmailbox
        · rename_i blocked installed expiresAt herror
          split
          · exact hkeep _ rfl (by intro id heq; cases heq)
          · refine hkeep _ rfl ?_
            rintro id heq hissued
            cases heq
            obtain ⟨claim', hpending', -⟩ :=
              h.stored _ hissued (claimTokenRefresh_claimed herror)
            rw [hpending] at hpending'
            cases hpending'
        · exact hkeep _ rfl (by intro id heq; cases heq)

omit [Platform] in
theorem TokenRefreshClaim.current_iff {claim : TokenRefreshClaim} {m : Mailbox}
    (hinstalled : claim.installed m = true) :
    claim.current m = true ↔ m.tokenVersion = claim.expectedTokenVersion := by
  unfold TokenRefreshClaim.current
  rw [Bool.and_eq_true, decide_eq_true_eq]
  exact and_iff_left hinstalled

/-- **What an answer with tokens leads to**: it cannot be stored, or it is written to
the row the claim is current on, which then carries no claim. -/
theorem phaseC_ok_cases (settings : TokenSettings) (s : EnsureState) (retry : Bool)
    (target : Option MailAccessChannel) (claim : TokenRefreshClaim) (startedAt nonce : ℕ)
    (response : MicrosoftTokenResponse) :
    let matched := (s.db.mailboxes.get? claim.mailboxId).any claim.current
    (response.storable startedAt matched = false ∧
      phaseCStep settings s retry target claim startedAt nonce (.ok response) =
        { s with phase := .raised .unstorableAnswer }) ∨
    (response.storable startedAt matched = true ∧
      ∃ (f : MailboxAssignment) (phase : EnsurePhase),
        (∀ m, (f.set m).tokenRefreshClaimId = none) ∧ phase.pending = none ∧
        (∀ id, phase ≠ .raised (.alreadyRefreshing id)) ∧
        phaseCStep settings s retry target claim startedAt nonce (.ok response) =
          { s with db := (s.db.updateMailbox claim.mailboxId claim.current f).db, phase }) := by
  simp only [phaseCStep]
  split
  · rename_i hlost
    exact Or.inl ⟨hlost, rfl⟩
  · rename_i hstored
    refine Or.inr ⟨Bool.not_eq_false _ ▸ hstored, ?_⟩
    have hupdated : ∀ (v : Option ℕ) (db' : Database),
        completeTokenRefresh s.db claim
          (settings.completion nonce startedAt claim.refreshToken response) = .ok (v, db') →
        ∃ f : MailboxAssignment, (∀ m, (f.set m).tokenRefreshClaimId = none) ∧
          db' = (s.db.updateMailbox claim.mailboxId claim.current f).db := by
      intro v db' hok
      rcases completeTokenRefresh_ok hok with ⟨-, -, -, encrypted, -, rfl⟩ | ⟨-, rfl⟩
      · exact ⟨_, fun _ => rfl, rfl⟩
      · exact ⟨_, fun _ => rfl, rfl⟩
    split
    · rename_i e herror
      exact absurd herror (completion_not_refused _)
    · rename_i db' hok
      obtain ⟨f, hf, rfl⟩ := hupdated _ _ hok
      exact ⟨f, .outrun retry, hf, rfl, by intro id; simp, rfl⟩
    · rename_i version db' hok
      obtain ⟨f, hf, rfl⟩ := hupdated _ _ hok
      exact ⟨f, .refreshed retry target, hf, rfl, by intro id; simp, rfl⟩

/-- **Phases B and C**: an exchange that ends on a row that has lost its claim,
or on which the claim can be disposed of, leaves no claim. -/
theorem onlyPending_phaseC (h : OnlyPending request s) {retry : Bool}
    {target : Option MailAccessChannel} {claim : TokenRefreshClaim} {startedAt nonce : ℕ}
    {answer : Except ExchangeFailure MicrosoftTokenResponse}
    (hphase : s.phase = .exchanging retry target claim startedAt)
    (hfinal : ∀ m, s.db.mailboxes.get? claim.mailboxId = some m → claim.installed m = true →
      claim.Disposable startedAt m answer) :
    OnlyPending request (phaseCStep settings s retry target claim startedAt nonce answer) := by
  have hpending : s.phase.pending = some claim := by
    rw [hphase]
    rfl
  have hcleared : ∀ (q : Mailbox → Bool) (f : MailboxAssignment) (phase : EnsurePhase),
      (∀ m, (f.set m).tokenRefreshClaimId = none) →
      (∀ m, s.db.mailboxes.get? claim.mailboxId = some m → claim.installed m = true →
        q m = true) → phase.pending = none →
      (∀ id, phase ≠ .raised (.alreadyRefreshing id)) →
      OnlyPending request
        { s with db := (s.db.updateMailbox claim.mailboxId q f).db, phase } :=
    fun q f phase hf hq hnone hraised => h.finalize hpending hnone rfl
      (fun _ _ => noNewClaim_update fun m => Or.inr (hf m)) (not_carriesClaim_finalized hf hq)
      hraised
  cases answer with
  | error failure =>
      cases failure with
      | invalidGrant =>
          refine hcleared claim.current (assignInvalid s.now) _ (fun _ => rfl) ?_ rfl
            (by intro id; simp)
          intro m hm hinstalled
          exact (TokenRefreshClaim.current_iff hinstalled).mpr (hfinal m hm hinstalled)
      | other =>
          exact hcleared claim.installed (assignNoClaim s.now) _ (fun _ => rfl)
            (fun _ _ hinstalled => hinstalled) rfl (by intro id; simp)
  | ok response =>
      have hcurrent : ∀ m, s.db.mailboxes.get? claim.mailboxId = some m →
          claim.installed m = true → claim.current m = true :=
        fun m hm hinstalled =>
          (TokenRefreshClaim.current_iff hinstalled).mpr (hfinal m hm hinstalled).1
      rcases phaseC_ok_cases settings s retry target claim startedAt nonce response with
        ⟨hlost, heq⟩ | ⟨-, f, phase, hf, hnone, hraised, heq⟩
      · -- a row that still carried the claim would have taken the answer
        have hgone : s.db.carriesClaim claim.mailboxId claim.claimId = false := by
          rw [← Bool.not_eq_true]
          intro hcarries
          obtain ⟨m, hm, hid⟩ := carriesClaim_iff.mp hcarries
          have hinstalled : claim.installed m = true := by
            simpa [TokenRefreshClaim.installed] using hid
          rw [hm, Option.any_some, hcurrent m hm hinstalled, (hfinal m hm hinstalled).2] at hlost
          cases hlost
        rw [heq]
        exact h.finalize hpending rfl rfl (fun _ _ => noNewClaim_refl) hgone (by intro id; simp)
      · rw [heq]
        exact hcleared _ _ _ hf hcurrent hnone hraised

theorem onlyPending_winner (h : OnlyPending request s) {retry : Bool}
    (hphase : s.phase = .outrun retry) (seen : Option Mailbox) :
    OnlyPending request (winnerStep settings request s retry seen) := by
  have hkeep : ∀ phase : EnsurePhase, phase.pending = none →
      (∀ id, phase ≠ .raised (.alreadyRefreshing id)) →
      OnlyPending request { s with phase } := fun phase hnone hraised =>
    h.move (by rw [hphase]; rfl) hnone rfl (fun _ _ => noNewClaim_refl) fun id heq =>
      absurd heq (hraised id)
  unfold winnerStep
  split
  · exact hkeep _ rfl (by intro id; simp)
  · exact hkeep _ rfl (by intro id; simp)
  · exact hkeep _ rfl (by intro id; simp)

theorem onlyPending_reload (h : OnlyPending request s) {retry : Bool}
    {target : Option MailAccessChannel} (hphase : s.phase = .refreshed retry target) :
    OnlyPending request (reloadStep settings request s retry target) := by
  have hkeep : ∀ phase : EnsurePhase, phase.pending = none →
      (∀ id, phase ≠ .raised (.alreadyRefreshing id)) →
      OnlyPending request { s with phase } := fun phase hnone hraised =>
    h.move (by rw [hphase]; rfl) hnone rfl (fun _ _ => noNewClaim_refl) fun id heq =>
      absurd heq (hraised id)
  unfold reloadStep
  split
  · exact hkeep _ rfl (by intro id; simp)
  split
  · exact hkeep _ rfl (by intro id; simp)
  split
  · exact hkeep _ rfl (by intro id; simp)
  · exact hkeep _ rfl (by intro id; simp)

theorem onlyPending_finishProbe (h : OnlyPending request s) {loaded : Mailbox}
    (hphase : s.phase = .probing loaded) (probe : Option CapabilityProbeResult) (nonce : ℕ) :
    OnlyPending request (finishProbeStep settings s loaded probe nonce) := by
  have hpending : s.phase.pending = none := by
    rw [hphase]
    rfl
  unfold finishProbeStep
  split
  · exact h.move hpending rfl rfl
      (fun _ _ => noNewClaim_update fun m => Or.inl (writeProbe_claim m))
      fun id heq => by cases heq
  · exact h.move hpending rfl rfl (fun _ _ => noNewClaim_refl) fun id heq => by cases heq

theorem onlyPending_others (h : OnlyPending request s) (call : RefreshCall) :
    OnlyPending request (othersStep s call) := by
  unfold othersStep
  split
  · exact h
  · rename_i hfresh
    refine h.world rfl rfl ?_
    intro id hid
    refine refreshStep_noNewClaim (s := ⟨s.db, s.now, []⟩) ?_
    intro hdraws
    rw [hdraws, Option.any_some] at hfresh
    exact hfresh (List.contains_iff_mem.mpr hid)

/-- **Step lemma.** -/
theorem onlyPending_step (s : EnsureState) (e : EnsureEvent) (h : OnlyPending request s)
    (hfinal : FinalizesOwnClaim s e) : OnlyPending request (ensureStep settings request s e) := by
  cases e with
  | checkCache probe nonce =>
      simp only [ensureStep]
      split
      · rename_i hphase
        exact onlyPending_checkCache h hphase probe nonce
      · exact h
  | claim claimId =>
      simp only [ensureStep]
      split
      · rename_i retry hphase
        exact onlyPending_phaseA h hphase claimId
      · exact h
  | exchange answer nonce =>
      simp only [ensureStep]
      split
      · rename_i retry target claim startedAt hphase
        exact onlyPending_phaseC h hphase (hfinal (claim, startedAt) (by rw [hphase]; rfl))
      · exact h
  | readWinner seen =>
      simp only [ensureStep]
      split
      · rename_i retry hphase
        exact onlyPending_winner h hphase seen
      · exact h
  | readForProbe =>
      simp only [ensureStep]
      split
      · rename_i retry target hphase
        exact onlyPending_reload h hphase
      · exact h
  | finishProbe probe nonce =>
      simp only [ensureStep]
      split
      · rename_i loaded hphase
        exact onlyPending_finishProbe h hphase probe nonce
      · exact h
  | others call => exact onlyPending_others h call
  | removed mailboxIds =>
      exact h.world rfl rfl fun _ _ => deleteMailboxes_noNewClaim

theorem onlyPending_start (db : Database) (now : ℕ) :
    OnlyPending request (.start db now) where
  stored id hid := absurd hid List.not_mem_nil
  mailbox claim hpending := by cases hpending
  not_own id hphase := by cases hphase

/-! ## Every run -/

/-- **No claim is left behind** by a call whose exchanges end, each of them, on
a row that has lost the claim or is still at its version, the lifetime of the
token being one that `datetime` can hold: when the call is over its claims are
off the mailbox, and its retry was not turned away by one of them. -/
theorem ensure_leaves_no_claim (settings : TokenSettings) (request : EnsureRequest)
    (db : Database) (now : ℕ) (events : List EnsureEvent)
    (h : Meets (ensureStep settings request) FinalizesOwnClaim (.start db now) events) :
    Throughout (ensureStep settings request) (LeavesNoClaim request) (.start db now)
      events := by
  have hpending : Throughout (ensureStep settings request) (OnlyPending request)
      (.start db now) events :=
    throughout_of_meets (fun s e hs hok => onlyPending_step s e hs hok)
      (onlyPending_start db now) h
  exact hpending.imp fun s hs => hs.leavesNoClaim

/-- **The condition is exact for one exchange**: on a row that carries the
claim, the claim is gone after the exchange if and only if it could be disposed
of. -/
theorem phaseC_clears_iff {m : Mailbox} {retry : Bool} {target : Option MailAccessChannel}
    {claim : TokenRefreshClaim} {startedAt nonce : ℕ}
    {answer : Except ExchangeFailure MicrosoftTokenResponse}
    (hm : s.db.mailboxes.get? claim.mailboxId = some m) (hinstalled : claim.installed m = true) :
    (phaseCStep settings s retry target claim startedAt nonce answer).db.carriesClaim
        claim.mailboxId claim.claimId = false ↔ claim.Disposable startedAt m answer := by
  have hcarries : s.db.carriesClaim claim.mailboxId claim.claimId = true :=
    carriesClaim_iff.mpr ⟨m, hm, by simpa [TokenRefreshClaim.installed] using hinstalled⟩
  have hcurrent := TokenRefreshClaim.current_iff hinstalled
  have hupdate : ∀ f : MailboxAssignment, (∀ m, (f.set m).tokenRefreshClaimId = none) →
      ((s.db.updateMailbox claim.mailboxId claim.current f).db.carriesClaim claim.mailboxId
        claim.claimId = false ↔ m.tokenVersion = claim.expectedTokenVersion) := by
    intro f hf
    constructor
    · intro hgone
      -- an update that finds no row leaves the claim where it was
      by_contra hversion
      have hmiss : (s.db.mailboxes.get? claim.mailboxId).any claim.current = false := by
        rw [hm, Option.any_some, ← Bool.not_eq_true, hcurrent]
        exact hversion
      rw [updateMailbox_of_not hmiss, hcarries] at hgone
      cases hgone
    · intro hversion
      refine not_carriesClaim_finalized hf fun m' hm' _ => ?_
      rw [hm] at hm'
      obtain rfl := Option.some.inj hm'
      exact hcurrent.mpr hversion
  cases answer with
  | error failure =>
      cases failure with
      | invalidGrant => exact hupdate (assignInvalid s.now) fun _ => rfl
      | other =>
          refine iff_of_true ?_ trivial
          exact not_carriesClaim_finalized (fun _ => rfl) fun _ _ hinstalled => hinstalled
  | ok response =>
      have hmatched : m.tokenVersion = claim.expectedTokenVersion →
          (s.db.mailboxes.get? claim.mailboxId).any claim.current = true := by
        intro hversion
        rw [hm, Option.any_some]
        exact hcurrent.mpr hversion
      rcases phaseC_ok_cases settings s retry target claim startedAt nonce response with
        ⟨hlost, heq⟩ | ⟨hstored, f, phase, hf, -, -, heq⟩
      · rw [heq]
        constructor
        · intro hgone
          exact absurd (hcarries.symm.trans hgone) (by simp)
        · rintro ⟨hversion, hstorable⟩
          rw [hmatched hversion, hstorable] at hlost
          cases hlost
      · rw [heq, hupdate f hf]
        exact (and_iff_left_of_imp fun hversion => hmatched hversion ▸ hstored).symm

end

/-! ## A client's write during the exchange -/

section Sample

attribute [local instance] asciiPlatform

def sampleEnsureStep : EnsureState → EnsureEvent → EnsureState :=
  ensureStep sampleTokenSettings { mailboxId := "mailbox" }

def refreshEvents : List EnsureEvent :=
  [.checkCache none 65, .claim "first",
    .exchange (.ok (sampleAnswer "access" "mail" (some "rotated"))) 66, .readForProbe,
    .finishProbe (some { capability := .imap }) 68]

theorem ensure_leaves_no_claim_sample :
    Throughout sampleEnsureStep (LeavesNoClaim { mailboxId := "mailbox" })
        (.start tokenDatabase 0) refreshEvents ∧
      (exec sampleEnsureStep (.start tokenDatabase 0) refreshEvents).phase = .returned ∧
      (exec sampleEnsureStep (.start tokenDatabase 0) refreshEvents).issued = ["first"] := by
  refine ⟨?_, by decide +kernel, by decide +kernel⟩
  exact ensure_leaves_no_claim sampleTokenSettings { mailboxId := "mailbox" } tokenDatabase 0
    refreshEvents (by decide +kernel)

/-- A client stores a refresh token of its own while the exchange is under way. -/
def overtakenEvents : List EnsureEvent :=
  [.checkCache none 65, .claim "first",
    .others (.compareAndSwap "mailbox" 1
      { encryptedRefreshToken := "@client", refreshTokenUpdatedAt := 0
        refreshTokenExpiresAt := seconds 86400 }),
    .exchange (.ok (sampleAnswer "access" "mail" none)) 66]

def retryEvents : List EnsureEvent :=
  overtakenEvents ++
    [.readWinner ((exec sampleEnsureStep (.start tokenDatabase 0)
        overtakenEvents).db.mailboxes.get? "mailbox"), .claim "second"]

/-- **The retry is turned away by the claim of its own call**, which stays on
the mailbox. -/
theorem retry_meets_own_claim :
    (exec sampleEnsureStep (.start tokenDatabase 0) retryEvents).phase =
        .raised (.alreadyRefreshing "first") ∧
      (exec sampleEnsureStep (.start tokenDatabase 0) retryEvents).issued = ["first"] ∧
      (exec sampleEnsureStep (.start tokenDatabase 0) retryEvents).db.carriesClaim "mailbox"
        "first" = true ∧
      ¬ LeavesNoClaim { mailboxId := "mailbox" }
        (exec sampleEnsureStep (.start tokenDatabase 0) retryEvents) := by
  have hphase : (exec sampleEnsureStep (.start tokenDatabase 0) retryEvents).phase =
      .raised (.alreadyRefreshing "first") := by decide +kernel
  have hissued : (exec sampleEnsureStep (.start tokenDatabase 0) retryEvents).issued =
      ["first"] := by decide +kernel
  refine ⟨hphase, hissued, by decide +kernel, ?_⟩
  intro h
  exact h.not_own "first" hphase (by rw [hissued]; exact List.mem_singleton_self _)

end Sample

end MailboxService
