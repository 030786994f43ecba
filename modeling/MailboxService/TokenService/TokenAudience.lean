import MailboxService.TokenService.CacheDecisions
import MailboxService.TokenService.RotatedTokens

/-!
# The audience of the cached token

An access token is issued for the audience that its exchange asks for: Graph, or
the default one, which is that of IMAP. The service keeps no audience. It keeps
the scope that came with the token, and takes a token without a Graph scope for
one that IMAP accepts.

Calls of `ensure_access_token` on one mailbox, writes of its refresh token and
imports follow one another here, and the state adds the audience that was asked
for when the cached token was issued. `scope_describes_token_iff` says which
tokens may be stored with which scopes for the scope to tell the truth.
-/

namespace MailboxService

open Foundation

/-! ## Cached tokens -/

structure CachedToken where
  accessTokenCiphertext : Option String
  accessTokenExpiresAt : Option ℕ
  accessTokenSourceVersion : Option ℕ
  tokenVersion : ℕ
  scope : Option String
  deriving DecidableEq, Repr

def Mailbox.cachedToken (m : Mailbox) : CachedToken where
  accessTokenCiphertext := m.accessTokenCiphertext
  accessTokenExpiresAt := m.accessTokenExpiresAt
  accessTokenSourceVersion := m.accessTokenSourceVersion
  tokenVersion := m.tokenVersion
  scope := m.scope

/-- A token that a step stores, with the audience that its exchange asked for. -/
structure StoredToken where
  audience : MailAccessChannel
  scope : Option String
  expiresAt : ℕ
  deriving DecidableEq, Repr

/-- `resolve_oauth_refresh_scope_for_channel`, as an audience. Without a scope the
exchange gets the default audience, which is that of IMAP. -/
def requestedAudience : Option MailAccessChannel → MailAccessChannel
  | some .graph => .graph
  | _ => .imap

/-- The scope is one for no channel but this. -/
def TokenSettings.NamesOnly (settings : TokenSettings) (scope : Option String)
    (audience : MailAccessChannel) : Prop :=
  ∀ channel, settings.matchesChannel scope channel = true → channel = audience

section

variable [Platform]

def storedToken (settings : TokenSettings) (request : EnsureRequest) (s : EnsureState)
    (e : ServiceEvent) : Option StoredToken :=
  match e with
  | .exchange (.ok response) _ =>
      match s.phase with
      | .exchanging _ target claim startedAt =>
          if (s.db.mailboxes.get? claim.mailboxId).any claim.current &&
              response.storable startedAt true then
            some
              { audience := requestedAudience target
                scope :=
                  orElseMissing response.scope (settings.extractScopes response.accessToken)
                expiresAt := (response.expiry startedAt).toNat }
          else none
      | _ => none
  | e =>
      (probedMailbox settings request s e).bind fun p =>
        (settings.proberResult s.now p.1 p.2).bind fun result =>
          (settings.replacement p.1 result).map fun r =>
            { audience := .graph
              scope := orElseMissing r.scope p.1.scope
              expiresAt := (r.expiry s.now).toNat }

/-! ## Runs -/

/-- What happens to the mailbox: a call begins or goes on, or while none is under
way its refresh token is written, or its credentials are imported. -/
inductive AudienceEvent where
  | begin (request : EnsureRequest)
  | call (e : ServiceEvent)
  | compareAndSwap (expectedTokenVersion : ℕ) (w : RefreshTokenWrite)
  | increment (w : RefreshTokenWrite)
  | importReplace (item : MailboxImportItem) (nonce : ℕ)

structure AudienceState where
  call : EnsureState
  request : EnsureRequest
  /-- The audience that was asked for when the cached token was issued. -/
  audience : Option MailAccessChannel

def AudienceState.start (mailboxId : String) (db : Database) (now : ℕ) : AudienceState where
  call := { EnsureState.start db now with phase := .returned }
  request := { mailboxId }
  audience := none

/-- The `replace_token` branch of an import. -/
def importMailbox (settings : TokenSettings) (s : EnsureState) (mailboxId : String)
    (item : MailboxImportItem) (nonce : ℕ) : Database :=
  match s.db.mailboxes.get? mailboxId with
  | none => s.db
  | some loaded =>
      (importStep settings ⟨s.db, s.now, fun _ => none, fun _ => 0, []⟩ item nonce loaded).db

def AudienceState.write (s : AudienceState) (db : Database) : AudienceState :=
  if s.call.phase.over then { s with call := { s.call with db } } else s

/-- Others leave the token of the mailbox alone, and the clock does not go back. -/
def AudienceState.admits (s : AudienceState) : ServiceEvent → Bool
  | .others db now =>
      decide ((db.mailboxes.get? s.request.mailboxId).map Mailbox.cachedToken =
          (s.call.db.mailboxes.get? s.request.mailboxId).map Mailbox.cachedToken) &&
        decide (s.call.now ≤ now)
  | _ => true

def audienceStep (settings : TokenSettings) (s : AudienceState) : AudienceEvent → AudienceState
  | .begin request =>
      if s.call.phase.over then
        { s with
          call := .start s.call.db s.call.now
          request := { request with mailboxId := s.request.mailboxId } }
      else s
  | .call e =>
      if s.admits e then
        { s with
          call := callStep settings s.request s.call e
          audience :=
            ((storedToken settings s.request s.call e).map StoredToken.audience).or
              s.audience }
      else s
  | .compareAndSwap expectedTokenVersion w =>
      match compareAndSwapRefreshToken s.call.db s.request.mailboxId expectedTokenVersion w with
      | .error _ => s
      | .ok (_, db) => s.write db
  | .increment w =>
      match incrementTokenVersionUnderLock s.call.db s.request.mailboxId w with
      | .error _ => s
      | .ok (_, db) => s.write db
  | .importReplace item nonce =>
      s.write (importMailbox settings s.call s.request.mailboxId item nonce)

instance (settings : TokenSettings) (scope : Option String) (audience : MailAccessChannel) :
    Decidable (settings.NamesOnly scope audience) :=
  decidable_of_iff ((settings.matchesChannel scope .imap = true → .imap = audience) ∧
    (settings.matchesChannel scope .graph = true → .graph = audience))
    ⟨fun h channel => by cases channel; exacts [h.1, h.2], fun h => ⟨h .imap, h .graph⟩⟩

/-- **The scope describes the cached token**: what a usable token was issued for is
the only thing that its scope is taken for. -/
def ScopeDescribesToken (settings : TokenSettings) (s : AudienceState) : Prop :=
  ∀ m, s.call.db.mailboxes.get? s.request.mailboxId = some m →
    settings.hasUsableCachedAccessToken s.call.now m = true →
    ∀ audience, s.audience = some audience → settings.NamesOnly m.scope audience

/-- A token that is stored long enough to be used comes with a scope that names
the audience it was asked for, and no other. -/
def StoresNamedToken (settings : TokenSettings) (s : AudienceState) : AudienceEvent → Prop
  | .call e =>
      ∀ token, storedToken settings s.request s.call e = some token →
        s.call.now + seconds settings.accessTokenRefreshSkewSeconds < token.expiresAt →
        settings.NamesOnly token.scope token.audience
  | _ => True

instance (settings : TokenSettings) (s : AudienceState) :
    ∀ e, Decidable (StoresNamedToken settings s e)
  | .call e =>
      inferInstanceAs
        (Decidable (∀ token ∈ storedToken settings s.request s.call e, _ → settings.NamesOnly _ _))
  | .begin _ => inferInstanceAs (Decidable True)
  | .compareAndSwap _ _ => inferInstanceAs (Decidable True)
  | .increment _ => inferInstanceAs (Decidable True)
  | .importReplace _ _ => inferInstanceAs (Decidable True)

/-! ## What a step does to the cached token -/

/-- A step leaves the cached token alone, reads its scope off it, or stores
another one. -/
inductive TokenEffect (settings : TokenSettings) (now : ℕ) (m m' : Mailbox) :
    Option StoredToken → Prop where
  | same (token : m'.cachedToken = m.cachedToken) : TokenEffect settings now m m' none
  | backfilled (accessToken : String)
      (decrypted : settings.decrypt (m.accessTokenCiphertext.getD "") = .ok accessToken)
      (token : m'.cachedToken =
        { m.cachedToken with
          scope := (settings.persistScopeIfMissing now accessToken m).scope }) :
      TokenEffect settings now m m' none
  | stores (stored : StoredToken) (accessToken : String) (nonce version : ℕ)
      (token : m'.cachedToken =
        { accessTokenCiphertext := some (settings.encrypt nonce accessToken)
          accessTokenExpiresAt := some stored.expiresAt
          accessTokenSourceVersion := some version
          tokenVersion := version
          scope := stored.scope })
      (unscoped : stored.audience = .imap → missing stored.scope = true →
        missing (settings.extractScopes accessToken) = true) :
      TokenEffect settings now m m' (some stored)

variable {settings : TokenSettings} {request : EnsureRequest} {s : EnsureState}
  {m : Mailbox}

/-! ### The write of a probe -/

omit [Platform] in
theorem flush_cachedToken {loaded current : Mailbox}
    (h : current.cachedToken = loaded.cachedToken) (assigned : Mailbox) :
    (loaded.flush assigned current).cachedToken =
      { assigned.cachedToken with tokenVersion := current.tokenVersion } := by
  unfold Mailbox.cachedToken at h ⊢
  simp only [CachedToken.mk.injEq] at h
  obtain ⟨htoken, hexpires, hsource, -, hscope⟩ := h
  unfold Mailbox.flush
  dsimp only
  rw [htoken, hexpires, hsource, hscope, flushColumn_current, flushColumn_current,
    flushColumn_current, flushColumn_current]

omit [Platform] in
theorem applyProbe_cachedToken {now : ℕ} {result : CapabilityProbeResult} (m : Mailbox) :
    (m.applyCapabilityProbeResult now result).cachedToken = m.cachedToken := rfl

omit [Platform] in
theorem bind_cachedToken {now : ℕ} (m : Mailbox) :
    (settings.bindAccessToken now m).cachedToken =
      { m.cachedToken with accessTokenSourceVersion := some m.tokenVersion } := rfl

omit [Platform] in
theorem assignReplacement_cachedToken {now nonce : ℕ} {r : MicrosoftTokenResponse}
    (m : Mailbox) :
    (settings.assignReplacement now nonce r m).cachedToken =
      { accessTokenCiphertext := some (settings.encrypt nonce r.accessToken)
        accessTokenExpiresAt := some (r.expiry now).toNat
        accessTokenSourceVersion := m.accessTokenSourceVersion
        tokenVersion := m.tokenVersion
        scope := orElseMissing r.scope m.scope } := rfl

omit [Platform] in
theorem bump_cachedToken (m : Mailbox) :
    m.bumpTokenVersion.cachedToken =
      { m.cachedToken with tokenVersion := m.tokenVersion + 1 } := rfl

omit [Platform] in
theorem writeProbe_unreplaced {now nonce : ℕ} {loaded assigned current : Mailbox}
    {result : CapabilityProbeResult} (h : current.cachedToken = loaded.cachedToken)
    (hreplacement : settings.replacement assigned result = none) :
    (settings.writeProbe now nonce loaded assigned result current).cachedToken =
      { assigned.cachedToken with tokenVersion := current.tokenVersion } := by
  unfold TokenSettings.writeProbe
  rw [hreplacement]
  dsimp only
  rw [flush_cachedToken h, applyProbe_cachedToken]

omit [Platform] in
/-- **A probe with a replacement** binds it to the version that the row is at
afterwards. A scope that the answer does not name stays the one of the instance. -/
theorem writeProbe_replaced {now nonce : ℕ} {loaded assigned current : Mailbox}
    {result : CapabilityProbeResult} {r : MicrosoftTokenResponse}
    (h : current.cachedToken = loaded.cachedToken)
    (hversion : assigned.tokenVersion = loaded.tokenVersion)
    (hreplacement : settings.replacement assigned result = some r) :
    ∃ version,
      (settings.writeProbe now nonce loaded assigned result current).cachedToken =
        { accessTokenCiphertext := some (settings.encrypt nonce r.accessToken)
          accessTokenExpiresAt := some (r.expiry now).toNat
          accessTokenSourceVersion := some version
          tokenVersion := version
          scope := orElseMissing r.scope assigned.scope } := by
  have hcurrent : current.tokenVersion = assigned.tokenVersion :=
    (congrArg CachedToken.tokenVersion h).trans hversion.symm
  unfold TokenSettings.writeProbe
  rw [hreplacement]
  dsimp only
  cases hrotated : settings.rotatedRefreshToken assigned r with
  | none =>
      refine ⟨current.tokenVersion, ?_⟩
      dsimp only
      rw [flush_cachedToken h, applyProbe_cachedToken, bind_cachedToken,
        assignReplacement_cachedToken, hcurrent]
      rfl
  | some refreshToken =>
      refine ⟨current.tokenVersion + 1, ?_⟩
      dsimp only
      rw [flush_cachedToken rfl, applyProbe_cachedToken, bind_cachedToken, bump_cachedToken,
        flush_cachedToken h]
      rfl

/-! ### The steps of a call -/

/-- What a call holds is of the mailbox and its cached token. -/
structure HoldsToken (request : EnsureRequest) (s : EnsureState) (m : Mailbox) : Prop where
  claim : ∀ claim startedAt, s.phase.underWay = some (claim, startedAt) →
    claim.mailboxId = request.mailboxId
  loaded : ∀ loaded, s.phase = .probing loaded →
    loaded.id = request.mailboxId ∧ m.cachedToken = loaded.cachedToken

/-- The row after a step, with what has become of its token. -/
def CachedTokenStep (settings : TokenSettings) (request : EnsureRequest) (now : ℕ) (m : Mailbox)
    (stored : Option StoredToken) (s' : EnsureState) : Prop :=
  ∃ m', s'.db.mailboxes.get? request.mailboxId = some m' ∧
    TokenEffect settings now m m' stored

theorem CachedTokenStep.same_db {now : ℕ} {s' : EnsureState}
    (hrow : s.db.mailboxes.get? request.mailboxId = some m) (hdb : s'.db = s.db) :
    CachedTokenStep settings request now m none s' :=
  ⟨m, by rw [hdb]; exact hrow, .same rfl⟩

theorem CachedTokenStep.update {now : ℕ} {s' : EnsureState} {mailboxId : String}
    {q : Mailbox → Bool} {f : MailboxAssignment}
    (hrow : s.db.mailboxes.get? request.mailboxId = some m)
    (htoken : (f.set m).cachedToken = m.cachedToken)
    (hdb : s'.db = (s.db.updateMailbox mailboxId q f).db) :
    CachedTokenStep settings request now m none s' := by
  refine ⟨_, by rw [hdb]; exact updateMailbox_row hrow, ?_⟩
  split
  · exact .same htoken
  · exact .same rfl

omit [Platform] in
theorem persistScope_cachedToken {now : ℕ} {accessToken : String} (m : Mailbox) :
    (settings.persistScopeIfMissing now accessToken m).cachedToken =
      { m.cachedToken with
        scope := (settings.persistScopeIfMissing now accessToken m).scope } := by
  unfold TokenSettings.persistScopeIfMissing
  split <;> rfl

theorem token_checkCache (hrow : s.db.mailboxes.get? request.mailboxId = some m)
    (answers : Option ProbeAnswers) (nonce : ℕ) :
    CachedTokenStep settings request s.now m
      (storedToken settings request s (.checkCache answers nonce))
      (checkCacheStep settings request s
        (probeResult settings request s (.checkCache answers nonce)) nonce) := by
  have hid : m.id = request.mailboxId := Table.key_of_get? hrow
  unfold storedToken probeResult
  dsimp only
  -- a step that probes writes what the probe brings, any other at most the missing scope
  cases hprobed : probedMailbox settings request s (.checkCache answers nonce) with
  | none =>
      rw [Option.bind_none, Option.bind_none]
      unfold checkCacheStep
      split
      · exact .same_db hrow rfl
      rw [hrow]
      dsimp only
      split
      · exact .same_db hrow rfl
      split
      · exact .same_db hrow rfl
      · exact .same_db hrow rfl
      · rename_i accessToken hhit
        split
        · refine ⟨_, updateMailbox_row hrow, ?_⟩
          rw [if_pos ⟨hid.symm, rfl⟩]
          refine .backfilled accessToken (cacheHit_eq_some.mp hhit).2.1 ?_
          show (m.flush (settings.persistScopeIfMissing s.now accessToken m) m).cachedToken = _
          rw [flush_cachedToken rfl, persistScope_cachedToken]
          rfl
        · exact .same_db hrow rfl
  | some probed =>
      obtain ⟨assigned, answers'⟩ := probed
      obtain ⟨hforce, hmicrosoft, hcapability, accessToken, hhit, rfl⟩ :=
        probedMailbox_checkCache hrow hprobed
      rw [Option.bind_some, Option.bind_some]
      unfold checkCacheStep
      simp only [hforce, hrow, hmicrosoft, hhit, hcapability, Bool.false_eq_true, if_false,
        Bool.not_true]
      split
      · rename_i hnone
        rw [hnone]
        exact .same_db hrow rfl
      · rename_i result hresult
        rw [hresult, Option.bind_some]
        refine ⟨_, updateMailbox_row hrow, ?_⟩
        rw [if_pos ⟨hid.symm, rfl⟩]
        cases hreplacement : settings.replacement
            (settings.persistScopeIfMissing s.now accessToken m) result with
        | none =>
            refine .backfilled accessToken (cacheHit_eq_some.mp hhit).2.1 ?_
            refine (writeProbe_unreplaced rfl hreplacement).trans ?_
            rw [persistScope_cachedToken]
            rfl
        | some r =>
            have hversion : (settings.persistScopeIfMissing s.now accessToken m).tokenVersion =
                m.tokenVersion :=
              congrArg CachedToken.tokenVersion (persistScope_cachedToken m)
            obtain ⟨version, hwritten⟩ := writeProbe_replaced rfl hversion hreplacement
            exact .stores _ r.accessToken nonce version hwritten fun haudience => by cases haudience

theorem token_finishProbe (hrow : s.db.mailboxes.get? request.mailboxId = some m)
    (hholds : HoldsToken request s m) {loaded : Mailbox}
    (hphase : s.phase = .probing loaded) (answers : Option ProbeAnswers) (nonce : ℕ) :
    CachedTokenStep settings request s.now m
      (storedToken settings request s (.finishProbe answers nonce))
      (finishProbeStep settings s loaded
        (probeResult settings request s (.finishProbe answers nonce)) nonce) := by
  obtain ⟨hid, htoken⟩ := hholds.loaded loaded hphase
  have hprobed : probedMailbox settings request s (.finishProbe answers nonce) =
      answers.map fun a => (loaded, a) := by
    simp only [probedMailbox, hphase]
  unfold storedToken probeResult
  dsimp only
  rw [hprobed]
  cases answers with
  | none => exact .same_db hrow rfl
  | some answers' =>
      rw [Option.map_some, Option.bind_some, Option.bind_some]
      unfold finishProbeStep
      rw [hid, hrow]
      cases hresult : settings.proberResult s.now loaded answers' with
      | none => exact .same_db hrow rfl
      | some result =>
          rw [Option.bind_some]
          refine ⟨_, updateMailbox_row hrow, ?_⟩
          rw [if_pos ⟨rfl, rfl⟩]
          cases hreplacement : settings.replacement loaded result with
          | none =>
              refine .same ((writeProbe_unreplaced htoken hreplacement).trans ?_)
              rw [← htoken]
              rfl
          | some r =>
              obtain ⟨version, hwritten⟩ := writeProbe_replaced htoken rfl hreplacement
              exact .stores _ r.accessToken nonce version hwritten
                fun haudience => by cases haudience

theorem token_phaseA (hrow : s.db.mailboxes.get? request.mailboxId = some m)
    (retry : Bool) (claimId : String) :
    CachedTokenStep settings request s.now m none
      (phaseAStep settings request s retry claimId) := by
  unfold phaseAStep
  rw [hrow]
  dsimp only
  split
  · exact .same_db hrow rfl
  split
  · exact .same_db hrow rfl
  · exact .same_db hrow rfl
  · split
    · rename_i claim db' hok
      obtain ⟨-, -, -, -, -, -, -, -, rfl⟩ := claimTokenRefresh_ok hok
      exact .update hrow rfl rfl
    · split
      · exact .same_db hrow rfl
      · exact .same_db hrow rfl
    · exact .same_db hrow rfl

omit [Platform] in
/-- The token of an exchange, on the row of a current claim. -/
theorem completion_cachedToken (settings : TokenSettings) {claim : TokenRefreshClaim}
    (startedAt nonce : ℕ) (response : MicrosoftTokenResponse)
    (hversion : m.tokenVersion = claim.expectedTokenVersion) :
    ∃ version,
      ((completionAssignment claim
        (settings.completion nonce startedAt claim.refreshToken response)).set m).cachedToken =
        { accessTokenCiphertext := some (settings.encrypt nonce response.accessToken)
          accessTokenExpiresAt := some (response.expiry startedAt).toNat
          accessTokenSourceVersion := some version
          tokenVersion := version
          scope := orElseMissing response.scope
            (settings.extractScopes response.accessToken) } := by
  unfold completionAssignment
  split
  · exact ⟨claim.expectedTokenVersion + 1, rfl⟩
  · refine ⟨claim.expectedTokenVersion, ?_⟩
    rw [← hversion]
    rfl

theorem token_phaseC (hrow : s.db.mailboxes.get? request.mailboxId = some m)
    (hholds : HoldsToken request s m) {retry : Bool} {target : Option MailAccessChannel}
    {claim : TokenRefreshClaim} {startedAt : ℕ}
    (hphase : s.phase = .exchanging retry target claim startedAt)
    (answer : Except ExchangeFailure MicrosoftTokenResponse) (nonce : ℕ) :
    CachedTokenStep settings request s.now m
      (storedToken settings request s (.exchange answer nonce))
      (phaseCStep settings s retry target claim startedAt nonce answer) := by
  have hmailbox : claim.mailboxId = request.mailboxId :=
    hholds.claim claim startedAt (by rw [hphase]; rfl)
  cases answer with
  | error failure =>
      have hnone : storedToken settings request s (.exchange (.error failure) nonce) = none :=
        rfl
      rw [hnone]
      cases failure with
      | invalidGrant => exact .update hrow rfl rfl
      | other => exact .update hrow rfl rfl
  | ok response =>
      simp only [storedToken, hphase, hmailbox, hrow, Option.any_some, phaseCStep]
      have hstamped : (settings.completion nonce startedAt claim.refreshToken
          response).Stamped := completion_stamped
      have hcompleted := completeTokenRefresh_eq s.db claim hstamped
      rw [hmailbox, hrow, Option.any_some] at hcompleted
      cases hcurrent : claim.current m with
      | false =>
          -- the claim was overtaken, and the update finds no row
          rw [hcurrent, if_neg Bool.false_ne_true] at hcompleted
          rw [Bool.false_and, if_neg Bool.false_ne_true, hcompleted]
          split
          · exact .same_db hrow rfl
          · cases confirmCompletedTokenVersion s.db claim _ _ with
            | none => exact .same_db hrow rfl
            | some version => exact .same_db hrow rfl
      | true =>
          cases hstorable : response.storable startedAt true with
          | false =>
            rw [Bool.and_false, if_neg Bool.false_ne_true, if_pos rfl]
            exact .same_db hrow rfl
          | true =>
            rw [hcurrent, if_pos rfl] at hcompleted
            rw [Bool.and_true, if_pos rfl, if_neg (by decide), hcompleted]
            have hversion : m.tokenVersion = claim.expectedTokenVersion := by
              unfold TokenRefreshClaim.current at hcurrent
              rw [Bool.and_eq_true, decide_eq_true_eq] at hcurrent
              exact hcurrent.1
            obtain ⟨version, hwritten⟩ :=
              completion_cachedToken settings startedAt nonce response hversion
            refine ⟨_, updateMailbox_row hrow, ?_⟩
            rw [if_pos ⟨rfl, hcurrent⟩]
            refine .stores _ response.accessToken nonce version hwritten ?_
            intro _ hmissing
            dsimp only at hmissing
            cases hscope : missing response.scope with
            | true => rwa [orElseMissing_of_missing hscope] at hmissing
            | false =>
                rw [orElseMissing_of_stored hscope, hscope] at hmissing
                cases hmissing

theorem token_winner (hrow : s.db.mailboxes.get? request.mailboxId = some m) (retry : Bool)
    (seen : Option Mailbox) :
    CachedTokenStep settings request s.now m none
      (winnerStep settings request s retry seen) := by
  unfold winnerStep
  split
  · exact .same_db hrow rfl
  · exact .same_db hrow rfl
  · exact .same_db hrow rfl

theorem token_reload (hrow : s.db.mailboxes.get? request.mailboxId = some m) (retry : Bool)
    (target : Option MailAccessChannel) :
    CachedTokenStep settings request s.now m none
      (reloadStep settings request s retry target) := by
  unfold reloadStep
  rw [hrow]
  dsimp only
  split
  · exact .same_db hrow rfl
  split
  · exact .same_db hrow rfl
  · exact .same_db hrow rfl

/-- **What a step of a call does to the token.** -/
theorem token_step (hrow : s.db.mailboxes.get? request.mailboxId = some m)
    (hholds : HoldsToken request s m) {e : ServiceEvent}
    (halone : ∀ db now, e = .others db now →
      (db.mailboxes.get? request.mailboxId).map Mailbox.cachedToken = some m.cachedToken) :
    CachedTokenStep settings request s.now m (storedToken settings request s e)
      (callStep settings request s e) := by
  have hmove : CallMove settings request s e (callStep settings request s e) :=
    callStep_move e
  generalize callStep settings request s e = s' at hmove ⊢
  cases hmove with
  | checkCache answers nonce => exact token_checkCache hrow answers nonce
  | claim retry claimId => exact token_phaseA hrow retry claimId
  | exchange answer nonce hphase => exact token_phaseC hrow hholds hphase answer nonce
  | readWinner retry seen => exact token_winner hrow retry seen
  | readForProbe retry target => exact token_reload hrow retry target
  | finishProbe answers nonce hphase => exact token_finishProbe hrow hholds hphase answers nonce
  | others db now =>
      obtain ⟨m', hm', htoken⟩ := Option.map_eq_some_iff.mp (halone db now rfl)
      exact ⟨m', hm', .same htoken⟩
  | stay e hprobed hidle =>
      have hnone : storedToken settings request s e = none := by
        unfold storedToken
        split
        · have hunderWay := hidle _ _ rfl
          split
          · rename_i hphase
            rw [hphase] at hunderWay
            cases hunderWay
          · rfl
        · rw [hprobed, Option.bind_none]
      rw [hnone]
      exact .same_db hrow rfl

/-! ### What a call holds -/

theorem HoldsToken.of_idle (h : s.phase.idle = true) : HoldsToken request s m where
  claim claim startedAt hclaim := by
    cases hphase : s.phase <;> rw [hphase] at h hclaim
    case exchanging => cases h
    all_goals cases hclaim
  loaded loaded hloaded := by
    rw [hloaded] at h
    cases h

theorem HoldsToken.of_exchanging {retry : Bool} {target : Option MailAccessChannel}
    {claim : TokenRefreshClaim} {startedAt : ℕ}
    (hphase : s.phase = .exchanging retry target claim startedAt)
    (hmailbox : claim.mailboxId = request.mailboxId) : HoldsToken request s m where
  claim claim' startedAt' hclaim := by
    rw [hphase] at hclaim
    obtain ⟨rfl, -⟩ := Prod.mk.inj (Option.some.inj hclaim)
    exact hmailbox
  loaded loaded hloaded := by
    rw [hphase] at hloaded
    cases hloaded

theorem holdsToken_phaseA {m' : Mailbox}
    (hrow : s.db.mailboxes.get? request.mailboxId = some m) {retry : Bool} {claimId : String} :
    HoldsToken request (phaseAStep settings request s retry claimId) m' := by
  unfold phaseAStep
  rw [hrow]
  dsimp only
  split
  · exact .of_idle rfl
  split
  · exact .of_idle rfl
  · exact .of_idle rfl
  · split
    · rename_i claim db' hok
      obtain ⟨-, -, -, hmailbox, -, -, -, -, -⟩ := claimTokenRefresh_ok hok
      exact .of_exchanging rfl hmailbox
    · split
      · exact .of_idle rfl
      · exact .of_idle rfl
    · exact .of_idle rfl

theorem reloadStep_db {retry : Bool} {target : Option MailAccessChannel} :
    (reloadStep settings request s retry target).db = s.db := by
  unfold reloadStep
  split
  · rfl
  split
  · rfl
  split
  · rfl
  · rfl

theorem holdsToken_reload {m' : Mailbox}
    (hrow : s.db.mailboxes.get? request.mailboxId = some m) {retry : Bool}
    {target : Option MailAccessChannel} (htoken : m'.cachedToken = m.cachedToken) :
    HoldsToken request (reloadStep settings request s retry target) m' := by
  unfold reloadStep
  rw [hrow]
  dsimp only
  split
  · exact .of_idle rfl
  split
  · refine ⟨nofun, ?_⟩
    intro loaded hloaded
    obtain rfl := EnsurePhase.probing.inj hloaded
    exact ⟨Table.key_of_get? hrow, htoken⟩
  · exact .of_idle rfl

/-- The row after a step is the one that the call has read, as far as it holds it. -/
theorem holdsToken_step {m' : Mailbox} {e : ServiceEvent}
    (hrow : s.db.mailboxes.get? request.mailboxId = some m)
    (hholds : HoldsToken request s m)
    (halone : ∀ db now, e = .others db now →
      (db.mailboxes.get? request.mailboxId).map Mailbox.cachedToken = some m.cachedToken)
    (hrow' : (callStep settings request s e).db.mailboxes.get? request.mailboxId = some m') :
    HoldsToken request (callStep settings request s e) m' := by
  have hmove : CallMove settings request s e (callStep settings request s e) :=
    callStep_move e
  generalize callStep settings request s e = s' at hmove hrow' ⊢
  cases hmove with
  | checkCache answers nonce => exact .of_idle checkCacheStep_idle
  | claim retry claimId => exact holdsToken_phaseA hrow
  | exchange answer nonce hphase => exact .of_idle phaseCStep_idle
  | readWinner retry seen => exact .of_idle winnerStep_idle
  | readForProbe retry target =>
      rw [reloadStep_db, hrow] at hrow'
      obtain rfl := Option.some.inj hrow'
      exact holdsToken_reload hrow rfl
  | finishProbe answers nonce hphase => exact .of_idle finishProbeStep_idle
  | others db now =>
      have hsame : m'.cachedToken = m.cachedToken := by
        have h := halone db now rfl
        rw [hrow', Option.map_some] at h
        exact Option.some.inj h
      refine ⟨hholds.claim, ?_⟩
      intro loaded hloaded
      rw [hsame]
      exact hholds.loaded loaded hloaded
  | stay e hprobed hidle =>
      rw [hrow] at hrow'
      obtain rfl := Option.some.inj hrow'
      exact hholds

/-! ### The clock -/

theorem checkCacheStep_now {probe : Option CapabilityProbeResult} {nonce : ℕ} :
    (checkCacheStep settings request s probe nonce).now = s.now := by
  unfold checkCacheStep
  split
  · rfl
  split
  · rfl
  · split
    · rfl
    · dsimp only
      split
      · rfl
      · rfl
      · split
        · rfl
        · split <;> rfl

theorem phaseAStep_now {retry : Bool} {claimId : String} :
    (phaseAStep settings request s retry claimId).now = s.now := by
  unfold phaseAStep
  split
  · rfl
  · split
    · rfl
    · dsimp only
      split
      · rfl
      · rfl
      · split
        · rfl
        · split <;> rfl
        · rfl

theorem phaseCStep_now {retry : Bool} {target : Option MailAccessChannel}
    {claim : TokenRefreshClaim} {startedAt nonce : ℕ}
    {answer : Except ExchangeFailure MicrosoftTokenResponse} :
    (phaseCStep settings s retry target claim startedAt nonce answer).now = s.now := by
  unfold phaseCStep
  split
  · rfl
  · rfl
  · dsimp only
    split
    · rfl
    · split <;> rfl

theorem winnerStep_now {retry : Bool} {seen : Option Mailbox} :
    (winnerStep settings request s retry seen).now = s.now := by
  unfold winnerStep
  split <;> rfl

theorem reloadStep_now {retry : Bool} {target : Option MailAccessChannel} :
    (reloadStep settings request s retry target).now = s.now := by
  unfold reloadStep
  split
  · rfl
  split
  · rfl
  split <;> rfl

theorem finishProbeStep_now {loaded : Mailbox} {probe : Option CapabilityProbeResult}
    {nonce : ℕ} : (finishProbeStep settings s loaded probe nonce).now = s.now := by
  unfold finishProbeStep
  split <;> rfl

/-- A step of the call takes no time, and others let it pass. -/
theorem callStep_now {e : ServiceEvent} (h : ∀ db now, e ≠ .others db now) :
    (callStep settings request s e).now = s.now := by
  have hmove : CallMove settings request s e (callStep settings request s e) :=
    callStep_move e
  generalize callStep settings request s e = s' at hmove ⊢
  cases hmove with
  | checkCache answers nonce => exact checkCacheStep_now
  | claim retry claimId => exact phaseAStep_now
  | exchange answer nonce hphase => exact phaseCStep_now
  | readWinner retry seen => exact winnerStep_now
  | readForProbe retry target => exact reloadStep_now
  | finishProbe answers nonce hphase => exact finishProbeStep_now
  | others db now => exact absurd rfl (h db now)
  | stay e hprobed hidle => rfl

/-! ## The invariant -/

/-- `_has_usable_cached_access_token`, over the columns of the token. -/
def TokenSettings.usable (settings : TokenSettings) (now : ℕ) (t : CachedToken) : Bool :=
  !missing t.accessTokenCiphertext &&
    decide (t.accessTokenSourceVersion = some t.tokenVersion) &&
    t.accessTokenExpiresAt.any fun expiresAt =>
      decide (now + seconds settings.accessTokenRefreshSkewSeconds < expiresAt)

omit [Platform] in
theorem usable_of_later {now later : ℕ} {t : CachedToken} (hle : now ≤ later)
    (h : settings.usable later t = true) : settings.usable now t = true := by
  unfold TokenSettings.usable at h ⊢
  rw [Bool.and_eq_true] at h ⊢
  refine ⟨h.1, ?_⟩
  cases hexpires : t.accessTokenExpiresAt with
  | none =>
      rw [hexpires] at h
      exact absurd h.2 Bool.false_ne_true
  | some expiresAt =>
      rw [hexpires, Option.any_some, decide_eq_true_eq] at h
      rw [Option.any_some, decide_eq_true_eq]
      exact Nat.lt_of_le_of_lt (Nat.add_le_add_right hle _) h.2

omit [Platform] in
theorem usable_stored (hcipher : settings.CipherRoundTrips) {now nonce version expiresAt : ℕ}
    {accessToken : String} {scope : Option String} :
    settings.usable now
        { accessTokenCiphertext := some (settings.encrypt nonce accessToken)
          accessTokenExpiresAt := some expiresAt
          accessTokenSourceVersion := some version
          tokenVersion := version
          scope } = true ↔
      now + seconds settings.accessTokenRefreshSkewSeconds < expiresAt := by
  have hpresent : missing (some (settings.encrypt nonce accessToken)) = false := by
    unfold missing
    exact decide_eq_false (hcipher.encrypt_ne_empty nonce accessToken)
  unfold TokenSettings.usable
  rw [hpresent, Option.any_some]
  simp only [Bool.not_false, decide_true, Bool.and_self, Bool.true_and, decide_eq_true_eq]

/-- What is known of a token whose audience is: it is not bound to a version to
come, and without a scope it has none that can be read off it. -/
structure TokenKnown (settings : TokenSettings) (audience : Option MailAccessChannel)
    (t : CachedToken) : Prop where
  bound : audience.isSome = true → ∀ version, t.accessTokenSourceVersion = some version →
    version ≤ t.tokenVersion
  unscoped : audience = some .imap → t.accessTokenSourceVersion = some t.tokenVersion →
    missing t.scope = true →
    ∀ accessToken, settings.decrypt (t.accessTokenCiphertext.getD "") = .ok accessToken →
      missing (settings.extractScopes accessToken) = true

/-- The scope describes a token of this audience. -/
def TokenSettings.Describes (settings : TokenSettings) (now : ℕ)
    (audience : Option MailAccessChannel) (t : CachedToken) : Prop :=
  settings.usable now t = true → ∀ a, audience = some a → settings.NamesOnly t.scope a

omit [Platform] in
theorem not_usable_of_newer {now : ℕ} {audience : Option MailAccessChannel}
    {t t' : CachedToken} (hknown : TokenKnown settings audience t)
    (hsome : audience.isSome = true)
    (hsource : t'.accessTokenSourceVersion = t.accessTokenSourceVersion ∨
      t'.accessTokenSourceVersion = none)
    (hversion : t'.tokenVersion = t.tokenVersion + 1) : settings.usable now t' = false := by
  have hne : t'.accessTokenSourceVersion ≠ some t'.tokenVersion := by
    intro heq
    rcases hsource with hsame | hnone
    · have hle := hknown.bound hsome _ (hsame.symm.trans heq)
      omega
    · rw [hnone] at heq
      cases heq
  unfold TokenSettings.usable
  rw [decide_eq_false hne, Bool.and_false, Bool.false_and]

omit [Platform] in
theorem TokenKnown.newer {audience : Option MailAccessChannel} {t t' : CachedToken}
    (hknown : TokenKnown settings audience t)
    (hsource : t'.accessTokenSourceVersion = t.accessTokenSourceVersion ∨
      t'.accessTokenSourceVersion = none)
    (hversion : t'.tokenVersion = t.tokenVersion + 1) : TokenKnown settings audience t' where
  bound hsome version h := by
    rcases hsource with hsame | hnone
    · have hle := hknown.bound hsome version (hsame.symm.trans h)
      omega
    · rw [hnone] at h
      cases h
  unscoped haudience h := by
    rcases hsource with hsame | hnone
    · have hle := hknown.bound (by rw [haudience]; rfl) _ (hsame.symm.trans h)
      omega
    · rw [hnone] at h
      cases h

/-! ### The effect of a step -/

omit [Platform] in
theorem namesOnly_congr {scope scope' : Option String} {audience : MailAccessChannel}
    (h : ∀ channel, settings.matchesChannel scope' channel =
      settings.matchesChannel scope channel) :
    settings.NamesOnly scope' audience ↔ settings.NamesOnly scope audience := by
  unfold TokenSettings.NamesOnly
  simp only [h]

omit [Platform] in
theorem matchesChannel_imap_of_missing (hcasefold : settings.casefold "" = "")
    {scope : Option String} (h : missing scope = true) :
    settings.matchesChannel scope .imap = true := by
  rw [matchesChannel_of_missing h]
  unfold TokenSettings.matchesChannel TokenSettings.hints
  rw [Option.getD_none, hcasefold]
  decide

omit [Platform] in
theorem persistScope_matches (hcasefold : settings.casefold "" = "") {now : ℕ}
    {audience : MailAccessChannel} {accessToken : String}
    (hknown : TokenKnown settings (some audience) m.cachedToken)
    (hdescribes : settings.Describes now (some audience) m.cachedToken)
    (husable : settings.usable now m.cachedToken = true)
    (hdecrypted : settings.decrypt (m.accessTokenCiphertext.getD "") = .ok accessToken)
    (channel : MailAccessChannel) :
    settings.matchesChannel (settings.persistScopeIfMissing now accessToken m).scope channel =
      settings.matchesChannel m.scope channel := by
  unfold TokenSettings.persistScopeIfMissing
  split
  · rename_i decoded hmissing hdecoded
    cases audience with
    | graph =>
        -- a token for Graph would not be described by no scope
        have himap := hdescribes husable .graph rfl .imap
          (matchesChannel_imap_of_missing hcasefold hmissing)
        cases himap
    | imap =>
        have hbound : m.cachedToken.accessTokenSourceVersion =
            some m.cachedToken.tokenVersion := by
          unfold TokenSettings.usable at husable
          rw [Bool.and_eq_true, Bool.and_eq_true, decide_eq_true_eq] at husable
          exact husable.1.2
        have hunscoped : missing (some decoded) = true := by
          rw [← hdecoded]
          exact hknown.unscoped rfl hbound hmissing accessToken hdecrypted
        rw [matchesChannel_of_missing hunscoped, matchesChannel_of_missing hmissing]
  · rfl

omit [Platform] in
/-- **The step is true to the token if and only if what it stores is.** -/
theorem describes_effect (hcipher : settings.CipherRoundTrips)
    (hcasefold : settings.casefold "" = "") {now later : ℕ} {m' : Mailbox}
    {audience : Option MailAccessChannel} {stored : Option StoredToken}
    (heffect : TokenEffect settings now m m' stored)
    (hknown : TokenKnown settings audience m.cachedToken)
    (hdescribes : settings.Describes now audience m.cachedToken) (hle : now ≤ later)
    (hnow : stored ≠ none → later = now) :
    settings.Describes later ((stored.map StoredToken.audience).or audience) m'.cachedToken ↔
      ∀ token, stored = some token →
        now + seconds settings.accessTokenRefreshSkewSeconds < token.expiresAt →
        settings.NamesOnly token.scope token.audience := by
  cases heffect with
  | same token =>
      refine iff_of_true ?_ nofun
      intro husable a ha
      rw [token] at husable ⊢
      exact hdescribes (usable_of_later hle husable) a ha
  | backfilled accessToken decrypted token =>
      refine iff_of_true ?_ nofun
      intro husable a ha
      rw [Option.map_none, Option.none_or] at ha
      subst ha
      have husable' : settings.usable now m.cachedToken = true := by
        rw [token] at husable
        exact usable_of_later hle husable
      rw [token]
      exact (namesOnly_congr (persistScope_matches hcasefold hknown hdescribes husable'
        decrypted)).mpr (hdescribes husable' a rfl)
  | stores stored accessToken nonce version token unscoped =>
      rw [hnow nofun]
      unfold TokenSettings.Describes
      rw [token, usable_stored hcipher]
      constructor
      · intro h token' htoken' hlt
        obtain rfl := Option.some.inj htoken'
        exact h hlt _ rfl
      · intro h hlt a ha
        obtain rfl := Option.some.inj ha
        exact h stored rfl hlt

omit [Platform] in
theorem TokenKnown.effect (hcipher : settings.CipherRoundTrips) {now : ℕ} {m' : Mailbox}
    {audience : Option MailAccessChannel} {stored : Option StoredToken}
    (hknown : TokenKnown settings audience m.cachedToken)
    (heffect : TokenEffect settings now m m' stored) :
    TokenKnown settings ((stored.map StoredToken.audience).or audience) m'.cachedToken := by
  cases heffect with
  | same token =>
      rw [token]
      exact hknown
  | backfilled accessToken decrypted token =>
      rw [token]
      refine ⟨hknown.bound, ?_⟩
      intro haudience hsource hmissing
      refine hknown.unscoped haudience hsource ?_
      cases hscope : missing m.cachedToken.scope with
      | true => rfl
      | false =>
          have hsame : (settings.persistScopeIfMissing now accessToken m).scope = m.scope := by
            unfold TokenSettings.persistScopeIfMissing
            split
            · rename_i hmissing' _
              exact absurd (hscope.symm.trans hmissing') Bool.false_ne_true
            · rfl
          dsimp only at hmissing
          rw [hsame] at hmissing
          exact absurd (hscope.symm.trans hmissing) Bool.false_ne_true
  | stores stored accessToken nonce version token unscoped =>
      rw [token]
      refine ⟨?_, ?_⟩
      · intro _ version' hversion'
        obtain rfl := Option.some.inj hversion'
        exact Nat.le_refl _
      · intro haudience _ hmissing accessToken' hdecrypted
        dsimp only at hdecrypted
        rw [Option.getD_some, hcipher.decrypt_encrypt] at hdecrypted
        obtain rfl := Except.ok.inj hdecrypted
        exact unscoped (Option.some.inj haudience) hmissing

/-! ## Every run -/

/-- The row of the mailbox, with what is known of its token and of the call. -/
structure AudienceKnown (settings : TokenSettings) (s : AudienceState) (m : Mailbox) :
    Prop where
  row : s.call.db.mailboxes.get? s.request.mailboxId = some m
  holds : HoldsToken s.request s.call m
  known : TokenKnown settings s.audience m.cachedToken

theorem scopeDescribesToken_iff {s : AudienceState}
    (hrow : s.call.db.mailboxes.get? s.request.mailboxId = some m) :
    ScopeDescribesToken settings s ↔
      settings.Describes s.call.now s.audience m.cachedToken := by
  constructor
  · intro h husable a ha
    exact h m hrow husable a ha
  · intro h m' hm' husable a ha
    rw [hrow] at hm'
    obtain rfl := Option.some.inj hm'
    exact h husable a ha

theorem audience_write {s : AudienceState} (h : AudienceKnown settings s m)
    {db : Database} {m' : Mailbox}
    (hrow' : db.mailboxes.get? s.request.mailboxId = some m')
    (hwrite : m' = m ∨
      (m'.accessTokenSourceVersion = m.accessTokenSourceVersion ∨
        m'.accessTokenSourceVersion = none) ∧ m'.tokenVersion = m.tokenVersion + 1)
    (hdescribes : ScopeDescribesToken settings s) :
    ∃ m'', AudienceKnown settings (s.write db) m'' ∧
      ScopeDescribesToken settings (s.write db) := by
  unfold AudienceState.write
  split
  · rename_i hover
    have hidle : s.call.phase.idle = true := by
      cases hphase : s.call.phase <;> rw [hphase] at hover
      case exchanging => cases hover
      case probing => cases hover
      all_goals rfl
    rcases hwrite with rfl | ⟨hsource, hversion⟩
    · refine ⟨m', ⟨hrow', .of_idle hidle, h.known⟩, ?_⟩
      rw [scopeDescribesToken_iff hrow']
      exact (scopeDescribesToken_iff h.row).mp hdescribes
    · refine ⟨m', ⟨hrow', .of_idle hidle, h.known.newer hsource hversion⟩, ?_⟩
      rw [scopeDescribesToken_iff hrow']
      intro husable a ha
      have hsome : s.audience.isSome = true := by
        rw [show s.audience = some a from ha]
        rfl
      rw [not_usable_of_newer h.known hsome hsource hversion] at husable
      cases husable
  · exact ⟨m, h, hdescribes⟩

omit [Platform] in
theorem assignRefreshToken_token (w : RefreshTokenWrite) (version : Mailbox → ℕ)
    (m : Mailbox) :
    (((assignRefreshToken w version).set m).accessTokenSourceVersion =
        m.accessTokenSourceVersion ∨
      ((assignRefreshToken w version).set m).accessTokenSourceVersion = none) ∧
      ((assignRefreshToken w version).set m).tokenVersion = version m := by
  unfold assignRefreshToken
  dsimp only
  split
  · exact ⟨Or.inr rfl, rfl⟩
  · exact ⟨Or.inl rfl, rfl⟩

theorem compareAndSwap_token {db db' : Database} {mailboxId : String} {expected v : ℕ}
    {w : RefreshTokenWrite} (hrow : db.mailboxes.get? mailboxId = some m)
    (h : compareAndSwapRefreshToken db mailboxId expected w = .ok (v, db')) :
    ∃ m', db'.mailboxes.get? mailboxId = some m' ∧
      (m' = m ∨ (m'.accessTokenSourceVersion = m.accessTokenSourceVersion ∨
        m'.accessTokenSourceVersion = none) ∧ m'.tokenVersion = m.tokenVersion + 1) := by
  obtain ⟨-, rfl⟩ := compareAndSwapRefreshToken_ok h
  refine ⟨_, updateMailbox_row hrow, ?_⟩
  split
  · rename_i hmatch
    have hexpected : m.tokenVersion = expected := of_decide_eq_true hmatch.2
    obtain ⟨hsource, hversion⟩ := assignRefreshToken_token w (fun _ => expected + 1) m
    exact Or.inr ⟨hsource, by rw [hversion, hexpected]⟩
  · exact Or.inl rfl

theorem increment_token {db db' : Database} {mailboxId : String} {v : ℕ}
    {w : RefreshTokenWrite} (hrow : db.mailboxes.get? mailboxId = some m)
    (h : incrementTokenVersionUnderLock db mailboxId w = .ok (v, db')) :
    ∃ m', db'.mailboxes.get? mailboxId = some m' ∧
      (m' = m ∨ (m'.accessTokenSourceVersion = m.accessTokenSourceVersion ∨
        m'.accessTokenSourceVersion = none) ∧ m'.tokenVersion = m.tokenVersion + 1) := by
  obtain rfl := incrementTokenVersionUnderLock_ok h
  refine ⟨_, updateMailbox_row hrow, ?_⟩
  rw [if_pos ⟨rfl, rfl⟩]
  exact Or.inr (assignRefreshToken_token w _ m)

theorem importMailbox_token {mailboxId : String} {item : MailboxImportItem} {nonce : ℕ}
    (hrow : s.db.mailboxes.get? mailboxId = some m) :
    ∃ m', (importMailbox settings s mailboxId item nonce).mailboxes.get? mailboxId = some m' ∧
      (m' = m ∨ (m'.accessTokenSourceVersion = m.accessTokenSourceVersion ∨
        m'.accessTokenSourceVersion = none) ∧ m'.tokenVersion = m.tokenVersion + 1) := by
  have hid : m.id = mailboxId := Table.key_of_get? hrow
  have hdropped : ((assignImported settings s.now nonce item m).set
      m).accessTokenSourceVersion = none := by
    show flushColumn m.accessTokenSourceVersion none m.accessTokenSourceVersion = none
    exact flushColumn_current _ _
  have hwritten : ∀ db : Database, db.mailboxes.get? mailboxId = some m →
      ∃ m', (db.writeMailbox m.id
          (assignImported settings s.now nonce item m)).mailboxes.get? mailboxId = some m' ∧
        (m' = m ∨ (m'.accessTokenSourceVersion = m.accessTokenSourceVersion ∨
          m'.accessTokenSourceVersion = none) ∧ m'.tokenVersion = m.tokenVersion + 1) := by
    intro db hm
    refine ⟨_, updateMailbox_row hm, ?_⟩
    rw [if_pos ⟨hid.symm, rfl⟩]
    exact Or.inr ⟨Or.inr hdropped, rfl⟩
  unfold importMailbox
  rw [hrow]
  dsimp only
  unfold importStep
  split
  · exact hwritten s.db hrow
  split
  · -- the released leases are none of the row
    exact hwritten (forceReleaseClaimsAndLeases s.db s.now m.id) hrow
  · exact ⟨m, hrow, Or.inl rfl⟩

/-- **Step lemma.** -/
theorem audience_step (hcipher : settings.CipherRoundTrips)
    (hcasefold : settings.casefold "" = "") {s : AudienceState}
    (h : AudienceKnown settings s m) (hdescribes : ScopeDescribesToken settings s)
    (e : AudienceEvent) :
    (∃ m', AudienceKnown settings (audienceStep settings s e) m') ∧
      (ScopeDescribesToken settings (audienceStep settings s e) ↔
        StoresNamedToken settings s e) := by
  have hwrite : ∀ (db : Database) (m' : Mailbox),
      db.mailboxes.get? s.request.mailboxId = some m' →
      (m' = m ∨ (m'.accessTokenSourceVersion = m.accessTokenSourceVersion ∨
        m'.accessTokenSourceVersion = none) ∧ m'.tokenVersion = m.tokenVersion + 1) →
      (∃ m', AudienceKnown settings (s.write db) m') ∧
        (ScopeDescribesToken settings (s.write db) ↔ True) := by
    intro db m' hrow' hmove
    obtain ⟨m'', hknown, htrue⟩ := audience_write h hrow' hmove hdescribes
    exact ⟨⟨m'', hknown⟩, iff_of_true htrue trivial⟩
  cases e with
  | begin request =>
      simp only [audienceStep, StoresNamedToken]
      split
      · refine ⟨⟨m, h.row, .of_idle rfl, h.known⟩, ?_⟩
        exact iff_of_true hdescribes trivial
      · exact ⟨⟨m, h⟩, iff_of_true hdescribes trivial⟩
  | call e =>
      simp only [audienceStep, StoresNamedToken]
      split
      · rename_i hadmits
        -- what others do is admitted, so the token of the mailbox stays
        have halone : ∀ db now, e = .others db now →
            (db.mailboxes.get? s.request.mailboxId).map Mailbox.cachedToken =
                some m.cachedToken ∧ s.call.now ≤ now := by
          rintro db now rfl
          unfold AudienceState.admits at hadmits
          rw [Bool.and_eq_true, decide_eq_true_eq, decide_eq_true_eq, h.row,
            Option.map_some] at hadmits
          exact hadmits
        have hsame : ∀ db now, e = .others db now →
            (db.mailboxes.get? s.request.mailboxId).map Mailbox.cachedToken =
              some m.cachedToken := fun db now he => (halone db now he).1
        obtain ⟨m', hrow', heffect⟩ : CachedTokenStep settings s.request s.call.now m
            (storedToken settings s.request s.call e) (callStep settings s.request s.call e) :=
          token_step h.row h.holds hsame
        -- time passes for others only, and a step of theirs stores nothing
        have hclock : s.call.now ≤ (callStep settings s.request s.call e).now ∧
            (storedToken settings s.request s.call e ≠ none →
              (callStep settings s.request s.call e).now = s.call.now) := by
          by_cases hothers : ∃ db now, e = .others db now
          · obtain ⟨db, now, rfl⟩ := hothers
            exact ⟨(halone db now rfl).2, fun hstored => absurd rfl hstored⟩
          · have hnow : (callStep settings s.request s.call e).now = s.call.now :=
              callStep_now fun db now he => hothers ⟨db, now, he⟩
            exact ⟨hnow.ge, fun _ => hnow⟩
        refine ⟨⟨m', hrow', holdsToken_step h.row h.holds hsame hrow',
          h.known.effect hcipher heffect⟩, ?_⟩
        rw [scopeDescribesToken_iff (s := { s with
          call := callStep settings s.request s.call e
          audience := ((storedToken settings s.request s.call e).map
            StoredToken.audience).or s.audience }) hrow']
        exact describes_effect hcipher hcasefold heffect h.known
          ((scopeDescribesToken_iff h.row).mp hdescribes) hclock.1 hclock.2
      · rename_i hadmits
        refine ⟨⟨m, h⟩, iff_of_true hdescribes ?_⟩
        intro token htoken
        cases e with
        | others db now => cases htoken
        | _ => exact absurd rfl hadmits
  | compareAndSwap expectedTokenVersion w =>
      simp only [audienceStep, StoresNamedToken]
      split
      · exact ⟨⟨m, h⟩, iff_of_true hdescribes trivial⟩
      · rename_i version db hok
        obtain ⟨m', hrow', hmove⟩ := compareAndSwap_token h.row hok
        exact hwrite db m' hrow' hmove
  | increment w =>
      simp only [audienceStep, StoresNamedToken]
      split
      · exact ⟨⟨m, h⟩, iff_of_true hdescribes trivial⟩
      · rename_i version db hok
        obtain ⟨m', hrow', hmove⟩ := increment_token h.row hok
        exact hwrite db m' hrow' hmove
  | importReplace item nonce =>
      obtain ⟨m', hrow', hmove⟩ := importMailbox_token h.row
      exact hwrite _ m' hrow' hmove

/-- **The scope describes the cached token throughout a run if and only if every
token that is stored comes with a scope that names its audience.** -/
theorem scope_describes_token_iff (settings : TokenSettings)
    (hcipher : settings.CipherRoundTrips) (hcasefold : settings.casefold "" = "")
    (mailboxId : String) (db : Database) (now : ℕ) {m : Mailbox}
    (hrow : db.mailboxes.get? mailboxId = some m) (events : List AudienceEvent) :
    Throughout (audienceStep settings) (ScopeDescribesToken settings)
        (.start mailboxId db now) events ↔
      Meets (audienceStep settings) (StoresNamedToken settings) (.start mailboxId db now)
        events := by
  refine meets_iff_throughout_while (I := fun s => ∃ m, AudienceKnown settings s m) ?_ ?_ ?_ ?_
  · rintro s e ⟨m, h⟩ hdescribes -
    exact (audience_step hcipher hcasefold h hdescribes e).1
  · rintro s e ⟨m, h⟩ hdescribes
    exact (audience_step hcipher hcasefold h hdescribes e).2
  · exact ⟨m, hrow, .of_idle rfl, nofun, nofun⟩
  · intro m' hm' husable a ha
    cases ha

end

/-! ## A token for Graph under the scope of another -/

section Sample

attribute [local instance] asciiPlatform

/-- A refresh whose token is for Outlook, and a probe that exchanges the refresh
token for the Graph audience; the answer to this names `scope`. -/
def audienceEvents (scope : Option String) : List AudienceEvent :=
  [.begin { mailboxId := "mailbox" }, .call (.checkCache none 65), .call (.claim "first"),
    .call (.exchange (.ok (sampleAnswer "outlook" "https://outlook.office.com/" none)) 66),
    .call .readForProbe,
    .call (.finishProbe
      (some
        { imap := .error (.authOrProtocol "AUTHENTICATE failed")
          graph := { first := .responded 401 }
          reaudience := .ok { accessToken := "graph", expiresIn := 3600, scope }
          graphAgain := { first := .responded 200 } }) 68)]

theorem scope_describes_token_sample :
    Throughout (audienceStep sampleTokenSettings) (ScopeDescribesToken sampleTokenSettings)
        (.start "mailbox" tokenDatabase 0)
        (audienceEvents (some "https://graph.microsoft.com/Mail.Read")) ∧
      (exec (audienceStep sampleTokenSettings) (.start "mailbox" tokenDatabase 0)
        (audienceEvents (some "https://graph.microsoft.com/Mail.Read"))).audience =
          some .graph := by
  refine ⟨?_, by decide +kernel⟩
  refine (scope_describes_token_iff sampleTokenSettings sampleCipher_roundTrips rfl "mailbox"
    tokenDatabase 0 (m := tokenDatabase.mailboxes.rows.head (by decide)) (by decide +kernel)
    (audienceEvents (some "https://graph.microsoft.com/Mail.Read"))).mpr ?_
  decide +kernel

/-- **A replacement without a scope**: the token is for Graph, the scope that of
the token before, and IMAP is handed the token. -/
theorem replacement_keeps_scope :
    ¬ Throughout (audienceStep sampleTokenSettings) (ScopeDescribesToken sampleTokenSettings)
        (.start "mailbox" tokenDatabase 0) (audienceEvents none) := by
  intro h
  have hrow : ((exec (audienceStep sampleTokenSettings) (.start "mailbox" tokenDatabase 0)
      (audienceEvents none)).call.db.mailboxes.get? "mailbox").any (fun m =>
        sampleTokenSettings.hasUsableCachedAccessToken 0 m &&
          sampleTokenSettings.matchesChannel m.scope .imap) = true := by
    decide +kernel
  have haudience : (exec (audienceStep sampleTokenSettings)
      (.start "mailbox" tokenDatabase 0) (audienceEvents none)).audience = some .graph := by
    decide +kernel
  have hnow : (exec (audienceStep sampleTokenSettings)
      (.start "mailbox" tokenDatabase 0) (audienceEvents none)).call.now = 0 := by
    decide +kernel
  have hmailbox : (exec (audienceStep sampleTokenSettings)
      (.start "mailbox" tokenDatabase 0) (audienceEvents none)).request.mailboxId =
        "mailbox" := by
    decide +kernel
  rw [Option.any_eq_true] at hrow
  obtain ⟨m, hm, hboth⟩ := hrow
  rw [Bool.and_eq_true] at hboth
  have himap := h.last m (by rw [hmailbox]; exact hm) (by rw [hnow]; exact hboth.1) .graph
    haudience .imap hboth.2
  cases himap

end Sample

end MailboxService
