import MailboxService.TokenService.AccessTokens
import MailboxService.Foundation.Interleaving
import MailboxService.Ascii

/-!
# Runs of the token service

Workers that refresh access tokens, clients that write refresh tokens back and
administrators that import credentials, in any interleaving. A refresh is the
steps of `ensure_access_token`: the claim, the exchange and its completion, the
read of the row for the capability probe, and the write after it. Network calls
lie between the steps, so what a worker holds may be out of date when it
writes.

The state adds to the database what the claims about it need: the refresh
tokens that clients have installed, how often they did, and which refresh token
each access token came from. The code keeps none of this.
-/

namespace MailboxService

open Foundation

/-! ## Workers -/

structure EnsureRequest where
  mailboxId : String
  forceRefresh : Bool := false
  preferredChannel : Option MailAccessChannel := none
  skipActiveRtLeaseCheck : Bool := true
  deriving DecidableEq, Repr

inductive ExchangeFailure where
  | invalidGrant
  | other
  deriving DecidableEq, Repr

/-- A worker between its steps, with what it has read so far. A probe also
holds the number of client writes at the time of its read. -/
inductive TokenWorker where
  | idle
  | exchanging (request : EnsureRequest) (target : Option MailAccessChannel)
      (claim : TokenRefreshClaim) (startedAt : ℕ)
  | refreshed (request : EnsureRequest) (target : Option MailAccessChannel)
  | probing (loaded : Mailbox) (clientWrites : ℕ)
  | importing (loaded : Mailbox)
  deriving DecidableEq, Repr

/-- What a worker, a client, an administrator or the clock does next. -/
inductive TokenAction where
  | claim (request : EnsureRequest) (claimId : String)
  | exchange (answer : Except ExchangeFailure MicrosoftTokenResponse) (nonce : ℕ)
  | readForProbe
  | finishProbe (result : CapabilityProbeResult) (nonce : ℕ)
  | probeCached (request : EnsureRequest) (result : CapabilityProbeResult) (nonce : ℕ)
  | abandon
  | updateRefreshToken (principal : ClientPrincipal) (leaseId : String)
      (expectedTokenVersion : ℕ) (refreshToken : String) (nonce : ℕ)
  | compareAndSwap (mailboxId : String) (expectedTokenVersion : ℕ) (w : RefreshTokenWrite)
  | increment (mailboxId : String) (w : RefreshTokenWrite)
  | readForImport (mailboxId : String)
  | importReplace (item : MailboxImportItem) (nonce : ℕ)
  | advance (microseconds : ℕ)

/-- The steps of `ensure_access_token`. -/
def TokenAction.byService : TokenAction → Bool
  | .claim _ _ => true
  | .exchange _ _ => true
  | .readForProbe => true
  | .finishProbe _ _ => true
  | .probeCached _ _ _ => true
  | .abandon => true
  | _ => false

/-- A refresh token that a client installed, with the version it got. -/
structure InstalledToken where
  tokenVersion : ℕ
  ciphertext : String
  deriving DecidableEq, Repr

/-- An access token, and a refresh token whose exchange it came from or which
came with it. -/
structure AccessTokenOrigin where
  mailboxId : String
  accessTokenCiphertext : String
  tokenVersion : ℕ
  deriving DecidableEq, Repr

section

variable [Platform]

def InstalledToken.inPlace (i : InstalledToken) (db : Database) (mailboxId : String) : Bool :=
  (db.mailboxes.get? mailboxId).any fun m =>
    m.tokenVersion = i.tokenVersion && m.refreshTokenCiphertext = some i.ciphertext

structure TokenShared where
  db : Database
  now : ℕ
  /-- The refresh token of the mailbox, if a client installed it. -/
  installed : String → Option InstalledToken
  clientWrites : String → ℕ
  origins : List AccessTokenOrigin

/-- Commit a database; a replaced refresh token is no longer installed. -/
def TokenShared.commit (s : TokenShared) (db : Database) : TokenShared :=
  { s with
    db := db
    installed := fun m => (s.installed m).filter fun i => i.inPlace db m }

/-- Commit what a call of the token repository leaves, unless it raises. -/
def TokenShared.commitOk (s : TokenShared) :
    Except TokenRepositoryError (ℕ × Database) → TokenShared
  | .error _ => s
  | .ok (_, db) => s.commit db

def TokenShared.install (s : TokenShared) (mailboxId : String) (i : InstalledToken) :
    TokenShared :=
  { s with
    installed := Function.update s.installed mailboxId (some i)
    clientWrites := Function.update s.clientWrites mailboxId (s.clientWrites mailboxId + 1) }

def TokenShared.note (s : TokenShared) (origins : List AccessTokenOrigin) : TokenShared :=
  { s with origins := origins ++ s.origins }

/-! ## Steps -/

def Database.writeMailbox (db : Database) (mailboxId : String) (f : MailboxAssignment) :
    Database :=
  (db.updateMailbox mailboxId (fun _ => true) f).db

def assignProbe (settings : TokenSettings) (now nonce : ℕ) (loaded assigned : Mailbox)
    (result : CapabilityProbeResult) : MailboxAssignment where
  set := settings.writeProbe now nonce loaded assigned result
  keeps_id m := by
    unfold TokenSettings.writeProbe
    split
    · rfl
    · dsimp only
      split <;> rfl
  keeps_email m := by
    unfold TokenSettings.writeProbe
    split
    · rfl
    · dsimp only
      split <;> rfl

def assignImported (settings : TokenSettings) (now nonce : ℕ) (item : MailboxImportItem)
    (loaded : Mailbox) : MailboxAssignment where
  set := settings.writeImport now nonce item loaded

/-- The cache check and phase A. A call that finds a usable token is over. -/
def claimStep (settings : TokenSettings) (s : TokenShared) (request : EnsureRequest)
    (claimId : String) : TokenWorker × TokenShared :=
  match s.db.mailboxes.get? request.mailboxId with
  | none => (.idle, s)
  | some mailbox =>
      if !mailbox.isMicrosoft then (.idle, s)
      else
        let target := mailbox.preferredMailChannel request.preferredChannel
        let cached :=
          if request.forceRefresh then .ok none
          else settings.cachedAccessToken s.now target mailbox
        match cached with
        | .error _ => (.idle, s)
        | .ok (some _) => (.idle, s)
        | .ok none =>
            match claimTokenRefresh s.db s.now claimId request.mailboxId settings.decrypt
                settings.tokenRefreshClaimTtlSeconds request.skipActiveRtLeaseCheck with
            | .error _ => (.idle, s)
            | .ok (claim, db) => (.exchanging request target claim s.now, s.commit db)

/-- The access token of an exchange: it belongs to the exchanged refresh token,
and to the one that came with it once this is stored. -/
def TokenRefreshClaim.origins (claim : TokenRefreshClaim) (c : RefreshCompletion)
    (landed : Bool) : List AccessTokenOrigin :=
  let origin := AccessTokenOrigin.mk claim.mailboxId c.encryptedAccessToken
  if c.refreshTokenRotated && landed then
    [origin claim.expectedTokenVersion, origin (claim.expectedTokenVersion + 1)]
  else [origin claim.expectedTokenVersion]

/-- Phases B and C. A completion that finds its claim gone leaves the worker
idle; its second attempt is another call. -/
def exchangeStep (settings : TokenSettings) (s : TokenShared) (request : EnsureRequest)
    (target : Option MailAccessChannel) (claim : TokenRefreshClaim) (startedAt nonce : ℕ) :
    Except ExchangeFailure MicrosoftTokenResponse → TokenWorker × TokenShared
  | .error .invalidGrant => (.idle, s.commit (failTokenRefreshInvalidGrant s.db s.now claim).2)
  | .error .other => (.idle, s.commit (releaseTokenRefreshClaim s.db s.now claim))
  | .ok response =>
      let c := settings.completion nonce startedAt claim.refreshToken response
      match completeTokenRefresh s.db claim c with
      | .error _ => (.idle, s)
      | .ok (version, db) =>
          let landed := (s.db.mailboxes.get? claim.mailboxId).any claim.current
          (if version.isSome then .refreshed request target else .idle,
            (s.commit db).note (claim.origins c landed))

/-- The read of the row for the probe, in a session of its own and without a
lock. -/
def readForProbeStep (settings : TokenSettings) (s : TokenShared) (request : EnsureRequest)
    (target : Option MailAccessChannel) : TokenWorker :=
  match s.db.mailboxes.get? request.mailboxId with
  | none => .idle
  | some loaded =>
      let readable := missing loaded.accessTokenCiphertext ||
        (settings.decrypt (loaded.accessTokenCiphertext.getD "")).toOption.isSome
      if readable && settings.shouldRunProbe request.forceRefresh request.preferredChannel
          target loaded then
        .probing loaded (s.clientWrites loaded.id)
      else .idle

/-- The access token that a probe stores: it belongs to the refresh token of the
instance, and to the one that came with it once this is stored. -/
def probeOrigins (settings : TokenSettings) (nonce : ℕ) (loaded assigned current : Mailbox)
    (result : CapabilityProbeResult) : List AccessTokenOrigin :=
  match settings.replacement assigned result with
  | none => []
  | some r =>
      let origin := AccessTokenOrigin.mk current.id (settings.encrypt nonce r.accessToken)
      match settings.rotatedRefreshToken assigned r with
      | none => [origin assigned.tokenVersion]
      | some refreshToken =>
          if loaded.refreshTokenCiphertext = some (settings.encrypt (nonce + 1) refreshToken) then
            [origin assigned.tokenVersion]
          else [origin assigned.tokenVersion, origin (current.tokenVersion + 1)]

/-- The write of a probe: by primary key, and with no look at the version. -/
def probeStep (settings : TokenSettings) (s : TokenShared) (nonce : ℕ)
    (loaded assigned : Mailbox) (result : CapabilityProbeResult) : TokenShared :=
  match s.db.mailboxes.get? loaded.id with
  | none => s
  | some current =>
      (s.commit (s.db.writeMailbox loaded.id
        (assignProbe settings s.now nonce loaded assigned result))).note
        (probeOrigins settings nonce loaded assigned current result)

/-- The probe of a mailbox with a usable token and no capability. The row is
locked from its read to its write. -/
def probeCachedStep (settings : TokenSettings) (s : TokenShared) (request : EnsureRequest)
    (result : CapabilityProbeResult) (nonce : ℕ) : TokenShared :=
  match s.db.mailboxes.get? request.mailboxId with
  | none => s
  | some loaded =>
      let target := loaded.preferredMailChannel request.preferredChannel
      if !loaded.isMicrosoft || request.forceRefresh || loaded.capability.isSome then s
      else
        match settings.cacheHit s.now target loaded with
        | .error _ => s
        | .ok none => s
        | .ok (some accessToken) =>
            probeStep settings s nonce loaded
              (settings.persistScopeIfMissing s.now accessToken loaded) result

/-- `update_refresh_token`, in one transaction. -/
def updateRefreshTokenStep (settings : TokenSettings) (s : TokenShared)
    (principal : ClientPrincipal) (leaseId : String) (expectedTokenVersion : ℕ)
    (refreshToken : String) (nonce : ℕ) : TokenShared :=
  match (updateRefreshToken (settings.credentials nonce) principal s.now leaseId
      expectedTokenVersion refreshToken).transact s.db with
  | (.error _, db) => s.commit db
  | (.ok result, db) =>
      if result.updated then
        (s.commit db).install result.mailboxId
          ⟨result.tokenVersion, settings.encrypt nonce refreshToken⟩
      else s.commit db

/-- The read of an existing mailbox by `import_mailboxes`. -/
def readForImportStep (s : TokenShared) (mailboxId : String) : TokenWorker :=
  match s.db.mailboxes.get? mailboxId with
  | none => .idle
  | some loaded =>
      if loaded.providerType = "" ∨ loaded.providerType = defaultProviderType then
        .importing loaded
      else .idle

/-- The `replace_token` branch of `import_mailboxes`. -/
def importStep (settings : TokenSettings) (s : TokenShared) (item : MailboxImportItem)
    (nonce : ℕ) (loaded : Mailbox) : TokenShared :=
  if s.db.activeClaimMailboxIds s.now [loaded.id] = [] then
    s.commit (s.db.writeMailbox loaded.id (assignImported settings s.now nonce item loaded))
  else if item.forceReleaseActiveLeases then
    s.commit ((forceReleaseClaimsAndLeases s.db s.now loaded.id).writeMailbox loaded.id
      (assignImported settings s.now nonce item loaded))
  else s

/-- One step of a worker. Clients and the clock do not concern it. -/
def tokenAct (settings : TokenSettings) (s : TokenShared) (x : TokenWorker) :
    TokenAction → TokenWorker × TokenShared
  | .claim request claimId =>
      match x with
      | .idle => claimStep settings s request claimId
      | busy => (busy, s)
  | .exchange answer nonce =>
      match x with
      | .exchanging request target claim startedAt =>
          exchangeStep settings s request target claim startedAt nonce answer
      | other => (other, s)
  | .readForProbe =>
      match x with
      | .refreshed request target => (readForProbeStep settings s request target, s)
      | other => (other, s)
  | .finishProbe result nonce =>
      match x with
      | .probing loaded _ => (.idle, probeStep settings s nonce loaded loaded result)
      | other => (other, s)
  | .probeCached request result nonce =>
      match x with
      | .idle => (.idle, probeCachedStep settings s request result nonce)
      | busy => (busy, s)
  | .abandon => (.idle, s)
  | .updateRefreshToken principal leaseId expectedTokenVersion refreshToken nonce =>
      (x, updateRefreshTokenStep settings s principal leaseId expectedTokenVersion refreshToken
        nonce)
  | .compareAndSwap mailboxId expectedTokenVersion w =>
      (x, s.commitOk (compareAndSwapRefreshToken s.db mailboxId expectedTokenVersion w))
  | .increment mailboxId w => (x, s.commitOk (incrementTokenVersionUnderLock s.db mailboxId w))
  | .readForImport mailboxId =>
      match x with
      | .idle => (readForImportStep s mailboxId, s)
      | busy => (busy, s)
  | .importReplace item nonce =>
      match x with
      | .importing loaded => (.idle, importStep settings s item nonce loaded)
      | other => (other, s)
  | .advance microseconds => (x, { s with now := s.now + microseconds })

def tokenStart {ι : Type*} (db : Database) (now : ℕ) : Threads ι TokenWorker TokenShared :=
  .start ⟨db, now, fun _ => none, fun _ => 0, []⟩ .idle

/-! ## Revisions -/

/-- The refresh token is replaced together with its version only. -/
structure RevisionKept (m m' : Mailbox) : Prop where
  le : m.tokenVersion ≤ m'.tokenVersion
  same : m'.tokenVersion = m.tokenVersion →
    m'.refreshTokenCiphertext = m.refreshTokenCiphertext

omit [Platform] in
theorem RevisionKept.of_eq {m m' : Mailbox} (hversion : m'.tokenVersion = m.tokenVersion)
    (htoken : m'.refreshTokenCiphertext = m.refreshTokenCiphertext) : RevisionKept m m' :=
  ⟨hversion.ge, fun _ => htoken⟩

omit [Platform] in
/-- A new version may come with any refresh token. -/
theorem RevisionKept.of_lt {m m' : Mailbox} (h : m.tokenVersion < m'.tokenVersion) :
    RevisionKept m m' := by
  constructor
  · exact h.le
  · intro heq
    omega

def KeepsRevisions (db db' : Database) : Prop :=
  ∀ k m, db.mailboxes.get? k = some m →
    ∃ m', db'.mailboxes.get? k = some m' ∧ RevisionKept m m'

theorem keepsRevisions_of_mailboxes {db db' : Database} (h : db'.mailboxes = db.mailboxes) :
    KeepsRevisions db db' := by
  intro k m hm
  exact ⟨m, by rw [h]; exact hm, RevisionKept.of_eq rfl rfl⟩

theorem keepsRevisions_update {db : Database} {mailboxId : String} {q : Mailbox → Bool}
    {f : MailboxAssignment} (hf : ∀ m, q m = true → RevisionKept m (f.set m)) :
    KeepsRevisions db (db.updateMailbox mailboxId q f).db := by
  intro k m hm
  refine ⟨_, updateMailbox_row hm, ?_⟩
  split
  · rename_i hq
    exact hf m hq.2
  · exact RevisionKept.of_eq rfl rfl

/-- The tokens of an exchange land on a row that still carries its claim. -/
theorem keepsRevisions_complete {db db' : Database} {claim : TokenRefreshClaim}
    {c : RefreshCompletion} {v : Option ℕ} (h : completeTokenRefresh db claim c = .ok (v, db')) :
    KeepsRevisions db db' := by
  rcases completeTokenRefresh_ok h with ⟨-, -, -, encrypted, -, rfl⟩ | ⟨-, rfl⟩
  · apply keepsRevisions_update
    intro m hq
    apply RevisionKept.of_lt
    have hversion : m.tokenVersion = claim.expectedTokenVersion := by
      simp only [TokenRefreshClaim.current, Bool.and_eq_true, decide_eq_true_eq] at hq
      exact hq.1
    show m.tokenVersion < claim.expectedTokenVersion + 1
    omega
  · exact keepsRevisions_update fun _ _ => RevisionKept.of_eq rfl rfl

omit [Platform] in
/-- Another refresh token comes with a new version. -/
theorem writeProbe_revisionKept {settings : TokenSettings} {now nonce : ℕ}
    {loaded assigned : Mailbox} {result : CapabilityProbeResult}
    (h : assigned.refreshTokenCiphertext = loaded.refreshTokenCiphertext) (m : Mailbox) :
    RevisionKept m (settings.writeProbe now nonce loaded assigned result m) := by
  cases hrotates : settings.rotates assigned result with
  | true =>
      apply RevisionKept.of_lt
      rw [writeProbe_of_rotates hrotates]
      exact Nat.lt_succ_self _
  | false =>
      obtain ⟨hversion, htoken⟩ := writeProbe_of_not_rotates h hrotates m
      exact RevisionKept.of_eq hversion htoken

/-- An import always comes with a new version. -/
theorem keepsRevisions_import {db : Database} {settings : TokenSettings} {now nonce : ℕ}
    {item : MailboxImportItem} {loaded : Mailbox} (mailboxId : String) :
    KeepsRevisions db (db.writeMailbox mailboxId
      (assignImported settings now nonce item loaded)) := by
  apply keepsRevisions_update
  intro m _
  apply RevisionKept.of_lt
  show m.tokenVersion < m.tokenVersion + 1
  omega

/-! ## What a step leaves -/

/-- What every step keeps: the revisions, and that a client write is a new
version. -/
structure TokenStep (s s' : TokenShared) : Prop where
  revisions : KeepsRevisions s.db s'.db
  writes : ∀ k, s.clientWrites k ≤ s'.clientWrites k
  counted : ∀ k m m', s.db.mailboxes.get? k = some m → s'.db.mailboxes.get? k = some m' →
    m'.tokenVersion = m.tokenVersion → s'.clientWrites k = s.clientWrites k
  installed : ∀ k i, s'.installed k = some i → s'.clientWrites k = s.clientWrites k →
    s.installed k = some i
  inPlace : (∀ k i, s.installed k = some i → i.inPlace s.db k = true) →
    ∀ k i, s'.installed k = some i → i.inPlace s'.db k = true

theorem tokenStep_same {s s' : TokenShared} (hdb : s'.db = s.db)
    (hwrites : s'.clientWrites = s.clientWrites) (hinstalled : s'.installed = s.installed) :
    TokenStep s s' := by
  constructor
  · exact keepsRevisions_of_mailboxes (congrArg Database.mailboxes hdb)
  · intro k
    rw [hwrites]
  · intro k m m' _ _ _
    rw [hwrites]
  · intro k i hi _
    rw [hinstalled] at hi
    exact hi
  · intro h k i hi
    rw [hinstalled] at hi
    rw [hdb]
    exact h k i hi

theorem tokenStep_commit {s : TokenShared} {db : Database} (h : KeepsRevisions s.db db)
    (origins : List AccessTokenOrigin) : TokenStep s ((s.commit db).note origins) := by
  have hkept : ∀ k i, (s.commit db).installed k = some i →
      s.installed k = some i ∧ i.inPlace db k = true := by
    intro k i hi
    exact Option.filter_eq_some_iff.mp hi
  constructor
  · exact h
  · intro k
    exact le_rfl
  · intro k m m' _ _ _
    rfl
  · intro k i hi _
    exact (hkept k i hi).1
  · intro _ k i hi
    exact (hkept k i hi).2

theorem tokenStep_updateRefreshToken {settings : TokenSettings} {s : TokenShared}
    {principal : ClientPrincipal} {leaseId : String} {expectedTokenVersion : ℕ}
    {refreshToken : String} {nonce : ℕ} :
    TokenStep s (updateRefreshTokenStep settings s principal leaseId expectedTokenVersion
      refreshToken nonce) := by
  unfold updateRefreshTokenStep
  split
  · rename_i e db hrun
    rw [Work.transact_error hrun]
    exact tokenStep_commit (keepsRevisions_of_mailboxes rfl) []
  · rename_i result db hrun
    rcases updateRefreshToken_transact hrun with
      ⟨hupdated, rfl⟩ | ⟨hupdated, mailbox, hrow, hversion, hresult, rfl⟩
    · rw [hupdated]
      exact tokenStep_commit (keepsRevisions_of_mailboxes rfl) []
    · rw [if_pos hupdated]
      -- the row that the write-back has matched is in its next version
      have hafter : (s.db.updateRefreshToken (settings.credentials nonce) s.now
          result.mailboxId expectedTokenVersion refreshToken).db.mailboxes.get?
            result.mailboxId =
          some ((assignUpdatedRefreshToken (settings.encrypt nonce refreshToken) s.now
            settings.refreshTokenLifetimeDays).set mailbox) := by
        refine (updateMailbox_row hrow).trans ?_
        rw [if_pos ⟨rfl, decide_eq_true hversion⟩]
        rfl
      have hcommit : TokenStep s ((s.commit (s.db.updateRefreshToken
          (settings.credentials nonce) s.now result.mailboxId expectedTokenVersion
          refreshToken).db).note []) := by
        refine tokenStep_commit (keepsRevisions_update ?_) []
        intro m _
        apply RevisionKept.of_lt
        show m.tokenVersion < m.tokenVersion + 1
        omega
      constructor
      · exact hcommit.revisions
      · intro k
        show s.clientWrites k ≤ Function.update s.clientWrites result.mailboxId _ k
        rw [Function.update_apply]
        split
        · rename_i hk
          rw [hk]
          exact Nat.le_succ _
        · exact le_rfl
      -- the mailbox written to has a new version, the others no new write
      · intro k m m' hm hm' hsame
        by_cases hk : k = result.mailboxId
        · subst hk
          rw [hrow] at hm
          cases hm
          have hm'' := hafter.symm.trans hm'
          cases hm''
          have hbumped : mailbox.tokenVersion + 1 = mailbox.tokenVersion := hsame
          omega
        · exact Function.update_of_ne hk _ _
      · intro k i hi hwrites
        by_cases hk : k = result.mailboxId
        · subst hk
          have hcounted : Function.update s.clientWrites result.mailboxId
              (s.clientWrites result.mailboxId + 1) result.mailboxId =
              s.clientWrites result.mailboxId := hwrites
          rw [Function.update_self] at hcounted
          omega
        · have hi' := (Function.update_of_ne hk _ _).symm.trans hi
          exact hcommit.installed k i hi' rfl
      · intro hinPlace k i hi
        by_cases hk : k = result.mailboxId
        · subst hk
          have hi' := (Function.update_self _ _ _).symm.trans hi
          cases hi'
          unfold InstalledToken.inPlace
          refine (congrArg (Option.any _) hafter).trans ?_
          simp [assignUpdatedRefreshToken, hresult, hversion]
        · have hi' := (Function.update_of_ne hk _ _).symm.trans hi
          exact hcommit.inPlace hinPlace k i hi'

theorem tokenStep_probe {settings : TokenSettings} {s : TokenShared} {nonce : ℕ}
    {loaded assigned : Mailbox} {result : CapabilityProbeResult}
    (h : assigned.refreshTokenCiphertext = loaded.refreshTokenCiphertext) :
    TokenStep s (probeStep settings s nonce loaded assigned result) := by
  unfold probeStep
  split
  · exact tokenStep_same rfl rfl rfl
  · exact tokenStep_commit (keepsRevisions_update fun m _ => writeProbe_revisionKept h m) _

omit [Platform] in
theorem persistScopeIfMissing_refreshToken {settings : TokenSettings} {now : ℕ}
    {accessToken : String} {m : Mailbox} :
    (settings.persistScopeIfMissing now accessToken m).refreshTokenCiphertext =
      m.refreshTokenCiphertext := by
  unfold TokenSettings.persistScopeIfMissing
  split <;> rfl

/-- **Step lemma** for every action. -/
theorem tokenAct_step (settings : TokenSettings) (s : TokenShared) (x : TokenWorker)
    (a : TokenAction) : TokenStep s (tokenAct settings s x a).2 := by
  have hsame : TokenStep s s := tokenStep_same rfl rfl rfl
  cases a with
  | claim request claimId =>
      cases x with
      | idle =>
          simp only [tokenAct, claimStep]
          split
          · exact hsame
          split
          · exact hsame
          split
          · exact hsame
          · exact hsame
          split
          · exact hsame
          · rename_i claim db hclaim
            obtain ⟨row, -, -, -, -, -, -, -, rfl⟩ := claimTokenRefresh_ok hclaim
            exact tokenStep_commit (keepsRevisions_update fun _ _ => RevisionKept.of_eq rfl rfl) []
      | _ => exact hsame
  | exchange answer nonce =>
      cases x with
      | exchanging request target claim startedAt =>
          simp only [tokenAct]
          rcases answer with (_ | _) | response
          · exact tokenStep_commit (keepsRevisions_update fun _ _ => RevisionKept.of_eq rfl rfl) []
          · exact tokenStep_commit (keepsRevisions_update fun _ _ => RevisionKept.of_eq rfl rfl) []
          · simp only [exchangeStep]
            split
            · exact hsame
            · rename_i hcomplete
              exact tokenStep_commit (keepsRevisions_complete hcomplete) _
      | _ => exact hsame
  | readForProbe => cases x <;> exact hsame
  | finishProbe result nonce =>
      cases x with
      | probing loaded clientWrites => exact tokenStep_probe rfl
      | _ => exact hsame
  | probeCached request result nonce =>
      cases x with
      | idle =>
          simp only [tokenAct, probeCachedStep]
          split
          · exact hsame
          split
          · exact hsame
          split
          · exact hsame
          · exact hsame
          · exact tokenStep_probe persistScopeIfMissing_refreshToken
      | _ => exact hsame
  | abandon => exact hsame
  | updateRefreshToken principal leaseId expectedTokenVersion refreshToken nonce =>
      exact tokenStep_updateRefreshToken
  | compareAndSwap mailboxId expectedTokenVersion w =>
      simp only [tokenAct]
      rcases hok : compareAndSwapRefreshToken s.db mailboxId expectedTokenVersion w with
        e | ⟨v, db⟩
      · exact hsame
      · rw [(compareAndSwapRefreshToken_ok hok).2]
        refine tokenStep_commit (keepsRevisions_update ?_) []
        intro m hq
        apply RevisionKept.of_lt
        have hversion : m.tokenVersion = expectedTokenVersion := of_decide_eq_true hq
        show m.tokenVersion < expectedTokenVersion + 1
        omega
  | increment mailboxId w =>
      simp only [tokenAct]
      rcases hok : incrementTokenVersionUnderLock s.db mailboxId w with e | ⟨v, db⟩
      · exact hsame
      · rw [incrementTokenVersionUnderLock_ok hok]
        refine tokenStep_commit (keepsRevisions_update ?_) []
        intro m _
        apply RevisionKept.of_lt
        show m.tokenVersion < m.tokenVersion + 1
        omega
  | readForImport mailboxId => cases x <;> exact hsame
  | importReplace item nonce =>
      cases x with
      | importing loaded =>
          simp only [tokenAct, importStep]
          split
          · exact tokenStep_commit (keepsRevisions_import loaded.id) []
          split
          · refine tokenStep_commit ?_ []
            intro k m hm
            exact keepsRevisions_import loaded.id k m hm
          · exact hsame
      | _ => exact hsame
  | advance microseconds => exact tokenStep_same rfl rfl rfl

end

/-! ## A mailbox with a refresh-token lease -/

section Sample

attribute [local instance] asciiPlatform

def sampleTokenSettings : TokenSettings where
  encrypt nonce text := String.ofList (Char.ofNat nonce :: text.toList)
  decrypt ciphertext := .ok (String.ofList (ciphertext.toList.drop 1))
  casefold := id
  extractScopes := fun _ => none
  accessTokenRefreshSkewSeconds := 300
  refreshTokenLifetimeDays := 90
  tokenRefreshClaimTtlSeconds := 120

def tokenClient : ClientPrincipal where
  clientKeyId := "key"
  name := "client"
  scopes := ["tokens:refresh:write"]

def tokenDatabase : Database where
  mailboxes :=
    ⟨[{ id := "mailbox", primaryEmail := "a@x.org", clientId := some "app"
        refreshTokenCiphertext := some "@first" }],
      List.pairwise_singleton _ _⟩
  leases :=
    ⟨[{ id := "lease", mailboxId := some "mailbox", providerResourceId := none
        clientKeyId := some "key", allocatedEmail := none, mode := .refreshToken
        expiresAt := 60000000 }],
      List.pairwise_singleton _ _⟩

def sampleAnswer (accessToken scope : String) (rotated : Option String) :
    MicrosoftTokenResponse where
  accessToken := accessToken
  expiresIn := 3600
  rotatedRefreshToken := rotated
  scope := some scope

end Sample

end MailboxService
