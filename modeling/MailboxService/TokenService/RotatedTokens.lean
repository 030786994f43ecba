import MailboxService.ExportRoundTrip
import MailboxService.TokenService.CapabilityProbe
import MailboxService.TokenService.ClaimDisposal

/-!
# What becomes of a rotated refresh token

A call of `ensure_access_token` with everything that the token endpoint, IMAP and
Graph answer. Its exchange may bring another refresh token, and so may the
exchange for the Graph audience that its probe makes. Others may do what they
like in between, as long as they leave the refresh token of the mailbox alone.

The state adds the refresh token that was issued last, and how often the stored
one has changed. `rotated_refresh_token_stored_iff` says when the mailbox ends up
with the token that was issued last.
-/

namespace MailboxService

open Foundation

section

variable [Platform]

/-! ## Calls -/

/-- A step of a call, with what the remote services answer, or what others leave
of the database. -/
inductive ServiceEvent where
  | checkCache (answers : Option ProbeAnswers) (nonce : ℕ)
  | claim (claimId : String)
  | exchange (answer : Except ExchangeFailure MicrosoftTokenResponse) (nonce : ℕ)
  | readWinner (seen : Option Mailbox)
  | readForProbe
  | finishProbe (answers : Option ProbeAnswers) (nonce : ℕ)
  | others (db : Database) (now : ℕ)

/-- The instance that a step hands to the prober, with the answers that the probe
gets. Without answers one of the services raises what the prober does not
catch. -/
def probedMailbox (settings : TokenSettings) (request : EnsureRequest) (s : EnsureState) :
    ServiceEvent → Option (Mailbox × ProbeAnswers)
  | .checkCache answers _ =>
      match s.phase, request.forceRefresh, s.db.mailboxes.get? request.mailboxId with
      | .starting, false, some m =>
          if !m.isMicrosoft || m.capability.isSome then none
          else
            match settings.cacheHit s.now (m.preferredMailChannel request.preferredChannel) m with
            | .ok (some accessToken) =>
                answers.map fun a => (settings.persistScopeIfMissing s.now accessToken m, a)
            | _ => none
      | _, _, _ => none
  | .finishProbe answers _ =>
      match s.phase with
      | .probing loaded => answers.map fun a => (loaded, a)
      | _ => none
  | _ => none

/-- What comes back to the token service, unless a replacement cannot be stored. -/
def TokenSettings.proberResult (settings : TokenSettings) (now : ℕ) (m : Mailbox)
    (answers : ProbeAnswers) : Option CapabilityProbeResult :=
  let result := settings.probeMailboxCapability m answers
  if result.accessTokenReplacement.any fun r => !r.storable now true then none
  else some result.toCapabilityProbeResult

def probeResult (settings : TokenSettings) (request : EnsureRequest) (s : EnsureState)
    (e : ServiceEvent) : Option CapabilityProbeResult :=
  (probedMailbox settings request s e).bind fun p => settings.proberResult s.now p.1 p.2

/-- `ensure_access_token`, step by step. -/
def callStep (settings : TokenSettings) (request : EnsureRequest) (s : EnsureState)
    (e : ServiceEvent) : EnsureState :=
  match e with
  | .checkCache _ nonce =>
      ensureStep settings request s (.checkCache (probeResult settings request s e) nonce)
  | .claim claimId => ensureStep settings request s (.claim claimId)
  | .exchange answer nonce => ensureStep settings request s (.exchange answer nonce)
  | .readWinner seen => ensureStep settings request s (.readWinner seen)
  | .readForProbe => ensureStep settings request s .readForProbe
  | .finishProbe _ nonce =>
      ensureStep settings request s (.finishProbe (probeResult settings request s e) nonce)
  | .others db now => { s with db, now }

/-! ## Issued refresh tokens -/

/-- A refresh token that the token endpoint has issued; `landed` is whether the
answer it came with was to be stored, or the token is the stored one anyway. -/
structure IssuedRefreshToken where
  refreshToken : String
  landed : Bool
  deriving DecidableEq, Repr

def MicrosoftTokenResponse.issues (r : MicrosoftTokenResponse) (stored : Option String)
    (lands : Bool) : Option IssuedRefreshToken :=
  (r.rotatedRefreshToken.filter (· ≠ "")).map fun refreshToken =>
    ⟨refreshToken, lands || stored = some refreshToken⟩

/-- The refresh token that a probe is issued. It lands if the second Graph probe
works. -/
def TokenSettings.issuedByProbe (settings : TokenSettings) (now : ℕ) (m : Mailbox)
    (answers : ProbeAnswers) : Option IssuedRefreshToken :=
  (settings.issuedToProbe m answers).bind fun r =>
    r.issues (settings.storedRefreshToken m)
      (answers.worksForGraph && r.storable now true)

/-- The refresh token that is issued in a step. That of an exchange lands if the
claim is still current. -/
def refreshTokenIssued (settings : TokenSettings) (request : EnsureRequest) (s : EnsureState)
    (e : ServiceEvent) : Option IssuedRefreshToken :=
  match e with
  | .exchange (.ok response) _ =>
      s.phase.underWay.bind fun x =>
        response.issues (some x.1.refreshToken)
          ((s.db.mailboxes.get? x.1.mailboxId).any x.1.current &&
            response.storable x.2 true)
  | e =>
      (probedMailbox settings request s e).bind fun p => settings.issuedByProbe s.now p.1 p.2

def Database.refreshTokenOf (db : Database) (mailboxId : String) : Option (Option String) :=
  (db.mailboxes.get? mailboxId).map Mailbox.refreshTokenCiphertext

structure ServiceState where
  call : EnsureState
  /-- The refresh token that was issued last. -/
  issued : Option IssuedRefreshToken
  /-- How often the stored refresh token has changed. -/
  changes : ℕ

def ServiceState.start (db : Database) (now : ℕ) : ServiceState := ⟨.start db now, none, 0⟩

def serviceStep (settings : TokenSettings) (request : EnsureRequest) (s : ServiceState)
    (e : ServiceEvent) : ServiceState :=
  let call := callStep settings request s.call e
  { call
    issued := (refreshTokenIssued settings request s.call e).or s.issued
    changes :=
      if call.db.refreshTokenOf request.mailboxId =
          s.call.db.refreshTokenOf request.mailboxId then s.changes
      else s.changes + 1 }

/-- Nobody else writes the refresh token of the mailbox, or its version. -/
def NoOtherWriter (request : EnsureRequest) (s : ServiceState) : ServiceEvent → Prop
  | .others db _ =>
      (db.mailboxes.get? request.mailboxId).map
          (fun m => (m.refreshTokenCiphertext, m.tokenVersion)) =
        (s.call.db.mailboxes.get? request.mailboxId).map
          (fun m => (m.refreshTokenCiphertext, m.tokenVersion))
  | _ => True

/-- **The last refresh token is stored**: that of the mailbox is the one that was
issued last, or the one it had, and each change has moved the version by one. -/
def StoresLastIssued (settings : TokenSettings) (request : EnsureRequest) (before : Mailbox)
    (s : ServiceState) : Prop :=
  ∃ m, s.call.db.mailboxes.get? request.mailboxId = some m ∧
    m.tokenVersion = before.tokenVersion + s.changes ∧
    (s.issued = none → m.refreshTokenCiphertext = before.refreshTokenCiphertext) ∧
    ∀ i ∈ s.issued, settings.storedRefreshToken m = some i.refreshToken

def ServiceState.LastLanded (s : ServiceState) : Prop :=
  ∀ i ∈ s.issued, i.landed = true

/-! ## What a step does to the row -/

/-- A step leaves the refresh token of the row alone, and any token that is issued
counts as landed if it is that one. Or it stores, as the next version, the token
that is issued. -/
inductive RowEffect (settings : TokenSettings) (m m' : Mailbox)
    (issue : Option IssuedRefreshToken) : Prop where
  | kept (token : m'.refreshTokenCiphertext = m.refreshTokenCiphertext)
      (version : m'.tokenVersion = m.tokenVersion)
      (exact : ∀ i : IssuedRefreshToken, issue = some i →
        (settings.storedRefreshToken m = some i.refreshToken ↔ i.landed = true))
  | stored (refreshToken : String) (issued : issue = some ⟨refreshToken, true⟩)
      (token : m'.refreshTokenCiphertext ≠ m.refreshTokenCiphertext)
      (version : m'.tokenVersion = m.tokenVersion + 1)
      (holds : settings.storedRefreshToken m' = some refreshToken)

variable {settings : TokenSettings} {request : EnsureRequest} {s : EnsureState}
  {m : Mailbox}

omit [Platform] in
theorem storedRefreshToken_congr {m m' : Mailbox}
    (h : m'.refreshTokenCiphertext = m.refreshTokenCiphertext) :
    settings.storedRefreshToken m' = settings.storedRefreshToken m := by
  unfold TokenSettings.storedRefreshToken
  rw [h]

omit [Platform] in
theorem RowEffect.same {m m' : Mailbox} (h : RowEffect settings m m' none) :
    m'.refreshTokenCiphertext = m.refreshTokenCiphertext ∧
      m'.tokenVersion = m.tokenVersion := by
  cases h with
  | kept token version exact => exact ⟨token, version⟩
  | stored refreshToken issued => cases issued

omit [Platform] in
theorem RowEffect.quiet {m m' : Mailbox}
    (token : m'.refreshTokenCiphertext = m.refreshTokenCiphertext)
    (version : m'.tokenVersion = m.tokenVersion) : RowEffect settings m m' none :=
  .kept token version nofun

omit [Platform] in
theorem storedRefreshToken_encrypt (hcipher : settings.CipherRoundTrips) {m : Mailbox}
    {nonce : ℕ} {refreshToken : String}
    (h : m.refreshTokenCiphertext = some (settings.encrypt nonce refreshToken)) :
    settings.storedRefreshToken m = some refreshToken := by
  have hpresent : missing (some (settings.encrypt nonce refreshToken)) = false := by
    unfold missing
    exact decide_eq_false (hcipher.encrypt_ne_empty nonce refreshToken)
  unfold TokenSettings.storedRefreshToken
  rw [h, hpresent, Option.getD_some, hcipher.decrypt_encrypt]
  rfl

omit [Platform] in
theorem encrypt_ne_stored (hcipher : settings.CipherRoundTrips) {m : Mailbox} {nonce : ℕ}
    {refreshToken : String} (h : settings.storedRefreshToken m ≠ some refreshToken) :
    some (settings.encrypt nonce refreshToken) ≠ m.refreshTokenCiphertext := by
  intro heq
  exact h (storedRefreshToken_encrypt hcipher heq.symm)

omit [Platform] in
theorem issues_eq_some {r : MicrosoftTokenResponse} {stored : Option String} {lands : Bool}
    {i : IssuedRefreshToken} :
    r.issues stored lands = some i ↔
      r.rotatedRefreshToken = some i.refreshToken ∧ i.refreshToken ≠ "" ∧
        i.landed = (lands || decide (stored = some i.refreshToken)) := by
  unfold MicrosoftTokenResponse.issues
  rw [Option.map_eq_some_iff]
  constructor
  · rintro ⟨refreshToken, hfilter, rfl⟩
    rw [Option.filter_eq_some_iff, decide_eq_true_eq] at hfilter
    exact ⟨hfilter.1, hfilter.2, rfl⟩
  · rintro ⟨hrotated, hne, hlanded⟩
    refine ⟨i.refreshToken, ?_, ?_⟩
    · rw [Option.filter_eq_some_iff, decide_eq_true_eq]
      exact ⟨hrotated, hne⟩
    · cases i
      simp only [IssuedRefreshToken.mk.injEq, true_and]
      exact hlanded.symm

/-! ### The write of a probe -/

omit [Platform] in
theorem flush_refreshToken (loaded assigned current : Mailbox) :
    (loaded.flush assigned current).refreshTokenCiphertext =
      flushColumn loaded.refreshTokenCiphertext assigned.refreshTokenCiphertext
        current.refreshTokenCiphertext := rfl

omit [Platform] in
theorem applyBound_refreshToken {now : ℕ} {result : CapabilityProbeResult} (m : Mailbox) :
    ((settings.bindAccessToken now m).applyCapabilityProbeResult now
      result).refreshTokenCiphertext = m.refreshTokenCiphertext := rfl

omit [Platform] in
theorem bump_refreshToken (m : Mailbox) :
    m.bumpTokenVersion.refreshTokenCiphertext = m.refreshTokenCiphertext := rfl

omit [Platform] in
/-- **A probe stores the refresh token that comes with its replacement.** -/
theorem writeProbe_refreshToken {now nonce : ℕ} {loaded assigned current : Mailbox}
    {result : CapabilityProbeResult} {r : MicrosoftTokenResponse} {refreshToken : String}
    (hreplacement : settings.replacement assigned result = some r)
    (hrotated : settings.rotatedRefreshToken assigned r = some refreshToken)
    (hne : some (settings.encrypt (nonce + 1) refreshToken) ≠ loaded.refreshTokenCiphertext) :
    (settings.writeProbe now nonce loaded assigned result current).refreshTokenCiphertext =
      some (settings.encrypt (nonce + 1) refreshToken) := by
  unfold TokenSettings.writeProbe
  rw [hreplacement]
  dsimp only
  rw [hrotated]
  dsimp only
  -- the instance is refreshed before the second flush, which finds the token assigned
  rw [flush_refreshToken, applyBound_refreshToken, flushColumn_current, bump_refreshToken,
    flush_refreshToken]
  exact flushColumn_of_ne hne _

omit [Platform] in
theorem replacement_of_probe {answers : ProbeAnswers} :
    settings.replacement m
        (settings.probeMailboxCapability m answers).toCapabilityProbeResult =
      (settings.issuedToProbe m answers).filter fun _ => answers.worksForGraph := by
  unfold TokenSettings.replacement
  rw [probe_replacement]
  split
  · rfl
  · rename_i hcan
    rw [issuedToProbe_of_not_canReaudience (Bool.not_eq_true _ ▸ hcan)]
    rfl

omit [Platform] in
theorem replacement_of_proberResult {now : ℕ} {answers : ProbeAnswers}
    {result : CapabilityProbeResult} (h : settings.proberResult now m answers = some result) :
    settings.replacement m result =
        (settings.issuedToProbe m answers).filter (fun _ => answers.worksForGraph) ∧
      ∀ r, settings.replacement m result = some r → r.storable now true = true := by
  unfold TokenSettings.proberResult at h
  dsimp only at h
  split at h
  · cases h
  · rename_i hrange
    obtain rfl := Option.some.inj h
    refine ⟨replacement_of_probe, ?_⟩
    intro r hr
    rw [replacement_of_probe, ← probe_replacement] at hr
    rw [hr, Option.any_some, Bool.not_eq_true', Bool.not_eq_false] at hrange
    exact hrange

omit [Platform] in
/-- A probe that comes to nothing has been issued no token, or one that cannot be
stored. -/
theorem rowEffect_unanswered {now : ℕ} {assigned : Mailbox} {answers : ProbeAnswers}
    (hassigned : m.refreshTokenCiphertext = assigned.refreshTokenCiphertext)
    (h : settings.proberResult now assigned answers = none) :
    RowEffect settings m m (settings.issuedByProbe now assigned answers) := by
  refine .kept rfl rfl ?_
  intro i hi
  unfold TokenSettings.issuedByProbe at hi
  obtain ⟨r, hissued, hissues⟩ := Option.bind_eq_some_iff.mp hi
  have hlost : (answers.worksForGraph && r.storable now true) = false := by
    unfold TokenSettings.proberResult at h
    dsimp only at h
    rw [probe_replacement, hissued] at h
    cases hworks : answers.worksForGraph with
    | false => rfl
    | true =>
        have hfilter : (some r).filter (fun _ => true) = some r := rfl
        rw [hworks, hfilter, Option.any_some] at h
        split at h
        · rename_i hrange
          rw [Bool.not_eq_true'] at hrange
          rw [Bool.true_and, hrange]
        · cases h
  obtain ⟨-, -, hlanded⟩ := issues_eq_some.mp hissues
  rw [hlanded, hlost, Bool.false_or, decide_eq_true_eq, storedRefreshToken_congr hassigned]

omit [Platform] in
/-- What is no rotation is the stored token again. -/
theorem storedRefreshToken_of_not_rotated {m : Mailbox} {r : MicrosoftTokenResponse}
    {refreshToken : String} (h : settings.rotatedRefreshToken m r = none)
    (htoken : r.rotatedRefreshToken = some refreshToken) (hne : refreshToken ≠ "") :
    settings.storedRefreshToken m = some refreshToken := by
  unfold TokenSettings.rotatedRefreshToken at h
  split at h
  · rename_i hsame
    rw [htoken] at hsame
    simpa [missing, hne, eq_comm] using hsame
  · rw [htoken] at h
    cases h

omit [Platform] in
theorem rotatedRefreshToken_eq_some {m : Mailbox} {r : MicrosoftTokenResponse}
    {refreshToken : String} (h : settings.rotatedRefreshToken m r = some refreshToken) :
    r.rotatedRefreshToken = some refreshToken ∧ refreshToken ≠ "" ∧
      settings.storedRefreshToken m ≠ some refreshToken := by
  unfold TokenSettings.rotatedRefreshToken at h
  split at h
  · cases h
  · rename_i hdiffers
    rw [h] at hdiffers
    simp only [missing, Bool.or_eq_true, decide_eq_true_eq, not_or] at hdiffers
    exact ⟨h, hdiffers.1, fun heq => hdiffers.2 heq.symm⟩

omit [Platform] in
theorem rowEffect_probe (hcipher : settings.CipherRoundTrips) {now nonce : ℕ}
    {loaded assigned current : Mailbox} {answers : ProbeAnswers}
    {result : CapabilityProbeResult}
    (hloaded : current.refreshTokenCiphertext = loaded.refreshTokenCiphertext)
    (hassigned : assigned.refreshTokenCiphertext = loaded.refreshTokenCiphertext)
    (hresult : settings.proberResult now assigned answers = some result) :
    RowEffect settings current (settings.writeProbe now nonce loaded assigned result current)
      (settings.issuedByProbe now assigned answers) := by
  obtain ⟨hreplacement, hrange⟩ := replacement_of_proberResult hresult
  have hstored : settings.storedRefreshToken current = settings.storedRefreshToken assigned :=
    storedRefreshToken_congr (hloaded.trans hassigned.symm)
  have hkept : settings.rotates assigned result = false →
      ∀ issue : Option IssuedRefreshToken,
      (∀ i ∈ issue, settings.storedRefreshToken assigned = some i.refreshToken ↔
        i.landed = true) →
      RowEffect settings current (settings.writeProbe now nonce loaded assigned result current)
        issue := by
    intro hrotates issue hexact
    obtain ⟨hversion, htoken⟩ := writeProbe_of_not_rotates hassigned hrotates current
    exact .kept htoken hversion (by rw [hstored]; exact hexact)
  unfold TokenSettings.issuedByProbe
  cases hissued : settings.issuedToProbe assigned answers with
  | none =>
      rw [hissued] at hreplacement
      refine hkept ?_ _ nofun
      unfold TokenSettings.rotates
      rw [hreplacement]
      rfl
  | some r =>
      rw [hissued] at hreplacement
      rw [Option.bind_some]
      cases hworks : answers.worksForGraph with
      | false =>
          -- what does not work for Graph is dropped, and its refresh token with it
          rw [hworks] at hreplacement
          refine hkept ?_ _ ?_
          · unfold TokenSettings.rotates
            rw [hreplacement]
            rfl
          · intro i hi
            rw [Bool.false_and] at hi
            obtain ⟨-, -, hlanded⟩ := issues_eq_some.mp hi
            rw [hlanded, Bool.false_or, decide_eq_true_eq]
      | true =>
          rw [hworks] at hreplacement
          have hreplaced : settings.replacement assigned result = some r := by
            rw [hreplacement]
            rfl
          rw [Bool.true_and, hrange r hreplaced]
          cases hrotated : settings.rotatedRefreshToken assigned r with
          | none =>
              refine hkept ?_ _ ?_
              · unfold TokenSettings.rotates
                rw [hreplaced, Option.any_some, hrotated]
                rfl
              · intro i hi
                obtain ⟨htoken, hne, hlanded⟩ := issues_eq_some.mp hi
                rw [hlanded, Bool.true_or]
                exact iff_of_true (storedRefreshToken_of_not_rotated hrotated htoken hne) rfl
          | some refreshToken =>
              obtain ⟨htoken, hne, hnew⟩ := rotatedRefreshToken_eq_some hrotated
              -- only a changed column is flushed, so the new ciphertext has to differ
              have hciphertext : some (settings.encrypt (nonce + 1) refreshToken) ≠
                  loaded.refreshTokenCiphertext := by
                rw [← hassigned]
                exact encrypt_ne_stored hcipher hnew
              have hwritten : (settings.writeProbe now nonce loaded assigned result
                  current).refreshTokenCiphertext =
                  some (settings.encrypt (nonce + 1) refreshToken) :=
                writeProbe_refreshToken hreplaced hrotated hciphertext
              have hrotates : settings.rotates assigned result = true := by
                unfold TokenSettings.rotates
                rw [hreplaced, Option.any_some, hrotated]
                rfl
              refine .stored refreshToken ?_ ?_ (writeProbe_of_rotates hrotates current)
                (storedRefreshToken_encrypt hcipher hwritten)
              · rw [issues_eq_some]
                exact ⟨htoken, hne, by rw [Bool.true_or]⟩
              · rw [hwritten, hloaded]
                exact hciphertext

/-! ### The steps of a call -/

/-- What a call holds is of the refresh token that the mailbox has. -/
structure HoldsCurrent (settings : TokenSettings) (request : EnsureRequest) (s : EnsureState)
    (m : Mailbox) : Prop where
  claim : ∀ claim startedAt, s.phase.underWay = some (claim, startedAt) →
    claim.mailboxId = request.mailboxId ∧ m.tokenVersion = claim.expectedTokenVersion ∧
      settings.storedRefreshToken m = some claim.refreshToken
  loaded : ∀ loaded, s.phase = .probing loaded →
    loaded.id = request.mailboxId ∧ m.refreshTokenCiphertext = loaded.refreshTokenCiphertext

/-- A step has left the row at its refresh token, or stored the issued one. -/
def StepEffect (settings : TokenSettings) (request : EnsureRequest) (m : Mailbox)
    (issue : Option IssuedRefreshToken) (s' : EnsureState) : Prop :=
  ∃ m', s'.db.mailboxes.get? request.mailboxId = some m' ∧ RowEffect settings m m' issue

theorem StepEffect.same_db {s' : EnsureState}
    (hrow : s.db.mailboxes.get? request.mailboxId = some m) (hdb : s'.db = s.db) :
    StepEffect settings request m none s' :=
  ⟨m, by rw [hdb]; exact hrow, .quiet rfl rfl⟩

theorem StepEffect.update {s' : EnsureState} {mailboxId : String} {q : Mailbox → Bool}
    {f : MailboxAssignment} (hrow : s.db.mailboxes.get? request.mailboxId = some m)
    (htoken : (f.set m).refreshTokenCiphertext = m.refreshTokenCiphertext)
    (hversion : (f.set m).tokenVersion = m.tokenVersion)
    (hdb : s'.db = (s.db.updateMailbox mailboxId q f).db) :
    StepEffect settings request m none s' := by
  refine ⟨_, by rw [hdb]; exact updateMailbox_row hrow, ?_⟩
  split
  · exact .quiet htoken hversion
  · exact .quiet rfl rfl

/-- The cached token is probed on a mailbox without a capability, and only by a call
that may use the cache. -/
theorem probedMailbox_checkCache {answers : Option ProbeAnswers} {nonce : ℕ}
    {assigned : Mailbox} {answers' : ProbeAnswers}
    (hrow : s.db.mailboxes.get? request.mailboxId = some m)
    (h : probedMailbox settings request s (.checkCache answers nonce) =
      some (assigned, answers')) :
    request.forceRefresh = false ∧ m.isMicrosoft = true ∧ m.capability.isSome = false ∧
      ∃ accessToken,
        settings.cacheHit s.now (m.preferredMailChannel request.preferredChannel) m =
          .ok (some accessToken) ∧
        assigned = settings.persistScopeIfMissing s.now accessToken m := by
  unfold probedMailbox at h
  dsimp only at h
  split at h
  · rename_i row hstarting hforce hget
    rw [hrow] at hget
    obtain rfl := Option.some.inj hget
    split at h
    · cases h
    · rename_i hknown
      rw [Bool.or_eq_true, not_or, Bool.not_eq_true', Bool.not_eq_false,
        Bool.not_eq_true] at hknown
      split at h
      · rename_i accessToken hhit
        obtain ⟨a, -, hpair⟩ := Option.map_eq_some_iff.mp h
        obtain ⟨rfl, -⟩ := Prod.mk.inj hpair
        exact ⟨hforce, hknown.1, hknown.2, accessToken, hhit, rfl⟩
      · cases h
  · cases h

theorem effect_checkCache (hcipher : settings.CipherRoundTrips)
    (hrow : s.db.mailboxes.get? request.mailboxId = some m)
    (answers : Option ProbeAnswers) (nonce : ℕ) :
    StepEffect settings request m
      (refreshTokenIssued settings request s (.checkCache answers nonce))
      (checkCacheStep settings request s
        (probeResult settings request s (.checkCache answers nonce)) nonce) := by
  have hid : m.id = request.mailboxId := Table.key_of_get? hrow
  have hscope : ∀ accessToken,
      (settings.persistScopeIfMissing s.now accessToken m).refreshTokenCiphertext =
        m.refreshTokenCiphertext := fun _ => persistScopeIfMissing_refreshToken
  unfold refreshTokenIssued probeResult
  dsimp only
  cases hprobed : probedMailbox settings request s (.checkCache answers nonce) with
  | none =>
      rw [Option.bind_none, Option.bind_none]
      unfold checkCacheStep
      split
      · exact .same_db hrow rfl
      rw [hrow]
      dsimp only
      split
      · exact .same_db hrow rfl
      split
      · exact .same_db hrow rfl
      · exact .same_db hrow rfl
      · rename_i accessToken hhit
        split
        · refine .update hrow ?_ rfl rfl
          show flushColumn m.refreshTokenCiphertext
            (settings.persistScopeIfMissing s.now accessToken m).refreshTokenCiphertext
            m.refreshTokenCiphertext = m.refreshTokenCiphertext
          rw [hscope, flushColumn_unassigned]
        · exact .same_db hrow rfl
  | some probed =>
      obtain ⟨assigned, answers'⟩ := probed
      obtain ⟨hforce, hmicrosoft, hcapability, accessToken, hhit, rfl⟩ :=
        probedMailbox_checkCache hrow hprobed
      rw [Option.bind_some, Option.bind_some]
      unfold checkCacheStep
      simp only [hforce, hrow, hmicrosoft, hhit, hcapability, Bool.false_eq_true, if_false,
        Bool.not_true]
      split
      · rename_i hnone
        exact ⟨m, hrow, rowEffect_unanswered (hscope accessToken).symm hnone⟩
      · rename_i result hresult
        refine ⟨_, updateMailbox_row hrow, ?_⟩
        rw [if_pos ⟨hid.symm, rfl⟩]
        exact rowEffect_probe hcipher rfl (hscope accessToken) hresult

theorem effect_finishProbe (hcipher : settings.CipherRoundTrips)
    (hrow : s.db.mailboxes.get? request.mailboxId = some m)
    (hholds : HoldsCurrent settings request s m) {loaded : Mailbox}
    (hphase : s.phase = .probing loaded) (answers : Option ProbeAnswers) (nonce : ℕ) :
    StepEffect settings request m
      (refreshTokenIssued settings request s (.finishProbe answers nonce))
      (finishProbeStep settings s loaded
        (probeResult settings request s (.finishProbe answers nonce)) nonce) := by
  obtain ⟨hid, htoken⟩ := hholds.loaded loaded hphase
  have hprobed : probedMailbox settings request s (.finishProbe answers nonce) =
      answers.map fun a => (loaded, a) := by
    simp only [probedMailbox, hphase]
  unfold refreshTokenIssued probeResult
  dsimp only
  rw [hprobed]
  cases answers with
  | none => exact .same_db hrow rfl
  | some answers' =>
      rw [Option.map_some, Option.bind_some, Option.bind_some]
      unfold finishProbeStep
      rw [hid, hrow]
      cases hresult : settings.proberResult s.now loaded answers' with
      | none => exact ⟨m, hrow, rowEffect_unanswered htoken hresult⟩
      | some result =>
          refine ⟨_, updateMailbox_row hrow, ?_⟩
          rw [if_pos ⟨rfl, rfl⟩]
          exact rowEffect_probe hcipher htoken rfl hresult

theorem effect_phaseA (hrow : s.db.mailboxes.get? request.mailboxId = some m)
    (retry : Bool) (claimId : String) :
    StepEffect settings request m none (phaseAStep settings request s retry claimId) := by
  unfold phaseAStep
  rw [hrow]
  dsimp only
  split
  · exact .same_db hrow rfl
  split
  · exact .same_db hrow rfl
  · exact .same_db hrow rfl
  · split
    · rename_i claim db' hok
      obtain ⟨-, -, -, -, -, -, -, -, rfl⟩ := claimTokenRefresh_ok hok
      exact .update hrow rfl rfl rfl
    · split
      · exact .same_db hrow rfl
      · exact .same_db hrow rfl
    · exact .same_db hrow rfl

omit [Platform] in
theorem rowEffect_completion (hcipher : settings.CipherRoundTrips) {claim : TokenRefreshClaim}
    {startedAt nonce : ℕ} {response : MicrosoftTokenResponse}
    (hversion : m.tokenVersion = claim.expectedTokenVersion)
    (hstored : settings.storedRefreshToken m = some claim.refreshToken) :
    RowEffect settings m
      ((completionAssignment claim
        (settings.completion nonce startedAt claim.refreshToken response)).set m)
      (response.issues (some claim.refreshToken) true) := by
  have hrotated : (settings.completion nonce startedAt claim.refreshToken
      response).refreshTokenRotated =
      decide (missing response.rotatedRefreshToken = false ∧
        response.rotatedRefreshToken ≠ some claim.refreshToken) := by
    simp [TokenSettings.completion]
  by_cases hnew : missing response.rotatedRefreshToken = false ∧
      response.rotatedRefreshToken ≠ some claim.refreshToken
  · obtain ⟨refreshToken, htoken, hne⟩ : ∃ refreshToken,
        response.rotatedRefreshToken = some refreshToken ∧ refreshToken ≠ "" := by
      cases hr : response.rotatedRefreshToken with
      | none =>
          rw [hr] at hnew
          exact absurd hnew.1 (by decide)
      | some refreshToken =>
          rw [hr] at hnew
          exact ⟨refreshToken, rfl, of_decide_eq_false hnew.1⟩
    have hset : (completionAssignment claim (settings.completion nonce startedAt
        claim.refreshToken response)) =
        assignRotatedTokens (settings.completion nonce startedAt claim.refreshToken response)
          (settings.encrypt (nonce + 1) refreshToken) (claim.expectedTokenVersion + 1) := by
      have hencrypted : (settings.completion nonce startedAt claim.refreshToken
          response).encryptedRefreshToken =
          some (settings.encrypt (nonce + 1) (response.rotatedRefreshToken.getD "")) :=
        if_pos (hrotated.trans (decide_eq_true hnew))
      unfold completionAssignment
      rw [hrotated, decide_eq_true hnew, if_pos rfl, hencrypted, htoken]
      rfl
    rw [hset]
    -- a rotation: the new token is stored, in the next version
    refine .stored refreshToken ?_ ?_ ?_ (storedRefreshToken_encrypt hcipher rfl)
    · rw [issues_eq_some]
      exact ⟨htoken, hne, by rw [Bool.true_or]⟩
    · refine encrypt_ne_stored hcipher ?_
      rw [hstored, ← htoken]
      exact fun heq => hnew.2 heq.symm
    · rw [hversion]
      rfl
  · have hset : (completionAssignment claim (settings.completion nonce startedAt
        claim.refreshToken response)) =
        assignAccessToken (settings.completion nonce startedAt claim.refreshToken response)
          claim.expectedTokenVersion := by
      unfold completionAssignment
      rw [hrotated, decide_eq_false hnew, if_neg Bool.false_ne_true]
    rw [hset]
    refine .kept rfl rfl ?_
    intro i hi
    obtain ⟨htoken, hne, hlanded⟩ := issues_eq_some.mp hi
    rw [hlanded, Bool.true_or, hstored]
    refine iff_of_true ?_ rfl
    -- a token other than the one exchanged would have been a rotation
    by_contra hother
    refine hnew ⟨?_, ?_⟩
    · rw [htoken]
      exact decide_eq_false hne
    · rw [htoken]
      exact fun heq => hother heq.symm

/-- **The end of an exchange.** -/
theorem effect_phaseC (hcipher : settings.CipherRoundTrips)
    (hrow : s.db.mailboxes.get? request.mailboxId = some m)
    (hholds : HoldsCurrent settings request s m) {retry : Bool}
    {target : Option MailAccessChannel} {claim : TokenRefreshClaim} {startedAt : ℕ}
    (hphase : s.phase = .exchanging retry target claim startedAt)
    (answer : Except ExchangeFailure MicrosoftTokenResponse) (nonce : ℕ) :
    StepEffect settings request m
      (refreshTokenIssued settings request s (.exchange answer nonce))
      (phaseCStep settings s retry target claim startedAt nonce answer) := by
  have hunderWay : s.phase.underWay = some (claim, startedAt) := by
    rw [hphase]
    rfl
  obtain ⟨hmailbox, hversion, hstored⟩ := hholds.claim claim startedAt hunderWay
  cases answer with
  | error failure =>
      have hnone : refreshTokenIssued settings request s (.exchange (.error failure) nonce) =
          none := rfl
      rw [hnone]
      cases failure with
      | invalidGrant => exact .update hrow rfl rfl rfl
      | other => exact .update hrow rfl rfl rfl
  | ok response =>
      simp only [refreshTokenIssued, hunderWay, Option.bind_some, hmailbox, hrow,
        Option.any_some, phaseCStep]
      -- an answer that is not stored leaves the row as it is
      have hdropped : ∀ s' : EnsureState,
          (claim.current m && response.storable startedAt true) = false → s'.db = s.db →
          StepEffect settings request m (response.issues (some claim.refreshToken)
            (claim.current m && response.storable startedAt true)) s' := by
        intro s' hlost hdb
        refine ⟨m, by rw [hdb]; exact hrow, .kept rfl rfl ?_⟩
        intro i hi
        rw [hlost] at hi
        obtain ⟨-, -, hlanded⟩ := issues_eq_some.mp hi
        rw [hlanded, hstored, Bool.false_or, decide_eq_true_eq]
      split
      · rename_i hunstorable
        refine hdropped _ ?_ rfl
        cases hcurrent : claim.current m with
        | false => rfl
        | true =>
            rw [hcurrent] at hunstorable
            rw [hunstorable, Bool.and_false]
      · rename_i hstorable
        rw [Bool.not_eq_false] at hstorable
        have hstamped : (settings.completion nonce startedAt claim.refreshToken
            response).Stamped := completion_stamped
        have hcompleted := completeTokenRefresh_eq s.db claim hstamped
        rw [hmailbox, hrow, Option.any_some] at hcompleted
        cases hcurrent : claim.current m with
        | false =>
            rw [hcurrent, if_neg Bool.false_ne_true] at hcompleted
            rw [hcurrent] at hdropped
            rw [hcompleted]
            cases confirmCompletedTokenVersion s.db claim _ _ with
            | none => exact hdropped _ (Bool.false_and _) rfl
            | some version => exact hdropped _ (Bool.false_and _) rfl
        | true =>
            rw [hcurrent, if_pos rfl] at hcompleted
            rw [hcurrent] at hstorable
            rw [hcompleted, Bool.true_and, hstorable]
            refine ⟨_, updateMailbox_row hrow, ?_⟩
            rw [if_pos ⟨rfl, hcurrent⟩]
            exact rowEffect_completion hcipher hversion hstored

theorem effect_winner (hrow : s.db.mailboxes.get? request.mailboxId = some m) (retry : Bool)
    (seen : Option Mailbox) :
    StepEffect settings request m none (winnerStep settings request s retry seen) := by
  unfold winnerStep
  split
  · exact .same_db hrow rfl
  · exact .same_db hrow rfl
  · exact .same_db hrow rfl

theorem effect_reload (hrow : s.db.mailboxes.get? request.mailboxId = some m) (retry : Bool)
    (target : Option MailAccessChannel) :
    StepEffect settings request m none (reloadStep settings request s retry target) := by
  unfold reloadStep
  rw [hrow]
  dsimp only
  split
  · exact .same_db hrow rfl
  split
  · exact .same_db hrow rfl
  · exact .same_db hrow rfl

/-- What an event does with a call: it is its next step, or does not concern it, or
is the doing of others. -/
inductive CallMove (settings : TokenSettings) (request : EnsureRequest) (s : EnsureState) :
    ServiceEvent → EnsureState → Prop where
  | checkCache (answers : Option ProbeAnswers) (nonce : ℕ) :
      CallMove settings request s (.checkCache answers nonce)
        (checkCacheStep settings request s
          (probeResult settings request s (.checkCache answers nonce)) nonce)
  | claim (retry : Bool) (claimId : String) :
      CallMove settings request s (.claim claimId) (phaseAStep settings request s retry claimId)
  | exchange {retry : Bool} {target : Option MailAccessChannel} {claim : TokenRefreshClaim}
      {startedAt : ℕ} (answer : Except ExchangeFailure MicrosoftTokenResponse) (nonce : ℕ)
      (phase : s.phase = .exchanging retry target claim startedAt) :
      CallMove settings request s (.exchange answer nonce)
        (phaseCStep settings s retry target claim startedAt nonce answer)
  | readWinner (retry : Bool) (seen : Option Mailbox) :
      CallMove settings request s (.readWinner seen) (winnerStep settings request s retry seen)
  | readForProbe (retry : Bool) (target : Option MailAccessChannel) :
      CallMove settings request s .readForProbe (reloadStep settings request s retry target)
  | finishProbe {loaded : Mailbox} (answers : Option ProbeAnswers) (nonce : ℕ)
      (phase : s.phase = .probing loaded) :
      CallMove settings request s (.finishProbe answers nonce)
        (finishProbeStep settings s loaded
          (probeResult settings request s (.finishProbe answers nonce)) nonce)
  | others (db : Database) (now : ℕ) :
      CallMove settings request s (.others db now) { s with db, now }
  | stay (e : ServiceEvent) (unprobed : probedMailbox settings request s e = none)
      (idle : ∀ answer nonce, e = .exchange answer nonce → s.phase.underWay = none) :
      CallMove settings request s e s

/-- **What an event does.** -/
theorem callStep_move (e : ServiceEvent) :
    CallMove settings request s e (callStep settings request s e) := by
  cases e with
  | checkCache answers nonce =>
      cases hphase : s.phase
      case starting =>
        have hstep : callStep settings request s (.checkCache answers nonce) =
            checkCacheStep settings request s
              (probeResult settings request s (.checkCache answers nonce)) nonce := by
          simp only [callStep, ensureStep, hphase]
        rw [hstep]
        exact .checkCache answers nonce
      all_goals
        have hstep : callStep settings request s (.checkCache answers nonce) = s := by
          simp only [callStep, ensureStep, hphase]
        rw [hstep]
        exact .stay _ (by simp only [probedMailbox, hphase]) fun _ _ he => by cases he
  | claim claimId =>
      cases hphase : s.phase
      case claiming retry =>
        have hstep : callStep settings request s (.claim claimId) =
            phaseAStep settings request s retry claimId := by
          simp only [callStep, ensureStep, hphase]
        rw [hstep]
        exact .claim retry claimId
      all_goals
        have hstep : callStep settings request s (.claim claimId) = s := by
          simp only [callStep, ensureStep, hphase]
        rw [hstep]
        exact .stay _ rfl fun _ _ he => by cases he
  | exchange answer nonce =>
      cases hphase : s.phase
      case exchanging retry target claim startedAt =>
        have hstep : callStep settings request s (.exchange answer nonce) =
            phaseCStep settings s retry target claim startedAt nonce answer := by
          simp only [callStep, ensureStep, hphase]
        rw [hstep]
        exact .exchange answer nonce hphase
      all_goals
        have hstep : callStep settings request s (.exchange answer nonce) = s := by
          simp only [callStep, ensureStep, hphase]
        rw [hstep]
        exact .stay _ rfl fun _ _ _ => by rw [hphase]; rfl
  | readWinner seen =>
      cases hphase : s.phase
      case outrun retry =>
        have hstep : callStep settings request s (.readWinner seen) =
            winnerStep settings request s retry seen := by
          simp only [callStep, ensureStep, hphase]
        rw [hstep]
        exact .readWinner retry seen
      all_goals
        have hstep : callStep settings request s (.readWinner seen) = s := by
          simp only [callStep, ensureStep, hphase]
        rw [hstep]
        exact .stay _ rfl fun _ _ he => by cases he
  | readForProbe =>
      cases hphase : s.phase
      case refreshed retry target =>
        have hstep : callStep settings request s .readForProbe =
            reloadStep settings request s retry target := by
          simp only [callStep, ensureStep, hphase]
        rw [hstep]
        exact .readForProbe retry target
      all_goals
        have hstep : callStep settings request s .readForProbe = s := by
          simp only [callStep, ensureStep, hphase]
        rw [hstep]
        exact .stay _ rfl fun _ _ he => by cases he
  | finishProbe answers nonce =>
      cases hphase : s.phase
      case probing loaded =>
        have hstep : callStep settings request s (.finishProbe answers nonce) =
            finishProbeStep settings s loaded
              (probeResult settings request s (.finishProbe answers nonce)) nonce := by
          simp only [callStep, ensureStep, hphase]
        rw [hstep]
        exact .finishProbe answers nonce hphase
      all_goals
        have hstep : callStep settings request s (.finishProbe answers nonce) = s := by
          simp only [callStep, ensureStep, hphase]
        rw [hstep]
        exact .stay _ (by simp only [probedMailbox, hphase]) fun _ _ he => by cases he
  | others db now => exact .others db now

/-- **What a step does to the row.** -/
theorem effect_step (hcipher : settings.CipherRoundTrips) {s : ServiceState}
    (hrow : s.call.db.mailboxes.get? request.mailboxId = some m)
    (hholds : HoldsCurrent settings request s.call m) {e : ServiceEvent}
    (halone : NoOtherWriter request s e) :
    StepEffect settings request m (refreshTokenIssued settings request s.call e)
      (callStep settings request s.call e) := by
  have hmove : CallMove settings request s.call e (callStep settings request s.call e) :=
    callStep_move e
  generalize callStep settings request s.call e = s' at hmove ⊢
  cases hmove with
  | checkCache answers nonce => exact effect_checkCache hcipher hrow answers nonce
  | claim retry claimId => exact effect_phaseA hrow retry claimId
  | exchange answer nonce hphase => exact effect_phaseC hcipher hrow hholds hphase answer nonce
  | readWinner retry seen => exact effect_winner hrow retry seen
  | readForProbe retry target => exact effect_reload hrow retry target
  | finishProbe answers nonce hphase =>
      exact effect_finishProbe hcipher hrow hholds hphase answers nonce
  | others db now =>
      have hsame : (db.mailboxes.get? request.mailboxId).map
          (fun m => (m.refreshTokenCiphertext, m.tokenVersion)) =
            some (m.refreshTokenCiphertext, m.tokenVersion) := by
        have h : NoOtherWriter request s (.others db now) := halone
        unfold NoOtherWriter at h
        rw [h, hrow]
        rfl
      obtain ⟨m', hm', hrevision⟩ := Option.map_eq_some_iff.mp hsame
      obtain ⟨htoken, hversion⟩ := Prod.mk.inj hrevision
      exact ⟨m', hm', .quiet htoken hversion⟩
  | stay e hprobed hidle =>
      have hnone : refreshTokenIssued settings request s.call e = none := by
        unfold refreshTokenIssued
        split
        · rw [hidle _ _ rfl, Option.bind_none]
        · rw [hprobed, Option.bind_none]
      rw [hnone]
      exact .same_db hrow rfl

/-! ### What a call holds -/

def EnsurePhase.idle : EnsurePhase → Bool
  | .exchanging _ _ _ _ => false
  | .probing _ => false
  | _ => true

theorem HoldsCurrent.of_idle (h : s.phase.idle = true) : HoldsCurrent settings request s m where
  claim claim startedAt hclaim := by
    cases hphase : s.phase <;> rw [hphase] at h hclaim
    case exchanging => cases h
    all_goals cases hclaim
  loaded loaded hloaded := by
    rw [hloaded] at h
    cases h

theorem HoldsCurrent.of_exchanging {retry : Bool} {target : Option MailAccessChannel}
    {claim : TokenRefreshClaim} {startedAt : ℕ}
    (hphase : s.phase = .exchanging retry target claim startedAt)
    (hmailbox : claim.mailboxId = request.mailboxId)
    (hversion : m.tokenVersion = claim.expectedTokenVersion)
    (hstored : settings.storedRefreshToken m = some claim.refreshToken) :
    HoldsCurrent settings request s m where
  claim claim' startedAt' hclaim := by
    rw [hphase] at hclaim
    obtain ⟨rfl, -⟩ := Prod.mk.inj (Option.some.inj hclaim)
    exact ⟨hmailbox, hversion, hstored⟩
  loaded loaded hloaded := by
    rw [hphase] at hloaded
    cases hloaded

theorem HoldsCurrent.congr {s' : EnsureState} {m' : Mailbox}
    (h : HoldsCurrent settings request s m) (hphase : s'.phase = s.phase)
    (htoken : m'.refreshTokenCiphertext = m.refreshTokenCiphertext)
    (hversion : m'.tokenVersion = m.tokenVersion) : HoldsCurrent settings request s' m' where
  claim claim startedAt hclaim := by
    rw [hphase] at hclaim
    rw [hversion, storedRefreshToken_congr htoken]
    exact h.claim claim startedAt hclaim
  loaded loaded hloaded := by
    rw [hphase] at hloaded
    rw [htoken]
    exact h.loaded loaded hloaded

theorem claimTokenRefresh_stored {db db' : Database} {now ttl : ℕ} {claimId mailboxId : String}
    {skip : Bool} {claim : TokenRefreshClaim}
    (hrow : db.mailboxes.get? mailboxId = some m)
    (h : claimTokenRefresh db now claimId mailboxId settings.decrypt ttl skip =
      .ok (claim, db')) :
    settings.storedRefreshToken m = some claim.refreshToken := by
  obtain ⟨row, hget, -, -, -, -, hdecrypt, -, -⟩ := claimTokenRefresh_ok h
  rw [hrow] at hget
  obtain rfl := Option.some.inj hget
  have hpresent : missing m.refreshTokenCiphertext = false := by
    unfold claimTokenRefresh at h
    rw [hrow] at h
    dsimp only at h
    split at h
    · cases h
    split at h
    · cases h
    · rename_i hcredentials
      rw [Bool.or_eq_true, not_or, Bool.not_eq_true, Bool.not_eq_true] at hcredentials
      exact hcredentials.2
  unfold TokenSettings.storedRefreshToken
  rw [hpresent, hdecrypt]
  rfl

theorem holdsCurrent_phaseA {m' : Mailbox}
    (hrow : s.db.mailboxes.get? request.mailboxId = some m) {retry : Bool} {claimId : String}
    (htoken : m'.refreshTokenCiphertext = m.refreshTokenCiphertext)
    (hversion : m'.tokenVersion = m.tokenVersion) :
    HoldsCurrent settings request (phaseAStep settings request s retry claimId) m' := by
  unfold phaseAStep
  rw [hrow]
  dsimp only
  split
  · exact .of_idle rfl
  split
  · exact .of_idle rfl
  · exact .of_idle rfl
  · split
    · rename_i claim db' hok
      have hstored := claimTokenRefresh_stored hrow hok
      obtain ⟨row, hget, -, hmailbox, -, hexpected, -, -, -⟩ := claimTokenRefresh_ok hok
      rw [hrow] at hget
      obtain rfl := Option.some.inj hget
      exact .of_exchanging rfl hmailbox (hversion.trans hexpected.symm)
        ((storedRefreshToken_congr htoken).trans hstored)
    · split
      · exact .of_idle rfl
      · exact .of_idle rfl
    · exact .of_idle rfl

theorem holdsCurrent_reload {m' : Mailbox}
    (hrow : s.db.mailboxes.get? request.mailboxId = some m) {retry : Bool}
    {target : Option MailAccessChannel}
    (htoken : m'.refreshTokenCiphertext = m.refreshTokenCiphertext) :
    HoldsCurrent settings request (reloadStep settings request s retry target) m' := by
  unfold reloadStep
  rw [hrow]
  dsimp only
  split
  · exact .of_idle rfl
  split
  · refine ⟨nofun, ?_⟩
    intro loaded hloaded
    obtain rfl := EnsurePhase.probing.inj hloaded
    exact ⟨Table.key_of_get? hrow, htoken⟩
  · exact .of_idle rfl

theorem checkCacheStep_idle {probe : Option CapabilityProbeResult} {nonce : ℕ} :
    (checkCacheStep settings request s probe nonce).phase.idle = true := by
  unfold checkCacheStep
  split
  · rfl
  split
  · rfl
  · split
    · rfl
    · dsimp only
      split
      · rfl
      · rfl
      · split
        · rfl
        · split <;> rfl

theorem phaseCStep_idle {retry : Bool} {target : Option MailAccessChannel}
    {claim : TokenRefreshClaim} {startedAt nonce : ℕ}
    {answer : Except ExchangeFailure MicrosoftTokenResponse} :
    (phaseCStep settings s retry target claim startedAt nonce answer).phase.idle = true := by
  unfold phaseCStep
  split
  · rfl
  · rfl
  · dsimp only
    split
    · rfl
    · split <;> rfl

theorem winnerStep_idle {retry : Bool} {seen : Option Mailbox} :
    (winnerStep settings request s retry seen).phase.idle = true := by
  unfold winnerStep
  split <;> rfl

theorem finishProbeStep_idle {loaded : Mailbox} {probe : Option CapabilityProbeResult}
    {nonce : ℕ} : (finishProbeStep settings s loaded probe nonce).phase.idle = true := by
  unfold finishProbeStep
  split <;> rfl

/-- **What a call holds stays current.** -/
theorem holdsCurrent_step {m' : Mailbox} {e : ServiceEvent}
    (hrow : s.db.mailboxes.get? request.mailboxId = some m)
    (hholds : HoldsCurrent settings request s m)
    (heffect : RowEffect settings m m' (refreshTokenIssued settings request s e))
    (hrow' : (callStep settings request s e).db.mailboxes.get? request.mailboxId = some m') :
    HoldsCurrent settings request (callStep settings request s e) m' := by
  have hmove : CallMove settings request s e (callStep settings request s e) :=
    callStep_move e
  generalize callStep settings request s e = s' at hmove hrow' ⊢
  cases hmove with
  | checkCache answers nonce => exact .of_idle checkCacheStep_idle
  | claim retry claimId =>
      obtain ⟨htoken, hversion⟩ := RowEffect.same heffect
      exact holdsCurrent_phaseA hrow htoken hversion
  | exchange answer nonce hphase => exact .of_idle phaseCStep_idle
  | readWinner retry seen => exact .of_idle winnerStep_idle
  | readForProbe retry target => exact holdsCurrent_reload hrow (RowEffect.same heffect).1
  | finishProbe answers nonce hphase => exact .of_idle finishProbeStep_idle
  | others db now =>
      obtain ⟨htoken, hversion⟩ := RowEffect.same heffect
      exact hholds.congr rfl htoken hversion
  | stay e hprobed hidle =>
      rw [hrow] at hrow'
      obtain rfl := Option.some.inj hrow'
      exact hholds

/-! ## Every run -/

/-- The invariant: the version has moved with every change, and the refresh token
that was issued last is the stored one exactly if it has landed. -/
structure TracksIssued (settings : TokenSettings) (request : EnsureRequest) (before : Mailbox)
    (s : ServiceState) (m : Mailbox) : Prop where
  row : s.call.db.mailboxes.get? request.mailboxId = some m
  holds : HoldsCurrent settings request s.call m
  version : m.tokenVersion = before.tokenVersion + s.changes
  untouched : s.issued = none → m.refreshTokenCiphertext = before.refreshTokenCiphertext
  exact : ∀ i : IssuedRefreshToken, s.issued = some i →
    (settings.storedRefreshToken m = some i.refreshToken ↔ i.landed = true)

/-- **Step lemma.** -/
theorem tracksIssued_step (hcipher : settings.CipherRoundTrips) {before : Mailbox}
    {s : ServiceState} (h : TracksIssued settings request before s m) {e : ServiceEvent}
    (halone : NoOtherWriter request s e) :
    ∃ m', TracksIssued settings request before (serviceStep settings request s e) m' := by
  obtain ⟨m', hrow', heffect⟩ := effect_step hcipher h.row h.holds halone
  have hholds := holdsCurrent_step h.row h.holds heffect hrow'
  have hcompare : (callStep settings request s.call e).db.refreshTokenOf request.mailboxId =
      s.call.db.refreshTokenOf request.mailboxId ↔
        m'.refreshTokenCiphertext = m.refreshTokenCiphertext := by
    unfold Database.refreshTokenOf
    rw [hrow', h.row, Option.map_some, Option.map_some, Option.some.injEq]
  cases heffect with
  | kept token version exact =>
      refine ⟨m', hrow', hholds, ?_, ?_, ?_⟩
      · simp only [serviceStep, hcompare.mpr token, if_true]
        rw [version]
        exact h.version
      · intro hnone
        obtain ⟨-, hbefore⟩ := Option.or_eq_none_iff.mp hnone
        rw [token]
        exact h.untouched hbefore
      · intro i hi
        rw [storedRefreshToken_congr token]
        cases hissue : refreshTokenIssued settings request s.call e with
        | none =>
            simp only [serviceStep, hissue, Option.none_or] at hi
            exact h.exact i hi
        | some issue =>
            simp only [serviceStep, hissue, Option.some_or, Option.some.injEq] at hi
            exact exact i (hissue.trans (congrArg some hi))
  | stored refreshToken issued token version holds =>
      refine ⟨m', hrow', hholds, ?_, ?_, ?_⟩
      · simp only [serviceStep, hcompare, token, if_false]
        rw [version, h.version, Nat.add_assoc]
      · intro hnone
        simp only [serviceStep, issued, Option.some_or, reduceCtorEq] at hnone
      · intro i hi
        simp only [serviceStep, issued, Option.some_or, Option.some.injEq] at hi
        rw [← hi]
        exact iff_of_true holds rfl

theorem tracksIssued_start {db : Database} {now : ℕ}
    (hrow : db.mailboxes.get? request.mailboxId = some m) :
    TracksIssued settings request m (.start db now) m where
  row := hrow
  holds := .of_idle rfl
  version := rfl
  untouched _ := rfl
  exact := nofun

/-- **The last refresh token is stored if and only if it has landed.** In a call
with no other writer, an exchange lands what it brings if its claim is still
current, and a probe if the second Graph probe works. -/
theorem rotated_refresh_token_stored_iff (settings : TokenSettings)
    (hcipher : settings.CipherRoundTrips) (request : EnsureRequest) (db : Database) (now : ℕ)
    {before : Mailbox} (hrow : db.mailboxes.get? request.mailboxId = some before)
    (events : List ServiceEvent)
    (halone : Meets (serviceStep settings request) (NoOtherWriter request) (.start db now)
      events) :
    StoresLastIssued settings request before
        (exec (serviceStep settings request) (.start db now) events) ↔
      (exec (serviceStep settings request) (.start db now) events).LastLanded := by
  have htracks : ∃ m, TracksIssued settings request before
      (exec (serviceStep settings request) (.start db now) events) m := by
    refine exec_invariant_of_meets
      (P := fun s => ∃ m, TracksIssued settings request before s m) ?_
      ⟨before, tracksIssued_start hrow⟩ halone
    rintro s e ⟨m, h⟩ hok
    exact tracksIssued_step hcipher h hok
  obtain ⟨m, h⟩ := htracks
  constructor
  · rintro ⟨m', hm', -, -, hstored⟩ i hi
    rw [h.row] at hm'
    obtain rfl := Option.some.inj hm'
    exact (h.exact i hi).mp (hstored i hi)
  · intro hlanded
    refine ⟨m, h.row, h.version, h.untouched, ?_⟩
    intro i hi
    exact (h.exact i hi).mpr (hlanded i hi)

end

/-! ## A refresh token that comes with the Graph audience -/

section Sample

attribute [local instance] asciiPlatform

def sampleServiceStep : ServiceState → ServiceEvent → ServiceState :=
  serviceStep sampleTokenSettings { mailboxId := "mailbox" }

/-- IMAP and Graph refuse the token of the refresh, and the exchange for the Graph
audience brings another refresh token. The second Graph probe gets `status`. -/
def reaudienceEvents (status : ℕ) : List ServiceEvent :=
  [.checkCache none 65, .claim "first",
    .exchange (.ok (sampleAnswer "outlook" "https://outlook.office.com/" none)) 66,
    .readForProbe,
    .finishProbe
      (some
        { imap := .error (.authOrProtocol "AUTHENTICATE failed")
          graph := { first := .responded 401 }
          reaudience := .ok (sampleAnswer "graph" "https://graph.microsoft.com/Mail.Read"
            (some "rotated"))
          graphAgain := { first := .responded status } }) 68]

theorem rotated_refresh_token_stored_sample :
    StoresLastIssued sampleTokenSettings { mailboxId := "mailbox" }
        { id := "mailbox", primaryEmail := "a@x.org", clientId := some "app"
          refreshTokenCiphertext := some "@first" }
        (exec sampleServiceStep (.start tokenDatabase 0) (reaudienceEvents 200)) ∧
      (exec sampleServiceStep (.start tokenDatabase 0) (reaudienceEvents 200)).call.phase =
        .returned ∧
      (exec sampleServiceStep (.start tokenDatabase 0) (reaudienceEvents 200)).changes = 1 := by
  have hissued : (exec sampleServiceStep (.start tokenDatabase 0)
      (reaudienceEvents 200)).issued = some ⟨"rotated", true⟩ := by decide +kernel
  refine ⟨?_, by decide +kernel, by decide +kernel⟩
  refine (rotated_refresh_token_stored_iff sampleTokenSettings sampleCipher_roundTrips
    { mailboxId := "mailbox" } tokenDatabase 0 (by decide +kernel) (reaudienceEvents 200)
    ⟨trivial, trivial, trivial, trivial, trivial, trivial⟩).mpr ?_
  intro i hi
  have hsame : some (IssuedRefreshToken.mk "rotated" true) = some i := hissued.symm.trans hi
  rw [← Option.some.inj hsame]

/-- **The refresh token is lost with the access token that it came with**: the call
returns, and the mailbox has the refresh token from before. -/
theorem reaudience_loses_refresh_token :
    Meets sampleServiceStep (NoOtherWriter { mailboxId := "mailbox" })
        (.start tokenDatabase 0) (reaudienceEvents 403) ∧
      (exec sampleServiceStep (.start tokenDatabase 0) (reaudienceEvents 403)).call.phase =
        .returned ∧
      (exec sampleServiceStep (.start tokenDatabase 0) (reaudienceEvents 403)).issued =
        some ⟨"rotated", false⟩ ∧
      ¬ StoresLastIssued sampleTokenSettings { mailboxId := "mailbox" }
        { id := "mailbox", primaryEmail := "a@x.org", clientId := some "app"
          refreshTokenCiphertext := some "@first" }
        (exec sampleServiceStep (.start tokenDatabase 0) (reaudienceEvents 403)) := by
  have hissued : (exec sampleServiceStep (.start tokenDatabase 0)
      (reaudienceEvents 403)).issued = some ⟨"rotated", false⟩ := by decide +kernel
  have hstored : ((exec sampleServiceStep (.start tokenDatabase 0)
      (reaudienceEvents 403)).call.db.mailboxes.get? "mailbox").bind
        sampleTokenSettings.storedRefreshToken = some "first" := by decide +kernel
  refine ⟨⟨trivial, trivial, trivial, trivial, trivial, trivial⟩, by decide +kernel,
    hissued, ?_⟩
  rintro ⟨m, hm, -, -, hlast⟩
  have hrotated := hlast _ hissued
  rw [hm, Option.bind_some, hrotated] at hstored
  exact absurd hstored (by decide)

end Sample

end MailboxService
