import MailboxService.TokenService.ClientTokens

/-!
# Which refresh token a cached access token belongs to

`access_token_source_version` names the revision of the refresh token that the
cached access token came from, and the token is usable only while this is the
current revision. Every writer but one sets both together. The flush of a probe
writes its access token, but not a source version that the loaded row had
already; when the row has moved on, the token gets the source version of another
one.
-/

namespace MailboxService

open Foundation

section

variable [Platform]

/-- **Bound tokens**: every usable access token came from an exchange of the
refresh token that is stored, or together with it. -/
def AccessTokensBound (settings : TokenSettings) (s : TokenShared) : Prop :=
  ∀ m ∈ s.db.mailboxes, settings.hasUsableCachedAccessToken s.now m = true →
    ∃ ciphertext, m.accessTokenCiphertext = some ciphertext ∧
      ⟨m.id, ciphertext, m.tokenVersion⟩ ∈ s.origins

/-- The nonces of an encryption are not those of the texts in the row. -/
def TokenSettings.Unused (settings : TokenSettings) (nonce : ℕ) (m : Mailbox) : Prop :=
  ∀ text, m.accessTokenCiphertext ≠ some (settings.encrypt nonce text) ∧
    m.refreshTokenCiphertext ≠ some (settings.encrypt (nonce + 1) text)

structure DrawsUnusedNonces (settings : TokenSettings) (s : TokenShared) (x : TokenWorker)
    (a : TokenAction) : Prop where
  probe : ∀ loaded clientWrites result nonce, x = .probing loaded clientWrites →
    a = .finishProbe result nonce → settings.Unused nonce loaded
  cached : ∀ request result nonce loaded, a = .probeCached request result nonce →
    s.db.mailboxes.get? request.mailboxId = some loaded → settings.Unused nonce loaded

/-- No probe stores an access token without a refresh token of its own in a
newer revision of the row, when the source version of the row that it has read
and of the row that it finds are both up to date. -/
def ProbesNotOutrun (settings : TokenSettings) (s : TokenShared) (x : TokenWorker)
    (a : TokenAction) : Prop :=
  ∀ loaded clientWrites result nonce current, x = .probing loaded clientWrites →
    a = .finishProbe result nonce → (settings.replacement loaded result).isSome = true →
    settings.rotates loaded result = false →
    s.db.mailboxes.get? loaded.id = some current →
    loaded.accessTokenSourceVersion = some loaded.tokenVersion →
    current.accessTokenSourceVersion = some current.tokenVersion →
    current.tokenVersion = loaded.tokenVersion

end

/-! ## Rows -/

/-- The source version of a row is none that is still to come, and the row's
access token came from it if it is the current one. -/
structure Mailbox.BoundIn (m : Mailbox) (origins : List AccessTokenOrigin) : Prop where
  le : ∀ v, m.accessTokenSourceVersion = some v → v ≤ m.tokenVersion
  bound : m.accessTokenSourceVersion = some m.tokenVersion →
    ∀ ciphertext, m.accessTokenCiphertext = some ciphertext →
      ⟨m.id, ciphertext, m.tokenVersion⟩ ∈ origins

theorem Mailbox.BoundIn.mono {m : Mailbox} {origins known : List AccessTokenOrigin}
    (h : m.BoundIn known) : m.BoundIn (origins ++ known) := by
  refine ⟨h.le, ?_⟩
  intro hsource ciphertext hciphertext
  exact List.mem_append_right _ (h.bound hsource ciphertext hciphertext)

theorem Mailbox.BoundIn.of_eq {m m' : Mailbox} {origins : List AccessTokenOrigin}
    (h : m.BoundIn origins) (hid : m'.id = m.id)
    (htoken : m'.accessTokenCiphertext = m.accessTokenCiphertext)
    (hsource : m'.accessTokenSourceVersion = m.accessTokenSourceVersion)
    (hversion : m'.tokenVersion = m.tokenVersion) : m'.BoundIn origins := by
  constructor
  · rw [hsource, hversion]
    exact h.le
  · rw [hid, htoken, hsource, hversion]
    exact h.bound

theorem Mailbox.boundIn_of_lt {m : Mailbox} {origins : List AccessTokenOrigin}
    (h : ∀ v, m.accessTokenSourceVersion = some v → v < m.tokenVersion) :
    m.BoundIn origins := by
  constructor
  · intro v hv
    exact (h v hv).le
  · intro hsource
    exact absurd (h _ hsource) (lt_irrefl _)

theorem Mailbox.boundIn_of_mem {m : Mailbox} {origins : List AccessTokenOrigin}
    {ciphertext : String} {v : ℕ} (htoken : m.accessTokenCiphertext = some ciphertext)
    (hsource : m.accessTokenSourceVersion = some v) (hle : v ≤ m.tokenVersion)
    (hmem : v = m.tokenVersion → ⟨m.id, ciphertext, m.tokenVersion⟩ ∈ origins) :
    m.BoundIn origins := by
  constructor
  · intro v' hv'
    rw [hsource] at hv'
    cases hv'
    exact hle
  · intro hcurrent c hc
    rw [htoken] at hc
    cases hc
    rw [hsource] at hcurrent
    exact hmem (Option.some.inj hcurrent)

/-! ## What a probe binds -/

/-- The instance of a probe has the tokens that were loaded. -/
structure Mailbox.SameTokens (loaded assigned : Mailbox) : Prop where
  version : assigned.tokenVersion = loaded.tokenVersion
  accessToken : assigned.accessTokenCiphertext = loaded.accessTokenCiphertext
  source : assigned.accessTokenSourceVersion = loaded.accessTokenSourceVersion
  refreshToken : assigned.refreshTokenCiphertext = loaded.refreshTokenCiphertext

theorem persistScopeIfMissing_sameTokens {settings : TokenSettings} {now : ℕ}
    {accessToken : String} {m : Mailbox} :
    m.SameTokens (settings.persistScopeIfMissing now accessToken m) := by
  unfold TokenSettings.persistScopeIfMissing
  split <;> exact ⟨rfl, rfl, rfl, rfl⟩

/-- **Probe lemma**: the row that a probe leaves is bound, if the probe is not
outrun. -/
theorem writeProbe_boundIn {settings : TokenSettings} {now nonce : ℕ}
    {loaded assigned current : Mailbox} {result : CapabilityProbeResult}
    {origins : List AccessTokenOrigin} (hassigned : loaded.SameTokens assigned)
    (hcurrent : current.BoundIn origins) (hle : loaded.tokenVersion ≤ current.tokenVersion)
    (hunused : settings.Unused nonce loaded)
    (hmoved : (settings.replacement assigned result).isSome = true →
      settings.rotates assigned result = false →
      loaded.accessTokenSourceVersion = some loaded.tokenVersion →
      current.accessTokenSourceVersion = some current.tokenVersion →
      current.tokenVersion = loaded.tokenVersion) :
    (settings.writeProbe now nonce loaded assigned result current).BoundIn
      (probeOrigins settings nonce loaded assigned current result ++ origins) := by
  unfold TokenSettings.writeProbe probeOrigins
  cases hreplacement : settings.replacement assigned result with
  | none =>
      refine hcurrent.mono.of_eq rfl ?_ ?_ rfl
      · show flushColumn _ assigned.accessTokenCiphertext _ = _
        rw [hassigned.accessToken, flushColumn_unassigned]
      · show flushColumn _ assigned.accessTokenSourceVersion _ = _
        rw [hassigned.source, flushColumn_unassigned]
  | some r =>
      have htoken : flushColumn loaded.accessTokenCiphertext
          (some (settings.encrypt nonce r.accessToken)) current.accessTokenCiphertext =
            some (settings.encrypt nonce r.accessToken) :=
        flushColumn_of_ne (hunused _).1.symm _
      cases hrotated : settings.rotatedRefreshToken assigned r with
      | none =>
          have hrotates : settings.rotates assigned result = false := by
            unfold TokenSettings.rotates
            rw [hreplacement, Option.any_some, hrotated]
            rfl
          simp only [hrotated]
          have horigin : current.tokenVersion = loaded.tokenVersion →
              ⟨current.id, settings.encrypt nonce r.accessToken, current.tokenVersion⟩ ∈
                [AccessTokenOrigin.mk current.id (settings.encrypt nonce r.accessToken)
                  assigned.tokenVersion] ++ origins := by
            intro hsame
            rw [hsame, hassigned.version]
            exact List.mem_cons_self
          by_cases hsource : loaded.accessTokenSourceVersion = some loaded.tokenVersion
          · -- the source version is not written
            have hkept : flushColumn loaded.accessTokenSourceVersion
                (some assigned.tokenVersion) current.accessTokenSourceVersion =
                  current.accessTokenSourceVersion := by
              rw [hassigned.version, ← hsource, flushColumn_unassigned]
            constructor
            · intro v hv
              exact hcurrent.le v (hkept.symm.trans hv)
            · intro hbound ciphertext hciphertext
              have hnew := htoken.symm.trans hciphertext
              cases hnew
              exact horigin (hmoved (by rw [hreplacement]; rfl) hrotates hsource
                (hkept.symm.trans hbound))
          · have hwritten : flushColumn loaded.accessTokenSourceVersion
                (some assigned.tokenVersion) current.accessTokenSourceVersion =
                  some loaded.tokenVersion := by
              rw [hassigned.version]
              exact flushColumn_of_ne (Ne.symm hsource) _
            exact Mailbox.boundIn_of_mem htoken hwritten hle fun heq => horigin heq.symm
      | some refreshToken =>
          simp only [hrotated, if_neg (hunused refreshToken).2]
          refine Mailbox.boundIn_of_mem ((flushColumn_current _ _).trans htoken)
            (flushColumn_current _ _) le_rfl ?_
          intro _
          exact List.mem_append_left _ (List.mem_cons_of_mem _ List.mem_cons_self)

/-! ## Every step -/

section

variable [Platform]

def OriginsKnown (s : TokenShared) : Prop :=
  ∀ k m, s.db.mailboxes.get? k = some m → m.BoundIn s.origins

theorem boundIn_update {db : Database} {mailboxId : String} {q : Mailbox → Bool}
    {f : MailboxAssignment} {known : List AccessTokenOrigin}
    (origins : List AccessTokenOrigin) (h : ∀ k m, db.mailboxes.get? k = some m → m.BoundIn known)
    (hset : ∀ m, db.mailboxes.get? mailboxId = some m → q m = true →
      (f.set m).BoundIn (origins ++ known)) (k : String) (m' : Mailbox)
    (hm' : (db.updateMailbox mailboxId q f).db.mailboxes.get? k = some m') :
    m'.BoundIn (origins ++ known) := by
  by_cases hk : k = mailboxId
  · subst hk
    rw [updateMailbox_get?, Option.map_eq_some_iff] at hm'
    obtain ⟨m, hm, rfl⟩ := hm'
    split
    · rename_i hq
      exact hset m hm hq
    · exact (h k m hm).mono
  · rw [updateMailbox_get?_ne hk] at hm'
    exact (h k m' hm').mono

theorem originsKnown_same {s : TokenShared} {mailboxId : String} {q : Mailbox → Bool}
    {f : MailboxAssignment} (h : OriginsKnown s)
    (hset : ∀ m : Mailbox, (f.set m).accessTokenCiphertext = m.accessTokenCiphertext ∧
      (f.set m).accessTokenSourceVersion = m.accessTokenSourceVersion ∧
      (f.set m).tokenVersion = m.tokenVersion) :
    OriginsKnown (s.commit (s.db.updateMailbox mailboxId q f).db) := by
  refine boundIn_update [] h ?_
  intro m hm _
  obtain ⟨htoken, hsource, hversion⟩ := hset m
  exact (h mailboxId m hm).of_eq (f.keeps_id m) htoken hsource hversion

theorem originsKnown_outdated {s : TokenShared} {mailboxId : String} {q : Mailbox → Bool}
    {f : MailboxAssignment} (h : OriginsKnown s)
    (hset : ∀ m : Mailbox, q m = true → m.tokenVersion < (f.set m).tokenVersion ∧
      ((f.set m).accessTokenSourceVersion = none ∨
        (f.set m).accessTokenSourceVersion = m.accessTokenSourceVersion)) :
    OriginsKnown (s.commit (s.db.updateMailbox mailboxId q f).db) := by
  refine boundIn_update [] h ?_
  intro m hm hq
  obtain ⟨hlt, hsource⟩ := hset m hq
  apply Mailbox.boundIn_of_lt
  intro v hv
  rcases hsource with hnone | hsame
  · rw [hnone] at hv
    cases hv
  · exact ((h mailboxId m hm).le v (hsame.symm.trans hv)).trans_lt hlt

omit [Platform] in
theorem assignRefreshToken_source {w : RefreshTokenWrite} {version : Mailbox → ℕ}
    {m : Mailbox} :
    ((assignRefreshToken w version).set m).accessTokenSourceVersion = none ∨
      ((assignRefreshToken w version).set m).accessTokenSourceVersion =
        m.accessTokenSourceVersion := by
  unfold assignRefreshToken
  dsimp only
  split
  · exact Or.inl rfl
  · exact Or.inr rfl

theorem originsKnown_complete {s : TokenShared} {db : Database} {claim : TokenRefreshClaim}
    {c : RefreshCompletion} {v : Option ℕ} (h : OriginsKnown s)
    (hcomplete : completeTokenRefresh s.db claim c = .ok (v, db)) :
    OriginsKnown ((s.commit db).note
      (claim.origins c ((s.db.mailboxes.get? claim.mailboxId).any claim.current))) := by
  have hcurrent : ∀ m, claim.current m = true →
      m.tokenVersion = claim.expectedTokenVersion := by
    intro m hm
    simp only [TokenRefreshClaim.current, Bool.and_eq_true, decide_eq_true_eq] at hm
    exact hm.1
  rcases completeTokenRefresh_ok hcomplete with
    ⟨hrotated, -, -, encrypted, -, rfl⟩ | ⟨hrotated, rfl⟩
  · refine boundIn_update _ h ?_
    intro m hm hq
    refine Mailbox.boundIn_of_mem rfl rfl le_rfl ?_
    intro _
    have hid : m.id = claim.mailboxId := Table.key_of_get? hm
    apply List.mem_append_left
    unfold TokenRefreshClaim.origins
    rw [hrotated, hm, Option.any_some, hq]
    show AccessTokenOrigin.mk m.id _ _ ∈ _
    rw [hid]
    exact List.mem_cons_of_mem _ List.mem_cons_self
  · refine boundIn_update _ h ?_
    intro m hm hq
    refine Mailbox.boundIn_of_mem rfl rfl (hcurrent m hq).ge ?_
    intro hversion
    have hid : m.id = claim.mailboxId := Table.key_of_get? hm
    apply List.mem_append_left
    unfold TokenRefreshClaim.origins
    rw [hrotated, Bool.false_and]
    show AccessTokenOrigin.mk m.id _ m.tokenVersion ∈ _
    rw [hid, hcurrent m hq]
    exact List.mem_cons_self

theorem originsKnown_probe {settings : TokenSettings} {s : TokenShared} {nonce : ℕ}
    {loaded assigned : Mailbox} {result : CapabilityProbeResult} (h : OriginsKnown s)
    (hassigned : loaded.SameTokens assigned) (hunused : settings.Unused nonce loaded)
    (hle : ∀ current, s.db.mailboxes.get? loaded.id = some current →
      loaded.tokenVersion ≤ current.tokenVersion)
    (hmoved : ∀ current, s.db.mailboxes.get? loaded.id = some current →
      (settings.replacement assigned result).isSome = true →
      settings.rotates assigned result = false →
      loaded.accessTokenSourceVersion = some loaded.tokenVersion →
      current.accessTokenSourceVersion = some current.tokenVersion →
      current.tokenVersion = loaded.tokenVersion) :
    OriginsKnown (probeStep settings s nonce loaded assigned result) := by
  unfold probeStep
  cases hcurrent : s.db.mailboxes.get? loaded.id with
  | none => exact h
  | some current =>
      refine boundIn_update _ h ?_
      intro m hm _
      rw [hcurrent] at hm
      cases hm
      exact writeProbe_boundIn hassigned (h _ _ hcurrent) (hle current hcurrent) hunused
        (hmoved current hcurrent)

theorem originsKnown_import {settings : TokenSettings} {s : TokenShared}
    {item : MailboxImportItem} {nonce : ℕ} {loaded : Mailbox} (h : OriginsKnown s) :
    OriginsKnown (importStep settings s item nonce loaded) := by
  have hwrite : OriginsKnown (s.commit (s.db.writeMailbox loaded.id
      (assignImported settings s.now nonce item loaded))) := by
    refine originsKnown_outdated h ?_
    intro m _
    refine ⟨Nat.lt_succ_self _, ?_⟩
    show flushColumn loaded.accessTokenSourceVersion none m.accessTokenSourceVersion = none ∨
      flushColumn loaded.accessTokenSourceVersion none m.accessTokenSourceVersion = _
    exact (flushColumn_eq _ _ _).symm
  unfold importStep
  split
  · exact hwrite
  split
  · -- the released leases are none of the row
    exact hwrite
  · exact h

/-- **Step lemma**: every row stays bound, unless a probe is outrun. -/
theorem originsKnown_step {settings : TokenSettings} {s : TokenShared} {x : TokenWorker}
    {a : TokenAction} (h : OriginsKnown s) (hlink : ClientLink settings x s)
    (hunused : DrawsUnusedNonces settings s x a) (hok : ProbesNotOutrun settings s x a) :
    OriginsKnown (tokenAct settings s x a).2 := by
  cases a with
  | claim request claimId =>
      cases x with
      | idle =>
          simp only [tokenAct, claimStep]
          split
          · exact h
          split
          · exact h
          split
          · exact h
          · exact h
          split
          · exact h
          · rename_i claim db hclaim
            obtain ⟨-, -, -, -, -, -, -, -, rfl⟩ := claimTokenRefresh_ok hclaim
            exact originsKnown_same h fun _ => ⟨rfl, rfl, rfl⟩
      | _ => exact h
  | exchange answer nonce =>
      cases x with
      | exchanging request target claim startedAt =>
          rcases answer with (_ | _) | response
          · exact originsKnown_same h fun _ => ⟨rfl, rfl, rfl⟩
          · exact originsKnown_same h fun _ => ⟨rfl, rfl, rfl⟩
          · simp only [tokenAct, exchangeStep]
            split
            · exact h
            · rename_i hcomplete
              exact originsKnown_complete h hcomplete
      | _ => exact h
  | readForProbe => cases x <;> exact h
  | finishProbe result nonce =>
      cases x with
      | probing loaded clientWrites =>
          obtain ⟨-, -, m, hm, hle, -⟩ := hlink.worker
          refine originsKnown_probe h ⟨rfl, rfl, rfl, rfl⟩
            (hunused.probe loaded clientWrites result nonce rfl rfl) ?_ ?_
          · intro current hcurrent
            rw [hm] at hcurrent
            cases hcurrent
            exact hle
          · intro current hcurrent hreplacement hrotates
            exact hok loaded clientWrites result nonce current rfl rfl hreplacement hrotates
              hcurrent
      | _ => exact h
  | probeCached request result nonce =>
      cases x with
      | idle =>
          simp only [tokenAct, probeCachedStep]
          split
          · exact h
          rename_i loaded hloaded
          split
          · exact h
          split
          · exact h
          · exact h
          · have hid : loaded.id = request.mailboxId := Table.key_of_get? hloaded
            -- the row is locked, so it is the one that was read
            have hlocked : ∀ current, s.db.mailboxes.get? loaded.id = some current →
                current = loaded := by
              intro current hcurrent
              rw [hid, hloaded] at hcurrent
              exact (Option.some.inj hcurrent).symm
            refine originsKnown_probe h persistScopeIfMissing_sameTokens
              (hunused.cached request result nonce loaded rfl hloaded) ?_ ?_
            · intro current hcurrent
              rw [hlocked current hcurrent]
            · intro current hcurrent _ _ _ _
              rw [hlocked current hcurrent]
      | _ => exact h
  | abandon => exact h
  | updateRefreshToken principal leaseId expectedTokenVersion refreshToken nonce =>
      simp only [tokenAct, updateRefreshTokenStep]
      split
      · rename_i e db hrun
        rw [Work.transact_error hrun]
        exact h
      · rename_i result db hrun
        rcases updateRefreshToken_transact hrun with
          ⟨hupdated, rfl⟩ | ⟨hupdated, mailbox, -, -, -, rfl⟩
        · rw [hupdated]
          exact h
        · rw [if_pos hupdated]
          exact originsKnown_outdated h fun m _ => ⟨Nat.lt_succ_self _, Or.inr rfl⟩
  | compareAndSwap mailboxId expectedTokenVersion w =>
      simp only [tokenAct]
      rcases hok : compareAndSwapRefreshToken s.db mailboxId expectedTokenVersion w with
        e | ⟨v, db⟩
      · exact h
      · rw [(compareAndSwapRefreshToken_ok hok).2]
        refine originsKnown_outdated h ?_
        intro m hq
        refine ⟨?_, assignRefreshToken_source⟩
        have hversion : m.tokenVersion = expectedTokenVersion := of_decide_eq_true hq
        show m.tokenVersion < expectedTokenVersion + 1
        omega
  | increment mailboxId w =>
      simp only [tokenAct]
      rcases hok : incrementTokenVersionUnderLock s.db mailboxId w with e | ⟨v, db⟩
      · exact h
      · rw [incrementTokenVersionUnderLock_ok hok]
        refine originsKnown_outdated h ?_
        intro m _
        exact ⟨Nat.lt_succ_self _, assignRefreshToken_source⟩
  | readForImport mailboxId => cases x <;> exact h
  | importReplace item nonce =>
      cases x with
      | importing loaded => exact originsKnown_import h
      | _ => exact h
  | advance microseconds => exact h

/-! ## Every run -/

theorem OriginsKnown.accessTokensBound {settings : TokenSettings} {s : TokenShared}
    (h : OriginsKnown s) : AccessTokensBound settings s := by
  intro m hm husable
  simp only [TokenSettings.hasUsableCachedAccessToken, Bool.and_eq_true,
    Bool.not_eq_true', decide_eq_true_eq] at husable
  obtain ⟨⟨hpresent, hsource⟩, -⟩ := husable
  cases hciphertext : m.accessTokenCiphertext with
  | none =>
      rw [hciphertext] at hpresent
      cases hpresent
  | some ciphertext =>
      have hrow : s.db.mailboxes.get? m.id = some m := Table.get?_eq_some.mpr ⟨hm, rfl⟩
      exact ⟨ciphertext, rfl, (h m.id m hrow).bound hsource ciphertext hciphertext⟩

/-- **Binding theorem**: from any database without source versions, with no call
under way and a cipher that draws new nonces, the usable access tokens are bound
in every state of a run none of whose probes is outrun. -/
theorem accessTokens_bound {ι : Type*} [DecidableEq ι] (settings : TokenSettings)
    (db : Database) (now : ℕ) (hdb : ∀ m ∈ db.mailboxes, m.accessTokenSourceVersion = none)
    (events : List (ι × TokenAction))
    (hunused : Meets (Threads.step (tokenAct settings))
      (Threads.At (DrawsUnusedNonces settings)) (tokenStart db now) events)
    (hok : Meets (Threads.step (tokenAct settings)) (Threads.At (ProbesNotOutrun settings))
      (tokenStart db now) events) :
    Throughout (Threads.step (tokenAct settings))
      (fun t => AccessTokensBound settings t.shared) (tokenStart db now) events := by
  have hlinked : (tokenStart db now : Threads ι TokenWorker TokenShared).Linked
      (ClientLink settings) := by
    intro i
    refine ⟨?_, trivial⟩
    intro k i hi
    cases hi
  have hknown : OriginsKnown (tokenStart db now : Threads ι TokenWorker TokenShared).shared := by
    intro k m hm
    apply Mailbox.boundIn_of_lt
    intro v hv
    rw [hdb m (Table.mem_of_get? hm)] at hv
    cases hv
  have hkept : Throughout (Threads.step (tokenAct settings))
      (fun t => t.Linked (ClientLink settings) ∧ OriginsKnown t.shared) (tokenStart db now)
      events := by
    refine throughout_of_meets ?_ ⟨hlinked, hknown⟩ (hunused.and hok)
    rintro t ⟨i, a⟩ ⟨hlinked, hknown⟩ ⟨hnew, hnot⟩
    constructor
    · exact Threads.linked_step (fun s x a h _ => clientLink_own s x a h)
        (fun s x y a h _ _ => clientLink_other s x y a h) t (i, a) hlinked hnew
    · exact originsKnown_step hknown (hlinked i) hnew hnot
  exact hkept.imp fun t ht => ht.2.accessTokensBound

end

/-! ## A probe and its runs -/

section Sample

attribute [local instance] asciiPlatform

/-- A refresh whose probe stores an access token for Graph. -/
def probeRun : List (Bool × TokenAction) :=
  [(false, .claim { mailboxId := "mailbox" } "claim"),
   (false, .exchange (.ok (sampleAnswer "outlook" "https://outlook.office.com/" none)) 65),
   (false, .readForProbe),
   (false, .finishProbe ⟨.graph, some (sampleAnswer "graph" "https://graph.microsoft.com/"
      none)⟩ 67)]

/-- While a probe is under way, a client writes a new refresh token back and a
second refresh exchanges it. -/
def outrunProbeRun : List (Bool × TokenAction) :=
  [(false, .claim { mailboxId := "mailbox" } "first"),
   (false, .exchange (.ok (sampleAnswer "outlook" "https://outlook.office.com/" none)) 65),
   (false, .readForProbe),
   (true, .updateRefreshToken tokenClient "lease" 1 "installed" 67),
   (true, .claim { mailboxId := "mailbox" } "second"),
   (true, .exchange (.ok (sampleAnswer "fresh" "https://outlook.office.com/" none)) 68),
   (false, .finishProbe ⟨.graph, some (sampleAnswer "graph" "https://graph.microsoft.com/"
      none)⟩ 70)]

/-- What a probe under way has loaded. -/
def TokenWorker.loaded : TokenWorker → Option Mailbox
  | .probing loaded _ => some loaded
  | _ => none

/-- A text of the sample cipher starts with its nonce. -/
def startsWith (nonce : ℕ) (ciphertext : Option String) : Bool :=
  (ciphertext.bind fun c => c.toList.head?) = some (Char.ofNat nonce)

theorem sample_unused {nonce : ℕ} {m : Mailbox}
    (haccess : startsWith nonce m.accessTokenCiphertext = false)
    (hrefresh : startsWith (nonce + 1) m.refreshTokenCiphertext = false) :
    sampleTokenSettings.Unused nonce m := by
  intro text
  have hstarts : ∀ nonce, startsWith nonce (some (sampleTokenSettings.encrypt nonce text)) =
      true := by
    intro nonce
    simp [startsWith, sampleTokenSettings]
  constructor
  · intro heq
    rw [heq, hstarts] at haccess
    cases haccess
  · intro heq
    rw [heq, hstarts] at hrefresh
    cases hrefresh

theorem accessTokens_bound_sample :
    Throughout (Threads.step (tokenAct sampleTokenSettings))
      (fun t => AccessTokensBound sampleTokenSettings t.shared) (tokenStart tokenDatabase 0)
      probeRun := by
  let t := exec (Threads.step (tokenAct sampleTokenSettings)) (tokenStart tokenDatabase 0)
    (probeRun.take 3)
  have hloaded : (t.held false).loaded = t.shared.db.mailboxes.get? "mailbox" := by
    decide +kernel
  have hprobing : ∀ loaded clientWrites, t.held false = .probing loaded clientWrites →
      t.shared.db.mailboxes.get? "mailbox" = some loaded := by
    intro loaded clientWrites hheld
    rw [← hloaded, hheld]
    rfl
  have hrow : (t.shared.db.mailboxes.get? "mailbox").all (fun m =>
      !startsWith 67 m.accessTokenCiphertext && !startsWith 68 m.refreshTokenCiphertext) =
        true := by
    decide +kernel
  have hunused : DrawsUnusedNonces sampleTokenSettings t.shared (t.held false)
      (.finishProbe ⟨.graph, some (sampleAnswer "graph" "https://graph.microsoft.com/" none)⟩
        67) := by
    refine ⟨?_, fun _ _ _ _ ha => nomatch ha⟩
    rintro loaded clientWrites result nonce hheld ⟨⟩
    rw [hprobing loaded clientWrites hheld] at hrow
    simp only [Option.all_some, Bool.and_eq_true, Bool.not_eq_true'] at hrow
    exact sample_unused hrow.1 hrow.2
  have hnotOutrun : ProbesNotOutrun sampleTokenSettings t.shared (t.held false)
      (.finishProbe ⟨.graph, some (sampleAnswer "graph" "https://graph.microsoft.com/" none)⟩
        67) := by
    rintro loaded clientWrites result nonce current hheld - - - hcurrent - -
    have hrow' := hprobing loaded clientWrites hheld
    have hid : loaded.id = "mailbox" := Table.key_of_get? hrow'
    rw [hid, hrow'] at hcurrent
    cases hcurrent
    rfl
  refine accessTokens_bound sampleTokenSettings tokenDatabase 0 (by decide +kernel) probeRun
    ⟨?_, ?_, ?_, hunused, trivial⟩ ⟨?_, ?_, ?_, hnotOutrun, trivial⟩
  · exact ⟨by rintro _ _ _ _ - ⟨⟩, by rintro _ _ _ _ ⟨⟩⟩
  · exact ⟨by rintro _ _ _ _ - ⟨⟩, by rintro _ _ _ _ ⟨⟩⟩
  · exact ⟨by rintro _ _ _ _ - ⟨⟩, by rintro _ _ _ _ ⟨⟩⟩
  · rintro _ _ _ _ _ - ⟨⟩
  · rintro _ _ _ _ _ - ⟨⟩
  · rintro _ _ _ _ _ - ⟨⟩

/-- The mailbox has a usable access token of unknown origin. -/
def TokenShared.strayToken (settings : TokenSettings) (s : TokenShared) (k : String) : Bool :=
  (s.db.mailboxes.get? k).any fun m =>
    settings.hasUsableCachedAccessToken s.now m && !s.origins.any fun o =>
      o.tokenVersion = m.tokenVersion &&
        m.accessTokenCiphertext = some o.accessTokenCiphertext

theorem not_bound_of_strayToken {settings : TokenSettings} {s : TokenShared} {k : String}
    (h : s.strayToken settings k = true) : ¬ AccessTokensBound settings s := by
  intro hbound
  unfold TokenShared.strayToken at h
  rw [Option.any_eq_true] at h
  obtain ⟨m, hm, hrow⟩ := h
  rw [Bool.and_eq_true, Bool.not_eq_true', List.any_eq_false] at hrow
  obtain ⟨husable, hunknown⟩ := hrow
  obtain ⟨ciphertext, hciphertext, hmem⟩ := hbound m (Table.mem_of_get? hm) husable
  apply hunknown _ hmem
  simp only [hciphertext, decide_true, Bool.and_self]

/-- The mailbox ends up with its second refresh token and an access token of its
first one. -/
theorem outrun_probe_rebinds :
    ¬ Throughout (Threads.step (tokenAct sampleTokenSettings))
      (fun t => AccessTokensBound sampleTokenSettings t.shared) (tokenStart tokenDatabase 0)
      outrunProbeRun := by
  intro hbound
  have hstray : (exec (Threads.step (tokenAct sampleTokenSettings))
      (tokenStart tokenDatabase 0) outrunProbeRun).shared.strayToken sampleTokenSettings
        "mailbox" = true := by
    decide +kernel
  exact not_bound_of_strayToken hstray hbound.last

end Sample

end MailboxService
