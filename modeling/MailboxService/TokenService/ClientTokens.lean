import MailboxService.TokenService.TokenRuns

/-!
# Refresh tokens that clients install

Whether the service overwrites a refresh token that a client has written back.
Every completion compares the version that its claim read. The write of a probe
does not: a refresh token that its exchange returns replaces whatever the row
carries. It started from the installed token exactly if no client has written
since the probe read the row.
-/

namespace MailboxService

open Foundation

/-- The refresh token that an exchange started from, with its version. -/
structure ExchangeBase where
  mailboxId : String
  tokenVersion : ℕ
  refreshToken : String
  deriving DecidableEq, Repr

/-- What a probe of the mailbox exchanges. -/
def TokenSettings.exchangeBase (settings : TokenSettings) (m : Mailbox) :
    Option ExchangeBase :=
  (settings.storedRefreshToken m).map fun refreshToken => ⟨m.id, m.tokenVersion, refreshToken⟩

theorem exchangeBase_of_rotates {settings : TokenSettings} {m : Mailbox} {ciphertext : String}
    {result : CapabilityProbeResult} (h : settings.rotates m result = true)
    (hstored : m.refreshTokenCiphertext = some ciphertext) :
    ∃ refreshToken, settings.exchangeBase m = some ⟨m.id, m.tokenVersion, refreshToken⟩ ∧
      settings.decrypt ciphertext = .ok refreshToken := by
  have hreadable : missing (settings.storedRefreshToken m) = false := by
    unfold TokenSettings.rotates TokenSettings.replacement TokenSettings.canReaudience at h
    split at h
    · rename_i hcan
      simp only [Bool.and_eq_true, Bool.not_eq_true'] at hcan
      exact hcan.1.1
    · cases h
  unfold TokenSettings.exchangeBase
  unfold TokenSettings.storedRefreshToken at hreadable ⊢
  rw [hstored] at hreadable ⊢
  split
  · rename_i hmissing
    rw [if_pos hmissing] at hreadable
    cases hreadable
  · rename_i hmissing
    rw [if_neg hmissing, Option.getD_some] at hreadable
    rw [Option.getD_some]
    cases hdecrypt : settings.decrypt ciphertext with
    | error e =>
        rw [hdecrypt] at hreadable
        cases hreadable
    | ok refreshToken => exact ⟨refreshToken, rfl, rfl⟩

theorem persistScopeIfMissing_exchangeBase {settings : TokenSettings} {now : ℕ}
    {accessToken : String} {m : Mailbox} :
    settings.exchangeBase (settings.persistScopeIfMissing now accessToken m) =
      settings.exchangeBase m := by
  unfold TokenSettings.persistScopeIfMissing
  split <;> rfl

section

variable [Platform]

/-- What the exchange behind a step started from. -/
def tokenBase (settings : TokenSettings) (s : TokenShared) (x : TokenWorker) :
    TokenAction → Option ExchangeBase
  | .exchange _ _ =>
      match x with
      | .exchanging _ _ claim _ =>
          some ⟨claim.mailboxId, claim.expectedTokenVersion, claim.refreshToken⟩
      | _ => none
  | .finishProbe _ _ =>
      match x with
      | .probing loaded _ => settings.exchangeBase loaded
      | _ => none
  | .probeCached request _ _ =>
      (s.db.mailboxes.get? request.mailboxId).bind settings.exchangeBase
  | _ => none

/-- **No lost client write**: a step of the service takes an installed refresh
token away only after an exchange of that very token, in its version. -/
def KeepsClientToken (settings : TokenSettings) (s : TokenShared) (x : TokenWorker)
    (a : TokenAction) : Prop :=
  ∀ k i, s.installed k = some i → a.byService = true →
    i.inPlace (tokenAct settings s x a).2.db k = false →
    ∃ refreshToken, tokenBase settings s x a = some ⟨k, i.tokenVersion, refreshToken⟩ ∧
      settings.decrypt i.ciphertext = .ok refreshToken

/-- No probe brings another refresh token for a mailbox with an installed one to
which a client has written since the probe read the row. -/
def ProbesUndisturbed (settings : TokenSettings) (s : TokenShared) (x : TokenWorker)
    (a : TokenAction) : Prop :=
  ∀ loaded clientWrites result nonce, x = .probing loaded clientWrites →
    a = .finishProbe result nonce → settings.rotates loaded result = true →
    (s.installed loaded.id).isSome = true → clientWrites = s.clientWrites loaded.id

/-! ## What a worker knows -/

/-- What a worker has read is the row as it was in an earlier revision, or in
the current one. -/
def TokenLink (settings : TokenSettings) (x : TokenWorker) (s : TokenShared) : Prop :=
  match x with
  | .exchanging _ _ claim _ =>
      ∃ m, s.db.mailboxes.get? claim.mailboxId = some m ∧
        claim.expectedTokenVersion ≤ m.tokenVersion ∧
        (m.tokenVersion = claim.expectedTokenVersion →
          settings.decrypt (m.refreshTokenCiphertext.getD "") = .ok claim.refreshToken)
  | .probing loaded clientWrites =>
      clientWrites ≤ s.clientWrites loaded.id ∧
      (clientWrites = s.clientWrites loaded.id →
        ∀ i, s.installed loaded.id = some i → i.tokenVersion = loaded.tokenVersion) ∧
      ∃ m, s.db.mailboxes.get? loaded.id = some m ∧ loaded.tokenVersion ≤ m.tokenVersion ∧
        (m.tokenVersion = loaded.tokenVersion →
          m.refreshTokenCiphertext = loaded.refreshTokenCiphertext ∧
            clientWrites = s.clientWrites loaded.id)
  | _ => True

/-- The tie between a worker and the state: the installed tokens are those of
the rows, and the worker has read what it holds. -/
structure ClientLink (settings : TokenSettings) (x : TokenWorker) (s : TokenShared) :
    Prop where
  inPlace : ∀ k i, s.installed k = some i → i.inPlace s.db k = true
  worker : TokenLink settings x s

theorem inPlace_iff {i : InstalledToken} {db : Database} {k : String} :
    i.inPlace db k = true ↔ ∃ m, db.mailboxes.get? k = some m ∧
      m.tokenVersion = i.tokenVersion ∧ m.refreshTokenCiphertext = some i.ciphertext := by
  unfold InstalledToken.inPlace
  simp only [Option.any_eq_true, Bool.and_eq_true, decide_eq_true_eq]

theorem TokenLink.mono {settings : TokenSettings} {x : TokenWorker} {s s' : TokenShared}
    (h : TokenLink settings x s) (hstep : TokenStep s s') : TokenLink settings x s' := by
  cases x with
  | exchanging request target claim startedAt =>
      obtain ⟨m, hm, hle, htoken⟩ := h
      obtain ⟨m', hm', hkept⟩ := hstep.revisions _ m hm
      refine ⟨m', hm', hle.trans hkept.le, ?_⟩
      intro hversion
      have hsame : m'.tokenVersion = m.tokenVersion := by
        have hgrown := hkept.le
        omega
      rw [hkept.same hsame]
      exact htoken (hsame.symm.trans hversion)
  | probing loaded clientWrites =>
      obtain ⟨hwrites, hinstalled, m, hm, hle, hread⟩ := h
      obtain ⟨m', hm', hkept⟩ := hstep.revisions _ m hm
      have hgrown := hstep.writes loaded.id
      refine ⟨hwrites.trans hgrown, ?_, m', hm', hle.trans hkept.le, ?_⟩
      · intro hsame i hi
        have hcount : s'.clientWrites loaded.id = s.clientWrites loaded.id := by omega
        exact hinstalled (hsame.trans hcount) i (hstep.installed _ i hi hcount)
      · intro hversion
        have hsame : m'.tokenVersion = m.tokenVersion := by
          have hgrown := hkept.le
          omega
        obtain ⟨htoken, hcount⟩ := hread (hsame.symm.trans hversion)
        rw [hkept.same hsame, hstep.counted _ m m' hm hm' hsame]
        exact ⟨htoken, hcount⟩
  | idle | refreshed | importing => trivial

theorem tokenLink_claim {settings : TokenSettings} {s : TokenShared} {request : EnsureRequest}
    {claimId : String} :
    TokenLink settings (claimStep settings s request claimId).1
      (claimStep settings s request claimId).2 := by
  unfold claimStep
  split
  · trivial
  split
  · trivial
  dsimp only
  split
  · trivial
  · trivial
  split
  · trivial
  · rename_i claim db hclaim
    obtain ⟨row, hrow, -, hid, -, hversion, htoken, -, rfl⟩ := claimTokenRefresh_ok hclaim
    rw [← hid] at hrow
    refine ⟨_, updateMailbox_row hrow, ?_, ?_⟩
    · split <;> exact hversion.le
    · split <;> exact fun _ => htoken

theorem tokenLink_readForProbe {settings : TokenSettings} {s : TokenShared}
    {request : EnsureRequest} {target : Option MailAccessChannel}
    (h : ∀ k i, s.installed k = some i → i.inPlace s.db k = true) :
    TokenLink settings (readForProbeStep settings s request target) s := by
  unfold readForProbeStep
  split
  · trivial
  · rename_i loaded hloaded
    dsimp only
    split
    · have hid : loaded.id = request.mailboxId := Table.key_of_get? hloaded
      rw [← hid] at hloaded
      refine ⟨le_rfl, ?_, loaded, hloaded, le_rfl, fun _ => ⟨rfl, rfl⟩⟩
      intro _ i hi
      obtain ⟨m, hm, hversion, -⟩ := inPlace_iff.mp (h _ i hi)
      rw [hloaded] at hm
      cases hm
      exact hversion.symm
    · trivial

theorem clientLink_own {settings : TokenSettings} (s : TokenShared) (x : TokenWorker)
    (a : TokenAction) (h : ClientLink settings x s) :
    ClientLink settings (tokenAct settings s x a).1 (tokenAct settings s x a).2 := by
  have hstep := tokenAct_step settings s x a
  refine ⟨hstep.inPlace h.inPlace, ?_⟩
  -- what a worker holds stays tied to the state unless the step is its own
  have hkept : TokenLink settings x (tokenAct settings s x a).2 := h.worker.mono hstep
  cases a with
  | claim request claimId =>
      cases x with
      | idle => exact tokenLink_claim
      | _ => exact hkept
  | exchange answer nonce =>
      cases x with
      | exchanging request target claim startedAt =>
          simp only [tokenAct]
          rcases answer with (_ | _) | response
          · trivial
          · trivial
          · simp only [exchangeStep]
            split
            · trivial
            · dsimp only
              split <;> trivial
      | _ => exact hkept
  | readForProbe =>
      cases x with
      | refreshed request target => exact tokenLink_readForProbe h.inPlace
      | _ => exact hkept
  | finishProbe result nonce =>
      cases x with
      | probing loaded clientWrites => trivial
      | _ => exact hkept
  | probeCached request result nonce =>
      cases x with
      | idle => trivial
      | _ => exact hkept
  | abandon => trivial
  | updateRefreshToken principal leaseId expectedTokenVersion refreshToken nonce => exact hkept
  | compareAndSwap mailboxId expectedTokenVersion w => exact hkept
  | increment mailboxId w => exact hkept
  | readForImport mailboxId =>
      cases x with
      | idle =>
          simp only [tokenAct, readForImportStep]
          split
          · trivial
          · split <;> trivial
      | _ => exact hkept
  | importReplace item nonce =>
      cases x with
      | importing loaded => trivial
      | _ => exact hkept
  | advance microseconds => exact hkept

theorem clientLink_other {settings : TokenSettings} (s : TokenShared) (x y : TokenWorker)
    (a : TokenAction) (h : ClientLink settings x s) :
    ClientLink settings x (tokenAct settings s y a).2 := by
  have hstep := tokenAct_step settings s y a
  exact ⟨hstep.inPlace h.inPlace, h.worker.mono hstep⟩

/-! ## What takes an installed token away -/

theorem inPlace_of_row {i : InstalledToken} {db db' : Database} {k : String}
    (h : i.inPlace db k = true)
    (hrow : ∀ m, db.mailboxes.get? k = some m → ∃ m', db'.mailboxes.get? k = some m' ∧
      m'.tokenVersion = m.tokenVersion ∧
      m'.refreshTokenCiphertext = m.refreshTokenCiphertext) : i.inPlace db' k = true := by
  obtain ⟨m, hm, hversion, htoken⟩ := inPlace_iff.mp h
  obtain ⟨m', hm', hversion', htoken'⟩ := hrow m hm
  exact inPlace_iff.mpr ⟨m', hm', hversion'.trans hversion, htoken'.trans htoken⟩

theorem inPlace_update {i : InstalledToken} {db : Database} {mailboxId k : String}
    {q : Mailbox → Bool} {f : MailboxAssignment} (h : i.inPlace db k = true)
    (hgone : i.inPlace (db.updateMailbox mailboxId q f).db k = false) :
    k = mailboxId ∧ ∃ m, db.mailboxes.get? mailboxId = some m ∧ q m = true ∧
      ¬ ((f.set m).tokenVersion = m.tokenVersion ∧
        (f.set m).refreshTokenCiphertext = m.refreshTokenCiphertext) := by
  obtain ⟨m, hm, -⟩ := inPlace_iff.mp h
  by_cases hmatch : k = mailboxId ∧ q m = true
  · obtain ⟨rfl, hq⟩ := hmatch
    refine ⟨rfl, m, hm, hq, ?_⟩
    rintro ⟨hversion, htoken⟩
    have hkept : i.inPlace (db.updateMailbox k q f).db k = true := by
      refine inPlace_of_row h ?_
      intro m' hm'
      rw [hm] at hm'
      cases hm'
      refine ⟨_, updateMailbox_row hm, ?_⟩
      rw [if_pos ⟨rfl, hq⟩]
      exact ⟨hversion, htoken⟩
    rw [hkept] at hgone
    cases hgone
  · have hkept : i.inPlace (db.updateMailbox mailboxId q f).db k = true := by
      refine inPlace_of_row h ?_
      intro m' hm'
      rw [hm] at hm'
      cases hm'
      refine ⟨_, updateMailbox_row hm, ?_⟩
      rw [if_neg hmatch]
      exact ⟨rfl, rfl⟩
    rw [hkept] at hgone
    cases hgone

theorem inPlace_probe {settings : TokenSettings} {s : TokenShared} {nonce : ℕ}
    {loaded assigned : Mailbox} {result : CapabilityProbeResult} {i : InstalledToken}
    {k : String} (hrt : assigned.refreshTokenCiphertext = loaded.refreshTokenCiphertext)
    (h : i.inPlace s.db k = true)
    (hgone : i.inPlace (probeStep settings s nonce loaded assigned result).db k = false) :
    k = loaded.id ∧ settings.rotates assigned result = true := by
  unfold probeStep at hgone
  split at hgone
  · rw [h] at hgone
    cases hgone
  · obtain ⟨hk, m, -, -, hchanged⟩ := inPlace_update h hgone
    refine ⟨hk, ?_⟩
    rw [← Bool.not_eq_false]
    intro hrotates
    exact hchanged (writeProbe_of_not_rotates hrt hrotates m)

theorem not_inPlace_probe {settings : TokenSettings} {s : TokenShared} {nonce : ℕ}
    {loaded : Mailbox} {result : CapabilityProbeResult} {i : InstalledToken}
    (h : i.inPlace s.db loaded.id = true) (hrotates : settings.rotates loaded result = true) :
    i.inPlace (probeStep settings s nonce loaded loaded result).db loaded.id = false := by
  obtain ⟨m, hm, hversion, -⟩ := inPlace_iff.mp h
  have hrow : (probeStep settings s nonce loaded loaded result).db.mailboxes.get? loaded.id =
      some (settings.writeProbe s.now nonce loaded loaded result m) := by
    unfold probeStep
    rw [hm]
    refine (updateMailbox_row hm).trans ?_
    rw [if_pos ⟨rfl, rfl⟩]
    rfl
  rw [← Bool.not_eq_true]
  intro hkept
  obtain ⟨m', hm', hversion', -⟩ := inPlace_iff.mp hkept
  rw [hrow] at hm'
  cases hm'
  rw [writeProbe_of_rotates hrotates] at hversion'
  omega

/-- A completion that takes the installed token away matches its row. -/
theorem inPlace_complete {db db' : Database} {claim : TokenRefreshClaim}
    {c : RefreshCompletion} {v : Option ℕ} {i : InstalledToken} {k : String}
    (hcomplete : completeTokenRefresh db claim c = .ok (v, db')) (h : i.inPlace db k = true)
    (hgone : i.inPlace db' k = false) :
    k = claim.mailboxId ∧ ∃ m, db.mailboxes.get? claim.mailboxId = some m ∧
      m.tokenVersion = claim.expectedTokenVersion := by
  have hcurrent : ∀ m, claim.current m = true →
      m.tokenVersion = claim.expectedTokenVersion := by
    intro m hm
    simp only [TokenRefreshClaim.current, Bool.and_eq_true, decide_eq_true_eq] at hm
    exact hm.1
  rcases completeTokenRefresh_ok hcomplete with ⟨-, -, -, encrypted, -, rfl⟩ | ⟨-, rfl⟩
  · obtain ⟨hk, m, hm, hq, -⟩ := inPlace_update h hgone
    exact ⟨hk, m, hm, hcurrent m hq⟩
  · obtain ⟨hk, m, hm, hq, -⟩ := inPlace_update h hgone
    exact ⟨hk, m, hm, hcurrent m hq⟩

/-! ## Every step and every run -/

/-- **Step lemma**: what a step takes away it had exchanged, exactly if it is
not a probe that a client has overtaken. -/
theorem keepsClientToken_iff {settings : TokenSettings} (s : TokenShared) (x : TokenWorker)
    (a : TokenAction) (h : ClientLink settings x s) :
    KeepsClientToken settings s x a ↔ ProbesUndisturbed settings s x a := by
  constructor
  · rintro hkeeps loaded clientWrites result nonce rfl rfl hrotates hinstalled
    obtain ⟨i, hi⟩ := Option.isSome_iff_exists.mp hinstalled
    have hin := h.inPlace _ i hi
    obtain ⟨m, hm, hversion, -⟩ := inPlace_iff.mp hin
    obtain ⟨-, -, m', hm', -, hread⟩ := h.worker
    rw [hm] at hm'
    cases hm'
    obtain ⟨refreshToken, hbase, -⟩ := hkeeps _ i hi rfl (not_inPlace_probe hin hrotates)
    obtain ⟨_, -, hexchanged⟩ := Option.map_eq_some_iff.mp hbase
    -- the exchanged version is the installed one, which is that of the row
    have hloaded : loaded.tokenVersion = i.tokenVersion :=
      congrArg ExchangeBase.tokenVersion hexchanged
    exact (hread (hversion.trans hloaded.symm)).2
  · intro hundisturbed k i hi hservice hgone
    have hin := h.inPlace k i hi
    have hcontra : ∀ {P : Prop}, i.inPlace s.db k = false → P := by
      intro P hnot
      rw [hin] at hnot
      cases hnot
    obtain ⟨m, hm, hversion, htoken⟩ := inPlace_iff.mp hin
    cases a with
    | claim request claimId =>
        cases x with
        | idle =>
            simp only [tokenAct, claimStep] at hgone
            split at hgone
            · exact hcontra hgone
            split at hgone
            · exact hcontra hgone
            split at hgone
            · exact hcontra hgone
            · exact hcontra hgone
            split at hgone
            · exact hcontra hgone
            · rename_i claim db hclaim
              obtain ⟨-, -, -, -, -, -, -, -, rfl⟩ := claimTokenRefresh_ok hclaim
              obtain ⟨-, m', -, -, hchanged⟩ := inPlace_update hin hgone
              exact absurd ⟨rfl, rfl⟩ hchanged
        | _ => exact hcontra hgone
    | exchange answer nonce =>
        cases x with
        | exchanging request target claim startedAt =>
            rcases answer with (_ | _) | response
            · obtain ⟨-, m', -, -, hchanged⟩ := inPlace_update hin hgone
              exact absurd ⟨rfl, rfl⟩ hchanged
            · obtain ⟨-, m', -, -, hchanged⟩ := inPlace_update hin hgone
              exact absurd ⟨rfl, rfl⟩ hchanged
            · simp only [tokenAct, exchangeStep] at hgone
              split at hgone
              · exact hcontra hgone
              · rename_i v db hcomplete
                obtain ⟨rfl, m', hm', hmatch⟩ := inPlace_complete hcomplete hin hgone
                rw [hm] at hm'
                cases hm'
                obtain ⟨m', hm', -, hclaimed⟩ := h.worker
                rw [hm] at hm'
                cases hm'
                have hdecrypt := hclaimed hmatch
                rw [htoken, Option.getD_some] at hdecrypt
                refine ⟨claim.refreshToken, ?_, hdecrypt⟩
                rw [← hversion, hmatch]
                rfl
        | _ => exact hcontra hgone
    | readForProbe => cases x <;> exact hcontra hgone
    | finishProbe result nonce =>
        cases x with
        | probing loaded clientWrites =>
            obtain ⟨rfl, hrotates⟩ := inPlace_probe rfl hin hgone
            have hcount := hundisturbed loaded clientWrites result nonce rfl rfl hrotates
              (by rw [hi]; rfl)
            obtain ⟨-, hsame, m', hm', -, hread⟩ := h.worker
            rw [hm] at hm'
            cases hm'
            have hloaded := hsame hcount i hi
            have hrt := (hread (hversion.trans hloaded)).1
            rw [htoken] at hrt
            rw [hloaded]
            exact exchangeBase_of_rotates hrotates hrt.symm
        | _ => exact hcontra hgone
    | probeCached request result nonce =>
        cases x with
        | idle =>
            simp only [tokenAct, probeCachedStep] at hgone
            split at hgone
            · exact hcontra hgone
            rename_i loaded hloaded
            split at hgone
            · exact hcontra hgone
            split at hgone
            · exact hcontra hgone
            · exact hcontra hgone
            · -- the row is locked, so it is the one that was read
              obtain ⟨rfl, hrotates⟩ :=
                inPlace_probe persistScopeIfMissing_refreshToken hin hgone
              have hid : loaded.id = request.mailboxId := Table.key_of_get? hloaded
              rw [hid, hloaded] at hm
              cases hm
              obtain ⟨refreshToken, hbase, hdecrypt⟩ := exchangeBase_of_rotates hrotates
                (persistScopeIfMissing_refreshToken.trans htoken)
              rw [persistScopeIfMissing_exchangeBase] at hbase
              refine ⟨refreshToken, ?_, hdecrypt⟩
              have hexchanged : tokenBase settings s .idle (.probeCached request result nonce) =
                  settings.exchangeBase m := by
                simp only [tokenBase, hloaded, Option.bind_some]
              rw [hexchanged, hbase, ← hversion]
              unfold TokenSettings.persistScopeIfMissing
              split <;> rfl
        | _ => exact hcontra hgone
    | abandon => exact hcontra hgone
    | _ => cases hservice

/-- **Write-back theorem**: from any database with no call under way, the service
takes an installed refresh token away only after an exchange of that token, all
along a run, exactly if no probe of the run that brings another refresh token
was overtaken by a client. -/
theorem clientTokens_kept_iff {ι : Type*} [DecidableEq ι] (settings : TokenSettings)
    (db : Database) (now : ℕ) (events : List (ι × TokenAction)) :
    Meets (Threads.step (tokenAct settings)) (Threads.At (KeepsClientToken settings))
        (tokenStart db now) events ↔
      Meets (Threads.step (tokenAct settings)) (Threads.At (ProbesUndisturbed settings))
        (tokenStart db now) events := by
  have hstart : (tokenStart db now : Threads ι TokenWorker TokenShared).Linked
      (ClientLink settings) := by
    intro i
    refine ⟨?_, trivial⟩
    intro k i hi
    cases hi
  exact Threads.meets_iff (fun s x a h _ => clientLink_own s x a h)
    (fun s x y a h _ _ => clientLink_other s x y a h) keepsClientToken_iff hstart

end

/-! ## An overtaken probe -/

section Sample

attribute [local instance] asciiPlatform

/-- A refresh reads its row for the probe, a client writes a new refresh token
back, and the probe stores the one that its exchange returned. -/
def overtakenProbeRun : List (Bool × TokenAction) :=
  [(false, .claim { mailboxId := "mailbox" } "claim"),
   (false, .exchange (.ok (sampleAnswer "outlook" "https://outlook.office.com/" none)) 65),
   (false, .readForProbe),
   (true, .updateRefreshToken tokenClient "lease" 1 "installed" 66),
   (false, .finishProbe ⟨.graph, some (sampleAnswer "graph" "https://graph.microsoft.com/"
      (some "rotated"))⟩ 67)]

theorem overtaken_probe_loses_token :
    ¬ Meets (Threads.step (tokenAct sampleTokenSettings))
      (Threads.At (KeepsClientToken sampleTokenSettings)) (tokenStart tokenDatabase 0)
      overtakenProbeRun := by
  rintro ⟨-, -, -, -, hlast, -⟩
  have hinstalled : (exec (Threads.step (tokenAct sampleTokenSettings))
      (tokenStart tokenDatabase 0) (overtakenProbeRun.take 4)).shared.installed "mailbox" =
        some ⟨2, "Binstalled"⟩ := by
    decide +kernel
  have hgone : InstalledToken.inPlace ⟨2, "Binstalled"⟩
      (exec (Threads.step (tokenAct sampleTokenSettings)) (tokenStart tokenDatabase 0)
        overtakenProbeRun).shared.db "mailbox" = false := by
    decide +kernel
  have hexchanged : (tokenBase sampleTokenSettings
      (exec (Threads.step (tokenAct sampleTokenSettings)) (tokenStart tokenDatabase 0)
        (overtakenProbeRun.take 4)).shared
      ((exec (Threads.step (tokenAct sampleTokenSettings)) (tokenStart tokenDatabase 0)
        (overtakenProbeRun.take 4)).held false)
      (.finishProbe ⟨.graph, some (sampleAnswer "graph" "https://graph.microsoft.com/"
        (some "rotated"))⟩ 67)).map ExchangeBase.tokenVersion = some 1 := by
    decide +kernel
  obtain ⟨refreshToken, hbase, -⟩ := hlast "mailbox" _ hinstalled rfl hgone
  have hversion := (congrArg (Option.map ExchangeBase.tokenVersion) hbase).symm.trans hexchanged
  cases hversion

end Sample

end MailboxService
