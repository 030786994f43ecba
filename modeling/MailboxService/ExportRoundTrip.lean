import MailboxService.ExportedLines

/-!
# Export undoes import

Administrators import mailboxes, clients write refresh tokens back and the
service refreshes them, in any interleaving and with anything else going on
that leaves the credentials alone. Whatever is stored then came in by the rules
of an import line or of a write-back, so an export never fails, and its text
reads back as what is stored exactly if every exported value is `Exportable`.
-/

namespace MailboxService

open Foundation

/-! ## Stored credentials -/

/-- What the cipher is relied on for: a ciphertext is not empty, and is decrypted
to its text. -/
structure TokenSettings.CipherRoundTrips (settings : TokenSettings) : Prop where
  decrypt_encrypt : ∀ nonce text, settings.decrypt (settings.encrypt nonce text) = .ok text
  encrypt_ne_empty : ∀ nonce text, settings.encrypt nonce text ≠ ""

/-- The stored values of a mailbox, in the clear. -/
def TokenSettings.storedCredentials (settings : TokenSettings) (m : Mailbox) :
    Option MailboxCredentials := do
  let mailPassword ← m.mailPasswordCiphertext.bind fun c => (settings.decrypt c).toOption
  let clientId ← m.clientId
  let refreshToken ← m.refreshTokenCiphertext.bind fun c => (settings.decrypt c).toOption
  pure ⟨m.primaryEmail, mailPassword, clientId, refreshToken⟩

/-- Rules for the values that come in. -/
structure CredentialRules where
  email : String → Prop
  segment : String → Prop
  token : String → Prop

def TokenSettings.Holds (settings : TokenSettings) (ciphertext : Option String)
    (rule : String → Prop) : Prop :=
  ∃ nonce text, ciphertext = some (settings.encrypt nonce text) ∧ rule text

/-- A row whose values came in by the rules. -/
structure Mailbox.StoredBy (settings : TokenSettings) (rules : CredentialRules)
    (m : Mailbox) : Prop where
  email : rules.email m.primaryEmail
  mailPassword : settings.Holds m.mailPasswordCiphertext rules.segment
  clientId : ∃ clientId, m.clientId = some clientId ∧ rules.segment clientId
  refreshToken : settings.Holds m.refreshTokenCiphertext rules.token

section

variable [Collation]

def AllStored (settings : TokenSettings) (rules : CredentialRules) (db : Database) : Prop :=
  ∀ k m, db.mailboxes.get? k = some m → m.StoredBy settings rules

/-- The credentials of a row are the old ones, but for a refresh token that meets
the rule. -/
structure CredentialsKept (settings : TokenSettings) (token : String → Prop)
    (m m' : Mailbox) : Prop where
  email : m'.primaryEmail = m.primaryEmail
  mailPassword : m'.mailPasswordCiphertext = m.mailPasswordCiphertext
  clientId : m'.clientId = m.clientId
  refreshToken : m'.refreshTokenCiphertext = m.refreshTokenCiphertext ∨
    settings.Holds m'.refreshTokenCiphertext token

def KeepsCredentials (settings : TokenSettings) (token : String → Prop)
    (db db' : Database) : Prop :=
  ∀ k m', db'.mailboxes.get? k = some m' →
    ∃ m, db.mailboxes.get? k = some m ∧ CredentialsKept settings token m m'

end

/-! ## Actions -/

/-- An answer's refresh token, if there is one. -/
def MicrosoftTokenResponse.refreshTokens (r : MicrosoftTokenResponse) : List String :=
  (r.rotatedRefreshToken.filter (· ≠ "")).toList

def TokenAction.refreshTokens : TokenAction → List String
  | .exchange (.ok response) _ => response.refreshTokens
  | .finishProbe result _ =>
      result.accessTokenReplacement.toList.flatMap MicrosoftTokenResponse.refreshTokens
  | .probeCached _ result _ =>
      result.accessTokenReplacement.toList.flatMap MicrosoftTokenResponse.refreshTokens
  | _ => []

section

variable [ImportPlatform]

/-- What administrators, clients and the service do. `elsewhere` is everything
that leaves the credentials of the mailboxes alone. -/
inductive CredentialAction where
  | importMailboxes (request : MailboxImportRequest) (draw : ℕ → ImportDraw)
  | updateRefreshToken (principal : ClientPrincipal) (leaseId : String)
      (request : LeaseRefreshTokenUpdateRequest) (nonce : ℕ)
  | service (action : TokenAction)
  | elsewhere (db : Database)

/-- One action; a request that is rejected or rolled back changes nothing. -/
def credentialAct (settings : TokenSettings) (s : TokenShared) (x : TokenWorker) :
    CredentialAction → TokenWorker × TokenShared
  | .importMailboxes request draw =>
      match importMailboxes settings s.now request draw s.db with
      | none => (x, s)
      | some (_, db) => (x, s.commit db)
  | .updateRefreshToken principal leaseId request nonce =>
      match request.validated with
      | .error _ => (x, s)
      | .ok accepted =>
          tokenAct settings s x (.updateRefreshToken principal leaseId
            accepted.expectedTokenVersion accepted.refreshToken nonce)
  | .service action => tokenAct settings s x action
  | .elsewhere db => (x, s.commit db)

/-- The steps that are admitted: the service's own ones and the clock, with
refresh tokens that pass the check of a write-back, and what else leaves the
credentials alone. -/
def Admitted (settings : TokenSettings) (s : TokenShared) (_ : TokenWorker) :
    CredentialAction → Prop
  | .service action =>
      (action.byService = true ∨ ∃ microseconds, action = .advance microseconds) ∧
        ∀ refreshToken ∈ action.refreshTokens,
          ∃ accepted, validateRefreshToken refreshToken = .ok accepted
  | .elsewhere db => KeepsCredentials settings (fun _ => False) s.db db
  | _ => True

def CredentialAction.BringsIn (rules : CredentialRules) : CredentialAction → Prop
  | .importMailboxes request _ => ∀ c, .ok c ∈ parsedLines request.content →
      rules.email c.primaryEmail ∧ rules.segment c.mailPassword ∧
        rules.segment c.clientId ∧ rules.token c.refreshToken
  | .updateRefreshToken _ _ request _ => ∀ accepted, request.validated = .ok accepted →
      rules.token accepted.refreshToken
  | .service action => ∀ refreshToken ∈ action.refreshTokens, rules.token refreshToken
  | .elsewhere _ => True

/-! ## Steps that keep credentials -/

section Keeps

variable {settings : TokenSettings} {token : String → Prop} {db db' : Database}

omit [ImportPlatform] in
theorem CredentialsKept.refl (m : Mailbox) : CredentialsKept settings token m m :=
  ⟨rfl, rfl, rfl, Or.inl rfl⟩

theorem keepsCredentials_of_mailboxes (h : db'.mailboxes = db.mailboxes) :
    KeepsCredentials settings token db db' := by
  intro k m' hm'
  rw [h] at hm'
  exact ⟨m', hm', CredentialsKept.refl m'⟩

theorem keepsCredentials_update {mailboxId : String} {q : Mailbox → Bool}
    {f : MailboxAssignment} (hf : ∀ m, CredentialsKept settings token m (f.set m)) :
    KeepsCredentials settings token db (db.updateMailbox mailboxId q f).db := by
  intro k m' hm'
  cases hm : db.mailboxes.get? k with
  | none =>
      exfalso
      by_cases hk : k = mailboxId
      · subst hk
        rw [updateMailbox_get?, hm] at hm'
        cases hm'
      · rw [updateMailbox_get?_ne hk, hm] at hm'
        cases hm'
  | some m =>
      rw [updateMailbox_row hm] at hm'
      refine ⟨m, rfl, ?_⟩
      rw [← Option.some.inj hm']
      split
      · exact hf m
      · exact CredentialsKept.refl m

theorem keepsCredentials_complete {claim : TokenRefreshClaim} {response : MicrosoftTokenResponse}
    {nonce startedAt : ℕ} {refreshToken : String} {v : Option ℕ}
    (htoken : ∀ t ∈ response.refreshTokens, token t)
    (h : completeTokenRefresh db claim
      (settings.completion nonce startedAt refreshToken response) = .ok (v, db')) :
    KeepsCredentials settings token db db' := by
  rcases completeTokenRefresh_ok h with ⟨hrotated, -, -, encrypted, hencrypted, rfl⟩ | ⟨-, rfl⟩
  · apply keepsCredentials_update
    intro m
    have hrotated' : (!missing response.rotatedRefreshToken &&
        decide (response.rotatedRefreshToken ≠ some refreshToken)) = true := hrotated
    refine ⟨rfl, rfl, rfl, Or.inr ⟨nonce + 1, response.rotatedRefreshToken.getD "", ?_, ?_⟩⟩
    · show some encrypted = _
      rw [← hencrypted]
      unfold TokenSettings.completion
      dsimp only
      rw [if_pos hrotated']
    · rw [Bool.and_eq_true] at hrotated'
      apply htoken
      cases hresponse : response.rotatedRefreshToken with
      | none =>
          rw [hresponse] at hrotated'
          cases hrotated'.1
      | some t =>
          have ht : t ≠ "" := by
            intro hempty
            rw [hresponse, hempty] at hrotated'
            cases hrotated'.1
          simp [MicrosoftTokenResponse.refreshTokens, hresponse, ht]
  · exact keepsCredentials_update fun m => ⟨rfl, rfl, rfl, Or.inl rfl⟩

omit [ImportPlatform] in
theorem flush_credentialsKept {loaded assigned : Mailbox}
    (hpassword : assigned.mailPasswordCiphertext = loaded.mailPasswordCiphertext)
    (hclient : assigned.clientId = loaded.clientId)
    (htoken : assigned.refreshTokenCiphertext = loaded.refreshTokenCiphertext ∨
      settings.Holds assigned.refreshTokenCiphertext token) (current : Mailbox) :
    CredentialsKept settings token current (loaded.flush assigned current) := by
  refine ⟨rfl, ?_, ?_, ?_⟩
  · show flushColumn loaded.mailPasswordCiphertext assigned.mailPasswordCiphertext _ = _
    rw [hpassword, flushColumn_unassigned]
  · show flushColumn loaded.clientId assigned.clientId _ = _
    rw [hclient, flushColumn_unassigned]
  · show flushColumn loaded.refreshTokenCiphertext assigned.refreshTokenCiphertext _ = _ ∨
      settings.Holds (flushColumn loaded.refreshTokenCiphertext
        assigned.refreshTokenCiphertext _) token
    rcases htoken with htoken | htoken
    · left
      rw [htoken, flushColumn_unassigned]
    · rcases flushColumn_eq loaded.refreshTokenCiphertext assigned.refreshTokenCiphertext
        current.refreshTokenCiphertext with hflush | hflush
      · exact Or.inl hflush
      · right
        rw [hflush]
        exact htoken

omit [ImportPlatform] in
theorem CredentialsKept.trans {m m' m'' : Mailbox} (h : CredentialsKept settings token m m')
    (h' : CredentialsKept settings token m' m'') : CredentialsKept settings token m m'' := by
  refine ⟨h'.email.trans h.email, h'.mailPassword.trans h.mailPassword,
    h'.clientId.trans h.clientId, ?_⟩
  rcases h'.refreshToken with hsame | hnew
  · rw [hsame]
    exact h.refreshToken
  · exact Or.inr hnew

omit [ImportPlatform] in
theorem writeProbe_credentialsKept {now nonce : ℕ} {loaded assigned : Mailbox}
    {result : CapabilityProbeResult}
    (hpassword : assigned.mailPasswordCiphertext = loaded.mailPasswordCiphertext)
    (hclient : assigned.clientId = loaded.clientId)
    (hrefresh : assigned.refreshTokenCiphertext = loaded.refreshTokenCiphertext)
    (htoken : ∀ t ∈ result.accessTokenReplacement.toList.flatMap
      MicrosoftTokenResponse.refreshTokens, token t) (current : Mailbox) :
    CredentialsKept settings token current
      (settings.writeProbe now nonce loaded assigned result current) := by
  have hflush : ∀ assigned' : Mailbox,
      assigned'.mailPasswordCiphertext = assigned.mailPasswordCiphertext →
      assigned'.clientId = assigned.clientId →
      (assigned'.refreshTokenCiphertext = assigned.refreshTokenCiphertext ∨
        settings.Holds assigned'.refreshTokenCiphertext token) →
      CredentialsKept settings token current (loaded.flush assigned' current) := by
    intro assigned' hpassword' hclient' hrefresh'
    refine flush_credentialsKept (hpassword'.trans hpassword) (hclient'.trans hclient) ?_ current
    rcases hrefresh' with hrefresh' | hholds
    · exact Or.inl (hrefresh'.trans hrefresh)
    · exact Or.inr hholds
  unfold TokenSettings.writeProbe
  split
  · exact hflush _ rfl rfl (Or.inl rfl)
  · rename_i r hr
    dsimp only
    split
    · exact hflush _ rfl rfl (Or.inl rfl)
    · rename_i t ht
      have hholds : settings.Holds (some (settings.encrypt (nonce + 1) t)) token := by
        refine ⟨nonce + 1, t, rfl, ?_⟩
        apply htoken
        have hreplacement : result.accessTokenReplacement = some r := by
          unfold TokenSettings.replacement at hr
          split at hr
          · exact hr
          · cases hr
        unfold TokenSettings.rotatedRefreshToken at ht
        split at ht
        · cases ht
        · rename_i hmissing
          have hne : t ≠ "" := by
            rintro rfl
            simp [ht, missing] at hmissing
          simp [hreplacement, MicrosoftTokenResponse.refreshTokens, ht, hne]
      have hfirst := hflush { settings.assignReplacement now nonce r assigned with
        refreshTokenCiphertext := some (settings.encrypt (nonce + 1) t) } rfl rfl
        (Or.inr hholds)
      have hbump : ∀ m : Mailbox, CredentialsKept settings token m m.bumpTokenVersion :=
        fun m => ⟨rfl, rfl, rfl, Or.inl rfl⟩
      -- the second flush assigns none of the credentials
      have hsecond : ∀ m : Mailbox, CredentialsKept settings token m
          (m.flush ((settings.bindAccessToken now m).applyCapabilityProbeResult now result)
            m) := by
        intro m
        refine flush_credentialsKept ?_ ?_ (Or.inl ?_) m <;> rfl
      exact (hfirst.trans (hbump _)).trans (hsecond _)

theorem keepsCredentials_probe {s : TokenShared} {nonce : ℕ} {loaded assigned : Mailbox}
    {result : CapabilityProbeResult}
    (hpassword : assigned.mailPasswordCiphertext = loaded.mailPasswordCiphertext)
    (hclient : assigned.clientId = loaded.clientId)
    (hrefresh : assigned.refreshTokenCiphertext = loaded.refreshTokenCiphertext)
    (htoken : ∀ t ∈ result.accessTokenReplacement.toList.flatMap
      MicrosoftTokenResponse.refreshTokens, token t) :
    KeepsCredentials settings token s.db
      (probeStep settings s nonce loaded assigned result).db := by
  unfold probeStep
  split
  · exact keepsCredentials_of_mailboxes rfl
  · apply keepsCredentials_update
    intro m
    exact writeProbe_credentialsKept hpassword hclient hrefresh htoken m

/-- A write-back stores the token it is given, or nothing. -/
theorem keepsCredentials_updateRefreshToken {s : TokenShared} {principal : ClientPrincipal}
    {leaseId refreshToken : String} {expectedTokenVersion nonce : ℕ} (h : token refreshToken) :
    KeepsCredentials settings token s.db (updateRefreshTokenStep settings s principal leaseId
      expectedTokenVersion refreshToken nonce).db := by
  unfold updateRefreshTokenStep
  split
  · rename_i e db hrun
    rw [Work.transact_error hrun]
    exact keepsCredentials_of_mailboxes rfl
  · rename_i result db hrun
    have hkept : KeepsCredentials settings token s.db db := by
      rcases updateRefreshToken_transact hrun with ⟨-, rfl⟩ | ⟨-, mailbox, -, -, -, rfl⟩
      · exact keepsCredentials_of_mailboxes rfl
      · apply keepsCredentials_update
        intro m
        exact ⟨rfl, rfl, rfl, Or.inr ⟨nonce, refreshToken, rfl, h⟩⟩
    split <;> exact hkept

/-- **Step lemma** for the service's own steps. -/
theorem keepsCredentials_service (s : TokenShared) (x : TokenWorker) {a : TokenAction}
    (hservice : a.byService = true ∨ ∃ microseconds, a = .advance microseconds)
    (htoken : ∀ t ∈ a.refreshTokens, token t) :
    KeepsCredentials settings token s.db (tokenAct settings s x a).2.db := by
  have hsame : KeepsCredentials settings token s.db s.db := keepsCredentials_of_mailboxes rfl
  cases a with
  | claim request claimId =>
      cases x with
      | idle =>
          simp only [tokenAct, claimStep]
          split
          · exact hsame
          split
          · exact hsame
          split
          · exact hsame
          · exact hsame
          split
          · exact hsame
          · rename_i claim db hclaim
            -- a claim touches none of the credentials
            obtain ⟨row, -, -, -, -, -, -, -, rfl⟩ := claimTokenRefresh_ok hclaim
            exact keepsCredentials_update fun m => ⟨rfl, rfl, rfl, Or.inl rfl⟩
      | _ => exact hsame
  | exchange answer nonce =>
      cases x with
      | exchanging request target claim startedAt =>
          simp only [tokenAct]
          rcases answer with (_ | _) | response
          · exact keepsCredentials_update fun m => ⟨rfl, rfl, rfl, Or.inl rfl⟩
          · exact keepsCredentials_update fun m => ⟨rfl, rfl, rfl, Or.inl rfl⟩
          · simp only [exchangeStep]
            split
            · exact hsame
            · rename_i hcomplete
              exact keepsCredentials_complete htoken hcomplete
      | _ => exact hsame
  | readForProbe => cases x <;> exact hsame
  | finishProbe result nonce =>
      cases x with
      | probing loaded clientWrites => exact keepsCredentials_probe rfl rfl rfl htoken
      | _ => exact hsame
  | probeCached request result nonce =>
      cases x with
      | idle =>
          simp only [tokenAct, probeCachedStep]
          split
          · exact hsame
          split
          · exact hsame
          split
          · exact hsame
          · exact hsame
          · refine keepsCredentials_probe ?_ ?_ persistScopeIfMissing_refreshToken htoken
            · unfold TokenSettings.persistScopeIfMissing
              split <;> rfl
            · unfold TokenSettings.persistScopeIfMissing
              split <;> rfl
      | _ => exact hsame
  | abandon => exact hsame
  | advance microseconds => exact keepsCredentials_of_mailboxes rfl
  | updateRefreshToken _ _ _ _ _ => rcases hservice with h | ⟨_, h⟩ <;> cases h
  | compareAndSwap _ _ _ => rcases hservice with h | ⟨_, h⟩ <;> cases h
  | increment _ _ => rcases hservice with h | ⟨_, h⟩ <;> cases h
  | readForImport _ => rcases hservice with h | ⟨_, h⟩ <;> cases h
  | importReplace _ _ => rcases hservice with h | ⟨_, h⟩ <;> cases h

end Keeps

/-! ## Steps that store by the rules -/

section Stored

variable {settings : TokenSettings} {rules : CredentialRules} {db db' : Database}

theorem allStored_of_keeps (h : AllStored settings rules db)
    (hkeeps : KeepsCredentials settings rules.token db db') : AllStored settings rules db' := by
  intro k m' hm'
  obtain ⟨m, hm, hkept⟩ := hkeeps k m' hm'
  have hstored := h k m hm
  constructor
  · rw [hkept.email]
    exact hstored.email
  · rw [hkept.mailPassword]
    exact hstored.mailPassword
  · rw [hkept.clientId]
    exact hstored.clientId
  · rcases hkept.refreshToken with hsame | hnew
    · rw [hsame]
      exact hstored.refreshToken
    · exact hnew

theorem allStored_replace {now nonce : ℕ} {item : MailboxImportItem} {existing : Mailbox}
    (h : AllStored settings rules db)
    (hexisting : db.mailboxes.get? existing.id = some existing)
    (hpassword : rules.segment item.mailPassword) (hclient : rules.segment item.clientId)
    (htoken : rules.token item.refreshToken) :
    AllStored settings rules
      (db.writeMailbox existing.id (assignImported settings now nonce item existing)) := by
  intro k m' hm'
  unfold Database.writeMailbox at hm'
  by_cases hk : k = existing.id
  · subst hk
    rw [updateMailbox_row hexisting, if_pos ⟨rfl, rfl⟩] at hm'
    rw [← Option.some.inj hm']
    have hstored := h _ existing hexisting
    -- the row is the loaded one, so the flush leaves what was assigned
    refine ⟨hstored.email, ⟨nonce + 1, item.mailPassword, ?_, hpassword⟩,
      ⟨item.clientId, ?_, hclient⟩, ⟨nonce, item.refreshToken, ?_, htoken⟩⟩
    · exact flushColumn_current _ _
    · exact flushColumn_current _ _
    · exact flushColumn_current _ _
  · rw [updateMailbox_get?_ne hk] at hm'
    exact h k m' hm'

theorem mailboxByEmail_get? {primaryEmail : String} {m : Mailbox}
    (h : db.mailboxByEmail primaryEmail = some m) : db.mailboxes.get? m.id = some m := by
  have hmem := Table.mem_select.mp (List.mem_of_mem_head? h)
  exact Table.get?_eq_some.mpr ⟨hmem.1, rfl⟩

theorem ImportProgress.replace_eq_some {now nonce : ℕ} {item : MailboxImportItem}
    {existing : Mailbox} {released : Database} {p p' : ImportProgress} :
    p.replace settings now nonce item existing released = some p' ↔
      settings.takes nonce item = true ∧
        { p with
          db := released.writeMailbox existing.id
            (assignImported settings now nonce item existing)
          updated := p.updated + 1 } = p' := by
  unfold ImportProgress.replace
  rw [Option.ite_none_right_eq_some, Option.some.injEq]

theorem storeImported_allStored {now lineNumber : ℕ} {request : MailboxImportRequest}
    {draw : ImportDraw} {c : MailboxCredentials} {p p' : ImportProgress}
    (h : AllStored settings rules p.db) (hemail : rules.email c.primaryEmail)
    (hpassword : rules.segment c.mailPassword) (hclient : rules.segment c.clientId)
    (htoken : rules.token c.refreshToken)
    (hstore : storeImported settings now request draw lineNumber c p = some p') :
    AllStored settings rules p'.db := by
  unfold storeImported at hstore
  dsimp only at hstore
  split at hstore
  · -- a new mailbox
    split at hstore
    swap
    · cases hstore
    obtain ⟨mailboxes, hinsert, rfl⟩ := Option.map_eq_some_iff.mp hstore
    intro k m hm
    have hrow := (Table.get?_insert? hinsert).symm.trans hm
    split at hrow
    · rw [← Option.some.inj hrow]
      exact ⟨hemail, ⟨draw.nonce + 1, c.mailPassword, rfl, hpassword⟩,
        ⟨c.clientId, rfl, hclient⟩, ⟨draw.nonce, c.refreshToken, rfl, htoken⟩⟩
    · exact h k m hrow
  · rename_i existing hexisting
    have hget := mailboxByEmail_get? hexisting
    split at hstore
    · cases hstore
      exact h
    split at hstore
    · cases hstore
      exact h
    · cases hstore
      exact h
    split at hstore
    · obtain ⟨-, rfl⟩ := ImportProgress.replace_eq_some.mp hstore
      exact allStored_replace h hget hpassword hclient htoken
    split at hstore
    · obtain ⟨-, rfl⟩ := ImportProgress.replace_eq_some.mp hstore
      -- the released claims and leases are in other tables
      have hreleased : AllStored settings rules
          (forceReleaseClaimsAndLeases p.db now existing.id) := h
      exact allStored_replace hreleased hget hpassword hclient htoken
    · cases hstore
      exact h

/-- **Import lemma.** An import stores by the rules that its lines meet. -/
theorem importMailboxes_allStored {now : ℕ} {request : MailboxImportRequest}
    {draw : ℕ → ImportDraw} {response : MailboxImportResponse}
    (h : AllStored settings rules db)
    (hlines : (CredentialAction.importMailboxes request draw).BringsIn rules)
    (himport : importMailboxes settings now request draw db = some (response, db')) :
    AllStored settings rules db' := by
  have hfold : ∀ (lines : List (ℕ × String)) (p p' : ImportProgress),
      (∀ line ∈ lines, line ∈ importLines request.content) →
      AllStored settings rules p.db →
      lines.foldlM (importLine settings now request draw) p = some p' →
      AllStored settings rules p'.db := by
    intro lines
    induction lines with
    | nil =>
        intro p p' _ hp hfolded
        cases hfolded
        exact hp
    | cons line lines ih =>
        intro p p' hmem hp hfolded
        rw [List.foldlM_cons, Option.bind_eq_bind, Option.bind_eq_some_iff] at hfolded
        obtain ⟨q, hline, hrest⟩ := hfolded
        rw [List.forall_mem_cons] at hmem
        refine ih q p' hmem.2 ?_ hrest
        unfold importLine at hline
        split at hline
        · cases hline
          exact hp
        · rename_i c hparsed
          split at hline
          · cases hline
            exact hp
          · have hc : .ok c ∈ parsedLines request.content := by
              rw [← hparsed]
              exact List.mem_map_of_mem hmem.1
            obtain ⟨hemail, hpassword, hclient, htoken⟩ := hlines c hc
            have hseen : AllStored settings rules { p with
                seenPrimaryEmails := c.primaryEmail :: p.seenPrimaryEmails }.db := hp
            exact storeImported_allStored hseen hemail hpassword hclient htoken hline
  unfold importMailboxes at himport
  obtain ⟨p, hfolded, hresult⟩ := Option.map_eq_some_iff.mp himport
  have hdb : p.db = db' := congrArg Prod.snd hresult
  rw [← hdb]
  exact hfold _ _ p (fun _ hline => hline) h hfolded

/-- **Step lemma** for every action. -/
theorem credentialAct_allStored {s : TokenShared} {x : TokenWorker} {a : CredentialAction}
    (h : AllStored settings rules s.db) (hadmitted : Admitted settings s x a)
    (hrules : a.BringsIn rules) :
    AllStored settings rules (credentialAct settings s x a).2.db := by
  cases a with
  | importMailboxes request draw =>
      simp only [credentialAct]
      split
      · exact h
      · rename_i response db himport
        exact importMailboxes_allStored h hrules himport
  | updateRefreshToken principal leaseId request nonce =>
      simp only [credentialAct]
      split
      · exact h
      · rename_i accepted haccepted
        exact allStored_of_keeps h
          (keepsCredentials_updateRefreshToken (hrules accepted haccepted))
  | service action =>
      exact allStored_of_keeps h (keepsCredentials_service s x hadmitted.1 hrules)
  | elsewhere db =>
      refine allStored_of_keeps h ?_
      intro k m' hm'
      obtain ⟨m, hm, hkept⟩ := hadmitted k m' hm'
      refine ⟨m, hm, hkept.email, hkept.mailPassword, hkept.clientId, ?_⟩
      rcases hkept.refreshToken with hsame | ⟨_, _, _, hfalse⟩
      · exact Or.inl hsame
      · exact hfalse.elim

end Stored

/-! ## What comes in -/

def checkedRules : CredentialRules where
  email := ValidEmail
  segment := ImportedSegment
  token := AdmittedToken

def exportableRules : CredentialRules where
  email s := ValidEmail s ∧ ¬ segmentSeparator.toList <:+: s.toList ∧
    s.toList.getLast? ≠ some '-'
  segment s := ImportedSegment s ∧ s.toList.getLast? ≠ some '-'
  token s := AdmittedToken s ∧ Text.Trimmed s.toList ∧
    ∀ ch ∈ s.toList, Text.isLineBoundary ch = false

theorem mem_importLines {content : String} {line : ℕ × String} (h : line ∈ importLines content) :
    ∀ ch ∈ line.2.toList, Text.isLineBoundary ch = false := by
  unfold importLines at h
  obtain ⟨⟨raw, n⟩, hmem, hline⟩ := List.mem_filterMap.mp h
  have hraw : raw ∈ Text.splitlines content := by
    have hfst := List.mem_map_of_mem (f := Prod.fst) hmem
    rwa [List.zipIdx_map_fst] at hfst
  split at hline
  · cases hline
  · cases hline
    obtain ⟨l, hl, rfl⟩ := List.mem_map.mp hraw
    rw [String.toList_ofList]
    exact Text.not_boundary_of_mem_cutLines hl

theorem bringsIn_of_admitted {settings : TokenSettings} {s : TokenShared} {x : TokenWorker}
    {a : CredentialAction} (h : Admitted settings s x a) : a.BringsIn checkedRules := by
  cases a with
  | importMailboxes request draw =>
      intro c hc
      obtain ⟨line, hline, hparsed⟩ := List.mem_map.mp hc
      obtain ⟨hemail, hpassword, hclient, htoken⟩ :=
        parseMailboxImportLine_storable hparsed (mem_importLines hline)
      exact ⟨hemail, hpassword, hclient, htoken.admittedToken⟩
  | updateRefreshToken principal leaseId request nonce =>
      intro accepted haccepted
      unfold LeaseRefreshTokenUpdateRequest.validated at haccepted
      split at haccepted
      · cases haccepted
      · cases hvalid : validateRefreshToken request.refreshToken with
        | error e =>
            rw [hvalid] at haccepted
            cases haccepted
        | ok token =>
            rw [hvalid] at haccepted
            cases haccepted
            show AdmittedToken token
            rw [(validateRefreshToken_ok hvalid).1]
            exact (admittedToken_of_validated hvalid).strip
  | service action =>
      intro token htoken
      obtain ⟨accepted, haccepted⟩ := h.2 token htoken
      exact admittedToken_of_validated haccepted
  | elsewhere db => trivial

/-! ## What an export gives -/

section Export

variable {settings : TokenSettings} {db : Database}

theorem exportCredentials_of_stored (hcipher : settings.CipherRoundTrips) {m : Mailbox}
    (h : m.StoredBy settings checkedRules) :
    ∃ c : MailboxCredentials, c.Storable ∧ c.primaryEmail = m.primaryEmail ∧
      settings.storedCredentials m = some c ∧
      settings.exportCredentials m = .ok (some c) := by
  obtain ⟨nonce, password, hpassword, hsegment⟩ := h.mailPassword
  obtain ⟨client, hclient, hsegment'⟩ := h.clientId
  obtain ⟨nonce', token, htoken, hadmitted⟩ := h.refreshToken
  have hne : token ≠ "" := by
    rintro rfl
    exact hadmitted.not_blank rfl
  refine ⟨⟨m.primaryEmail, password, client, token⟩, ⟨h.email, hsegment, hsegment', hadmitted⟩,
    rfl, ?_, ?_⟩
  · unfold TokenSettings.storedCredentials
    simp [hpassword, hclient, htoken, hcipher.decrypt_encrypt, Except.toOption]
  · have hemail : m.primaryEmail ≠ "" := ValidEmail.ne_empty h.email
    unfold TokenSettings.exportCredentials
    simp [hpassword, hclient, htoken, hcipher.decrypt_encrypt, hcipher.encrypt_ne_empty, missing,
      hemail, hsegment.ne_empty, hsegment'.ne_empty, hne]

theorem exportable_of_stored (hcipher : settings.CipherRoundTrips) {m : Mailbox}
    {c : MailboxCredentials} (h : m.StoredBy settings exportableRules)
    (hc : settings.storedCredentials m = some c) : c.Exportable := by
  obtain ⟨nonce, password, hpassword, hsegment⟩ := h.mailPassword
  obtain ⟨client, hclient, hsegment'⟩ := h.clientId
  obtain ⟨nonce', token, htoken, hadmitted⟩ := h.refreshToken
  unfold TokenSettings.storedCredentials at hc
  simp only [hpassword, hclient, htoken, hcipher.decrypt_encrypt, Except.toOption,
    Option.bind_some, Option.bind_eq_bind, Option.pure_def, Option.some.injEq] at hc
  subst hc
  exact ⟨h.email.2.1, h.email.2.2, hsegment.2, hsegment'.2, hadmitted.2.1, hadmitted.2.2⟩

theorem exportMailboxes_of_stored (hcipher : settings.CipherRoundTrips)
    (h : AllStored settings checkedRules db) {mailboxIds : List String} {ms : List Mailbox}
    (hms : mailboxIds.map db.mailboxes.get? = ms.map some) :
    ∃ cs : List MailboxCredentials, (∀ c ∈ cs, c.Storable) ∧
      ms.map settings.storedCredentials = cs.map some ∧
      exportMailboxes settings db mailboxIds =
        .ok (exportContent (cs.map formatMailboxImportLine)) := by
  have hrows : ∀ m ∈ ms, m.StoredBy settings checkedRules := by
    intro m hm
    have hmem : some m ∈ mailboxIds.map db.mailboxes.get? := by
      rw [hms]
      exact List.mem_map_of_mem hm
    obtain ⟨id, -, hget⟩ := List.mem_map.mp hmem
    exact h id m hget
  have hpresent : (mailboxIds.filter fun id => (db.mailboxes.get? id).isNone) = [] := by
    rw [List.filter_eq_nil_iff]
    intro id hid hnone
    have hmem : db.mailboxes.get? id ∈ ms.map some := by
      rw [← hms]
      exact List.mem_map_of_mem hid
    obtain ⟨m, -, hm⟩ := List.mem_map.mp hmem
    rw [← hm] at hnone
    cases hnone
  have hloaded : mailboxIds.filterMap db.mailboxes.get? = ms := by
    have hmap := congrArg (List.filterMap id) hms
    simpa [List.filterMap_map] using hmap
  -- the loop over the rows ends with the credentials of each
  have hexported : ∃ cs : List MailboxCredentials, (∀ c ∈ cs, c.Storable) ∧
      ms.map settings.storedCredentials = cs.map some ∧
      (ms.mapM fun m => (settings.exportCredentials m).map fun c => (m.primaryEmail, c)) =
        .ok (cs.map fun c => (c.primaryEmail, some c)) := by
    clear hms hloaded
    induction ms with
    | nil => exact ⟨[], fun c hc => absurd hc List.not_mem_nil, rfl, rfl⟩
    | cons m ms ih =>
        rw [List.forall_mem_cons] at hrows
        obtain ⟨cs, hstorable, hstored, hmapM⟩ := ih hrows.2
        obtain ⟨c, hc, hemail, hcredentials, hexport⟩ :=
          exportCredentials_of_stored hcipher hrows.1
        refine ⟨c :: cs, List.forall_mem_cons.mpr ⟨hc, hstorable⟩, ?_, ?_⟩
        · rw [List.map_cons, List.map_cons, hcredentials, hstored]
        · rw [List.mapM_cons, hexport, hmapM, ← hemail]
          rfl
  obtain ⟨cs, hstorable, hstored, hmapM⟩ := hexported
  refine ⟨cs, hstorable, hstored, ?_⟩
  have hcomplete : ((cs.map fun c => (c.primaryEmail, some c)).filterMap fun e =>
      if e.2.isNone then some e.1 else none) = [] := by
    rw [List.filterMap_map, List.filterMap_eq_nil_iff]
    intro c _
    rfl
  have hlines : ((cs.map fun c => (c.primaryEmail, some c)).filterMap fun e =>
      e.2.map formatMailboxImportLine) = cs.map formatMailboxImportLine := by
    rw [List.filterMap_map, ← List.filterMap_eq_map]
    rfl
  unfold exportMailboxes
  simp only [hpresent, hloaded, hmapM, ne_eq, not_true_eq_false, if_false]
  show (if ((cs.map fun c => (c.primaryEmail, some c)).filterMap fun e =>
      if e.2.isNone then some e.1 else none) ≠ [] then _ else _) = _
  rw [if_neg (not_not.mpr hcomplete), hlines]

end Export

/-! ## The campaign's theorem -/

/-- The state after a run of administrators, clients and the service, from a
database without mailboxes. -/
def credentialRun {ι : Type*} [DecidableEq ι] (settings : TokenSettings) (db : Database)
    (now : ℕ) (es : List (ι × CredentialAction)) : TokenShared :=
  (exec (Threads.step (credentialAct settings)) (tokenStart db now) es).shared

theorem credentialRun_allStored {ι : Type*} [DecidableEq ι] {settings : TokenSettings}
    {rules : CredentialRules} {db : Database} {now : ℕ} (hdb : db.mailboxes = ∅)
    {es : List (ι × CredentialAction)}
    (hes : Meets (Threads.step (credentialAct settings))
      (fun t e => t.At (Admitted settings) e ∧ e.2.BringsIn rules) (tokenStart db now) es) :
    AllStored settings rules (credentialRun settings db now es).db := by
  refine exec_invariant_of_meets (P := fun t => AllStored settings rules t.shared.db)
    (fun t e h hok => credentialAct_allStored h hok.1 hok.2) ?_ hes
  intro k m hm
  have hm' : (∅ : Table mailboxSchema).get? k = some m := by
    rw [← hdb]
    exact hm
  exact absurd (Table.mem_of_get? hm') (Table.not_mem_empty m)

/-- **An export reads back exactly if every exported value is exportable.** After
any run of imports, write-backs and refreshes with admitted refresh tokens, any
mailboxes there are can be exported, and the import's parser reads their text as
what is stored if and only if every one of them is exportable. All of them are
in a run that brings in exportable values only. -/
theorem export_reads_back_iff {ι : Type*} [DecidableEq ι] (settings : TokenSettings)
    (hcipher : settings.CipherRoundTrips) (db : Database) (now : ℕ)
    (hdb : db.mailboxes = ∅) (es : List (ι × CredentialAction))
    (hes : Meets (Threads.step (credentialAct settings)) (Threads.At (Admitted settings))
      (tokenStart db now) es) (mailboxIds : List String) (ms : List Mailbox)
    (hms : mailboxIds.map (credentialRun settings db now es).db.mailboxes.get? = ms.map some) :
    ∃ (cs : List MailboxCredentials) (content : String),
      ms.map settings.storedCredentials = cs.map some ∧
      exportMailboxes settings (credentialRun settings db now es).db mailboxIds = .ok content ∧
      (parsedLines content = cs.map .ok ↔ ∀ c ∈ cs, c.Exportable) ∧
      ((∀ e ∈ es, e.2.BringsIn exportableRules) → ∀ c ∈ cs, c.Exportable) := by
  have hchecked : AllStored settings checkedRules (credentialRun settings db now es).db := by
    apply credentialRun_allStored hdb
    refine Meets.imp_of_invariant (P := fun _ => True) (fun _ _ _ _ => trivial) ?_ trivial hes
    intro t e _ hadmitted
    exact ⟨hadmitted, bringsIn_of_admitted hadmitted⟩
  obtain ⟨cs, hstorable, hstored, hexport⟩ := exportMailboxes_of_stored hcipher hchecked hms
  refine ⟨cs, _, hstored, hexport, ?_, ?_⟩
  · have hblocks := parsedFrom_blocks_iff hstorable 1
    rw [← splitlines_exportContent] at hblocks
    exact hblocks
  · intro hbrings
    have hexportable : AllStored settings exportableRules
        (credentialRun settings db now es).db :=
      credentialRun_allStored hdb (hes.and (meets_of_forall_mem hbrings))
    intro c hc
    have hmem : some c ∈ ms.map settings.storedCredentials := by
      rw [hstored]
      exact List.mem_map_of_mem hc
    obtain ⟨m, hm, hcredentials⟩ := List.mem_map.mp hmem
    have hget : some m ∈ mailboxIds.map (credentialRun settings db now es).db.mailboxes.get? := by
      rw [hms]
      exact List.mem_map_of_mem hm
    obtain ⟨id, -, hrow⟩ := List.mem_map.mp hget
    exact exportable_of_stored hcipher (hexportable id m hrow) hcredentials

/-- What is stored of the mailboxes is what the import's parser reads in their
export. -/
def readsBack (settings : TokenSettings) (db : Database) (mailboxIds : List String) : Bool :=
  match exportMailboxes settings db mailboxIds with
  | .error _ => false
  | .ok content =>
      (parsedLines content).map Except.toOption =
        (mailboxIds.filterMap db.mailboxes.get?).map settings.storedCredentials

end

/-! ## A platform with white space outside ASCII -/

/-- White space as `str.isspace` has it. -/
def isPythonSpace (c : Char) : Bool :=
  Ascii.isSpace c || (28 ≤ c.toNat && c.toNat ≤ 31) || (8192 ≤ c.toNat && c.toNat ≤ 8202) ||
    [133, 160, 5760, 8232, 8233, 8239, 8287, 12288].contains c.toNat

theorem isPythonSpace_toLower (c : Char) : isPythonSpace c.toLower = isPythonSpace c := by
  unfold isPythonSpace
  rw [Ascii.isSpace_toLower, Ascii.toNat_toLower]
  split
  · rename_i h
    rw [Bool.eq_iff_iff]
    simp only [List.contains_iff_mem, List.mem_cons, List.not_mem_nil, or_false, Bool.or_eq_true,
      Bool.and_eq_true, decide_eq_true_eq, or_assoc]
    apply or_congr_right
    omega
  · rfl

theorem toLower_isPythonSpace (c d : Char) (hd : d ∈ [c.toLower]) :
    isPythonSpace d = isPythonSpace c := by
  rw [List.mem_singleton] at hd
  rw [hd, isPythonSpace_toLower]

theorem isPythonSpace_plus : isPythonSpace '+' = false := rfl

/-- Printable ASCII with an `@` in it. -/
def isPlainAddress (s : String) : Bool :=
  s.toList.contains '@' && s.toList.all fun c => 33 ≤ c.toNat && c.toNat ≤ 126

@[reducible] def pythonSpaces : PythonText where
  lowerChar c := [c.toLower]
  isSpace := isPythonSpace
  lowerChar_ne_nil := asciiText.lowerChar_ne_nil
  lowerChar_lower := asciiText.lowerChar_lower
  lowerChar_space := toLower_isPythonSpace
  plus_not_space := isPythonSpace_plus

theorem boundary_isPythonSpace (c : Char) (h : Text.isLineBoundary c = true) :
    isPythonSpace c = true := by
  unfold Text.isLineBoundary at h
  unfold isPythonSpace Ascii.isSpace
  simp only [List.contains_iff_mem, List.mem_cons, List.not_mem_nil, or_false, Bool.or_eq_true,
    Bool.and_eq_true, decide_eq_true_eq] at h ⊢
  omega

theorem plainAddress_printable (s : String) (h : isPlainAddress s = true) :
    s ≠ "" ∧ ∀ c ∈ s.toList, isPythonSpace c = false ∧ c ≠ '\ufeff' := by
  unfold isPlainAddress at h
  rw [Bool.and_eq_true, List.all_eq_true] at h
  constructor
  · rintro rfl
    exact absurd h.1 (by decide)
  · intro c hc
    have hrange := h.2 c hc
    simp only [Bool.and_eq_true, decide_eq_true_eq] at hrange
    constructor
    · unfold isPythonSpace Ascii.isSpace
      rw [← Bool.not_eq_true]
      simp only [List.contains_iff_mem, List.mem_cons, List.not_mem_nil, or_false,
        Bool.or_eq_true, Bool.and_eq_true, decide_eq_true_eq]
      omega
    · rintro rfl
      have hmark : '\ufeff'.toNat = 65279 := rfl
      omega

/-- `validate_email` for plain addresses, which are their own normal form. -/
def validatePlainAddress (s : String) : Option String :=
  if isPlainAddress s then some s else none

theorem validatePlainAddress_eq_some (address email : String)
    (h : validatePlainAddress address = some email) :
    isPlainAddress address = true ∧ address = email := by
  unfold validatePlainAddress at h
  rw [Option.ite_none_right_eq_some] at h
  exact ⟨h.1, Option.some.inj h.2⟩

theorem validatePlainAddress_normalized (address email : String)
    (h : validatePlainAddress address = some email) :
    validatePlainAddress email = some email := by
  obtain ⟨haddress, rfl⟩ := validatePlainAddress_eq_some address email h
  exact h

theorem validatePlainAddress_printable (address email : String)
    (h : validatePlainAddress address = some email) :
    email ≠ "" ∧ ∀ c ∈ email.toList, isPythonSpace c = false ∧ c ≠ '\ufeff' := by
  obtain ⟨haddress, rfl⟩ := validatePlainAddress_eq_some address email h
  exact plainAddress_printable address haddress

@[reducible] def plainAddresses : ImportPlatform :=
  { pythonSpaces with
    key := @Text.lower pythonSpaces
    key_lower := @Text.lower_lower pythonSpaces
    boundary_space := boundary_isPythonSpace
    hyphen_not_space := rfl
    validateEmail := validatePlainAddress
    validateEmail_normalized := validatePlainAddress_normalized
    validateEmail_printable := validatePlainAddress_printable }

section Sample

attribute [local instance] plainAddresses

theorem sampleCipher_roundTrips : sampleTokenSettings.CipherRoundTrips where
  decrypt_encrypt nonce text := by
    show Except.ok (String.ofList _) = Except.ok text
    simp [sampleTokenSettings]
  encrypt_ne_empty nonce text := by
    show String.ofList _ ≠ ""
    simp

def importEvent (content : String) : Unit × CredentialAction :=
  ((), .importMailboxes { content := content } fun _ => ⟨"m", 65⟩)

def rotatedRun (refreshToken : String) : List (Unit × CredentialAction) :=
  [importEvent "a@b.co----p----c----t",
    ((), .service (.claim { mailboxId := "m" } "claim")),
    ((), .service (.exchange (.ok (sampleAnswer "access" "scope" (some refreshToken))) 67))]

/-- The sample password ends with a hyphen, with a space to keep it from the
separator. -/
def hyphenRun : List (Unit × CredentialAction) :=
  [importEvent "a@b.co----p- ----c----t"]

theorem rotatedRun_admitted {refreshToken accepted : String}
    (h : validateRefreshToken refreshToken = .ok accepted) (now : ℕ) :
    Meets (Threads.step (credentialAct sampleTokenSettings))
      (Threads.At (Admitted sampleTokenSettings)) (tokenStart {} now)
      (rotatedRun refreshToken) := by
  refine ⟨trivial, ⟨Or.inl rfl, ?_⟩, ⟨Or.inl rfl, ?_⟩, trivial⟩
  · intro token htoken
    cases htoken
  · intro token htoken
    have hsent : token ∈ ((some refreshToken).filter (· ≠ "")).toList := htoken
    rw [Option.mem_toList, Option.filter_eq_some_iff] at hsent
    cases hsent.1
    exact ⟨accepted, h⟩

def sampleRow : Mailbox :=
  ((credentialRun sampleTokenSettings {} 0 (rotatedRun "n")).db.mailboxes.get? "m").getD
    { id := "", primaryEmail := "" }

/-- What the row stores after the refresh. -/
def sampleCredentials : MailboxCredentials where
  primaryEmail := "a@b.co"
  mailPassword := "p"
  clientId := "c"
  refreshToken := "n"

theorem sampleCredentials_exportable : sampleCredentials.Exportable where
  email_free := by
    intro hpart
    have hdash := hpart.subset (List.mem_cons_self : '-' ∈ segmentSeparator.toList)
    revert hdash
    decide
  email_end := by decide
  password_end := by decide
  clientId_end := by decide
  token_trimmed := by
    constructor
    · intro ch hch
      cases hch
      decide
    · intro ch hch
      cases hch
      decide
  token_oneLine := by
    intro ch hch
    rw [List.mem_singleton.mp hch]
    decide

/-- The rotated refresh token is read back with the other values. -/
theorem export_reads_back_sample :
    ∃ content, exportMailboxes sampleTokenSettings
        (credentialRun sampleTokenSettings {} 0 (rotatedRun "n")).db ["m"] = .ok content ∧
      parsedLines content = [.ok sampleCredentials] := by
  have hnext : validateRefreshToken "n" = .ok "n" := by decide +kernel
  have hrow : ["m"].map
      (credentialRun sampleTokenSettings {} 0 (rotatedRun "n")).db.mailboxes.get? =
        [sampleRow].map some := by
    decide +kernel
  obtain ⟨cs, content, hstored, hexport, hiff, -⟩ :=
    export_reads_back_iff sampleTokenSettings sampleCipher_roundTrips {} 0 rfl
      (rotatedRun "n") (rotatedRun_admitted hnext 0) ["m"] [sampleRow] hrow
  have hvalues : [sampleRow].map sampleTokenSettings.storedCredentials =
      [sampleCredentials].map some := by
    decide +kernel
  obtain rfl : [sampleCredentials] = cs :=
    List.map_injective_iff.mpr (Option.some_injective _) (hvalues.symm.trans hstored)
  refine ⟨content, hexport, hiff.mpr ?_⟩
  intro c hc
  rw [List.mem_singleton.mp hc]
  exact sampleCredentials_exportable

/-- A password that ends with a hyphen moves the next separator by one, and a
refresh token with a line separator, which the check of a write-back admits, is
cut in two. -/
theorem hyphen_and_line_separator_lost :
    (Meets (Threads.step (credentialAct sampleTokenSettings))
        (Threads.At (Admitted sampleTokenSettings)) (tokenStart {} 0) hyphenRun ∧
      readsBack sampleTokenSettings (credentialRun sampleTokenSettings {} 0 hyphenRun).db
        ["m"] = false) ∧
    Meets (Threads.step (credentialAct sampleTokenSettings))
        (Threads.At (Admitted sampleTokenSettings)) (tokenStart {} 0)
        (rotatedRun "n\u2028t") ∧
      readsBack sampleTokenSettings
        (credentialRun sampleTokenSettings {} 0 (rotatedRun "n\u2028t")).db
        ["m"] = false := by
  have hadmitted : validateRefreshToken "n\u2028t" = .ok "n\u2028t" := by
    decide +kernel
  refine ⟨⟨⟨trivial, trivial⟩, ?_⟩, rotatedRun_admitted hadmitted 0, ?_⟩
  · decide +kernel
  · decide +kernel

end Sample

end MailboxService
