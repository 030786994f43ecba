import MailboxService.Ascii
import MailboxService.CredentialCipher
import MailboxService.ProxyService.Health

/-!
# Administration of egress proxies

The endpoints of `main.py` that create, change and delete egress proxies. A proxy
is identified by its endpoint and a fingerprint of its credentials, which are
stored encrypted. A request reads the row without a lock and writes the columns
it has changed when it commits, while other requests do the same.

`administration_safe` says what holds of the stored proxies after any run, and
what holds as long as no update writes over credentials that have changed since
it read them.
-/

namespace MailboxService

open Foundation

/-! ## Data -/

/-- A row of `egress_proxies` with the columns that administration adds. -/
structure EgressProxyRow extends EgressProxy where
  name : String
  credentialFingerprint : String
  deriving DecidableEq, Repr

/-- The cipher of the settings, and the two digests in hexadecimal. -/
structure ProxyAdmin where
  cipher : Option CredentialCipher
  sha256 : List UInt8 → String
  hmacSha256 : List UInt8 → List UInt8 → String

inductive AdminError where
  | http (status : ℕ) (code message : String)
  | uncaught (error : CipherError)
  /-- `StaleDataError`: the row is gone. -/
  | stale
  deriving DecidableEq, Repr

structure EgressProxyCreate where
  name : String
  protocol : EgressProxyProtocol
  host : String
  port : ℕ
  username : Option String := none
  password : Option String := none
  enabled : Bool := true
  priority : ℤ := 100
  copyCredentialsFromProxyId : Option String := none
  deriving DecidableEq, Repr

/-- The fields of a change. For those that `model_fields_set` is asked about, a
field that is set may be null. -/
structure EgressProxyUpdate where
  name : Option String := none
  protocol : Option (Option EgressProxyProtocol) := none
  host : Option (Option String) := none
  port : Option (Option ℕ) := none
  username : Option (Option String) := none
  password : Option (Option String) := none
  enabled : Option Bool := none
  priority : Option ℤ := none
  deriving DecidableEq, Repr

/-- What `os.urandom(12)` returns. -/
abbrev Nonce := { bytes : List UInt8 // bytes.length = 12 }

structure ProxyDraw where
  id : String
  usernameNonce : Nonce
  passwordNonce : Nonce
  deriving DecidableEq, Repr

/-- One of the fields that make up the identity of a proxy is written. -/
def EgressProxyUpdate.writesIdentity (payload : EgressProxyUpdate) : Bool :=
  payload.username.isSome || payload.password.isSome || payload.protocol.isSome ||
    payload.host.isSome || payload.port.isSome

/-- What a flush of the assigned values leaves in the row of a proxy. -/
def EgressProxyRow.flush (loaded assigned current : EgressProxyRow) : EgressProxyRow where
  toEgressProxy :=
    { loaded.toEgressProxy.flush assigned.toEgressProxy current.toEgressProxy with
      protocol := flushColumn loaded.protocol assigned.protocol current.protocol
      host := flushColumn loaded.host assigned.host current.host
      port := flushColumn loaded.port assigned.port current.port
      usernameCiphertext := flushColumn loaded.usernameCiphertext assigned.usernameCiphertext
        current.usernameCiphertext
      passwordCiphertext := flushColumn loaded.passwordCiphertext assigned.passwordCiphertext
        current.passwordCiphertext
      enabled := flushColumn loaded.enabled assigned.enabled current.enabled
      priority := flushColumn loaded.priority assigned.priority current.priority }
  name := flushColumn loaded.name assigned.name current.name
  credentialFingerprint := flushColumn loaded.credentialFingerprint
    assigned.credentialFingerprint current.credentialFingerprint

/-- What a write to the columns of `EgressProxy` leaves. -/
def EgressProxyRow.onProxy (write : EgressProxy → EgressProxy) (row : EgressProxyRow) :
    EgressProxyRow where
  toEgressProxy := write row.toEgressProxy
  name := row.name
  credentialFingerprint := row.credentialFingerprint

theorem MailboxBinding.updateBinding_keeps (newProxyId : Option String) (now : ℕ) :
    bindingSchema.Keeps fun m => m.updateBinding newProxyId now :=
  Schema.keyed_keeps fun m => by unfold MailboxBinding.updateBinding; split <;> rfl

/-- What a deletion leaves of a binding that it ends. -/
def MailboxBinding.unbind (affectedMailboxes : List String) (now : ℕ) (m : MailboxBinding) :
    MailboxBinding :=
  if affectedMailboxes.contains m.id then
    { m with egressProxyId := none, proxyBoundAt := none, proxyLastSwitchAt := some now }
  else { m with egressProxyId := none }

theorem MailboxBinding.unbind_keeps (affectedMailboxes : List String) (now : ℕ) :
    bindingSchema.Keeps (MailboxBinding.unbind affectedMailboxes now) :=
  Schema.keyed_keeps fun m => by unfold unbind; split <;> rfl

/-! ## Errors -/

def proxyNotFound : AdminError := .http 404 "EGRESS_PROXY_NOT_FOUND" "出口代理不存在"

def encryptionNotConfigured (message : String) : AdminError :=
  .http 503 "CREDENTIAL_ENCRYPTION_NOT_CONFIGURED" message

def endpointConflictMarkers : List String :=
  ["uq_egress_proxies_endpoint_credentials", "uq_egress_proxies_endpoint",
   "credential_fingerprint", "egress_proxies.protocol",
   "protocol, egress_proxies.host, egress_proxies.port", "protocol, host, port"]

def nameConflictMarkers : List String := ["uq_egress_proxies_name", "egress_proxies.name"]

/-- `raise_for_egress_proxy_integrity_error`, by the text of the database. -/
def integrityConflict [PythonText] (errorMessage : String) : AdminError :=
  let loweredErrorMessage := (Text.lower errorMessage).toList
  if endpointConflictMarkers.any fun marker => marker.toList <:+: loweredErrorMessage then
    .http 409 "EGRESS_PROXY_ENDPOINT_CONFLICT"
      ("相同协议、主机、端口以及用户名/密码的出口代理已存在。" ++
        "代理池节点若用户名或密码不同可分别创建；完全相同则请编辑现有代理。")
  else if nameConflictMarkers.any fun marker => marker.toList <:+: loweredErrorMessage then
    .http 409 "EGRESS_PROXY_NAME_CONFLICT" "出口代理名称已存在，请更换名称后再试。"
  else .http 409 "EGRESS_PROXY_CONFLICT" "出口代理保存冲突，请检查名称与端点是否重复。"

/-! ## Credentials -/

/-- What `build_proxy_credential_fingerprint` takes the digest of. -/
def credentialMaterial [PythonText] (username password : Option String) : String :=
  Text.strip (username.getD "") ++ "\x00" ++ password.getD ""

def normalizeOptionalProxySecret (value : Option String) : Option String :=
  value.filter (· ≠ "")

def openSecret (cipher : CredentialCipher) (ciphertext : Option String) :
    Except CipherError (Option String) :=
  match ciphertext with
  | none => .ok none
  | some ciphertext =>
      if ciphertext = "" then .ok none else (cipher.decrypt ciphertext).map some

namespace ProxyAdmin

def digest (admin : ProxyAdmin) (material : String) : String :=
  match admin.cipher with
  | none =>
      admin.sha256 (Utf8.encode ("mailbox-service-proxy-credential\x00" ++ material).toList)
  | some cipher => admin.hmacSha256 cipher.key (Utf8.encode material.toList)

/-- `resolve_proxy_credential_fingerprint`. -/
def fingerprint [PythonText] (admin : ProxyAdmin) (username password : Option String) : String :=
  admin.digest (credentialMaterial username password)

/-- The ciphertext of a secret that is there, under a key that is there. -/
def encrypted (admin : ProxyAdmin) (nonce : Nonce) (secret : Option String) : Option String :=
  match admin.cipher, secret with
  | some cipher, some plaintext => some (cipher.encrypt nonce plaintext)
  | _, _ => none

/-- `read_proxy_plaintext_credentials`. -/
def readCredentials (admin : ProxyAdmin) (proxy : EgressProxyRow) :
    Except CipherError (Option String × Option String) :=
  match admin.cipher with
  | none => .ok (none, none)
  | some cipher =>
      match openSecret cipher proxy.usernameCiphertext with
      | .error e => .error e
      | .ok username =>
          match openSecret cipher proxy.passwordCiphertext with
          | .error e => .error e
          | .ok password => .ok (username, password)

end ProxyAdmin

/-! ## Stored secrets -/

theorem normalize_getD (value : Option String) :
    (normalizeOptionalProxySecret value).getD "" = value.getD "" := by
  unfold normalizeOptionalProxySecret
  cases value with
  | none => rfl
  | some value => by_cases hvalue : value = "" <;> simp [Option.filter, hvalue]

theorem written_getD {written : Option (Option String)} {current : Option String}
    (h : ∀ value ∈ written, current = normalizeOptionalProxySecret value) :
    (written.getD current).getD "" = current.getD "" := by
  cases written with
  | none => rfl
  | some value => rw [h value rfl, normalize_getD, Option.getD_some]

theorem normalize_mem {value : Option String} {text : String}
    (h : text ∈ normalizeOptionalProxySecret value) : text ∈ value ∧ text ≠ "" := by
  unfold normalizeOptionalProxySecret at h
  simpa [Option.filter_eq_some_iff] using h

/-- A secret from the form, or else a copied one. -/
theorem chosen_mem {given source : Option String} {supplied : List String}
    (h : ∀ plaintext ∈ source, plaintext ∈ supplied ∧ plaintext ≠ "") :
    ∀ plaintext ∈ (normalizeOptionalProxySecret given).or source,
      plaintext ∈ given.toList ++ supplied ∧ plaintext ≠ "" := by
  intro plaintext hmem
  rcases Option.or_eq_some_iff.mp hmem with hgiven | ⟨-, hcopied⟩
  · obtain ⟨hmem, hne⟩ := normalize_mem hgiven
    exact ⟨List.mem_append_left _ (Option.mem_toList.mpr hmem), hne⟩
  · exact ⟨List.mem_append_right _ (h plaintext hcopied).1, (h plaintext hcopied).2⟩

namespace ProxyAdmin

/-- A stored secret can be decrypted, to a text that some request has supplied. -/
def Sealed (admin : ProxyAdmin) (supplied : List String) (ciphertext : Option String) : Prop :=
  ∀ c ∈ ciphertext, ∃ cipher ∈ admin.cipher, ∃ plaintext ∈ supplied,
    plaintext ≠ "" ∧ cipher.decrypt c = .ok plaintext

/-- The cipher as the services that use a proxy are given it. -/
def decryptor (admin : ProxyAdmin) (describe : CipherError → String) :
    Option (String → Except String String) :=
  admin.cipher.map fun cipher ciphertext => (cipher.decrypt ciphertext).mapError describe

variable {admin : ProxyAdmin} {supplied supplied' : List String}

theorem Sealed.mono {ciphertext : Option String} (h : admin.Sealed supplied ciphertext)
    (hsub : supplied ⊆ supplied') : admin.Sealed supplied' ciphertext := by
  intro c hc
  obtain ⟨cipher, hcipher, plaintext, hmem, hrest⟩ := h c hc
  exact ⟨cipher, hcipher, plaintext, hsub hmem, hrest⟩

theorem sealed_encrypted (nonce : Nonce) {secret : Option String}
    (h : ∀ plaintext ∈ secret, plaintext ∈ supplied ∧ plaintext ≠ "") :
    admin.Sealed supplied (admin.encrypted nonce secret) := by
  intro c hc
  unfold encrypted at hc
  split at hc
  · rename_i cipher plaintext hcipher
    cases hc
    obtain ⟨hmem, hne⟩ := h plaintext rfl
    exact ⟨cipher, hcipher, plaintext, hmem, hne, cipher.decrypt_encrypt nonce.2 plaintext⟩
  · cases hc

theorem Sealed.openSecret {cipher : CredentialCipher} (hcipher : admin.cipher = some cipher)
    {ciphertext : Option String} (h : admin.Sealed supplied ciphertext) :
    ∃ secret, MailboxService.openSecret cipher ciphertext = .ok secret ∧
      ∀ plaintext ∈ secret, plaintext ∈ supplied ∧ plaintext ≠ "" := by
  cases ciphertext with
  | none =>
      refine ⟨none, rfl, ?_⟩
      rintro plaintext ⟨⟩
  | some c =>
      obtain ⟨cipher', hcipher', plaintext, hmem, hne, hdecrypt⟩ := h c rfl
      rw [hcipher, Option.mem_some_iff] at hcipher'
      subst hcipher'
      refine ⟨some plaintext, ?_, ?_⟩
      · simp only [MailboxService.openSecret,
          if_neg (CredentialCipher.ne_empty_of_decrypt hdecrypt), hdecrypt]
        rfl
      · rintro _ ⟨⟩
        exact ⟨hmem, hne⟩

theorem decryptOptional_sealed {ciphertext : Option String}
    (h : admin.Sealed supplied ciphertext) (describe : CipherError → String) :
    ∃ secret, decryptOptional (admin.decryptor describe) ciphertext = .ok secret ∧
      ∀ plaintext ∈ secret, plaintext ∈ supplied := by
  cases ciphertext with
  | none =>
      refine ⟨none, rfl, ?_⟩
      rintro plaintext ⟨⟩
  | some c =>
      obtain ⟨cipher, hcipher, plaintext, hmem, -, hdecrypt⟩ := h c rfl
      refine ⟨some plaintext, ?_, ?_⟩
      · unfold ProxyAdmin.decryptor
        rw [Option.mem_def.mp hcipher]
        simp only [decryptOptional, Option.map_some, hdecrypt, Except.mapError]
      · rintro _ ⟨⟩
        exact hmem

theorem openSecret_encrypted {cipher : CredentialCipher} (hcipher : admin.cipher = some cipher)
    (nonce : Nonce) (secret : Option String) :
    MailboxService.openSecret cipher (admin.encrypted nonce secret) = .ok secret := by
  unfold encrypted
  cases secret with
  | none =>
      rw [hcipher]
      rfl
  | some plaintext =>
      simp only [hcipher, MailboxService.openSecret,
        if_neg (CredentialCipher.encrypt_ne_empty nonce.2 plaintext),
        cipher.decrypt_encrypt nonce.2]
      rfl

theorem readCredentials_encrypted {proxy : EgressProxyRow} {usernameNonce passwordNonce : Nonce}
    {username password : Option String}
    (hcipher : (username.isSome ∨ password.isSome) → admin.cipher.isNone → False)
    (husername : proxy.usernameCiphertext = admin.encrypted usernameNonce username)
    (hpassword : proxy.passwordCiphertext = admin.encrypted passwordNonce password) :
    admin.readCredentials proxy = .ok (username, password) := by
  unfold ProxyAdmin.readCredentials
  cases hkey : admin.cipher with
  | none =>
      have hnone : ¬ (username.isSome ∨ password.isSome) := fun h => hcipher h (by rw [hkey]; rfl)
      rw [not_or, Option.not_isSome_iff_eq_none, Option.not_isSome_iff_eq_none] at hnone
      rw [hnone.1, hnone.2]
  | some cipher =>
      simp only [husername, hpassword, openSecret_encrypted hkey]

end ProxyAdmin

section

variable [Platform]

/-- `egress_proxies` with its unique keys. -/
def egressProxyRowSchema : Schema EgressProxyRow String where
  key p := p.id
  clash a b := sqlEq a.name b.name ||
    (decide (a.protocol = b.protocol) && sqlEq a.host b.host && decide (a.port = b.port) &&
      sqlEq a.credentialFingerprint b.credentialFingerprint)
  clash_comm a b := by
    rw [sqlEq_comm a.name, sqlEq_comm a.host, sqlEq_comm a.credentialFingerprint]
    simp only [eq_comm]

/-! ## Requests -/

namespace ProxyAdmin

variable (admin : ProxyAdmin)

def sourceCredentials (proxies : Table egressProxyRowSchema)
    (copyCredentialsFromProxyId : Option String) :
    Except AdminError (Option String × Option String) :=
  if missing copyCredentialsFromProxyId then .ok (none, none)
  else
    match proxies.get? (copyCredentialsFromProxyId.getD "") with
    | none => .error proxyNotFound
    | some source =>
        if admin.cipher.isNone ∧
            (source.usernameCiphertext.isSome ∨ source.passwordCiphertext.isSome) then
          .error (encryptionNotConfigured "未配置凭证加密密钥，无法从源代理复制认证凭证")
        else
          match admin.readCredentials source with
          | .ok credentials => .ok credentials
          | .error _ =>
              .error (.http 400 "EGRESS_PROXY_CREDENTIAL_COPY_FAILED"
                "无法解密源代理认证凭证，请手动填写用户名和密码")

/-- `create_egress_proxy` up to its flush. -/
def createEgressProxy (proxies : Table egressProxyRowSchema) (draw : ProxyDraw)
    (payload : EgressProxyCreate) : Except AdminError EgressProxyRow :=
  match admin.sourceCredentials proxies payload.copyCredentialsFromProxyId with
  | .error e => .error e
  | .ok (sourceUsername, sourcePassword) =>
      let username := (normalizeOptionalProxySecret payload.username).or sourceUsername
      let password := (normalizeOptionalProxySecret payload.password).or sourcePassword
      if (username.isSome ∨ password.isSome) ∧ admin.cipher.isNone then
        .error (encryptionNotConfigured "未配置凭证加密密钥")
      else
        .ok
          { id := draw.id, name := payload.name, protocol := payload.protocol
            host := payload.host, port := payload.port
            usernameCiphertext := admin.encrypted draw.usernameNonce username
            passwordCiphertext := admin.encrypted draw.passwordNonce password
            credentialFingerprint := admin.fingerprint username password
            enabled := payload.enabled, priority := payload.priority }

/-- What `update_egress_proxy` assigns to the fields, and to the ciphertexts. -/
def editedProxy (draw : ProxyDraw) (payload : EgressProxyUpdate) (proxy : EgressProxyRow) :
    EgressProxyRow :=
  { proxy with
    name := payload.name.getD proxy.name
    protocol := payload.protocol.join.getD proxy.protocol
    host := payload.host.join.getD proxy.host
    port := payload.port.join.getD proxy.port
    enabled := payload.enabled.getD proxy.enabled
    priority := payload.priority.getD proxy.priority
    usernameCiphertext :=
      match payload.username with
      | none => proxy.usernameCiphertext
      | some username =>
          admin.encrypted draw.usernameNonce (normalizeOptionalProxySecret username)
    passwordCiphertext :=
      match payload.password with
      | none => proxy.passwordCiphertext
      | some password =>
          admin.encrypted draw.passwordNonce (normalizeOptionalProxySecret password) }

/-- `update_egress_proxy` up to its flush: what the loaded proxy is assigned. -/
def updateEgressProxy (draw : ProxyDraw) (payload : EgressProxyUpdate)
    (proxy : EgressProxyRow) : Except AdminError EgressProxyRow :=
  if (payload.username.isSome ∨ payload.password.isSome) ∧ admin.cipher.isNone then
    .error (encryptionNotConfigured "未配置凭证加密密钥")
  else
    let edited := admin.editedProxy draw payload proxy
    match admin.readCredentials edited with
    | .error e => .error (.uncaught e)
    | .ok (currentUsername, currentPassword) =>
        if payload.writesIdentity ∨ edited.credentialFingerprint = "" then
          .ok { edited with
            credentialFingerprint := admin.fingerprint (payload.username.getD currentUsername)
              (payload.password.getD currentPassword) }
        else .ok edited

end ProxyAdmin

/-! ## Requests that take turns -/

/-- A run adds to the tables the secrets that requests have supplied. -/
structure AdminShared where
  proxies : Table egressProxyRowSchema := ∅
  bindings : Table bindingSchema := ∅
  usernames : List String := []
  passwords : List String := []

/-- A request before its commit, or with its outcome. -/
inductive AdminHandler where
  | idle
  | creating (proxy : EgressProxyRow)
  | updating (loaded assigned : EgressProxyRow)
  | deleting (proxyId : String) (affectedMailboxes snapshotMailboxes : List String)
  | done (outcome : Except AdminError Unit)

inductive AdminAction where
  | create (draw : ProxyDraw) (payload : EgressProxyCreate)
  | update (proxyId : String) (draw : ProxyDraw) (payload : EgressProxyUpdate)
  | setEnabled (proxyId : String) (enabled : Bool)
  /-- The session sees the mailboxes of its snapshot bound to the proxy. -/
  | delete (proxyId : String) (force : Bool) (snapshotMailboxes : List String)
  | commit (now : ℕ) (errorMessage : String)
  | rollback
  /-- With the row locked from the read to the commit. -/
  | recover (proxyId : String)
  /-- Another service flushes what it has observed of a proxy. -/
  | observe (loaded assigned : EgressProxy)
  /-- A mailbox is bound anew. -/
  | bind (mailboxId : String) (newProxyId : Option String) (now : ℕ)

def AdminHandler.refused (error : AdminError) : AdminHandler := .done (.error error)

namespace AdminShared

def supplied (s : AdminShared) (username password : Option String) : AdminShared :=
  { s with
    usernames := username.toList ++ s.usernames
    passwords := password.toList ++ s.passwords }

/-- The commit of a deletion: what the request has unbound, what the relationship
unbinds with the proxy, and what the foreign key empties. -/
def deleteProxy (s : AdminShared) (proxyId : String)
    (affectedMailboxes snapshotMailboxes : List String) (now : ℕ) : AdminShared :=
  { s with
    proxies := s.proxies.deleteWhere fun p => p.id = proxyId
    bindings := s.bindings.updateWhere
      (fun m => m.egressProxyId = some proxyId || affectedMailboxes.contains m.id ||
        snapshotMailboxes.contains m.id)
      (MailboxBinding.unbind affectedMailboxes now)
      (MailboxBinding.unbind_keeps affectedMailboxes now) }

def writeHealth (s : AdminShared) (proxyId : String) (write : EgressProxy → EgressProxy)
    (hwrite : egressProxyRowSchema.Keeps (EgressProxyRow.onProxy write)) : AdminShared :=
  { s with
    proxies := s.proxies.updateWhere
      (Table.whereKey egressProxyRowSchema proxyId fun _ => true) _ hwrite }

theorem observe_keeps (loaded assigned : EgressProxy) :
    egressProxyRowSchema.Keeps (EgressProxyRow.onProxy (loaded.flush assigned)) :=
  fun _ => ⟨rfl, fun _ => rfl⟩

theorem recover_keeps : egressProxyRowSchema.Keeps (EgressProxyRow.onProxy EgressProxy.recover) :=
  fun _ => ⟨rfl, fun _ => rfl⟩

/-- A mailbox is bound to a proxy that is there, or to none. -/
def bind (s : AdminShared) (mailboxId : String) (newProxyId : Option String) (now : ℕ) :
    AdminShared :=
  if newProxyId.all fun id => (s.proxies.get? id).isSome then
    { s with
      bindings := s.bindings.updateWhere
        (Table.whereKey bindingSchema mailboxId fun _ => true)
        _ (MailboxBinding.updateBinding_keeps newProxyId now) }
  else s

def commit (s : AdminShared) (now : ℕ) (errorMessage : String) :
    AdminHandler → AdminHandler × AdminShared
  | .creating proxy =>
      match s.proxies.insert? proxy with
      | none => (.refused (integrityConflict errorMessage), s)
      | some proxies => (.done (.ok ()), { s with proxies })
  | .updating loaded assigned =>
      if (s.proxies.get? loaded.id).isNone ∧ assigned ≠ loaded then (.refused .stale, s)
      else
        match s.proxies.modify? loaded.id (loaded.flush assigned) with
        | none => (.refused (integrityConflict errorMessage), s)
        | some proxies => (.done (.ok ()), { s with proxies })
  | .deleting proxyId affectedMailboxes snapshotMailboxes =>
      (.done (.ok ()), s.deleteProxy proxyId affectedMailboxes snapshotMailboxes now)
  | x => (x, s)

/-- What `delete_egress_proxy` locks. -/
def boundMailboxes (s : AdminShared) (proxyId : String) : List String :=
  (s.bindings.select fun m => m.egressProxyId = some proxyId).map MailboxBinding.id

end AdminShared

def hasBoundMailboxes : AdminError :=
  .http 409 "EGRESS_PROXY_HAS_BOUND_MAILBOXES" "出口代理仍有绑定邮箱；请确认后使用 force 删除"

/-- One step of a request, or of the others that write to its tables. -/
def adminAct (admin : ProxyAdmin) (s : AdminShared) (x : AdminHandler) :
    AdminAction → AdminHandler × AdminShared
  | .create draw payload =>
      match admin.createEgressProxy s.proxies draw payload with
      | .error e => (.refused e, s)
      | .ok proxy => (.creating proxy, s.supplied payload.username payload.password)
  | .update proxyId draw payload =>
      match s.proxies.get? proxyId with
      | none => (.refused proxyNotFound, s)
      | some proxy =>
          match admin.updateEgressProxy draw payload proxy with
          | .error e => (.refused e, s)
          | .ok assigned =>
              (.updating proxy assigned, s.supplied payload.username.join payload.password.join)
  | .setEnabled proxyId enabled =>
      match s.proxies.get? proxyId with
      | none => (.refused proxyNotFound, s)
      | some proxy => (.updating proxy { proxy with enabled }, s)
  | .delete proxyId force snapshotMailboxes =>
      if (s.proxies.get? proxyId).isNone then (.refused proxyNotFound, s)
      else if s.boundMailboxes proxyId ≠ [] ∧ force = false then (.refused hasBoundMailboxes, s)
      else (.deleting proxyId (s.boundMailboxes proxyId) snapshotMailboxes, s)
  | .commit now errorMessage => s.commit now errorMessage x
  | .rollback => (.idle, s)
  | .recover proxyId =>
      if (s.proxies.get? proxyId).isNone then (.refused proxyNotFound, s)
      else (.done (.ok ()), s.writeHealth proxyId EgressProxy.recover AdminShared.recover_keeps)
  | .observe loaded assigned =>
      (x, s.writeHealth loaded.id (loaded.flush assigned)
        (AdminShared.observe_keeps loaded assigned))
  | .bind mailboxId newProxyId now => (x, s.bind mailboxId newProxyId now)

/-! ## What holds of the stored proxies -/

namespace ProxyAdmin

variable (admin : ProxyAdmin)

structure SealedRow (s : AdminShared) (proxy : EgressProxyRow) : Prop where
  username : admin.Sealed s.usernames proxy.usernameCiphertext
  password : admin.Sealed s.passwords proxy.passwordCiphertext

def material (proxy : EgressProxyRow) : Except CipherError String :=
  (admin.readCredentials proxy).map fun credentials =>
    credentialMaterial credentials.1 credentials.2

def Accurate (proxy : EgressProxyRow) : Prop :=
  ∃ material, admin.material proxy = .ok material ∧
    proxy.credentialFingerprint = admin.digest material

end ProxyAdmin

/-- The fingerprint that the migration has given to the proxies of before. -/
def EgressProxyRow.Legacy (proxy : EgressProxyRow) : Prop :=
  proxy.credentialFingerprint = "legacy:" ++ proxy.id

def EgressProxyRow.SameEndpoint (a b : EgressProxyRow) : Prop :=
  a.protocol = b.protocol ∧ sqlEq a.host b.host = true ∧ a.port = b.port

/-- A stored proxy stands in the way of another one: one endpoint with the same
credentials, or one name, or one id. -/
def ProxyAdmin.Duplicates (admin : ProxyAdmin) (stored proxy : EgressProxyRow) : Prop :=
  stored.id = proxy.id ∨ sqlEq stored.name proxy.name = true ∨
    (stored.SameEndpoint proxy ∧ ¬ stored.Legacy ∧ admin.material stored = admin.material proxy)

def AdminShared.Supplies (s : AdminShared) (material : String) : Prop :=
  ∃ username password : Option String, (∀ u ∈ username, u ∈ s.usernames) ∧
    (∀ w ∈ password, w ∈ s.passwords) ∧ material = credentialMaterial username password

/-- The digests of the supplied credentials tell them apart, and none of them is
the placeholder of a stored proxy. -/
structure ProxyAdmin.CollisionFree (admin : ProxyAdmin) (s : AdminShared) : Prop where
  materials : ∀ m m', s.Supplies m → s.Supplies m' →
    sqlEq (admin.digest m) (admin.digest m') = true → m = m'
  placeholders : ∀ proxy ∈ s.proxies, proxy.Legacy → ∀ m, s.Supplies m →
    sqlEq proxy.credentialFingerprint (admin.digest m) = false

def AdminShared.Bound (s : AdminShared) : Prop :=
  ∀ mailbox ∈ s.bindings, ∀ proxyId ∈ mailbox.egressProxyId,
    ∃ proxy ∈ s.proxies, proxy.id = proxyId

structure AdminShared.Consistent (s : AdminShared) (admin : ProxyAdmin) : Prop where
  sealedRows : ∀ proxy ∈ s.proxies, admin.SealedRow s proxy
  bound : s.Bound

/-- **Protection**: every stored proxy can be used, with credentials that requests
have supplied, and no mailbox is bound to a proxy that is gone. -/
structure AdminShared.Protected (s : AdminShared) (admin : ProxyAdmin)
    (describe : CipherError → String) : Prop where
  resolves : ∀ proxy ∈ s.proxies, ∃ resolved,
    toResolvedProxy (admin.decryptor describe) proxy.toEgressProxy = .ok resolved ∧
      (∀ u ∈ resolved.username, u ∈ s.usernames) ∧ (∀ w ∈ resolved.password, w ∈ s.passwords)
  bound : s.Bound

/-- Proxies from before the migration have its placeholder until an update. -/
def ProxyAdmin.Described (admin : ProxyAdmin) (proxy : EgressProxyRow) : Prop :=
  proxy.Legacy ∨ admin.Accurate proxy

/-- **Identity**: the fingerprints are those of the credentials, no two proxies share
an endpoint and credentials, and a new proxy is refused exactly if it is a duplicate. -/
structure Identified {ι : Type*} (admin : ProxyAdmin) (t : Threads ι AdminHandler AdminShared) :
    Prop where
  described : ∀ proxy ∈ t.shared.proxies, admin.Described proxy
  apart : ∀ a ∈ t.shared.proxies, ∀ b ∈ t.shared.proxies, a ≠ b → a.SameEndpoint b →
    ¬ a.Legacy → ¬ b.Legacy → admin.material a ≠ admin.material b
  admits : admin.CollisionFree t.shared → ∀ i proxy, t.held i = .creating proxy →
    ∀ now errorMessage,
      (t.shared.commit now errorMessage (t.held i)).1 = .refused (integrityConflict errorMessage) ↔
        ∃ stored ∈ t.shared.proxies, admin.Duplicates stored proxy

structure EgressProxyRow.SameSecrets (a b : EgressProxyRow) : Prop where
  username : a.usernameCiphertext = b.usernameCiphertext
  password : a.passwordCiphertext = b.passwordCiphertext
  fingerprint : a.credentialFingerprint = b.credentialFingerprint

instance (a b : EgressProxyRow) : Decidable (a.SameSecrets b) :=
  decidable_of_iff (a.usernameCiphertext = b.usernameCiphertext ∧
      a.passwordCiphertext = b.passwordCiphertext ∧
        a.credentialFingerprint = b.credentialFingerprint)
    ⟨fun h => ⟨h.1, h.2.1, h.2.2⟩, fun h => ⟨h.username, h.password, h.fingerprint⟩⟩

def AdminHandler.pendingUpdate (x : AdminHandler) (a : AdminAction) :
    Option (EgressProxyRow × EgressProxyRow) :=
  match x, a with
  | .updating loaded assigned, .commit _ _ => some (loaded, assigned)
  | _, _ => none

/-- **The condition**: an update leaves the credentials as it has loaded them, or
they are still so when it commits. -/
def CredentialsUndisturbed (s : AdminShared) (x : AdminHandler) (a : AdminAction) : Prop :=
  ∀ update ∈ x.pendingUpdate a, update.2.SameSecrets update.1 ∨
    ∀ current ∈ s.proxies.rows, current.id = update.1.id → current.SameSecrets update.1

instance (s : AdminShared) (x : AdminHandler) (a : AdminAction) :
    Decidable (CredentialsUndisturbed s x a) :=
  inferInstanceAs (Decidable (∀ _ ∈ _, _))

/-! ## Rows -/

namespace ProxyAdmin

variable {admin : ProxyAdmin}

theorem SealedRow.mono {s s' : AdminShared} {proxy : EgressProxyRow}
    (h : admin.SealedRow s proxy) (husernames : s.usernames ⊆ s'.usernames)
    (hpasswords : s.passwords ⊆ s'.passwords) : admin.SealedRow s' proxy :=
  ⟨h.username.mono husernames, h.password.mono hpasswords⟩

theorem SealedRow.readCredentials {s : AdminShared} {proxy : EgressProxyRow}
    (h : admin.SealedRow s proxy) :
    ∃ username password, admin.readCredentials proxy = .ok (username, password) ∧
      (∀ u ∈ username, u ∈ s.usernames ∧ u ≠ "") ∧
      (∀ w ∈ password, w ∈ s.passwords ∧ w ≠ "") := by
  unfold ProxyAdmin.readCredentials
  cases hcipher : admin.cipher with
  | none =>
      refine ⟨none, none, rfl, ?_, ?_⟩
      · rintro u ⟨⟩
      · rintro w ⟨⟩
  | some cipher =>
      obtain ⟨username, husername, hu⟩ := h.username.openSecret hcipher
      obtain ⟨password, hpassword, hw⟩ := h.password.openSecret hcipher
      exact ⟨username, password, by simp only [husername, hpassword], hu, hw⟩

theorem accurate_of_read {proxy : EgressProxyRow} {username password : Option String}
    (hread : admin.readCredentials proxy = .ok (username, password))
    (hfingerprint : proxy.credentialFingerprint = admin.fingerprint username password) :
    admin.Accurate proxy := by
  refine ⟨credentialMaterial username password, ?_, hfingerprint⟩
  rw [material, hread]
  rfl

theorem accurate_congr {a b : EgressProxyRow} (h : a.SameSecrets b) :
    admin.Accurate a ↔ admin.Accurate b := by
  unfold Accurate material ProxyAdmin.readCredentials
  rw [h.username, h.password, h.fingerprint]

theorem described_congr {a b : EgressProxyRow} (h : a.SameSecrets b) (hid : a.id = b.id) :
    admin.Described a ↔ admin.Described b := by
  unfold Described EgressProxyRow.Legacy
  rw [accurate_congr h, h.fingerprint, hid]

/-- What a new proxy copies is among what was supplied. -/
theorem sourceCredentials_ok {s : AdminShared}
    (hrows : ∀ proxy ∈ s.proxies, admin.SealedRow s proxy) {source : Option String}
    {username password : Option String}
    (h : admin.sourceCredentials s.proxies source = .ok (username, password)) :
    (∀ u ∈ username, u ∈ s.usernames ∧ u ≠ "") ∧
      (∀ w ∈ password, w ∈ s.passwords ∧ w ≠ "") := by
  unfold sourceCredentials at h
  split at h
  · cases h
    constructor
    · rintro u ⟨⟩
    · rintro w ⟨⟩
  · split at h
    · cases h
    rename_i row hrow
    split at h
    · cases h
    obtain ⟨u, w, hread, hu, hw⟩ := (hrows row (Table.mem_of_get? hrow)).readCredentials
    rw [hread] at h
    cases h
    exact ⟨hu, hw⟩

theorem createEgressProxy_ok {s : AdminShared}
    (hrows : ∀ proxy ∈ s.proxies, admin.SealedRow s proxy) {draw : ProxyDraw}
    {payload : EgressProxyCreate} {proxy : EgressProxyRow}
    (h : admin.createEgressProxy s.proxies draw payload = .ok proxy) :
    admin.SealedRow (s.supplied payload.username payload.password) proxy ∧
      admin.Accurate proxy := by
  unfold createEgressProxy at h
  split at h
  · cases h
  rename_i sourceUsername sourcePassword hsource
  obtain ⟨hu, hw⟩ := sourceCredentials_ok hrows hsource
  simp only at h
  split at h
  · cases h
  rename_i hcipher
  cases h
  refine ⟨⟨sealed_encrypted _ (chosen_mem hu), sealed_encrypted _ (chosen_mem hw)⟩, ?_⟩
  exact accurate_of_read
    (readCredentials_encrypted (fun hsome hnone => hcipher ⟨hsome, hnone⟩) rfl rfl) rfl

omit [Platform] in
theorem readCredentials_edited {draw : ProxyDraw} {payload : EgressProxyUpdate}
    {proxy : EgressProxyRow} {username password : Option String}
    (hcipher : ¬ ((payload.username.isSome ∨ payload.password.isSome) ∧ admin.cipher.isNone))
    (h : admin.readCredentials (admin.editedProxy draw payload proxy) = .ok (username, password)) :
    (∀ u ∈ payload.username, username = normalizeOptionalProxySecret u) ∧
      (∀ w ∈ payload.password, password = normalizeOptionalProxySecret w) := by
  unfold ProxyAdmin.readCredentials at h
  cases hkey : admin.cipher with
  | none =>
      rw [hkey, not_and_or] at hcipher
      have hnone := hcipher.resolve_right fun h => h rfl
      rw [not_or, Option.not_isSome_iff_eq_none, Option.not_isSome_iff_eq_none] at hnone
      rw [hnone.1, hnone.2]
      constructor
      · rintro u ⟨⟩
      · rintro w ⟨⟩
  | some cipher =>
      simp only [hkey] at h
      split at h
      · cases h
      rename_i u hu
      split at h
      · cases h
      rename_i w hw
      cases h
      constructor
      · intro value hvalue
        simp only [editedProxy, Option.mem_def.mp hvalue, openSecret_encrypted hkey] at hu
        exact (Except.ok.inj hu).symm
      · intro value hvalue
        simp only [editedProxy, Option.mem_def.mp hvalue, openSecret_encrypted hkey] at hw
        exact (Except.ok.inj hw).symm

theorem sealedRow_edited {s : AdminShared} {draw : ProxyDraw} {payload : EgressProxyUpdate}
    {proxy : EgressProxyRow} (h : admin.SealedRow s proxy) :
    admin.SealedRow (s.supplied payload.username.join payload.password.join)
      (admin.editedProxy draw payload proxy) := by
  have hwritten : ∀ (value : Option String) (secrets : List String),
      ∀ plaintext ∈ normalizeOptionalProxySecret value,
        plaintext ∈ value.toList ++ secrets ∧ plaintext ≠ "" := by
    intro value secrets plaintext hmem
    obtain ⟨hmem, hne⟩ := normalize_mem hmem
    exact ⟨List.mem_append_left _ (Option.mem_toList.mpr hmem), hne⟩
  constructor
  · cases husername : payload.username with
    | none =>
        simp only [editedProxy, husername]
        exact h.username
    | some username =>
        simp only [editedProxy, husername]
        exact sealed_encrypted _ (hwritten username s.usernames)
  · cases hpassword : payload.password with
    | none =>
        simp only [editedProxy, hpassword]
        exact h.password
    | some password =>
        simp only [editedProxy, hpassword]
        exact sealed_encrypted _ (hwritten password s.passwords)

theorem updateEgressProxy_ok {s : AdminShared} {draw : ProxyDraw} {payload : EgressProxyUpdate}
    {loaded assigned : EgressProxyRow} (hrow : admin.SealedRow s loaded)
    (h : admin.updateEgressProxy draw payload loaded = .ok assigned) :
    admin.SealedRow (s.supplied payload.username.join payload.password.join) assigned ∧
      assigned.id = loaded.id ∧ (admin.Described loaded → admin.Described assigned) := by
  unfold updateEgressProxy at h
  split at h
  · cases h
  rename_i hcipher
  simp only at h
  split at h
  · cases h
  rename_i currentUsername currentPassword hread
  have hedited : admin.SealedRow _ (admin.editedProxy draw payload loaded) :=
    sealedRow_edited hrow
  split at h
  · cases h
    refine ⟨⟨hedited.username, hedited.password⟩, rfl, fun _ => Or.inr ?_⟩
    refine ⟨credentialMaterial currentUsername currentPassword, ?_, ?_⟩
    · show (admin.readCredentials (admin.editedProxy draw payload loaded)).map _ = _
      rw [hread]
      rfl
    · obtain ⟨hu, hw⟩ := readCredentials_edited hcipher hread
      show admin.digest (credentialMaterial _ _) = _
      unfold credentialMaterial
      rw [written_getD hu, written_getD hw]
  · rename_i hkept
    cases h
    refine ⟨hedited, rfl, fun hdescribed => ?_⟩
    -- nothing that makes up the identity is written
    rw [not_or, EgressProxyUpdate.writesIdentity, Bool.not_eq_true] at hkept
    simp only [Bool.or_eq_false_iff, Option.isSome_eq_false_iff, Option.isNone_iff_eq_none]
      at hkept
    obtain ⟨⟨⟨⟨⟨husername, hpassword⟩, -⟩, -⟩, -⟩, -⟩ := hkept
    have hsame : (admin.editedProxy draw payload loaded).SameSecrets loaded := by
      constructor
      · simp only [editedProxy, husername]
      · simp only [editedProxy, hpassword]
      · rfl
    exact (described_congr hsame rfl).mpr hdescribed

end ProxyAdmin

/-! ## Steps -/

variable {admin : ProxyAdmin} {s : AdminShared} {x : AdminHandler} {a : AdminAction}

/-- A write to the health columns leaves the rest of a row alone. -/
theorem mem_writeHealth {proxyId : String} (write : EgressProxy → EgressProxy)
    {hwrite : egressProxyRowSchema.Keeps (EgressProxyRow.onProxy write)}
    (hsecrets : ∀ p, (write p).id = p.id ∧ (write p).usernameCiphertext = p.usernameCiphertext ∧
      (write p).passwordCiphertext = p.passwordCiphertext)
    {q : EgressProxyRow} (hq : q ∈ (s.writeHealth proxyId write hwrite).proxies) :
    ∃ p ∈ s.proxies, q.id = p.id ∧ q.SameSecrets p := by
  obtain ⟨p, hp, rfl⟩ := (Table.mem_updateWhere_whereKey hwrite).mp hq
  refine ⟨p, hp, ?_⟩
  split
  · obtain ⟨hid, husername, hpassword⟩ := hsecrets p.toEgressProxy
    exact ⟨hid, husername, hpassword, rfl⟩
  · exact ⟨rfl, rfl, rfl, rfl⟩

/-- **Inversion**: where a stored proxy comes from. -/
theorem mem_adminAct {q : EgressProxyRow} (hq : q ∈ (adminAct admin s x a).2.proxies) :
    (∃ p ∈ s.proxies, q.id = p.id ∧ q.SameSecrets p) ∨ x = .creating q ∨
      ∃ now errorMessage loaded assigned, ∃ current ∈ s.proxies,
        a = .commit now errorMessage ∧ x = .updating loaded assigned ∧
          current.id = loaded.id ∧ q = loaded.flush assigned current := by
  have hkept : ∀ p ∈ s.proxies, ∃ p' ∈ s.proxies, p.id = p'.id ∧ p.SameSecrets p' :=
    fun p hp => ⟨p, hp, rfl, rfl, rfl, rfl⟩
  cases a with
  | create draw payload =>
      left
      simp only [adminAct] at hq
      split at hq
      · exact hkept q hq
      · exact hkept q hq
  | update proxyId draw payload =>
      left
      simp only [adminAct] at hq
      split at hq
      · exact hkept q hq
      · split at hq
        · exact hkept q hq
        · exact hkept q hq
  | setEnabled proxyId enabled =>
      left
      simp only [adminAct] at hq
      split at hq
      · exact hkept q hq
      · exact hkept q hq
  | delete proxyId force snapshotMailboxes =>
      left
      simp only [adminAct] at hq
      split at hq
      · exact hkept q hq
      · split at hq
        · exact hkept q hq
        · exact hkept q hq
  | rollback => exact Or.inl (hkept q hq)
  | bind mailboxId newProxyId now =>
      left
      simp only [adminAct, AdminShared.bind] at hq
      split at hq
      · exact hkept q hq
      · exact hkept q hq
  | recover proxyId =>
      left
      simp only [adminAct] at hq
      split at hq
      · exact hkept q hq
      · exact mem_writeHealth EgressProxy.recover (fun _ => ⟨rfl, rfl, rfl⟩) hq
  | observe loaded assigned =>
      exact Or.inl
        (mem_writeHealth (loaded.flush assigned) (fun _ => ⟨rfl, rfl, rfl⟩) hq)
  | commit now errorMessage =>
      simp only [adminAct] at hq
      cases x with
      | idle => exact Or.inl (hkept q hq)
      | done outcome => exact Or.inl (hkept q hq)
      | deleting proxyId affectedMailboxes snapshotMailboxes =>
          exact Or.inl (hkept q (Table.mem_deleteWhere.mp hq).1)
      | creating proxy =>
          simp only [AdminShared.commit] at hq
          split at hq
          · exact Or.inl (hkept q hq)
          · rename_i proxies hinsert
            rcases (Table.mem_insert? hinsert).mp hq with hq | rfl
            · exact Or.inl (hkept q hq)
            · exact Or.inr (Or.inl rfl)
      | updating loaded assigned =>
          simp only [AdminShared.commit] at hq
          split at hq
          · exact Or.inl (hkept q hq)
          · split at hq
            · exact Or.inl (hkept q hq)
            · rename_i proxies hmodify
              obtain ⟨current, hcurrent, rfl⟩ := (Table.mem_modify? hmodify).mp hq
              split
              · rename_i hid
                exact Or.inr (Or.inr
                  ⟨now, errorMessage, loaded, assigned, current, hcurrent, rfl, rfl, hid, rfl⟩)
              · exact Or.inl (hkept current hcurrent)

theorem adminAct_supplied : s.usernames ⊆ (adminAct admin s x a).2.usernames ∧
    s.passwords ⊆ (adminAct admin s x a).2.passwords := by
  have hkept : s.usernames ⊆ s.usernames ∧ s.passwords ⊆ s.passwords :=
    ⟨List.Subset.refl _, List.Subset.refl _⟩
  have hsupplied : ∀ username password : Option String,
      s.usernames ⊆ (s.supplied username password).usernames ∧
        s.passwords ⊆ (s.supplied username password).passwords := fun _ _ =>
    ⟨List.subset_append_right _ _, List.subset_append_right _ _⟩
  cases a with
  | create draw payload =>
      simp only [adminAct]
      split
      · exact hkept
      · exact hsupplied _ _
  | update proxyId draw payload =>
      simp only [adminAct]
      split
      · exact hkept
      · split
        · exact hkept
        · exact hsupplied _ _
  | setEnabled proxyId enabled =>
      simp only [adminAct]
      split <;> exact hkept
  | delete proxyId force snapshotMailboxes =>
      simp only [adminAct]
      split
      · exact hkept
      · split <;> exact hkept
  | rollback => exact hkept
  | bind mailboxId newProxyId now =>
      simp only [adminAct, AdminShared.bind]
      split <;> exact hkept
  | recover proxyId =>
      simp only [adminAct]
      split <;> exact hkept
  | observe loaded assigned => exact hkept
  | commit now errorMessage =>
      simp only [adminAct]
      cases x with
      | idle => exact hkept
      | done outcome => exact hkept
      | deleting proxyId affectedMailboxes snapshotMailboxes => exact hkept
      | creating proxy =>
          simp only [AdminShared.commit]
          split <;> exact hkept
      | updating loaded assigned =>
          simp only [AdminShared.commit]
          split
          · exact hkept
          · split <;> exact hkept

/-! ## Bindings -/

namespace AdminShared

theorem Bound.of_ids {proxies : Table egressProxyRowSchema} (h : s.Bound)
    (hids : ∀ p ∈ s.proxies, ∃ q ∈ proxies, q.id = p.id) :
    AdminShared.Bound { s with proxies } := by
  intro mailbox hmailbox proxyId hproxyId
  obtain ⟨proxy, hproxy, rfl⟩ := h mailbox hmailbox proxyId hproxyId
  exact hids proxy hproxy

theorem Bound.writeHealth (h : s.Bound) {proxyId : String}
    {write : EgressProxy → EgressProxy}
    {hwrite : egressProxyRowSchema.Keeps (EgressProxyRow.onProxy write)} :
    (s.writeHealth proxyId write hwrite).Bound := by
  refine h.of_ids fun p hp => ?_
  refine ⟨_, (Table.mem_updateWhere_whereKey hwrite).mpr ⟨p, hp, rfl⟩, ?_⟩
  split
  · exact (hwrite p).1
  · rfl

theorem Bound.bind (h : s.Bound) (mailboxId : String) (newProxyId : Option String)
    (now : ℕ) : (s.bind mailboxId newProxyId now).Bound := by
  unfold AdminShared.bind
  split
  · rename_i hthere
    intro mailbox hmailbox proxyId hproxyId
    have hkeeps := MailboxBinding.updateBinding_keeps newProxyId now
    obtain ⟨row, hrow, rfl⟩ := (Table.mem_updateWhere_whereKey hkeeps).mp hmailbox
    split at hproxyId
    · unfold MailboxBinding.updateBinding at hproxyId
      split at hproxyId
      · exact h row hrow proxyId hproxyId
      · rw [Option.mem_def] at hproxyId
        subst hproxyId
        obtain ⟨proxy, hproxy⟩ := Option.isSome_iff_exists.mp hthere
        exact ⟨proxy, Table.get?_eq_some.mp hproxy⟩
    · exact h row hrow proxyId hproxyId
  · exact h

theorem Bound.deleteProxy (h : s.Bound) (proxyId : String)
    (affectedMailboxes snapshotMailboxes : List String) (now : ℕ) :
    (s.deleteProxy proxyId affectedMailboxes snapshotMailboxes now).Bound := by
  intro mailbox hmailbox boundId hboundId
  obtain ⟨row, hrow, rfl⟩ := Table.mem_updateWhere.mp
    (show mailbox ∈ s.bindings.updateWhere _ _
      (MailboxBinding.unbind_keeps affectedMailboxes now) from hmailbox)
  split at hboundId
  · unfold MailboxBinding.unbind at hboundId
    -- what was bound to the proxy is bound to none
    split at hboundId <;> cases hboundId
  · rename_i hspared
    obtain ⟨proxy, hproxy, rfl⟩ := h row hrow boundId hboundId
    refine ⟨proxy, Table.mem_deleteWhere.mpr ⟨hproxy, ?_⟩, rfl⟩
    rw [decide_eq_false_iff_not]
    rintro rfl
    apply hspared
    rw [Option.mem_def.mp hboundId]
    simp

end AdminShared

/-- **Step lemma** of the bindings. -/
theorem bound_step (h : s.Bound) : (adminAct admin s x a).2.Bound := by
  cases a with
  | create draw payload =>
      simp only [adminAct]
      split <;> exact h
  | update proxyId draw payload =>
      simp only [adminAct]
      split
      · exact h
      · split <;> exact h
  | setEnabled proxyId enabled =>
      simp only [adminAct]
      split <;> exact h
  | delete proxyId force snapshotMailboxes =>
      simp only [adminAct]
      split
      · exact h
      · split <;> exact h
  | rollback => exact h
  | bind mailboxId newProxyId now => exact h.bind mailboxId newProxyId now
  | recover proxyId =>
      simp only [adminAct]
      split
      · exact h
      · exact h.writeHealth
  | observe loaded assigned => exact h.writeHealth
  | commit now errorMessage =>
      simp only [adminAct]
      cases x with
      | idle => exact h
      | done outcome => exact h
      | deleting proxyId affectedMailboxes snapshotMailboxes =>
          exact h.deleteProxy proxyId affectedMailboxes snapshotMailboxes now
      | creating proxy =>
          simp only [AdminShared.commit]
          split
          · exact h
          · rename_i proxies hinsert
            exact h.of_ids fun p hp => ⟨p, (Table.mem_insert? hinsert).mpr (Or.inl hp), rfl⟩
      | updating loaded assigned =>
          simp only [AdminShared.commit]
          split
          · exact h
          · split
            · exact h
            · rename_i proxies hmodify
              refine h.of_ids fun p hp => ⟨_, (Table.mem_modify? hmodify).mpr ⟨p, hp, rfl⟩, ?_⟩
              split <;> rfl

/-! ## Protection -/

/-- What a request is about to write is sealed, and a new fingerprint is right. -/
def AdminLink (admin : ProxyAdmin) (x : AdminHandler) (s : AdminShared) : Prop :=
  match x with
  | .creating proxy => admin.SealedRow s proxy ∧ admin.Accurate proxy
  | .updating _ assigned => admin.SealedRow s assigned
  | .idle | .deleting _ _ _ | .done _ => True

theorem AdminLink.mono {s' : AdminShared} (h : AdminLink admin x s)
    (hsupplied : s.usernames ⊆ s'.usernames ∧ s.passwords ⊆ s'.passwords) :
    AdminLink admin x s' := by
  cases x with
  | creating proxy => exact ⟨h.1.mono hsupplied.1 hsupplied.2, h.2⟩
  | updating loaded assigned => exact ProxyAdmin.SealedRow.mono h hsupplied.1 hsupplied.2
  | idle => trivial
  | deleting proxyId affectedMailboxes snapshotMailboxes => trivial
  | done outcome => trivial

theorem ProxyAdmin.SealedRow.flush {loaded assigned current : EgressProxyRow}
    (hassigned : admin.SealedRow s assigned) (hcurrent : admin.SealedRow s current) :
    admin.SealedRow s (loaded.flush assigned current) := by
  constructor
  · show admin.Sealed _ (flushColumn _ _ _)
    rcases flushColumn_eq loaded.usernameCiphertext assigned.usernameCiphertext
        current.usernameCiphertext with h | h
    · rw [h]
      exact hcurrent.username
    · rw [h]
      exact hassigned.username
  · show admin.Sealed _ (flushColumn _ _ _)
    rcases flushColumn_eq loaded.passwordCiphertext assigned.passwordCiphertext
        current.passwordCiphertext with h | h
    · rw [h]
      exact hcurrent.password
    · rw [h]
      exact hassigned.password

/-- **Step lemma** of the stored secrets. -/
theorem consistent_step (h : s.Consistent admin) (hx : AdminLink admin x s) :
    (adminAct admin s x a).2.Consistent admin := by
  refine ⟨fun q hq => ?_, bound_step h.bound⟩
  have hsupplied : s.usernames ⊆ (adminAct admin s x a).2.usernames ∧
      s.passwords ⊆ (adminAct admin s x a).2.passwords := adminAct_supplied
  refine ProxyAdmin.SealedRow.mono ?_ hsupplied.1 hsupplied.2
  rcases mem_adminAct hq with ⟨p, hp, -, hsame⟩ | hcreating |
    ⟨now, errorMessage, loaded, assigned, current, hcurrent, -, hupdating, -, rfl⟩
  · exact ⟨by rw [hsame.username]; exact (h.sealedRows p hp).username,
      by rw [hsame.password]; exact (h.sealedRows p hp).password⟩
  · subst hcreating
    exact hx.1
  · subst hupdating
    exact ProxyAdmin.SealedRow.flush hx (h.sealedRows current hcurrent)

/-- What a request holds after its own step. -/
theorem adminLink_step (h : s.Consistent admin) (hx : AdminLink admin x s) :
    AdminLink admin (adminAct admin s x a).1 (adminAct admin s x a).2 := by
  cases a with
  | create draw payload =>
      simp only [adminAct]
      split
      · trivial
      · rename_i proxy hcreate
        exact ProxyAdmin.createEgressProxy_ok h.sealedRows hcreate
  | update proxyId draw payload =>
      simp only [adminAct]
      split
      · trivial
      · rename_i proxy hproxy
        split
        · trivial
        · rename_i assigned hupdate
          have hrow := h.sealedRows proxy (Table.mem_of_get? hproxy)
          exact (ProxyAdmin.updateEgressProxy_ok hrow hupdate).1
  | setEnabled proxyId enabled =>
      simp only [adminAct]
      split
      · trivial
      · rename_i proxy hproxy
        have hrow := h.sealedRows proxy (Table.mem_of_get? hproxy)
        exact ⟨hrow.username, hrow.password⟩
  | delete proxyId force snapshotMailboxes =>
      simp only [adminAct]
      split
      · trivial
      · split <;> trivial
  | rollback => trivial
  | bind mailboxId newProxyId now => exact AdminLink.mono hx adminAct_supplied
  | recover proxyId =>
      simp only [adminAct]
      split <;> trivial
  | observe loaded assigned => exact AdminLink.mono hx adminAct_supplied
  | commit now errorMessage =>
      cases x with
      | idle => trivial
      | done outcome => trivial
      | deleting proxyId affectedMailboxes snapshotMailboxes => trivial
      | creating proxy =>
          simp only [adminAct, AdminShared.commit]
          split <;> trivial
      | updating loaded assigned =>
          simp only [adminAct, AdminShared.commit]
          split
          · trivial
          · split <;> trivial

theorem AdminShared.Consistent.protected (h : s.Consistent admin)
    (describe : CipherError → String) : s.Protected admin describe := by
  refine ⟨fun proxy hproxy => ?_, h.bound⟩
  have hrow := h.sealedRows proxy hproxy
  obtain ⟨username, husername, hu⟩ := ProxyAdmin.decryptOptional_sealed hrow.username describe
  obtain ⟨password, hpassword, hw⟩ := ProxyAdmin.decryptOptional_sealed hrow.password describe
  unfold toResolvedProxy
  rw [husername, hpassword]
  exact ⟨_, rfl, hu, hw⟩

/-! ## Identity -/

/-- What an update is about to write has the right fingerprint. -/
def DescribedLink (admin : ProxyAdmin) (x : AdminHandler) : Prop :=
  match x with
  | .updating loaded assigned => assigned.id = loaded.id ∧ admin.Described assigned
  | .idle | .creating _ | .deleting _ _ _ | .done _ => True

omit [Platform] in
/-- Credentials that are not assigned stay as they are. -/
theorem flush_unassigned {loaded assigned : EgressProxyRow} (h : assigned.SameSecrets loaded)
    (current : EgressProxyRow) : (loaded.flush assigned current).SameSecrets current where
  username := by
    show flushColumn _ _ _ = _
    rw [h.username, flushColumn_unassigned]
  password := by
    show flushColumn _ _ _ = _
    rw [h.password, flushColumn_unassigned]
  fingerprint := by
    show flushColumn _ _ _ = _
    rw [h.fingerprint, flushColumn_unassigned]

omit [Platform] in
/-- Credentials that nobody else has changed become what is assigned. -/
theorem flush_current {loaded current : EgressProxyRow} (assigned : EgressProxyRow)
    (h : current.SameSecrets loaded) : (loaded.flush assigned current).SameSecrets assigned where
  username := by
    show flushColumn _ _ _ = _
    rw [h.username, flushColumn_current]
  password := by
    show flushColumn _ _ _ = _
    rw [h.password, flushColumn_current]
  fingerprint := by
    show flushColumn _ _ _ = _
    rw [h.fingerprint, flushColumn_current]

/-- **Step lemma** of the fingerprints. -/
theorem described_step (hs : ∀ proxy ∈ s.proxies, admin.Described proxy)
    (hlink : AdminLink admin x s) (hx : DescribedLink admin x)
    (hok : CredentialsUndisturbed s x a) :
    ∀ q ∈ (adminAct admin s x a).2.proxies, admin.Described q := by
  intro q hq
  rcases mem_adminAct hq with ⟨p, hp, hid, hsame⟩ | rfl |
    ⟨now, errorMessage, loaded, assigned, current, hcurrent, rfl, rfl, hid, rfl⟩
  · exact (ProxyAdmin.described_congr hsame hid).mpr (hs p hp)
  · exact Or.inr hlink.2
  · rcases hok (loaded, assigned) rfl with hkept | hfresh
    · exact (ProxyAdmin.described_congr (flush_unassigned hkept current) rfl).mpr
        (hs current hcurrent)
    · have hsame := flush_current assigned (hfresh current hcurrent hid)
      exact (ProxyAdmin.described_congr hsame (hid.trans hx.1.symm)).mpr hx.2

theorem describedLink_step (h : s.Consistent admin)
    (hs : ∀ proxy ∈ s.proxies, admin.Described proxy) (hx : DescribedLink admin x) :
    DescribedLink admin (adminAct admin s x a).1 := by
  cases a with
  | create draw payload =>
      simp only [adminAct]
      split <;> trivial
  | update proxyId draw payload =>
      simp only [adminAct]
      split
      · trivial
      · rename_i proxy hproxy
        have hmem := Table.mem_of_get? hproxy
        split
        · trivial
        · rename_i assigned hupdate
          obtain ⟨-, hid, hdescribed⟩ :=
            ProxyAdmin.updateEgressProxy_ok (h.sealedRows proxy hmem) hupdate
          exact ⟨hid, hdescribed (hs proxy hmem)⟩
  | setEnabled proxyId enabled =>
      simp only [adminAct]
      split
      · trivial
      · rename_i proxy hproxy
        exact ⟨rfl, (ProxyAdmin.described_congr ⟨rfl, rfl, rfl⟩ rfl).mpr
          (hs proxy (Table.mem_of_get? hproxy))⟩
  | delete proxyId force snapshotMailboxes =>
      simp only [adminAct]
      split
      · trivial
      · split <;> trivial
  | rollback => trivial
  | bind mailboxId newProxyId now => exact hx
  | recover proxyId =>
      simp only [adminAct]
      split <;> trivial
  | observe loaded assigned => exact hx
  | commit now errorMessage =>
      cases x with
      | idle => trivial
      | done outcome => trivial
      | deleting proxyId affectedMailboxes snapshotMailboxes => trivial
      | creating proxy =>
          simp only [adminAct, AdminShared.commit]
          split <;> trivial
      | updating loaded assigned =>
          simp only [adminAct, AdminShared.commit]
          split
          · trivial
          · split <;> trivial

theorem material_supplied {proxy : EgressProxyRow} (hrow : admin.SealedRow s proxy)
    {material : String} (h : admin.material proxy = .ok material) : s.Supplies material := by
  obtain ⟨username, password, hread, hu, hw⟩ := hrow.readCredentials
  unfold ProxyAdmin.material at h
  rw [hread] at h
  cases h
  exact ⟨username, password, fun u hmem => (hu u hmem).1, fun w hmem => (hw w hmem).1, rfl⟩

theorem distinct_iff (hfree : admin.CollisionFree s) {stored proxy : EgressProxyRow}
    (hstored : stored ∈ s.proxies) (hsealed : admin.SealedRow s stored)
    (hdescribed : admin.Described stored) (hrow : admin.SealedRow s proxy)
    (haccurate : admin.Accurate proxy) :
    ¬ egressProxyRowSchema.Distinct stored proxy ↔ admin.Duplicates stored proxy := by
  obtain ⟨material, hmaterial, hfingerprint⟩ := haccurate
  have hsame : sqlEq stored.credentialFingerprint proxy.credentialFingerprint = true ↔
      ¬ stored.Legacy ∧ admin.material stored = admin.material proxy := by
    rw [hmaterial, hfingerprint]
    constructor
    · intro heq
      have hnew : ¬ stored.Legacy := by
        intro hlegacy
        rw [hfree.placeholders stored hstored hlegacy material
          (material_supplied hrow hmaterial)] at heq
        cases heq
      obtain ⟨own, hown, hownFingerprint⟩ := hdescribed.resolve_left hnew
      rw [hownFingerprint] at heq
      refine ⟨hnew, ?_⟩
      rw [hown, hfree.materials own material (material_supplied hsealed hown)
        (material_supplied hrow hmaterial) heq]
    · rintro ⟨hnew, heq⟩
      obtain ⟨own, hown, hownFingerprint⟩ := hdescribed.resolve_left hnew
      rw [hown] at heq
      cases heq
      rw [hownFingerprint]
      exact decide_eq_true rfl
  unfold Schema.Distinct ProxyAdmin.Duplicates EgressProxyRow.SameEndpoint
  rw [not_and_or, not_not, Bool.not_eq_false, ← hsame]
  simp only [egressProxyRowSchema, Bool.or_eq_true, Bool.and_eq_true, decide_eq_true_eq,
    and_assoc]

section

variable {ι : Type*} [DecidableEq ι]

/-- What carries the protection over a run. -/
def AdminSound (admin : ProxyAdmin) (t : Threads ι AdminHandler AdminShared) : Prop :=
  t.shared.Consistent admin ∧ t.Linked (AdminLink admin)

theorem adminSound_step (t : Threads ι AdminHandler AdminShared) (e : ι × AdminAction)
    (h : AdminSound admin t) : AdminSound admin (t.step (adminAct admin) e) := by
  obtain ⟨i, a⟩ := e
  refine ⟨consistent_step h.1 (h.2 i), fun j => ?_⟩
  rw [Threads.step_held]
  split
  · exact adminLink_step h.1 (h.2 i)
  · exact (h.2 j).mono adminAct_supplied

/-- What carries the identity over a run. -/
structure AdminDescribed (admin : ProxyAdmin) (t : Threads ι AdminHandler AdminShared) :
    Prop where
  sound : AdminSound admin t
  stored : ∀ proxy ∈ t.shared.proxies, admin.Described proxy
  held : ∀ i, DescribedLink admin (t.held i)

theorem adminDescribed_step (t : Threads ι AdminHandler AdminShared) (e : ι × AdminAction)
    (h : AdminDescribed admin t) (hok : t.At CredentialsUndisturbed e) :
    AdminDescribed admin (t.step (adminAct admin) e) := by
  obtain ⟨i, a⟩ := e
  refine ⟨adminSound_step t (i, a) h.sound,
    described_step h.stored (h.sound.2 i) (h.held i) hok, fun j => ?_⟩
  rw [Threads.step_held]
  split
  · exact describedLink_step h.sound.1 h.stored (h.held i)
  · exact h.held j

omit [DecidableEq ι] in
theorem AdminDescribed.identified {t : Threads ι AdminHandler AdminShared}
    (h : AdminDescribed admin t) : Identified admin t where
  described := h.stored
  apart a ha b hb hne hendpoint hnewA hnewB heq := by
    obtain ⟨materialA, hmaterialA, hfingerprintA⟩ := (h.stored a ha).resolve_left hnewA
    obtain ⟨materialB, hmaterialB, hfingerprintB⟩ := (h.stored b hb).resolve_left hnewB
    rw [hmaterialA, hmaterialB] at heq
    cases heq
    refine hne (Table.eq_of_clash ha hb ?_)
    have hfingerprint : sqlEq a.credentialFingerprint b.credentialFingerprint = true := by
      rw [hfingerprintA, hfingerprintB]
      exact decide_eq_true rfl
    simp only [egressProxyRowSchema, hendpoint.1, hendpoint.2.1, hendpoint.2.2, hfingerprint,
      decide_true, Bool.and_self, Bool.or_true]
  admits hfree i proxy hheld now errorMessage := by
    have hlink := h.sound.2 i
    rw [hheld] at hlink ⊢
    have hrefused : (t.shared.commit now errorMessage (.creating proxy)).1 =
        .refused (integrityConflict errorMessage) ↔ t.shared.proxies.insert? proxy = none := by
      cases hinsert : t.shared.proxies.insert? proxy with
      | none => simp [AdminShared.commit, hinsert]
      | some proxies => simp [AdminShared.commit, hinsert, AdminHandler.refused]
    rw [hrefused, Table.insert?_eq_none]
    refine exists_congr fun stored => and_congr_right fun hstored => ?_
    exact distinct_iff hfree hstored (h.sound.1.sealedRows stored hstored)
      (h.stored stored hstored) hlink.1 hlink.2

/-- **Administration of proxies**: however the requests take turns, every stored
proxy can be used with credentials that were supplied for it and no binding is
left behind. As long as no update writes over credentials that have changed since it
read them, a fingerprint is that of the stored credentials, no two proxies share an
endpoint and credentials, and a new proxy is refused exactly if it is a duplicate. -/
theorem administration_safe (h : s.Consistent admin) (describe : CipherError → String)
    (events : List (ι × AdminAction)) :
    (exec (Threads.step (adminAct admin)) (Threads.start s .idle) events).shared.Protected
        admin describe ∧
      ((∀ proxy ∈ s.proxies, admin.Described proxy) →
        Meets (Threads.step (adminAct admin)) (Threads.At CredentialsUndisturbed)
          (Threads.start s .idle) events →
        Identified admin
          (exec (Threads.step (adminAct admin)) (Threads.start s .idle) events)) := by
  have hstart : AdminSound admin (Threads.start s .idle : Threads ι AdminHandler AdminShared) :=
    ⟨h, fun _ => trivial⟩
  constructor
  · exact (exec_invariant adminSound_step hstart events).1.protected describe
  · intro hdescribed hundisturbed
    have hinv : AdminDescribed admin
        (Threads.start s .idle : Threads ι AdminHandler AdminShared) :=
      ⟨hstart, hdescribed, fun _ => trivial⟩
    exact (exec_invariant_of_meets adminDescribed_step hinv hundisturbed).identified

end

end

section Sample

attribute [local instance] asciiPlatform

def openAdmin : ProxyAdmin where
  cipher := some { key := List.replicate 32 0, gcm := openGcm }
  sha256 _ := ""
  hmacSha256 _ material := .ofList (material.map fun byte => Char.ofNat byte.toNat)

def zeroDraw (id : String) : ProxyDraw where
  id := id
  usernameNonce := ⟨zeroNonces 0, rfl⟩
  passwordNonce := ⟨zeroNonces 0, rfl⟩

def createdTwice : List (ℕ × AdminAction) :=
  [(0, .create (zeroDraw "1")
      { name := "first", protocol := .socks5, host := "proxy", port := 1080
        username := some "user", password := some "secret" }),
   (0, .commit 0 ""),
   (1, .create (zeroDraw "2")
      { name := "second", protocol := .socks5, host := "proxy", port := 1080
        username := some " user", copyCredentialsFromProxyId := some "1" }),
   (1, .commit 0 "key 'egress_proxies.uq_egress_proxies_endpoint_credentials'")]

def thenUpdated : List (ℕ × AdminAction) :=
  createdTwice ++
    [(1, .update "1" (zeroDraw "") { password := some (some "changed") }), (1, .commit 0 "")]

theorem administration_safe_sample :
    (exec (Threads.step (adminAct openAdmin)) (Threads.start {} .idle)
        thenUpdated).shared.Protected openAdmin (fun _ => "") ∧
      Identified openAdmin
        (exec (Threads.step (adminAct openAdmin)) (Threads.start {} .idle) thenUpdated) := by
  have hconsistent : AdminShared.Consistent {} openAdmin :=
    ⟨fun proxy h => absurd h (Table.not_mem_empty proxy),
      fun mailbox h => absurd h (Table.not_mem_empty mailbox)⟩
  have hsafe := administration_safe hconsistent (fun _ => "") thenUpdated
  refine ⟨hsafe.1, hsafe.2 (fun proxy h => absurd h (Table.not_mem_empty proxy)) ?_⟩
  decide +kernel

/-- Two updates that have both read the first credentials. -/
def disturbed : List (ℕ × AdminAction) :=
  createdTwice.take 2 ++
    [(0, .update "1" (zeroDraw "") { username := some (some "other") }),
     (1, .update "1" (zeroDraw "") { password := some (some "changed") }),
     (0, .commit 0 ""),
     (1, .commit 0 "")]

/-- The fingerprint is of credentials that the proxy never had. -/
example : ((exec (Threads.step (adminAct openAdmin)) (Threads.start {} .idle)
    disturbed).shared.proxies.rows.map fun p =>
      ((openAdmin.readCredentials p).toOption, p.credentialFingerprint)) =
    [(some (some "other", some "changed"), "user\x00changed")] := by
  decide +kernel

end Sample

end MailboxService
