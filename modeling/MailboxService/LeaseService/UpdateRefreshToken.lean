import MailboxService.LeaseService.ReleaseEffects
import MailboxService.TokenRepository
import Mathlib.Data.List.Infix

/-!
# Writing a refresh token back

`update_refresh_token`: the holder of a refresh-token lease replaces the
refresh token of its mailbox by compare-and-swap on the token version.
-/

namespace MailboxService

open Foundation

structure RefreshTokenUpdateResult where
  leaseId : String
  mailboxId : String
  updated : Bool
  tokenVersion : ℕ
  deriving DecidableEq, Repr

structure CredentialSettings where
  decrypt : String → Except String String
  encrypt : String → String
  refreshTokenLifetimeDays : ℕ

/-- `hmac_compare`: the comparison of texts raises on characters outside ASCII. -/
def hmacCompare (currentValue candidateValue : String) : Except LeaseError Bool :=
  if currentValue.toList.all (·.toNat < 128) && candidateValue.toList.all (·.toNat < 128) then
    .ok (currentValue = candidateValue)
  else .error (.value "comparing strings with non-ASCII characters is not supported")

structure LeaseRefreshTokenUpdateRequest where
  expectedTokenVersion : ℕ
  refreshToken : String
  deriving DecidableEq, Repr

/-- What the fields of a request are rejected for. -/
inductive FieldRejection where
  | greaterThanEqual
  | tooShort
  | tooLong
  | valueError (message : String)
  deriving DecidableEq, Repr

def validateRefreshToken [PythonText] (value : String) : Except FieldRejection String :=
  if value.length < 1 then .error .tooShort
  else if 16384 < value.length then .error .tooLong
  else if '\n' ∈ value.toList ∨ '\r' ∈ value.toList ∨ "----".toList <:+: value.toList then
    .error (.valueError "Refresh Token 格式无效")
  else if Text.strip value = "" then .error (.valueError "Refresh Token 不能为空")
  else .ok (Text.strip value)

/-- The request as the route gets it. -/
def LeaseRefreshTokenUpdateRequest.validated [PythonText]
    (request : LeaseRefreshTokenUpdateRequest) :
    Except FieldRejection LeaseRefreshTokenUpdateRequest :=
  if request.expectedTokenVersion < 1 then .error .greaterThanEqual
  else (validateRefreshToken request.refreshToken).map fun refreshToken =>
    { request with refreshToken := refreshToken }

/-- The SET clause of the write-back; `access_token_source_version` stays. -/
def assignUpdatedRefreshToken (encryptedRefreshToken : String)
    (touchedAt lifetimeDays : ℕ) : MailboxAssignment where
  set m :=
    { m with
      refreshTokenCiphertext := some encryptedRefreshToken
      refreshTokenUpdatedAt := some touchedAt
      refreshTokenExpiresAt := some (touchedAt + seconds (lifetimeDays * 86400))
      accessTokenCiphertext := none
      accessTokenExpiresAt := none
      accessTokenRefreshedAt := none
      tokenVersion := m.tokenVersion + 1
      updatedAt := touchedAt }

section

variable [Platform]

/-- The checks on the locked lease and its mailbox; `true` when the stored
refresh token is the given one already. -/
def checkRefreshToken (settings : CredentialSettings) (db : Database) (lease : Lease)
    (expectedTokenVersion : ℕ) (refreshToken : String) :
    Except LeaseError (Mailbox × Bool) :=
  if lease.mode ≠ .refreshToken then .error (.leaseMode "该租约不是 refresh_token mode")
  else
    match lease.mailboxId.bind fun mailboxId => db.mailboxes.get? mailboxId with
    | none => .error (.leaseInactive "租约邮箱当前不可用")
    | some mailbox =>
        if mailbox.status ≠ .active then .error (.leaseInactive "租约邮箱当前不可用")
        else if mailbox.tokenVersion ≠ expectedTokenVersion then
          .error (.tokenVersionConflict "Refresh Token 版本冲突")
        else
          match settings.decrypt (mailbox.refreshTokenCiphertext.getD "") with
          | .error reason => .error (.runtime reason)
          | .ok existing =>
              (hmacCompare existing refreshToken).map fun same => (mailbox, same)

def Database.updateRefreshToken (db : Database) (settings : CredentialSettings) (now : ℕ)
    (mailboxId : String) (expectedTokenVersion : ℕ) (refreshToken : String) : UpdateResult :=
  db.updateMailbox mailboxId (fun m => m.tokenVersion = expectedTokenVersion)
    (assignUpdatedRefreshToken (settings.encrypt refreshToken) now
      settings.refreshTokenLifetimeDays)

/-- What `update_refresh_token` does once it has its lease. -/
def writeRefreshToken (settings : CredentialSettings) (now : ℕ) (lease : Lease)
    (expectedTokenVersion : ℕ) (refreshToken : String) :
    LeaseWork RefreshTokenUpdateResult := do
  let checked ← Work.read fun db =>
    checkRefreshToken settings db lease expectedTokenVersion refreshToken
  let (mailbox, same) ← Work.ofExcept checked
  if same then pure ⟨lease.id, mailbox.id, false, mailbox.tokenVersion⟩
  else do
    let rowcount ← Work.read fun db =>
      (db.updateRefreshToken settings now mailbox.id expectedTokenVersion
        refreshToken).rowcount
    Work.write fun db =>
      (db.updateRefreshToken settings now mailbox.id expectedTokenVersion refreshToken).db
    if rowcount ≠ 1 then Work.raise (.tokenVersionConflict "Refresh Token 版本冲突")
    else pure ⟨lease.id, mailbox.id, true, expectedTokenVersion + 1⟩

def updateRefreshToken (settings : CredentialSettings) (principal : ClientPrincipal)
    (now : ℕ) (leaseId : String) (expectedTokenVersion : ℕ) (refreshToken : String) :
    LeaseWork RefreshTokenUpdateResult := do
  principal.requireScope "tokens:refresh:write"
  let lease ← loadOwnedLeaseMailboxFirst principal now leaseId true
  writeRefreshToken settings now lease expectedTokenVersion refreshToken

/-! ## What a write-back leaves -/

theorem checkRefreshToken_ok {settings : CredentialSettings} {db : Database} {lease : Lease}
    {expectedTokenVersion : ℕ} {refreshToken : String} {mailbox : Mailbox} {same : Bool}
    (h : checkRefreshToken settings db lease expectedTokenVersion refreshToken =
      .ok (mailbox, same)) :
    db.mailboxes.get? mailbox.id = some mailbox ∧
      mailbox.tokenVersion = expectedTokenVersion ∧ lease.mailboxId = some mailbox.id := by
  unfold checkRefreshToken at h
  split at h
  · cases h
  split at h
  · cases h
  rename_i m hm
  split at h
  · cases h
  split at h
  · cases h
  rename_i hversion
  split at h
  · cases h
  rename_i existing hdecrypt
  cases hsame : hmacCompare existing refreshToken with
  | error e =>
      rw [hsame] at h
      cases h
  | ok b =>
      rw [hsame] at h
      cases h
      rw [Option.bind_eq_some_iff] at hm
      obtain ⟨mailboxId, hlease, hget⟩ := hm
      have hid : mailbox.id = mailboxId := Table.key_of_get? hget
      rw [hid]
      exact ⟨hget, not_not.mp hversion, hlease⟩

/-- **Write-back lemma**: a write-back that returns finds the token in place,
or makes the one conditional update. -/
theorem writeRefreshToken_ok {settings : CredentialSettings} {db : Database}
    {s s' : Session Database} {now : ℕ} {lease : Lease} {expectedTokenVersion : ℕ}
    {refreshToken : String} {result : RefreshTokenUpdateResult}
    (h : writeRefreshToken settings now lease expectedTokenVersion refreshToken db s =
      (.ok result, s')) :
    (result.updated = false ∧ s'.db = s.db) ∨
    (result.updated = true ∧ ∃ mailbox,
      result = ⟨lease.id, mailbox.id, true, expectedTokenVersion + 1⟩ ∧
      checkRefreshToken settings s.db lease expectedTokenVersion refreshToken =
        .ok (mailbox, false) ∧
      s'.db = (s.db.updateRefreshToken settings now mailbox.id expectedTokenVersion
        refreshToken).db) := by
  unfold writeRefreshToken at h
  simp only [Work.bind_eq_ok] at h
  obtain ⟨checked, s₁, hread, ⟨mailbox, same⟩, s₂, hcheck, h⟩ := h
  obtain ⟨-, rfl, rfl⟩ := Work.read_eq_ok.mp hread
  obtain ⟨hchecked, rfl⟩ := Prod.mk.inj hcheck
  cases same with
  | true =>
      cases h
      exact Or.inl ⟨rfl, rfl⟩
  | false =>
      simp only [Bool.false_eq_true, if_false, Work.bind_eq_ok] at h
      obtain ⟨rowcount, s₃, hread', _, s₄, hwrite, h⟩ := h
      obtain ⟨-, -, rfl⟩ := Work.read_eq_ok.mp hread'
      obtain ⟨-, rfl⟩ := Work.write_eq_ok.mp hwrite
      split at h
      · cases h
      · cases h
        exact Or.inr ⟨rfl, mailbox, rfl, hchecked, rfl⟩

/-- The transaction of a write-back that returns: it changes nothing, or only the
one row of its mailbox, at the expected version. -/
theorem updateRefreshToken_transact {settings : CredentialSettings} {db db' : Database}
    {principal : ClientPrincipal} {now : ℕ} {leaseId : String} {expectedTokenVersion : ℕ}
    {refreshToken : String} {result : RefreshTokenUpdateResult}
    (h : (updateRefreshToken settings principal now leaseId expectedTokenVersion
      refreshToken).transact db = (.ok result, db')) :
    (result.updated = false ∧ db' = db) ∨
    (result.updated = true ∧ ∃ mailbox, db.mailboxes.get? result.mailboxId = some mailbox ∧
      mailbox.tokenVersion = expectedTokenVersion ∧
      result.tokenVersion = expectedTokenVersion + 1 ∧
      db' = (db.updateRefreshToken settings now result.mailboxId expectedTokenVersion
        refreshToken).db) := by
  rw [Work.transact_eq_ok] at h
  unfold updateRefreshToken at h
  simp only [Work.bind_eq_ok] at h
  obtain ⟨_, s₁, hscope, lease, s₂, hload, h⟩ := h
  obtain ⟨hs₂, -, -⟩ := loadOwnedLeaseMailboxFirst_ok hload
  have hs : s₂ = ⟨db, true⟩ := by rw [hs₂, requireScope_ok hscope]
  rw [hs] at h
  rcases writeRefreshToken_ok h with ⟨hupdated, hsame⟩ | ⟨hupdated, mailbox, rfl, hcheck, hdb⟩
  · exact Or.inl ⟨hupdated, hsame⟩
  · obtain ⟨hrow, hversion, -⟩ := checkRefreshToken_ok hcheck
    exact Or.inr ⟨hupdated, mailbox, hrow, hversion, rfl, hdb⟩

end

end MailboxService
