import MailboxService.Models
import MailboxService.Foundation.Run

/-!
# Token claims and refresh-token writes

`token_repository.py`: one refresh claim per mailbox, taken by a conditional
`UPDATE` and finalised by compare-and-swap on the claim id and the token
version, and the two other writers of a refresh token, the client's
compare-and-swap and the administrator's replacement. Every call is one
transaction; a call that raises is rolled back, so an error carries no
database.
-/

namespace MailboxService

open Foundation

/-- What the calls raise, each with its message. -/
inductive TokenRepositoryError where
  | mailboxNotFound
  | mailboxInvalid
  | credentialsMissing
  | refreshAlreadyClaimed (mailboxId claimId : String) (expiresAt : ℕ)
  | activeRefreshTokenLease
  | tokenVersionConflict
  | rotationWithoutStamps
  | undecryptable (reason : String)
  deriving DecidableEq, Repr

def TokenRepositoryError.message : TokenRepositoryError → String
  | mailboxNotFound => "邮箱不存在"
  | mailboxInvalid => "邮箱状态为 invalid，无法刷新 access token"
  | credentialsMissing => "邮箱缺少 Client ID 或 refresh token"
  | refreshAlreadyClaimed mailboxId _ _ =>
      "token refresh already claimed for mailbox " ++ mailboxId
  | activeRefreshTokenLease => "存在活跃 refresh_token 租约，跳过后台刷新"
  | tokenVersionConflict => "Refresh Token 版本冲突"
  | rotationWithoutStamps => "rotated refresh requires encrypted RT and lifetime stamps"
  | undecryptable reason => reason

/-- Immutable claim payload used outside any transaction. -/
structure TokenRefreshClaim where
  claimId : String
  mailboxId : String
  primaryEmail : String
  clientId : String
  refreshToken : String
  expectedTokenVersion : ℕ
  expiresAt : ℕ
  deriving DecidableEq, Repr

/-- A refresh token to store, with its lifetime stamps. -/
structure RefreshTokenWrite where
  encryptedRefreshToken : String
  refreshTokenUpdatedAt : ℕ
  refreshTokenExpiresAt : ℕ
  clearAccessTokenCache : Bool := true
  deriving DecidableEq, Repr

/-- The outcome of an OAuth exchange, as `complete_token_refresh` takes it. -/
structure RefreshCompletion where
  encryptedAccessToken : String
  accessTokenExpiresAt : ℕ
  accessTokenRefreshedAt : ℕ
  scope : Option String
  encryptedRefreshToken : Option String
  refreshTokenRotated : Bool
  refreshTokenUpdatedAt : Option ℕ
  refreshTokenExpiresAt : Option ℕ
  deriving DecidableEq, Repr

/-! ## The SET clauses -/

/-- The SET clause of an `UPDATE mailboxes`: it leaves the identity columns
alone. -/
structure MailboxAssignment where
  set : Mailbox → Mailbox
  keeps_id : ∀ m, (set m).id = m.id := by intro m; rfl
  keeps_email : ∀ m, (set m).primaryEmail = m.primaryEmail := by intro m; rfl

def Mailbox.clearAccessTokenCache (m : Mailbox) : Mailbox :=
  { m with
    accessTokenCiphertext := none
    accessTokenExpiresAt := none
    accessTokenRefreshedAt := none
    accessTokenSourceVersion := none }

/-- Store a refresh token as the revision computed from the row. -/
def assignRefreshToken (w : RefreshTokenWrite) (version : Mailbox → ℕ) :
    MailboxAssignment where
  set m :=
    { (if w.clearAccessTokenCache then m.clearAccessTokenCache else m) with
      refreshTokenCiphertext := some w.encryptedRefreshToken
      refreshTokenUpdatedAt := some w.refreshTokenUpdatedAt
      refreshTokenExpiresAt := some w.refreshTokenExpiresAt
      tokenVersion := version m
      updatedAt := w.refreshTokenUpdatedAt }
  keeps_id m := by
    show (if w.clearAccessTokenCache then m.clearAccessTokenCache else m).id = m.id
    split <;> rfl
  keeps_email m := by
    show (if w.clearAccessTokenCache then m.clearAccessTokenCache else m).primaryEmail =
      m.primaryEmail
    split <;> rfl

def assignClaim (claimId : String) (expiresAt now : ℕ) : MailboxAssignment where
  set m :=
    { m with
      tokenRefreshClaimId := some claimId
      tokenRefreshClaimExpiresAt := some expiresAt
      updatedAt := now }

def Mailbox.clearClaim (now : ℕ) (m : Mailbox) : Mailbox :=
  { m with
    tokenRefreshClaimId := none
    tokenRefreshClaimExpiresAt := none
    updatedAt := now }

def assignNoClaim (now : ℕ) : MailboxAssignment where
  set := Mailbox.clearClaim now

def assignInvalid (now : ℕ) : MailboxAssignment where
  set m := { m.clearClaim now with status := .invalid }

/-- Store the access token of an exchange that kept the refresh token. -/
def assignAccessToken (c : RefreshCompletion) (sourceVersion : ℕ) : MailboxAssignment where
  set m :=
    { m.clearClaim c.accessTokenRefreshedAt with
      accessTokenCiphertext := some c.encryptedAccessToken
      accessTokenExpiresAt := some c.accessTokenExpiresAt
      accessTokenRefreshedAt := some c.accessTokenRefreshedAt
      accessTokenSourceVersion := some sourceVersion
      scope := c.scope
      refreshTokenUpdatedAt := c.refreshTokenUpdatedAt
      refreshTokenExpiresAt := c.refreshTokenExpiresAt }

def assignRotatedTokens (c : RefreshCompletion) (encryptedRefreshToken : String)
    (version : ℕ) : MailboxAssignment where
  set m :=
    { (assignAccessToken c version).set m with
      refreshTokenCiphertext := some encryptedRefreshToken
      tokenVersion := version }

section

variable [Collation]

theorem MailboxAssignment.keeps (f : MailboxAssignment) : mailboxSchema.Keeps f.set := by
  intro m
  refine ⟨f.keeps_id m, ?_⟩
  intro q
  show sqlEq (f.set m).primaryEmail q.primaryEmail = sqlEq m.primaryEmail q.primaryEmail
  rw [f.keeps_email]

/-- The result of an `UPDATE`: the rows it matched and the database after it. -/
structure UpdateResult where
  rowcount : ℕ
  db : Database

/-- `UPDATE mailboxes SET f WHERE id = mailboxId AND q`. -/
def Database.updateMailbox (db : Database) (mailboxId : String) (q : Mailbox → Bool)
    (f : MailboxAssignment) : UpdateResult where
  rowcount := db.mailboxes.rowcount (Table.whereKey mailboxSchema mailboxId q)
  db := { db with
    mailboxes := db.mailboxes.updateWhere (Table.whereKey mailboxSchema mailboxId q) f.set
      f.keeps }

section Update

variable {db : Database} {m : String} {q : Mailbox → Bool} {f : MailboxAssignment}

theorem updateMailbox_get? :
    (db.updateMailbox m q f).db.mailboxes.get? m =
      (db.mailboxes.get? m).map fun r => if q r then f.set r else r := by
  show (db.mailboxes.updateWhere _ f.set f.keeps).get? m = _
  exact Table.get?_updateWhere_key

theorem updateMailbox_get?_ne {m' : String} (h : m' ≠ m) :
    (db.updateMailbox m q f).db.mailboxes.get? m' = db.mailboxes.get? m' := by
  show (db.mailboxes.updateWhere _ f.set f.keeps).get? m' = _
  exact Table.get?_updateWhere_ne h

theorem updateMailbox_row {k : String} {r : Mailbox} (h : db.mailboxes.get? k = some r) :
    (db.updateMailbox m q f).db.mailboxes.get? k =
      some (if k = m ∧ q r = true then f.set r else r) := by
  by_cases hk : k = m
  · subst hk
    rw [updateMailbox_get?, h]
    simp only [Option.map_some, true_and]
  · rw [updateMailbox_get?_ne hk, h]
    simp only [hk, false_and, if_false]

theorem updateMailbox_rowcount :
    (db.updateMailbox m q f).rowcount = if (db.mailboxes.get? m).any q then 1 else 0 :=
  Table.rowcount_whereKey

/-- An update whose condition fails on the row changes nothing. -/
theorem updateMailbox_of_not (h : (db.mailboxes.get? m).any q = false) :
    (db.updateMailbox m q f).db = db := by
  unfold Database.updateMailbox
  rw [Table.updateWhere_key_of_not h]

end Update

/-! ## The calls -/

def compareAndSwapRefreshToken (db : Database) (mailboxId : String)
    (expectedTokenVersion : ℕ) (w : RefreshTokenWrite) :
    Except TokenRepositoryError (ℕ × Database) :=
  let result := db.updateMailbox mailboxId (fun m => m.tokenVersion = expectedTokenVersion)
    (assignRefreshToken w fun _ => expectedTokenVersion + 1)
  if result.rowcount ≠ 1 then .error .tokenVersionConflict
  else .ok (expectedTokenVersion + 1, result.db)

/-- The administrator's replacement, under the row lock. -/
def incrementTokenVersionUnderLock (db : Database) (mailboxId : String)
    (w : RefreshTokenWrite) : Except TokenRepositoryError (ℕ × Database) :=
  let result := db.updateMailbox mailboxId (fun _ => true)
    (assignRefreshToken w fun m => m.tokenVersion + 1)
  match result.db.mailboxes.get? mailboxId with
  | none => .error .mailboxNotFound
  | some mailbox => .ok (mailbox.tokenVersion, result.db)

/-- Whether a live refresh-token lease occupies the mailbox. -/
def hasActiveRefreshTokenLeaseClaim (db : Database) (mailboxId : String) (now : ℕ) :
    Bool :=
  db.leaseClaims.any fun c =>
    c.mailboxId = some mailboxId && c.mode = .refreshToken && decide (now < c.expiresAt)

def Mailbox.claimedAt (now : ℕ) (m : Mailbox) : Bool :=
  match m.tokenRefreshClaimId, m.tokenRefreshClaimExpiresAt with
  | some _, some expiresAt => !isExpired expiresAt now
  | _, _ => false

def Mailbox.alreadyClaimed (now : ℕ) (m : Mailbox) : TokenRepositoryError :=
  .refreshAlreadyClaimed m.id (m.tokenRefreshClaimId.getD "unknown")
    (m.tokenRefreshClaimExpiresAt.getD now)

/-- Phase A: install a claim. `claimId` is the fresh uuid, `decrypt` the cipher. -/
def claimTokenRefresh (db : Database) (now : ℕ) (claimId mailboxId : String)
    (decrypt : String → Except String String) (claimTtlSeconds : ℕ)
    (skipActiveRtLeaseCheck : Bool) :
    Except TokenRepositoryError (TokenRefreshClaim × Database) :=
  match db.mailboxes.get? mailboxId with
  | none => .error .mailboxNotFound
  | some mailbox =>
      if mailbox.status = .invalid then .error .mailboxInvalid
      else if missing mailbox.clientId || missing mailbox.refreshTokenCiphertext then
        .error .credentialsMissing
      else if mailbox.claimedAt now then .error (mailbox.alreadyClaimed now)
      else if !skipActiveRtLeaseCheck && hasActiveRefreshTokenLeaseClaim db mailboxId now then
        .error .activeRefreshTokenLease
      else
        let expiresAt := now + seconds claimTtlSeconds
        let result := db.updateMailbox mailboxId (fun m => !m.claimedAt now)
          (assignClaim claimId expiresAt now)
        if result.rowcount ≠ 1 then .error (mailbox.alreadyClaimed now)
        else
          match decrypt (mailbox.refreshTokenCiphertext.getD "") with
          | .error reason => .error (.undecryptable reason)
          | .ok refreshToken =>
              .ok ({ claimId, mailboxId := mailbox.id, primaryEmail := mailbox.primaryEmail
                     clientId := mailbox.clientId.getD "", refreshToken
                     expectedTokenVersion := mailbox.tokenVersion, expiresAt }, result.db)

/-- The row still carries the claim, at the version the claim names. -/
def TokenRefreshClaim.current (claim : TokenRefreshClaim) (m : Mailbox) : Bool :=
  m.tokenVersion = claim.expectedTokenVersion && m.tokenRefreshClaimId = some claim.claimId

def TokenRefreshClaim.installed (claim : TokenRefreshClaim) (m : Mailbox) : Bool :=
  m.tokenRefreshClaimId = some claim.claimId

/-- The re-read behind an unreliable row count: what a landed update leaves. -/
def confirmCompletedTokenVersion (db : Database) (claim : TokenRefreshClaim)
    (expectedSourceVersion expectTokenVersion : ℕ) : Option ℕ :=
  match db.mailboxes.get? claim.mailboxId with
  | none => none
  | some m =>
      if m.tokenVersion = expectTokenVersion ∧
          m.accessTokenSourceVersion = some expectedSourceVersion ∧
          m.tokenRefreshClaimId = none ∧ m.accessTokenCiphertext.isSome then
        some expectTokenVersion
      else none

/-- Phase C: store the tokens of an exchange. `none` for a claim that is no
longer current. -/
def completeTokenRefresh (db : Database) (claim : TokenRefreshClaim)
    (c : RefreshCompletion) : Except TokenRepositoryError (Option ℕ × Database) :=
  if c.refreshTokenRotated then
    match c.encryptedRefreshToken, c.refreshTokenUpdatedAt, c.refreshTokenExpiresAt with
    | some encryptedRefreshToken, some _, some _ =>
        let result := db.updateMailbox claim.mailboxId claim.current
          (assignRotatedTokens c encryptedRefreshToken (claim.expectedTokenVersion + 1))
        if result.rowcount = 1 then .ok (some (claim.expectedTokenVersion + 1), result.db)
        else .ok (confirmCompletedTokenVersion result.db claim
          (claim.expectedTokenVersion + 1) (claim.expectedTokenVersion + 1), result.db)
    | _, _, _ => .error .rotationWithoutStamps
  else
    let result := db.updateMailbox claim.mailboxId claim.current
      (assignAccessToken c claim.expectedTokenVersion)
    if result.rowcount = 1 then .ok (some claim.expectedTokenVersion, result.db)
    else .ok (confirmCompletedTokenVersion result.db claim claim.expectedTokenVersion
      claim.expectedTokenVersion, result.db)

/-- Mark the mailbox invalid if the claim is current; whether it was. -/
def failTokenRefreshInvalidGrant (db : Database) (now : ℕ) (claim : TokenRefreshClaim) :
    Bool × Database :=
  let result := db.updateMailbox claim.mailboxId claim.current (assignInvalid now)
  (result.rowcount = 1, result.db)

def releaseTokenRefreshClaim (db : Database) (now : ℕ) (claim : TokenRefreshClaim) :
    Database :=
  (db.updateMailbox claim.mailboxId claim.installed (assignNoClaim now)).db

/-! ## What the calls do -/

theorem compareAndSwapRefreshToken_ok {db db' : Database} {mailboxId : String}
    {expected v : ℕ} {w : RefreshTokenWrite}
    (h : compareAndSwapRefreshToken db mailboxId expected w = .ok (v, db')) :
    v = expected + 1 ∧
      db' = (db.updateMailbox mailboxId (fun m => m.tokenVersion = expected)
        (assignRefreshToken w fun _ => expected + 1)).db := by
  simp only [compareAndSwapRefreshToken] at h
  split at h
  · cases h
  · cases h
    exact ⟨rfl, rfl⟩

/-- A client write that conflicts: the row was at another version, or absent. -/
theorem compareAndSwapRefreshToken_error {db : Database} {mailboxId : String}
    {expected : ℕ} {w : RefreshTokenWrite} {e : TokenRepositoryError}
    (h : compareAndSwapRefreshToken db mailboxId expected w = .error e) :
    (db.mailboxes.get? mailboxId).any (fun m => m.tokenVersion = expected) = false := by
  cases hany : (db.mailboxes.get? mailboxId).any (fun m => m.tokenVersion = expected) with
  | false => rfl
  | true =>
      simp [compareAndSwapRefreshToken, updateMailbox_rowcount, hany] at h

theorem incrementTokenVersionUnderLock_ok {db db' : Database} {mailboxId : String}
    {v : ℕ} {w : RefreshTokenWrite}
    (h : incrementTokenVersionUnderLock db mailboxId w = .ok (v, db')) :
    db' = (db.updateMailbox mailboxId (fun _ => true)
      (assignRefreshToken w fun m => m.tokenVersion + 1)).db := by
  simp only [incrementTokenVersionUnderLock] at h
  split at h
  · cases h
  · cases h
    rfl

/-- The replacement only fails when there is no such mailbox. -/
theorem incrementTokenVersionUnderLock_error {db : Database} {mailboxId : String}
    {w : RefreshTokenWrite} {e : TokenRepositoryError}
    (h : incrementTokenVersionUnderLock db mailboxId w = .error e) :
    db.mailboxes.get? mailboxId = none := by
  simp only [incrementTokenVersionUnderLock, updateMailbox_get?] at h
  split at h
  · rename_i hnone
    exact Option.map_eq_none_iff.mp hnone
  · cases h

/-- A claim that is granted: the row carried no live claim, and now carries
this one. -/
theorem claimTokenRefresh_ok {db db' : Database} {now : ℕ} {claimId mailboxId : String}
    {decrypt : String → Except String String} {ttl : ℕ} {skip : Bool}
    {claim : TokenRefreshClaim}
    (h : claimTokenRefresh db now claimId mailboxId decrypt ttl skip = .ok (claim, db')) :
    ∃ row, db.mailboxes.get? mailboxId = some row ∧ row.claimedAt now = false ∧
      claim.mailboxId = mailboxId ∧ claim.claimId = claimId ∧
      claim.expectedTokenVersion = row.tokenVersion ∧
      decrypt (row.refreshTokenCiphertext.getD "") = .ok claim.refreshToken ∧
      claim.expiresAt = now + seconds ttl ∧
      db' = (db.updateMailbox mailboxId (fun m => !m.claimedAt now)
        (assignClaim claimId (now + seconds ttl) now)).db := by
  unfold claimTokenRefresh at h
  cases hrow : db.mailboxes.get? mailboxId with
  | none => simp only [hrow, reduceCtorEq] at h
  | some row =>
      simp only [hrow] at h
      split at h
      · cases h
      split at h
      · cases h
      split at h
      · cases h
      rename_i hclaimed
      split at h
      · cases h
      split at h
      · cases h
      split at h
      · cases h
      · rename_i refreshToken hdecrypt
        cases h
        exact ⟨row, rfl, by simpa using hclaimed, Table.key_of_get? hrow, rfl, rfl, hdecrypt,
          rfl, rfl⟩

theorem completeTokenRefresh_ok {db db' : Database} {claim : TokenRefreshClaim}
    {c : RefreshCompletion} {v : Option ℕ}
    (h : completeTokenRefresh db claim c = .ok (v, db')) :
    (c.refreshTokenRotated = true ∧ c.refreshTokenUpdatedAt.isSome ∧
      c.refreshTokenExpiresAt.isSome ∧ ∃ encrypted, c.encryptedRefreshToken = some encrypted ∧
        db' = (db.updateMailbox claim.mailboxId claim.current
          (assignRotatedTokens c encrypted (claim.expectedTokenVersion + 1))).db) ∨
    (c.refreshTokenRotated = false ∧
      db' = (db.updateMailbox claim.mailboxId claim.current
        (assignAccessToken c claim.expectedTokenVersion)).db) := by
  unfold completeTokenRefresh at h
  cases hrot : c.refreshTokenRotated with
  | true =>
      left
      simp only [hrot, if_true] at h
      split at h
      · rename_i encrypted u e henc hu he
        refine ⟨rfl, by rw [hu]; rfl, by rw [he]; rfl, encrypted, henc, ?_⟩
        split at h
        · cases h
          rfl
        · cases h
          rfl
      · cases h
  | false =>
      right
      simp only [hrot, Bool.false_eq_true, if_false] at h
      refine ⟨rfl, ?_⟩
      split at h
      · cases h
        rfl
      · cases h
        rfl

/-- A completion only raises for a rotation without its token or stamps. -/
theorem completeTokenRefresh_error {db : Database} {claim : TokenRefreshClaim}
    {c : RefreshCompletion} {e : TokenRepositoryError}
    (h : completeTokenRefresh db claim c = .error e) :
    ¬ (c.encryptedRefreshToken.isSome ∧ c.refreshTokenUpdatedAt.isSome ∧
      c.refreshTokenExpiresAt.isSome) := by
  rintro ⟨henc, hu, he⟩
  obtain ⟨encrypted, henc⟩ := Option.isSome_iff_exists.mp henc
  obtain ⟨u, hu⟩ := Option.isSome_iff_exists.mp hu
  obtain ⟨e, he⟩ := Option.isSome_iff_exists.mp he
  simp only [completeTokenRefresh, henc, hu, he] at h
  split at h
  · split at h
    · cases h
    · cases h
  · split at h
    · cases h
    · cases h

end

end MailboxService
