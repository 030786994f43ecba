import MailboxService.PythonLines
import MailboxService.TokenService.TokenRuns

/-!
# Importing and exporting mailboxes

The administrator's text format of `main.py`: one mailbox a line, its four
segments separated by `----`, with no escaping. An import cuts the text at
Python's line boundaries and each line at the separator, and trims what it
gets; an export joins the stored values again. `validate_email` is a parameter,
with the facts about its results that are used.
-/

namespace MailboxService

open Foundation

/-- What an import runs on: line boundaries are white space and the hyphen is
not; a normalised address is its own normal form, and has neither white space
nor a byte order mark. -/
class ImportPlatform extends Platform where
  boundary_space : ∀ c, Text.isLineBoundary c = true → isSpace c = true
  hyphen_not_space : isSpace '-' = false
  /-- `validate_email(address).normalized`. -/
  validateEmail : String → Option String
  validateEmail_normalized : ∀ address email, validateEmail address = some email →
    validateEmail email = some email
  validateEmail_printable : ∀ address email, validateEmail address = some email →
    email ≠ "" ∧ ∀ c ∈ email.toList, isSpace c = false ∧ c ≠ '\ufeff'

/-! ## Lines -/

structure MailboxImportLineError where
  lineNumber : ℕ
  message : String
  deriving DecidableEq, Repr

structure MailboxCredentials where
  primaryEmail : String
  mailPassword : String
  clientId : String
  refreshToken : String
  deriving DecidableEq, Repr

def segmentSeparator : String := "----"

def formatMailboxImportLine (c : MailboxCredentials) : String :=
  segmentSeparator.intercalate [c.primaryEmail, c.mailPassword, c.clientId, c.refreshToken]

section

variable [ImportPlatform]

def parseMailboxImportLine (lineNumber : ℕ) (rawLine : String) :
    Except MailboxImportLineError MailboxCredentials :=
  let normalizedLine := Text.lstripChar (Text.strip rawLine) '\ufeff'
  match (Text.split normalizedLine segmentSeparator).map Text.strip with
  | [primaryEmail, mailPassword, clientId, refreshToken] =>
      if primaryEmail = "" ∨ mailPassword = "" ∨ clientId = "" ∨ refreshToken = "" then
        .error ⟨lineNumber, "邮箱、邮箱密码、Client ID 和 Refresh Token 均不能为空。"⟩
      else
        match ImportPlatform.validateEmail primaryEmail with
        | none => .error ⟨lineNumber, "邮箱格式无效。"⟩
        | some normalized => .ok ⟨normalized, mailPassword, clientId, refreshToken⟩
  | _ => .error ⟨lineNumber, "每行必须包含 4 段，并使用 ---- 分隔。"⟩

def importLines (content : String) : List (ℕ × String) :=
  ((Text.splitlines content).zipIdx 1).filterMap fun line =>
    if Text.strip line.1 = "" then none else some (line.2, line.1)

def parsedLines (content : String) :
    List (Except MailboxImportLineError MailboxCredentials) :=
  (importLines content).map fun line => parseMailboxImportLine line.1 line.2

/-! ## The import -/

inductive OnConflict where
  | skip
  | replaceToken
  | error
  deriving DecidableEq, Repr

structure MailboxImportRequest where
  content : String
  onConflict : OnConflict := .replaceToken
  forceReleaseActiveLeases : Bool := false
  deriving DecidableEq, Repr

structure MailboxImportResponse where
  created : ℕ
  updated : ℕ
  skipped : ℕ
  failed : ℕ
  errors : List MailboxImportLineError
  deriving DecidableEq, Repr

/-- The primary key that a line draws for a new mailbox, and the nonce of its
first encryption. -/
structure ImportDraw where
  mailboxId : String
  nonce : ℕ
  deriving DecidableEq, Repr

/-- The counters of a running import, and its database. -/
structure ImportProgress where
  db : Database
  created : ℕ := 0
  updated : ℕ := 0
  skipped : ℕ := 0
  errors : List MailboxImportLineError := []
  seenPrimaryEmails : List String := []

def ImportProgress.fail (p : ImportProgress) (lineNumber : ℕ) (message : String) :
    ImportProgress :=
  { p with errors := p.errors ++ [⟨lineNumber, message⟩] }

/-- `select(Mailbox).where(Mailbox.primary_email == primary_email)`. -/
def Database.mailboxByEmail (db : Database) (primaryEmail : String) : Option Mailbox :=
  (db.mailboxes.select fun m => sqlEq m.primaryEmail primaryEmail).head?

/-- What a replacement takes from a line. -/
def MailboxCredentials.item (c : MailboxCredentials) (forceReleaseActiveLeases : Bool) :
    MailboxImportItem where
  mailPassword := c.mailPassword
  clientId := c.clientId
  refreshToken := c.refreshToken
  forceReleaseActiveLeases := forceReleaseActiveLeases

def TokenSettings.importedMailbox (settings : TokenSettings) (now : ℕ) (draw : ImportDraw)
    (c : MailboxCredentials) : Mailbox :=
  settings.stampRefreshTokenLifetime now
    { id := draw.mailboxId
      primaryEmail := c.primaryEmail
      providerType := defaultProviderType
      status := .active
      clientId := some c.clientId
      mailPasswordCiphertext := some (settings.encrypt (draw.nonce + 1) c.mailPassword)
      refreshTokenCiphertext := some (settings.encrypt draw.nonce c.refreshToken)
      createdAt := now
      updatedAt := now }

/-- The columns take what a line writes: 255 characters of `client_id`, and the bytes
of a `TEXT` in each ciphertext. -/
def TokenSettings.takes (settings : TokenSettings) (nonce : ℕ) (item : MailboxImportItem) :
    Bool :=
  item.clientId.length ≤ 255 &&
    (settings.encrypt (nonce + 1) item.mailPassword).utf8ByteSize ≤ 65535 &&
    (settings.encrypt nonce item.refreshToken).utf8ByteSize ≤ 65535

/-- The columns take the row of a new mailbox. -/
def TokenSettings.takesNew (settings : TokenSettings) (nonce : ℕ) (primaryEmail : String)
    (item : MailboxImportItem) : Bool :=
  primaryEmail.length ≤ 320 && settings.takes nonce item

/-- The credentials of an existing mailbox are replaced, if the columns take them. -/
def ImportProgress.replace (p : ImportProgress) (settings : TokenSettings) (now nonce : ℕ)
    (item : MailboxImportItem) (existing : Mailbox) (db : Database) : Option ImportProgress :=
  if settings.takes nonce item then
    some { p with
      db := db.writeMailbox existing.id (assignImported settings now nonce item existing)
      updated := p.updated + 1 }
  else none

/-- Store the credentials of a line. There is no result if the flush fails: a value
is too wide for its column, or a constraint is broken. -/
def storeImported (settings : TokenSettings) (now : ℕ) (request : MailboxImportRequest)
    (draw : ImportDraw) (lineNumber : ℕ) (c : MailboxCredentials) (p : ImportProgress) :
    Option ImportProgress :=
  let item := c.item request.forceReleaseActiveLeases
  match p.db.mailboxByEmail c.primaryEmail with
  | none =>
      if settings.takesNew draw.nonce c.primaryEmail item then
        (p.db.mailboxes.insert? (settings.importedMailbox now draw c)).map fun mailboxes =>
          { p with
            db := { p.db with mailboxes := mailboxes }
            created := p.created + 1 }
      else none
  | some existing =>
      if existing.providerType ≠ "" ∧ existing.providerType ≠ defaultProviderType then
        some (p.fail lineNumber "邮箱已存在且属于其他 Provider，Microsoft 四段导入拒绝覆盖。")
      else
        match request.onConflict with
        | .skip => some { p with skipped := p.skipped + 1 }
        | .error => some (p.fail lineNumber "邮箱已存在。")
        | .replaceToken =>
            if p.db.activeClaimMailboxIds now [existing.id] = [] then
              p.replace settings now draw.nonce item existing p.db
            else if request.forceReleaseActiveLeases then
              p.replace settings now draw.nonce item existing
                (forceReleaseClaimsAndLeases p.db now existing.id)
            else
              some (p.fail lineNumber
                "邮箱存在活跃租约 claim，默认拒绝替换；可 force_release_active_leases=true")

def importLine (settings : TokenSettings) (now : ℕ) (request : MailboxImportRequest)
    (draw : ℕ → ImportDraw) (p : ImportProgress) (line : ℕ × String) : Option ImportProgress :=
  match parseMailboxImportLine line.1 line.2 with
  | .error e => some (p.fail e.lineNumber e.message)
  | .ok c =>
      if c.primaryEmail ∈ p.seenPrimaryEmails then
        some (p.fail line.1 "同一批导入中存在重复邮箱。")
      else
        storeImported settings now request (draw line.1) line.1 c
          { p with seenPrimaryEmails := c.primaryEmail :: p.seenPrimaryEmails }

/-- `import_mailboxes`. There is no result if a flush fails, and the transaction is
rolled back. -/
def importMailboxes (settings : TokenSettings) (now : ℕ) (request : MailboxImportRequest)
    (draw : ℕ → ImportDraw) (db : Database) : Option (MailboxImportResponse × Database) :=
  ((importLines request.content).foldlM (importLine settings now request draw)
      { db := db }).map fun p =>
    let errors :=
      if p.seenPrimaryEmails = [] ∧ p.errors = [] then
        [⟨0, "导入内容没有可处理的邮箱行。"⟩]
      else p.errors
    (⟨p.created, p.updated, p.skipped, errors.length, errors⟩, p.db)

/-! ## The export -/

/-- What an export answers instead of a text, with the detail of the answer. -/
inductive ExportError where
  | mailboxNotFound (missingMailboxIds : List String)
  | credentialDecryptFailed (primaryEmail reason : String)
  | credentialsIncomplete (incompletePrimaryEmails : List String)
  deriving DecidableEq, Repr

def ExportError.code : ExportError → String
  | mailboxNotFound _ => "MAILBOX_NOT_FOUND"
  | credentialDecryptFailed _ _ => "MAILBOX_CREDENTIAL_DECRYPT_FAILED"
  | credentialsIncomplete _ => "MAILBOX_CREDENTIALS_INCOMPLETE"

def ExportError.message : ExportError → String
  | mailboxNotFound ids => "有 " ++ toString ids.length ++ " 个邮箱不存在，无法导出"
  | credentialDecryptFailed primaryEmail reason =>
      "邮箱 " ++ primaryEmail ++ " 凭证解密失败：" ++ reason
  | credentialsIncomplete emails =>
      "有 " ++ toString emails.length ++ " 个邮箱缺少可导出凭证，无法生成完整导入格式"

omit [ImportPlatform] in
/-- The credentials of a row, `none` if they are incomplete. -/
def TokenSettings.exportCredentials (settings : TokenSettings) (m : Mailbox) :
    Except ExportError (Option MailboxCredentials) :=
  if m.primaryEmail = "" ∨ missing m.clientId ∨ missing m.mailPasswordCiphertext ∨
      missing m.refreshTokenCiphertext then .ok none
  else
    match settings.decrypt (m.mailPasswordCiphertext.getD ""),
        settings.decrypt (m.refreshTokenCiphertext.getD "") with
    | .ok mailPassword, .ok refreshToken =>
        if mailPassword = "" ∨ refreshToken = "" then .ok none
        else .ok (some ⟨m.primaryEmail, mailPassword, m.clientId.getD "", refreshToken⟩)
    | .error reason, _ => .error (.credentialDecryptFailed m.primaryEmail reason)
    | _, .error reason => .error (.credentialDecryptFailed m.primaryEmail reason)

def exportContent (lines : List String) : String :=
  if lines = [] then "" else "\n".intercalate lines ++ "\n"

def exportMailboxes (settings : TokenSettings) (db : Database) (mailboxIds : List String) :
    Except ExportError String := do
  let missingIds := mailboxIds.filter fun id => (db.mailboxes.get? id).isNone
  if missingIds ≠ [] then .error (.mailboxNotFound missingIds)
  else
    let exported ← (mailboxIds.filterMap db.mailboxes.get?).mapM fun m =>
      (settings.exportCredentials m).map fun credentials => (m.primaryEmail, credentials)
    let incomplete := exported.filterMap fun e => if e.2.isNone then some e.1 else none
    if incomplete ≠ [] then .error (.credentialsIncomplete incomplete)
    else .ok (exportContent (exported.filterMap fun e => e.2.map formatMailboxImportLine))

end

end MailboxService
