import MailboxService.LeaseService.UpdateRefreshToken
import MailboxService.MailboxAdmin
import MailboxService.Foundation.IdentityMap
import Mathlib.Data.List.Infix

/-!
# Cached access tokens

What `token_service.py` and the administrator's import write to a mailbox: the
tokens of a finished exchange, the token that a capability probe got for the
Graph audience, and imported credentials. The first goes through the
compare-and-swap of the token repository. The other two go through a loaded
instance, whose flush writes by primary key the columns that were changed.
-/

namespace MailboxService

open Foundation

inductive MailAccessChannel where
  | imap
  | graph
  deriving DecidableEq, Repr

/-- `datetime.max`. -/
def datetimeMax : ℕ := 315537897599999999

/-- `MicrosoftTokenResponse`. The client takes any integer for a lifetime, and any text
that JSON can write. -/
structure MicrosoftTokenResponse where
  accessToken : String
  expiresIn : ℤ
  rotatedRefreshToken : Option String := none
  scope : Option String := none
  /-- No text has half a surrogate pair, which cannot be encoded. -/
  encodable : Bool := true
  /-- The columns take the scope and the encrypted tokens. -/
  fits : Bool := true
  deriving DecidableEq, Repr

/-- `now + timedelta(seconds=expires_in)`, which may be out of range. -/
def MicrosoftTokenResponse.expiry (r : MicrosoftTokenResponse) (now : ℕ) : ℤ :=
  now + 1000000 * r.expiresIn

/-- What is stored for an answer can be made and written, where `matched` tells whether
there is a row to write it to. -/
def MicrosoftTokenResponse.storable (r : MicrosoftTokenResponse) (now : ℕ) (matched : Bool) :
    Bool :=
  r.encodable && decide (0 ≤ r.expiry now ∧ r.expiry now ≤ datetimeMax) && (r.fits || !matched)

/-- `CapabilityProbeResult`; the replacement is the answer to an exchange of the
refresh token for the Graph audience. -/
structure CapabilityProbeResult where
  capability : MailboxCapability
  accessTokenReplacement : Option MicrosoftTokenResponse := none
  deriving DecidableEq, Repr

/-- The settings, the cipher and what reads a scope. An encryption is determined
by the nonce it draws. -/
structure TokenSettings where
  encrypt : ℕ → String → String
  decrypt : String → Except String String
  /-- `str.casefold`. -/
  casefold : String → String
  /-- `extract_oauth_scopes_from_access_token`. -/
  extractScopes : String → Option String
  accessTokenRefreshSkewSeconds : ℕ
  refreshTokenLifetimeDays : ℕ
  tokenRefreshClaimTtlSeconds : ℕ

/-- What a write-back gets to see of the settings. -/
def TokenSettings.credentials (settings : TokenSettings) (nonce : ℕ) :
    CredentialSettings where
  decrypt := settings.decrypt
  encrypt := settings.encrypt nonce
  refreshTokenLifetimeDays := settings.refreshTokenLifetimeDays

/-! ## Scopes -/

/-- One of the markers occurs in the scope. -/
def TokenSettings.hints (settings : TokenSettings) (markers : List String)
    (scope : Option String) : Bool :=
  markers.any fun marker =>
    decide (marker.toList <:+: (settings.casefold (scope.getD "")).toList)

def graphAudienceMarkers : List String :=
  ["graph.microsoft.com", "https://graph.microsoft.com/"]

def outlookAudienceMarkers : List String :=
  ["outlook.office.com", "outlook.office365.com", "https://outlook.office.com/"]

/-- `cached_token_matches_mail_channel`. -/
def TokenSettings.matchesChannel (settings : TokenSettings) (scope : Option String) :
    MailAccessChannel → Bool
  | .graph => settings.hints graphAudienceMarkers scope
  | .imap =>
      !(settings.hints graphAudienceMarkers scope) ||
        settings.hints outlookAudienceMarkers scope

/-- `_resolve_preferred_mail_channel`. -/
def Mailbox.preferredMailChannel (m : Mailbox) (preferred : Option MailAccessChannel) :
    Option MailAccessChannel :=
  match preferred, m.capability with
  | some channel, _ => some channel
  | none, some .graph => some .graph
  | none, some .imap => some .imap
  | none, _ => none

/-- `value or fallback`, for a nullable text. -/
def orElseMissing (value fallback : Option String) : Option String :=
  if missing value then fallback else value

/-- `require_microsoft_mailbox`. -/
def Mailbox.isMicrosoft [Platform] (m : Mailbox) : Bool :=
  m.providerType = "" || Text.normalize m.providerType = defaultProviderType

/-! ## The cache -/

def TokenSettings.hasUsableCachedAccessToken (settings : TokenSettings) (now : ℕ)
    (m : Mailbox) : Bool :=
  !missing m.accessTokenCiphertext &&
    decide (m.accessTokenSourceVersion = some m.tokenVersion) &&
    m.accessTokenExpiresAt.any fun expiresAt =>
      decide (now + seconds settings.accessTokenRefreshSkewSeconds < expiresAt)

/-- `_cache_hit`, once the mailbox is loaded: the cached token, if it is usable
and for the wanted channel. A stored scope is checked before the token is
read. -/
def TokenSettings.cacheHit (settings : TokenSettings) (now : ℕ)
    (target : Option MailAccessChannel) (m : Mailbox) : Except String (Option String) :=
  let cached := settings.decrypt (m.accessTokenCiphertext.getD "")
  if !settings.hasUsableCachedAccessToken now m then .ok none
  else if missing m.scope then
    cached.map fun accessToken =>
      if target.all (settings.matchesChannel (settings.extractScopes accessToken)) then
        some accessToken
      else none
  else if target.all (settings.matchesChannel m.scope) then cached.map some
  else .ok none

/-- The cache branch of phase A, which reads the token first. -/
def TokenSettings.cachedAccessToken (settings : TokenSettings) (now : ℕ)
    (target : Option MailAccessChannel) (m : Mailbox) : Except String (Option String) :=
  if settings.hasUsableCachedAccessToken now m then
    (settings.decrypt (m.accessTokenCiphertext.getD "")).map fun accessToken =>
      let scope := orElseMissing m.scope (settings.extractScopes accessToken)
      if target.all (settings.matchesChannel scope) then some accessToken else none
  else .ok none

/-- The refresh token that a probe hands to the prober, if it can be read. -/
def TokenSettings.storedRefreshToken (settings : TokenSettings) (m : Mailbox) :
    Option String :=
  if missing m.refreshTokenCiphertext then none
  else (settings.decrypt (m.refreshTokenCiphertext.getD "")).toOption

/-! ## A finished exchange -/

/-- What `complete_token_refresh` is given for the answer of an exchange. -/
def TokenSettings.completion (settings : TokenSettings) (nonce startedAt : ℕ)
    (refreshToken : String) (r : MicrosoftTokenResponse) : RefreshCompletion :=
  let rotated := !missing r.rotatedRefreshToken && r.rotatedRefreshToken ≠ some refreshToken
  { encryptedAccessToken := settings.encrypt nonce r.accessToken
    accessTokenExpiresAt := (r.expiry startedAt).toNat
    accessTokenRefreshedAt := startedAt
    scope := orElseMissing r.scope (settings.extractScopes r.accessToken)
    encryptedRefreshToken :=
      if rotated then some (settings.encrypt (nonce + 1) (r.rotatedRefreshToken.getD ""))
      else none
    refreshTokenRotated := rotated
    refreshTokenUpdatedAt := some startedAt
    refreshTokenExpiresAt :=
      some (startedAt + seconds (settings.refreshTokenLifetimeDays * 86400)) }

/-! ## Loaded instances -/

/-- The flush of a mailbox by primary key: a column is written if its value
differs from the loaded one. -/
def Mailbox.flush (loaded assigned current : Mailbox) : Mailbox :=
  { current with
    status := flushColumn loaded.status assigned.status current.status
    clientId := flushColumn loaded.clientId assigned.clientId current.clientId
    mailPasswordCiphertext := flushColumn loaded.mailPasswordCiphertext
      assigned.mailPasswordCiphertext current.mailPasswordCiphertext
    refreshTokenCiphertext := flushColumn loaded.refreshTokenCiphertext
      assigned.refreshTokenCiphertext current.refreshTokenCiphertext
    refreshTokenUpdatedAt := flushColumn loaded.refreshTokenUpdatedAt
      assigned.refreshTokenUpdatedAt current.refreshTokenUpdatedAt
    refreshTokenExpiresAt := flushColumn loaded.refreshTokenExpiresAt
      assigned.refreshTokenExpiresAt current.refreshTokenExpiresAt
    accessTokenCiphertext := flushColumn loaded.accessTokenCiphertext
      assigned.accessTokenCiphertext current.accessTokenCiphertext
    accessTokenExpiresAt := flushColumn loaded.accessTokenExpiresAt
      assigned.accessTokenExpiresAt current.accessTokenExpiresAt
    accessTokenRefreshedAt := flushColumn loaded.accessTokenRefreshedAt
      assigned.accessTokenRefreshedAt current.accessTokenRefreshedAt
    accessTokenSourceVersion := flushColumn loaded.accessTokenSourceVersion
      assigned.accessTokenSourceVersion current.accessTokenSourceVersion
    scope := flushColumn loaded.scope assigned.scope current.scope
    capability := flushColumn loaded.capability assigned.capability current.capability
    updatedAt := flushColumn loaded.updatedAt assigned.updatedAt current.updatedAt }

/-- `UPDATE mailboxes SET token_version = token_version + 1`. -/
def Mailbox.bumpTokenVersion (m : Mailbox) : Mailbox :=
  { m with tokenVersion := m.tokenVersion + 1 }

def TokenSettings.stampRefreshTokenLifetime (settings : TokenSettings) (touchedAt : ℕ)
    (m : Mailbox) : Mailbox :=
  { m with
    refreshTokenUpdatedAt := some touchedAt
    refreshTokenExpiresAt :=
      some (touchedAt + seconds (settings.refreshTokenLifetimeDays * 86400)) }

/-! ## Capability probes -/

def Mailbox.applyCapabilityProbeResult (now : ℕ) (result : CapabilityProbeResult)
    (m : Mailbox) : Mailbox :=
  { m with capability := some result.capability, updatedAt := now }

/-- The prober exchanges a readable refresh token of a mailbox with a client id,
unless the scope is one for Graph already. -/
def TokenSettings.canReaudience (settings : TokenSettings) (m : Mailbox) : Bool :=
  !missing (settings.storedRefreshToken m) && !missing m.clientId &&
    !settings.hints ["graph.microsoft.com"] m.scope

/-- The replacement that a probe of the mailbox can come back with. -/
def TokenSettings.replacement (settings : TokenSettings) (m : Mailbox)
    (result : CapabilityProbeResult) : Option MicrosoftTokenResponse :=
  if settings.canReaudience m then result.accessTokenReplacement else none

/-- The refresh token that comes with a replacement, if it is another one. -/
def TokenSettings.rotatedRefreshToken (settings : TokenSettings) (m : Mailbox)
    (r : MicrosoftTokenResponse) : Option String :=
  if missing r.rotatedRefreshToken || r.rotatedRefreshToken = settings.storedRefreshToken m then
    none
  else r.rotatedRefreshToken

def TokenSettings.assignReplacement (settings : TokenSettings) (now nonce : ℕ)
    (r : MicrosoftTokenResponse) (m : Mailbox) : Mailbox :=
  { m with
    accessTokenCiphertext := some (settings.encrypt nonce r.accessToken)
    accessTokenExpiresAt := some (r.expiry now).toNat
    accessTokenRefreshedAt := some now
    scope := orElseMissing r.scope m.scope }

/-- The version that the instance names is the one its token is bound to. -/
def TokenSettings.bindAccessToken (settings : TokenSettings) (now : ℕ) (m : Mailbox) :
    Mailbox :=
  { settings.stampRefreshTokenLifetime now m with
    accessTokenSourceVersion := some m.tokenVersion
    updatedAt := now }

/-- `_probe_capability_if_needed` from the prober's answer on: what the flushes
of the instance leave of the current row, where `assigned` is the instance so
far. With a rotated refresh token it is refreshed between two flushes. -/
def TokenSettings.writeProbe (settings : TokenSettings) (now nonce : ℕ)
    (loaded assigned : Mailbox) (result : CapabilityProbeResult) (current : Mailbox) :
    Mailbox :=
  match settings.replacement assigned result with
  | none => loaded.flush (assigned.applyCapabilityProbeResult now result) current
  | some r =>
      let replaced := settings.assignReplacement now nonce r assigned
      match settings.rotatedRefreshToken assigned r with
      | none =>
          loaded.flush ((settings.bindAccessToken now replaced).applyCapabilityProbeResult
            now result) current
      | some refreshToken =>
          let refreshed := (loaded.flush
            { replaced with
              refreshTokenCiphertext := some (settings.encrypt (nonce + 1) refreshToken) }
            current).bumpTokenVersion
          refreshed.flush ((settings.bindAccessToken now refreshed).applyCapabilityProbeResult
            now result) refreshed

def TokenSettings.persistScopeIfMissing (settings : TokenSettings) (now : ℕ)
    (accessToken : String) (m : Mailbox) : Mailbox :=
  match missing m.scope, settings.extractScopes accessToken with
  | true, some decoded => { m with scope := some decoded, updatedAt := now }
  | _, _ => m

/-- Whether the mailbox is probed after a refresh. -/
def TokenSettings.shouldRunProbe (settings : TokenSettings) (forceRefresh : Bool)
    (preferred target : Option MailAccessChannel) (m : Mailbox) : Bool :=
  if target = some .graph && settings.matchesChannel m.scope .graph then
    m.capability.isNone || forceRefresh && preferred.isNone
  else forceRefresh || m.capability.isNone

/-! ## Imports -/

structure MailboxImportItem where
  mailPassword : String
  clientId : String
  refreshToken : String
  forceReleaseActiveLeases : Bool := false
  deriving DecidableEq, Repr

/-- The instance of an existing mailbox with imported credentials. -/
def TokenSettings.assignImport (settings : TokenSettings) (now nonce : ℕ)
    (item : MailboxImportItem) (m : Mailbox) : Mailbox :=
  { settings.stampRefreshTokenLifetime now m.clearAccessTokenCache with
    status := .active
    clientId := some item.clientId
    mailPasswordCiphertext := some (settings.encrypt (nonce + 1) item.mailPassword)
    refreshTokenCiphertext := some (settings.encrypt nonce item.refreshToken)
    scope := none
    capability := none
    updatedAt := now }

/-- What the `replace_token` branch of `import_mailboxes` leaves of the row. -/
def TokenSettings.writeImport (settings : TokenSettings) (now nonce : ℕ)
    (item : MailboxImportItem) (loaded current : Mailbox) : Mailbox :=
  (loaded.flush (settings.assignImport now nonce item loaded) current).bumpTokenVersion

/-! ## What a probe leaves -/

def TokenSettings.rotates (settings : TokenSettings) (m : Mailbox)
    (result : CapabilityProbeResult) : Bool :=
  (settings.replacement m result).any fun r => (settings.rotatedRefreshToken m r).isSome

/-- A probe without another refresh token keeps the row's revision. -/
theorem writeProbe_of_not_rotates {settings : TokenSettings} {now nonce : ℕ}
    {loaded assigned : Mailbox} {result : CapabilityProbeResult}
    (hrt : assigned.refreshTokenCiphertext = loaded.refreshTokenCiphertext)
    (h : settings.rotates assigned result = false) (m : Mailbox) :
    (settings.writeProbe now nonce loaded assigned result m).tokenVersion = m.tokenVersion ∧
      (settings.writeProbe now nonce loaded assigned result m).refreshTokenCiphertext =
        m.refreshTokenCiphertext := by
  have hflush : ∀ assigned' : Mailbox,
      assigned'.refreshTokenCiphertext = assigned.refreshTokenCiphertext →
      (loaded.flush assigned' m).refreshTokenCiphertext = m.refreshTokenCiphertext := by
    intro assigned' hrt'
    show flushColumn loaded.refreshTokenCiphertext assigned'.refreshTokenCiphertext
      m.refreshTokenCiphertext = m.refreshTokenCiphertext
    rw [hrt', hrt, flushColumn_unassigned]
  unfold TokenSettings.rotates at h
  unfold TokenSettings.writeProbe
  split
  · exact ⟨rfl, hflush _ rfl⟩
  · rename_i r hr
    dsimp only
    split
    · exact ⟨rfl, hflush _ rfl⟩
    · rename_i refreshToken hrotated
      simp [hr, hrotated] at h

theorem writeProbe_of_rotates {settings : TokenSettings} {now nonce : ℕ}
    {loaded assigned : Mailbox} {result : CapabilityProbeResult}
    (h : settings.rotates assigned result = true) (m : Mailbox) :
    (settings.writeProbe now nonce loaded assigned result m).tokenVersion =
      m.tokenVersion + 1 := by
  unfold TokenSettings.rotates at h
  unfold TokenSettings.writeProbe
  split
  · rename_i hr
    simp [hr] at h
  · rename_i r hr
    dsimp only
    split
    · rename_i hrotated
      simp [hr, hrotated] at h
    · rfl

end MailboxService
