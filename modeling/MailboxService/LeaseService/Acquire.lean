import Mathlib.Data.List.Infix
import MailboxService.LeaseService.Claims
import MailboxService.Providers.Catalog
import MailboxService.Foundation.Fallback

/-!
# Acquiring a lease

`LeaseService.acquire_lease` and what it calls: usage sites, plus aliases, the
selection of a mailbox, the three single-provider paths, and the loop over a
shuffled list of candidate providers.

A request draws its uuids, its random suffixes, its clock and the answers of
the on-demand providers from `Draws`; the shuffled order is an argument.
-/

namespace MailboxService

open Foundation

/-! ## What a request draws -/

structure OnDemandProvisionResult where
  address : Option String
  externalResourceId : Option String
  instanceId : Option String
  encryptedSecret : String
  deriving DecidableEq, Repr

/-- How provisioning fails: the hook is missing, the adapter raises its own
error, or anything else is raised. -/
inductive ProvisionFailure where
  | noHook
  | onDemandProvider (message : String)
  | other (message : String)
  deriving DecidableEq, Repr

/-- What one single-provider attempt draws from outside. -/
structure Draws where
  leaseId : String
  resourceId : String
  usageId : String
  suffixes : List String
  provision : Except ProvisionFailure OnDemandProvisionResult

/-- The arguments of `_acquire_single_provider_lease`. -/
structure AcquireRequest where
  mode : LeaseMode
  ttlSeconds : ℕ
  preferredEmail : Option String := none
  clientTag : Option String := none
  purpose : Option String := none
  usePlusAlias : Bool := false
  preferredAliasSuffix : Option String := none
  usageSite : Option String := none
  deriving DecidableEq, Repr

/-- `LeaseAcquireResult`, without the access token that is obtained later. -/
structure LeaseAcquireResult where
  leaseId : String
  primaryEmail : String
  mode : LeaseMode
  expiresAt : ℕ
  createdAt : ℕ
  mailboxId : Option String := none
  providerResourceId : Option String := none
  allocatedEmail : Option String := none
  addressKind : Option String := none
  usageSite : Option String := none
  providerType : Option String := none
  providerInstanceId : Option String := none
  clientId : Option String := none
  refreshToken : Option String := none
  tokenVersion : Option ℕ := none
  deriving DecidableEq, Repr

def holdsText (s part : String) : Bool := decide (part.toList <:+: s.toList)

def normalizedPreferred [PythonText] (preferredEmail : Option String) : Option String :=
  match preferredEmail with
  | none => none
  | some e => if e = "" ∨ Text.normalize e = "" then none else some (Text.normalize e)

def plusAliasSuffixAlphabet : List Char := "abcdefghijklmnopqrstuvwxyz0123456789".toList

def maxPlusAliasGenerationAttempts : ℕ := 32

section

variable [Platform]

/-! ## Usage sites -/

/-- `session.get(UsageSite, code)`. -/
def Database.usageSite? (db : Database) (code : String) : Option UsageSite :=
  db.usageSites.rows.find? fun site => sqlEq site.code code

def resolveEnabledUsageSite (db : Database) (usageSite : String) :
    Except LeaseError String :=
  if Text.normalize usageSite = "" then .error (.leaseUsageSite "usage_site 不能为空")
  else
    match db.usageSite? (Text.normalize usageSite) with
    | none => .error (.leaseUsageSite "未知或已禁用的 usage_site")
    | some site =>
        if site.enabled then .ok site.code
        else .error (.leaseUsageSite "未知或已禁用的 usage_site")

/-- The occupancy row of an address on a site, revoked or not. -/
def Database.siteUsage? (db : Database) (email siteCode : String) : Option EmailSiteUsage :=
  db.emailSiteUsages.rows.find? fun u =>
    sqlEq u.allocatedEmail email && sqlEq u.usageSiteCode siteCode

def Database.hasActiveEmailSiteUsage (db : Database) (allocatedEmail siteCode : String) :
    Bool :=
  db.emailSiteUsages.any fun u =>
    sqlEq u.allocatedEmail (Text.normalize allocatedEmail) &&
      sqlEq u.usageSiteCode siteCode && u.revokedAt.isNone

def EmailSiteUsage.reactivate (u : EmailSiteUsage) (now : ℕ) (mailboxId : Option String)
    (leaseId clientKeyId : String) : EmailSiteUsage :=
  { u with
    revokedAt := none
    mailboxId := mailboxId
    leaseId := some leaseId
    clientKeyId := some clientKeyId
    updatedAt := now }

def recordEmailSiteUsage (principal : ClientPrincipal) (now : ℕ) (usageId : String)
    (allocatedEmail siteCode : String) (mailboxId : Option String) (leaseId : String) :
    LeaseWork Unit := do
  let normalizedEmail := Text.normalize allocatedEmail
  match ← Work.read fun db => db.siteUsage? normalizedEmail siteCode with
  | none =>
      Work.flush fun db => db.insertEmailSiteUsage?
        { id := usageId, allocatedEmail := normalizedEmail, usageSiteCode := siteCode
          mailboxId, leaseId := some leaseId, clientKeyId := some principal.clientKeyId
          createdAt := now, updatedAt := now }
  | some existing =>
      if existing.revokedAt.isNone then
        Work.raise (.leaseEmailSiteConflict "该邮箱已在此站点登记使用")
      else
        Work.write fun db => { db with
          emailSiteUsages := db.emailSiteUsages.updateWhere
            (Table.whereKey emailSiteUsageSchema existing.id fun _ => true)
            (fun u => u.reactivate now mailboxId leaseId principal.clientKeyId)
            (fun _ => ⟨rfl, fun _ => rfl⟩) }

/-! ## Plus aliases -/

def Database.isAllocatedEmailInUse (db : Database) (now : ℕ) (allocatedEmail : String) :
    Bool :=
  db.leases.any fun l =>
    sqlEqNullable l.allocatedEmail (some (Text.normalize allocatedEmail)) && l.activeAt now

/-- The alias of a suffix under a primary address, or the complaint about it. -/
def plusAliasOf (primaryEmail : String) : Except LeaseError (String → String) :=
  match Text.partition (Text.strip primaryEmail) '@' with
  | (localPart, separator, domainPart) =>
      if !separator || localPart = "" || domainPart = "" then
        .error (.value ("主邮箱地址格式无效：" ++ primaryEmail))
      else
        .ok fun suffix =>
          (Text.partition localPart '+').1 ++ "+" ++ suffix ++ "@" ++ Text.lower domainPart

def checkedAliasSuffix (preferredAliasSuffix : String) : Except LeaseError String :=
  let normalizedSuffix := Text.normalize preferredAliasSuffix
  if normalizedSuffix = "" then .error (.value "alias_suffix 不能为空")
  else if !normalizedSuffix.toList.all (plusAliasSuffixAlphabet.contains ·) then
    .error (.value "alias_suffix 仅允许小写字母与数字")
  else if normalizedSuffix.length > 32 then .error (.value "alias_suffix 最长 32 个字符")
  else .ok normalizedSuffix

def Database.occupiesSite (db : Database) (allocatedEmail : String)
    (siteCode : Option String) : Bool :=
  match siteCode with
  | none => false
  | some code => db.hasActiveEmailSiteUsage allocatedEmail code

/-- Whether an alias may not be handed out: an active lease holds it, or it
occupies the site. -/
def Database.aliasTaken (db : Database) (now : ℕ) (siteCode : Option String)
    (candidate : String) : Bool :=
  db.isAllocatedEmailInUse now candidate || db.occupiesSite candidate siteCode

/-- `_allocate_plus_alias`: the alias of the explicit suffix, or the first free
one of the random suffixes. It only reads. -/
def allocatePlusAlias (db : Database) (now : ℕ) (suffixes : List String)
    (primaryEmail : String) (preferredAliasSuffix siteCode : Option String) :
    Except LeaseError String :=
  match plusAliasOf primaryEmail, preferredAliasSuffix with
  | .error e, _ => .error e
  | .ok aliasOf, some preferred =>
      match checkedAliasSuffix preferred with
      | .error e => .error e
      | .ok suffix =>
          if db.isAllocatedEmailInUse now (aliasOf suffix) then
            .error (.leaseUnavailable "该 plus alias 地址已被占用")
          else if db.occupiesSite (aliasOf suffix) siteCode then
            .error (.leaseEmailSiteConflict "该邮箱已在此站点登记使用")
          else .ok (aliasOf suffix)
  | .ok aliasOf, none =>
      match (suffixes.take maxPlusAliasGenerationAttempts).find? fun suffix =>
          !db.aliasTaken now siteCode (aliasOf suffix) with
      | none => .error (.leaseUnavailable "无法生成可用的 plus alias 地址")
      | some suffix => .ok (aliasOf suffix)

/-- How the allocated address relates to the mailbox's own. -/
def classifyAddressKind (primaryEmail : String) (allocatedEmail : Option String) :
    Option String :=
  allocatedEmail.map fun a =>
    if Text.normalize a = Text.normalize primaryEmail then "primary" else "plus_alias"

/-! ## Microsoft mailboxes -/

def Database.mailboxOccupied (db : Database) (now : ℕ) (m : Mailbox) : Bool :=
  db.leases.any (fun l => l.mailboxId = some m.id && l.activeAt now) ||
    db.leaseClaims.any fun c => c.mailboxId = some m.id && c.liveAt now

def Database.primaryUsedForSite (db : Database) (m : Mailbox) (siteCode : String) : Bool :=
  db.emailSiteUsages.any fun u =>
    sqlEq u.allocatedEmail m.primaryEmail && sqlEq u.usageSiteCode siteCode &&
      u.revokedAt.isNone

/-- The WHERE clause of the mailbox selection. -/
def Database.mailboxSelectable (db : Database) (now : ℕ) (mode : LeaseMode)
    (providerType : String) (wantsPlusAlias : Bool) (siteCode preferred : Option String)
    (m : Mailbox) : Bool :=
  m.status = .active && sqlEq m.providerType providerType &&
  (wantsPlusAlias || !db.mailboxOccupied now m) &&
  (providerType ≠ defaultProviderType ||
    (m.clientId.isSome && m.refreshTokenCiphertext.isSome)) &&
  (!(mode = .mailRead && providerType = defaultProviderType) ||
    ((m.capability = some .imap || m.capability = some .graph) &&
      (match siteCode with
        | none => true
        | some code => wantsPlusAlias || !db.primaryUsedForSite m code))) &&
  (match preferred with
    | none => true
    | some e => sqlEq m.primaryEmail e)

/-- `ORDER BY updated_at, primary_email`. -/
def Mailbox.coldest (a b : Mailbox) : Bool :=
  a.updatedAt < b.updatedAt ||
    (a.updatedAt = b.updatedAt &&
      decide (Collation.key a.primaryEmail < Collation.key b.primaryEmail))

def Database.selectMailbox (db : Database) (now : ℕ) (mode : LeaseMode)
    (providerType : String) (wantsPlusAlias : Bool) (siteCode preferred : Option String) :
    Option Mailbox :=
  db.mailboxes.first?
    (db.mailboxSelectable now mode providerType wantsPlusAlias siteCode preferred)
    Mailbox.coldest

/-- Turn the claim conflict into "no mailbox". -/
def unavailableOnIntegrity (x : LeaseWork Unit) : LeaseWork Unit :=
  x.handle fun
    | .integrity => some (Work.raise (.leaseUnavailable "没有可用邮箱"))
    | _ => none

/-- What the body allocates for a mail-read lease: an alias or the primary
address; credential leases have no address. -/
def allocateAddress (db : Database) (now : ℕ) (draws : Draws) (request : AcquireRequest)
    (wantsPlusAlias : Bool) (siteCode : Option String) (m : Mailbox) :
    Except LeaseError (Option String) :=
  if request.mode = .mailRead then
    if wantsPlusAlias then
      (allocatePlusAlias db now draws.suffixes m.primaryEmail request.preferredAliasSuffix
        siteCode).map some
    else .ok (some (Text.normalize m.primaryEmail))
  else .ok none

/-- The mailbox the body takes and the address it allocates, or why it takes
none. -/
def pickMailbox (db : Database) (now : ℕ) (draws : Draws) (request : AcquireRequest)
    (wantsPlusAlias : Bool) (siteCode : Option String) (providerType : String) :
    Except LeaseError (Mailbox × Option String) :=
  let preferred := normalizedPreferred request.preferredEmail
  match db.selectMailbox now request.mode providerType wantsPlusAlias siteCode preferred with
  | none =>
      if request.mode = .mailRead ∧ wantsPlusAlias = false ∧
          preferred.any (fun e => db.occupiesSite e siteCode) = true then
        .error (.leaseEmailSiteConflict "该邮箱已在此站点登记使用")
      else .error (.leaseUnavailable "没有可用邮箱")
  | some m =>
      (allocateAddress db now draws request wantsPlusAlias siteCode m).map fun a => (m, a)

def mailboxLease (principal : ClientPrincipal) (now : ℕ) (draws : Draws)
    (request : AcquireRequest) (m : Mailbox) (allocatedEmail : Option String) : Lease where
  id := draws.leaseId
  mailboxId := some m.id
  providerResourceId := none
  clientKeyId := some principal.clientKeyId
  clientTag := request.clientTag
  purpose := request.purpose
  allocatedEmail := allocatedEmail
  mode := request.mode
  providerType := m.providerType
  expiresAt := now + seconds request.ttlSeconds
  createdAt := now

def recordRequestedSite (principal : ClientPrincipal) (now : ℕ) (draws : Draws)
    (lease : Lease) (siteCode : Option String) : LeaseWork Unit :=
  match siteCode, lease.allocatedEmail with
  | some code, some a =>
      if lease.mode = .mailRead then
        recordEmailSiteUsage principal now draws.usageId a code lease.mailboxId lease.id
      else pure ()
  | _, _ => pure ()

/-- The result of the body; a refresh-token lease carries the credentials. -/
def mailboxLeaseResult (decrypt : String → Except String String) (lease : Lease)
    (m : Mailbox) (siteCode : Option String) : Except LeaseError LeaseAcquireResult :=
  let result : LeaseAcquireResult :=
    { leaseId := lease.id, primaryEmail := m.primaryEmail, mode := lease.mode
      expiresAt := lease.expiresAt, createdAt := lease.createdAt, mailboxId := some m.id
      allocatedEmail := lease.allocatedEmail
      addressKind := classifyAddressKind m.primaryEmail lease.allocatedEmail
      usageSite := siteCode, providerType := some lease.providerType
      providerInstanceId := lease.providerInstanceId }
  if lease.mode = .refreshToken then
    match decrypt (m.refreshTokenCiphertext.getD "") with
    | .error reason => .error (.runtime reason)
    | .ok refreshToken =>
        .ok { result with
          clientId := m.clientId
          refreshToken := some refreshToken
          tokenVersion := some m.tokenVersion }
  else .ok result

/-- `_acquire_lease_body` for a mailbox: select, allocate, insert lease and
claim, occupy the site. An access token is obtained after the transaction. -/
def acquireMailboxLease (principal : ClientPrincipal) (now : ℕ)
    (decrypt : String → Except String String) (draws : Draws) (request : AcquireRequest)
    (wantsPlusAlias : Bool) (siteCode : Option String) (providerType : String) :
    LeaseWork LeaseAcquireResult := do
  let picked ← Work.read fun db =>
    pickMailbox db now draws request wantsPlusAlias siteCode providerType
  let (m, allocatedEmail) ← Work.ofExcept picked
  let lease := mailboxLease principal now draws request m allocatedEmail
  Work.flush fun db => (db.touchMailbox m.id now).insertLease? lease
  unavailableOnIntegrity (upsertLeaseClaim now lease allocatedEmail)
  recordRequestedSite principal now draws lease siteCode
  Work.ofExcept (mailboxLeaseResult decrypt lease m siteCode)

/-! ## SMSBower resources -/

/-- The WHERE clause of the resource selection. -/
def MailboxProviderResource.selectable (preferred : Option String)
    (r : MailboxProviderResource) : Bool :=
  r.providerType = "smsbower_gmail" && r.lifecycleState = .available &&
    r.readiness = .ready &&
    match preferred with
    | none => true
    | some e => sqlEq r.primaryEmail e

/-- `ORDER BY updated_at, primary_email`. -/
def MailboxProviderResource.coldest (a b : MailboxProviderResource) : Bool :=
  a.updatedAt < b.updatedAt ||
    (a.updatedAt = b.updatedAt &&
      decide (Collation.key a.primaryEmail < Collation.key b.primaryEmail))

def pickResource (db : Database) (preferredEmail : Option String) :
    Except LeaseError MailboxProviderResource :=
  match db.providerResources.first?
      (MailboxProviderResource.selectable (normalizedPreferred preferredEmail))
      MailboxProviderResource.coldest with
  | none => .error (.leaseUnavailable "没有可用邮箱")
  | some resource => .ok resource

def MailboxProviderResource.claim (r : MailboxProviderResource) (now : ℕ) :
    MailboxProviderResource :=
  { r with
    lifecycleState := .claimed
    resourceGeneration := r.resourceGeneration + 1
    stateVersion := r.stateVersion + 1
    updatedAt := now }

theorem MailboxProviderResource.claim_keeps (now : ℕ) :
    providerResourceSchema.Keeps fun r => r.claim now :=
  fun _ => ⟨rfl, fun _ => rfl⟩

def resourceLease (principal : ClientPrincipal) (now : ℕ) (leaseId : String) (ttlSeconds : ℕ)
    (clientTag purpose : Option String) (providerType : String)
    (instanceId resourceId address : String) : Lease where
  id := leaseId
  mailboxId := none
  providerResourceId := some resourceId
  clientKeyId := some principal.clientKeyId
  clientTag := clientTag
  purpose := purpose
  allocatedEmail := some address
  mode := .mailRead
  providerType := providerType
  providerInstanceId := some instanceId
  expiresAt := now + seconds ttlSeconds
  createdAt := now

/-- The body of the `try` around the optional site. -/
def recordResolvedSite (principal : ClientPrincipal) (now : ℕ) (usageId site : String)
    (address leaseId : String) : LeaseWork Unit := do
  let resolved ← Work.read fun db => resolveEnabledUsageSite db site
  let code ← Work.ofExcept resolved
  recordEmailSiteUsage principal now usageId address code none leaseId

/-- The optional site of a resource lease: whatever goes wrong is ignored. -/
def recordOptionalSite (principal : ClientPrincipal) (now : ℕ) (usageId : String)
    (usageSite : Option String) (address leaseId : String) : LeaseWork Unit :=
  if missing usageSite then pure ()
  else
    (recordResolvedSite principal now usageId (usageSite.getD "") address leaseId).handle
      fun _ => some (pure ())

def resourceLeaseResult (lease : Lease) (resourceId : String) (address : String)
    (usageSite : Option String) : LeaseAcquireResult where
  leaseId := lease.id
  primaryEmail := address
  mode := .mailRead
  expiresAt := lease.expiresAt
  createdAt := lease.createdAt
  providerResourceId := some resourceId
  allocatedEmail := some address
  addressKind := some "primary"
  usageSite := usageSite
  providerType := some lease.providerType
  providerInstanceId := lease.providerInstanceId

/-- `_acquire_smsbower_mail_read_lease`: claim one available resource. -/
def acquireSmsbowerLease (principal : ClientPrincipal) (now : ℕ) (draws : Draws)
    (request : AcquireRequest) (usageSite : Option String) :
    LeaseWork LeaseAcquireResult := do
  let picked ← Work.read fun db => pickResource db request.preferredEmail
  let resource ← Work.ofExcept picked
  let address := Text.normalize resource.primaryEmail
  let lease := resourceLease principal now draws.leaseId request.ttlSeconds
    request.clientTag request.purpose "smsbower_gmail" resource.providerInstanceId
    resource.id address
  Work.flush fun db =>
    (db.updateResource resource.id (fun r => r.claim now)
      (MailboxProviderResource.claim_keeps now)).insertLease? lease
  unavailableOnIntegrity (upsertLeaseClaim now lease (some address))
  recordOptionalSite principal now draws.usageId usageSite address lease.id
  pure (resourceLeaseResult lease resource.id address usageSite)

/-! ## On-demand mailboxes -/

/-- What provisioning leaves the service with: a usable answer or its error. -/
def provisionedAddress (providerType : String)
    (provision : Except ProvisionFailure OnDemandProvisionResult) :
    Except LeaseError (OnDemandProvisionResult × String) :=
  match provision with
  | .error .noHook =>
      .error (.providerNotConfigured ("provider " ++ providerType ++ " is not configured"))
  | .error (.onDemandProvider message) =>
      if holdsText message "not enabled" || holdsText message "missing required" ||
          holdsText message "not configured" then
        .error (.providerNotConfigured message)
      else .error (.leaseUnavailable message)
  | .error (.other message) => .error (.leaseUnavailable message)
  | .ok result =>
      let address := Text.normalize (result.address.getD "")
      if address = "" || !Text.containsChar address '@' then
        .error (.leaseUnavailable "on-demand provider returned invalid address")
      else .ok (result, address)

def onDemandResource (providerType resourceId : String) (now : ℕ)
    (result : OnDemandProvisionResult) (address : String) : MailboxProviderResource where
  id := resourceId
  providerType := providerType
  providerInstanceId :=
    if missing result.instanceId then "default" else result.instanceId.getD "default"
  externalResourceId :=
    if missing result.externalResourceId then address
    else result.externalResourceId.getD address
  primaryEmail := address
  lifecycleState := .claimed
  readiness := .ready
  stateVersion := 1
  resourceGeneration := 1
  encryptedSecret := some result.encryptedSecret
  createdAt := now
  updatedAt := now

/-- The inserts of an on-demand lease, in their own `try`. -/
def insertOnDemandLease (now : ℕ) (resource : MailboxProviderResource) (lease : Lease)
    (address : String) : LeaseWork Unit := do
  Work.flush fun db => db.insertProviderResource? resource
  Work.flush fun db => db.insertLease? lease
  upsertLeaseClaim now lease (some address)

/-- Roll back on a conflict and ask the caller to retry. -/
def rollbackOnIntegrity (x : LeaseWork Unit) : LeaseWork Unit :=
  x.handle fun
    | .integrity => some (do
        Work.rollback
        Work.raise (.leaseUnavailable "on-demand mailbox conflict; retry"))
    | _ => none

/-- `_acquire_on_demand_mail_read_lease`: provision outside, then insert the
resource, its lease and its claim; a conflict rolls the session back. -/
def acquireOnDemandLease (principal : ClientPrincipal) (now : ℕ) (draws : Draws)
    (request : AcquireRequest) (usageSite : Option String) (providerType : String) :
    LeaseWork LeaseAcquireResult := do
  let (result, address) ← Work.ofExcept (provisionedAddress providerType draws.provision)
  let resource := onDemandResource providerType draws.resourceId now result address
  let lease := resourceLease principal now draws.leaseId request.ttlSeconds request.clientTag
    request.purpose providerType resource.providerInstanceId resource.id address
  rollbackOnIntegrity (insertOnDemandLease now resource lease address)
  recordOptionalSite principal now draws.usageId usageSite address lease.id
  pure (resourceLeaseResult lease resource.id address usageSite)

/-! ## One provider -/

def AcquireRequest.wantsPlusAlias (request : AcquireRequest) : Bool :=
  request.usePlusAlias || !missing request.preferredAliasSuffix

def AcquireRequest.namesSite (request : AcquireRequest) : Bool :=
  match request.usageSite with
  | none => false
  | some site => Text.strip site ≠ ""

/-- The usage site of a Microsoft mail-read attempt. -/
def resolveRequestedSite (request : AcquireRequest) (providerType : String) :
    LeaseWork (Option String) :=
  if request.mode = .mailRead ∧ providerType = defaultProviderType then
    if request.namesSite then do
      let resolved ← Work.read fun db =>
        resolveEnabledUsageSite db (request.usageSite.getD "")
      let code ← Work.ofExcept resolved
      pure (some code)
    else if request.wantsPlusAlias then pure none
    else Work.raise (.leaseUsageSite "使用主邮箱时必须提供 usage_site")
  else pure none

def acquireSingleProviderLease (principal : ClientPrincipal) (now : ℕ)
    (decrypt : String → Except String String) (draws : Draws) (request : AcquireRequest)
    (providerType : String) : LeaseWork LeaseAcquireResult := do
  if providerType ∉ allProviderTypes then
    Work.raise (.providerUnsupported ("不支持的 provider：" ++ providerType))
  else if providerType ≠ defaultProviderType ∧ request.wantsPlusAlias = true then
    Work.raise (.leaseMode "非 microsoft provider 本轮不支持 plus alias")
  else do
    let siteCode ← resolveRequestedSite request providerType
    if request.mode = .mailRead ∧ providerType ∈ onDemandProviderTypes then
      acquireOnDemandLease principal now draws request
        (if request.namesSite then siteCode else none) providerType
    else if providerType = "smsbower_gmail" then
      if request.mode ≠ .mailRead then
        Work.raise (.leaseMode "smsbower_gmail 仅支持 mail_read")
      else acquireSmsbowerLease principal now draws request siteCode
    else
      acquireMailboxLease principal now decrypt draws request request.wantsPlusAlias siteCode
        providerType

/-! ## Candidates -/

/-- Plus options reach only the Microsoft candidate. -/
def AcquireRequest.forProvider (request : AcquireRequest) (providerType : String) :
    AcquireRequest :=
  if providerType = defaultProviderType ∧ request.wantsPlusAlias = true then
    { request with usePlusAlias := true }
  else { request with usePlusAlias := false, preferredAliasSuffix := none }

/-- The errors after which the loop goes on to the next candidate. -/
def LeaseError.tryNext : LeaseError → Bool
  | .leaseUnavailable _ | .providerNotConfigured _ | .leaseUsageSite _ => true
  | _ => false

/-- One candidate, with the plus options that apply to it. -/
def attemptProvider (principal : ClientPrincipal) (now : ℕ)
    (decrypt : String → Except String String) (draws : String → Draws)
    (request : AcquireRequest) (providerType : String) : LeaseWork LeaseAcquireResult :=
  acquireSingleProviderLease principal now decrypt (draws providerType)
    (request.forProvider providerType) providerType

/-- The loop over the shuffled candidates. The two loops of the source differ
only in how they re-raise the last error, which is the same error. -/
def attemptProviders (principal : ClientPrincipal) (now : ℕ)
    (decrypt : String → Except String String) (draws : String → Draws)
    (request : AcquireRequest) (shuffled : List String) : LeaseWork LeaseAcquireResult :=
  Work.tryEach (attemptProvider principal now decrypt draws request) LeaseError.tryNext
    (.leaseUnavailable "没有可用邮箱") shuffled

/-- The checks of `acquire_lease` on a credential lease. -/
def checkCredentialRequest (principal : ClientPrincipal) (request : AcquireRequest) :
    LeaseWork Unit := do
  principal.requireScope "leases:acquire"
  principal.requireScope
    (if request.mode = .accessToken then "tokens:access:read" else "tokens:refresh:read")
  if request.wantsPlusAlias then
    Work.raise (.leaseMode "仅 mail_read 租约支持 plus alias 分配")
  else if !missing request.usageSite then
    Work.raise (.leaseMode "仅 mail_read 租约支持 usage_site")
  else pure ()

/-- `acquire_lease`, once the candidates of a mail-read lease are resolved and
shuffled. Credential leases are Microsoft only. -/
def acquireLease (principal : ClientPrincipal) (now : ℕ)
    (decrypt : String → Except String String) (draws : String → Draws)
    (request : AcquireRequest) (shuffled : List String) : LeaseWork LeaseAcquireResult :=
  if request.mode = .mailRead then do
    principal.requireScope "mailboxes:acquire"
    attemptProviders principal now decrypt draws request shuffled
  else do
    checkCredentialRequest principal request
    acquireSingleProviderLease principal now decrypt (draws defaultProviderType)
      { request with usePlusAlias := false, preferredAliasSuffix := none, usageSite := none }
      defaultProviderType

end

end MailboxService
