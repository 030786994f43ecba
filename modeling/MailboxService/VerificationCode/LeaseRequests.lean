import MailboxService.VerificationCode.CheckedCodes
import MailboxService.VerificationPollCapacity
import MailboxService.LeaseService.Release

/-!
# Requests for a verification code

`get_lease_verification_code` up to the poll, and how it ends. A request is
checked when it is parsed. The endpoint finds the lease and what it is on, takes
a poll slot, and hands the filters of the request to the poll, where the
recipient, if the request names none, is the address of the lease.

SMSBower finds no messages that could be filtered, so its loop turns filters
down.
-/

namespace MailboxService

open Foundation VerificationPollCapacity

/-! ## Requests -/

section

variable [PythonText]

open Text

/-- A text that is stripped and not empty, if there is one. -/
def NormalizedText (value : Option String) : Prop := ∀ s ∈ value, s ≠ "" ∧ strip s = s

def normalizeOptionalFilterText (value : Option String) : Option String :=
  value.bind fun s => orNone (strip s)

theorem normalizedText_filterText (value : Option String) :
    NormalizedText (normalizeOptionalFilterText value) := by
  intro s hs
  unfold normalizeOptionalFilterText at hs
  obtain ⟨raw, -, hraw⟩ := Option.bind_eq_some_iff.mp hs
  unfold orNone at hraw
  split at hraw
  · cases hraw
  · rename_i hne
    cases hraw
    exact ⟨hne, strip_of_trimmed (trimmed_strip raw)⟩

/-- The fields of a request as they are sent. -/
structure RawVerificationCodeRequest where
  timeoutSeconds : ℤ := 60
  sinceSeconds : ℤ := 180
  pollIntervalSeconds : ℤ := 3
  fromAddress : Option String := none
  subjectContains : Option String := none
  bodyContains : Option String := none
  recipient : Option String := none
  requireRecipientMatch : Bool := true
  codeRegex : Option String := none
  patternType : Option VerificationCodePatternType := none
  patternMinimumLength : Option ℕ := none
  patternMaximumLength : Option ℕ := none
  patternPrefix : Option String := none
  deriving DecidableEq, Repr

/-- A text of at most so many characters, if there is one. -/
def atMost (maximum : ℕ) (value : Option String) : Bool := value.all (·.length ≤ maximum)

def isPatternLength (value : Option ℕ) : Bool := value.all fun n => 4 ≤ n && n ≤ 16

namespace RawVerificationCodeRequest

/-- The limits of the fields as they are sent. -/
def inLimits (raw : RawVerificationCodeRequest) : Bool :=
  (0 ≤ raw.timeoutSeconds && raw.timeoutSeconds ≤ 300) &&
    (30 ≤ raw.sinceSeconds && raw.sinceSeconds ≤ 3600) &&
    (1 ≤ raw.pollIntervalSeconds && raw.pollIntervalSeconds ≤ 30) &&
    atMost 320 raw.fromAddress && atMost 200 raw.subjectContains &&
    atMost 200 raw.bodyContains && atMost 320 raw.recipient && atMost 200 raw.codeRegex &&
    isPatternLength raw.patternMinimumLength && isPatternLength raw.patternMaximumLength &&
    atMost 32 raw.patternPrefix

def normalize (raw : RawVerificationCodeRequest) : RawVerificationCodeRequest :=
  { raw with
    fromAddress := normalizeOptionalFilterText raw.fromAddress
    subjectContains := normalizeOptionalFilterText raw.subjectContains
    bodyContains := normalizeOptionalFilterText raw.bodyContains
    recipient := normalizeOptionalFilterText raw.recipient
    codeRegex := normalizeOptionalFilterText raw.codeRegex
    patternPrefix := normalizeOptionalFilterText raw.patternPrefix }

/-- The texts that a message is filtered by. -/
def filters (raw : RawVerificationCodeRequest) : List (Option String) :=
  [raw.fromAddress, raw.subjectContains, raw.bodyContains, raw.recipient]

end RawVerificationCodeRequest

/-- `reject_untrusted_code_regex` lets it pass. -/
def isRegistered (codeRegex : Option String) : Bool :=
  codeRegex.all fun s => (safeCodeRegexPresets.lookup s).isSome

/-- A request that was let in. -/
structure LeaseVerificationCodeRequest where
  fields : RawVerificationCodeRequest
  normalized : fields.normalize = fields
  registered : isRegistered fields.codeRegex = true

theorem normalizeOptionalFilterText_idem (value : Option String) :
    normalizeOptionalFilterText (normalizeOptionalFilterText value) =
      normalizeOptionalFilterText value := by
  cases hvalue : normalizeOptionalFilterText value with
  | none => rfl
  | some s =>
      obtain ⟨hne, hstrip⟩ := normalizedText_filterText value s hvalue
      unfold normalizeOptionalFilterText
      rw [Option.bind_some, hstrip]
      exact if_neg hne

theorem RawVerificationCodeRequest.normalize_idem (raw : RawVerificationCodeRequest) :
    raw.normalize.normalize = raw.normalize := by
  unfold RawVerificationCodeRequest.normalize
  simp only [normalizeOptionalFilterText_idem]

def RawVerificationCodeRequest.parse (raw : RawVerificationCodeRequest) :
    Option LeaseVerificationCodeRequest :=
  if raw.inLimits then
    if registered : isRegistered raw.normalize.codeRegex = true then
      some ⟨raw.normalize, raw.normalize_idem, registered⟩
    else none
  else none

namespace LeaseVerificationCodeRequest

theorem normalizedText {request : LeaseVerificationCodeRequest} {field : Option String}
    (h : field ∈ request.fields.filters ∨ field = request.fields.codeRegex) :
    NormalizedText field := by
  have hfields := request.normalized
  unfold RawVerificationCodeRequest.filters at h
  rw [← hfields] at h
  simp only [RawVerificationCodeRequest.normalize, List.mem_cons, List.not_mem_nil, or_false] at h
  rcases h with (rfl | rfl | rfl | rfl) | rfl
  all_goals exact normalizedText_filterText _

def SetsFilter (request : LeaseVerificationCodeRequest) : Prop :=
  ∃ field ∈ request.fields.filters, field.isSome = true

end LeaseVerificationCodeRequest

end

/-! ## The endpoint -/

section

variable [Platform]

/-- `_load_owned_lease` of a lease that has to be active. -/
def loadOwnedLease (w : PollWorld) (principal : ClientPrincipal) (leaseId : String) :
    Except LeaseError Lease :=
  match w.db.ownedLease? principal leaseId with
  | none => .error (.leaseNotFound "租约不存在")
  | some lease =>
      if lease.releasedAt.isSome || isExpired lease.expiresAt w.now then
        .error (.leaseInactive "租约已释放或已过期")
      else .ok lease

/-- What the lease is on. A resource is read through a mailbox that stands in for
it. -/
def loadLeasedMailbox (w : PollWorld) (lease : Lease) : Except LeaseError Mailbox :=
  let unavailable := .error (.leaseInactive "租约邮箱当前不可用")
  if !missing lease.mailboxId then
    match w.db.mailboxes.get? (lease.mailboxId.getD "") with
    | none => unavailable
    | some mailbox => if mailbox.status ≠ .active then unavailable else .ok mailbox
  else if missing lease.providerResourceId then unavailable
  else
    match w.db.providerResources.get? (lease.providerResourceId.getD "") with
    | none => unavailable
    | some resource =>
        if resource.lifecycleState ≠ .claimed then unavailable
        else .ok
          { id := resource.id
            providerType := resource.providerType
            primaryEmail := resource.primaryEmail
            status := .active
            tokenVersion := 1 }

def loadActiveMailReadLease (w : PollWorld) (principal : ClientPrincipal) (leaseId : String) :
    Except LeaseError (Lease × Mailbox) := do
  if verificationCodeScope ∉ principal.scopes then
    throw (.clientKeyScope ("Client Key 缺少权限：" ++ verificationCodeScope))
  let lease ← loadOwnedLease w principal leaseId
  if lease.mode ≠ .mailRead then
    throw (.leaseMode "该租约不是 mail_read mode")
  let mailbox ← loadLeasedMailbox w lease
  return (lease, mailbox)

/-- The options of the poll. What a request says about the pattern of the code
is not among them. -/
def LeaseVerificationCodeRequest.options (request : LeaseVerificationCodeRequest)
    (defaultRecipient : String) : VerificationCodeLookupOptions where
  timeoutSeconds := request.fields.timeoutSeconds
  sinceSeconds := request.fields.sinceSeconds
  pollIntervalSeconds := request.fields.pollIntervalSeconds
  fromAddress := request.fields.fromAddress
  subjectContains := request.fields.subjectContains
  bodyContains := request.fields.bodyContains
  codeRegex := request.fields.codeRegex
  recipient := some defaultRecipient
  requireRecipientMatch := request.fields.requireRecipientMatch

/-- How a request ends without a result. -/
inductive VerificationRequestError where
  | authorization (error : VerificationAuthorizationError)
  | lease (error : LeaseError)
  | capacity (scope : Scope)
  | poll (error : PollError)
  deriving DecidableEq, Repr

/-- `lease.allocated_email or mailbox.primary_email`. -/
def responseAllocatedEmail (lease : Lease) (mailbox : Mailbox) : String :=
  (lease.allocatedEmail.bind orNone).getD mailbox.primaryEmail

/-- The request up to the poll, in the world and with the poll slots that it
finds. -/
def getLeaseVerificationCode (w : PollWorld) (capacity : CapacityBuckets)
    (principal : ClientPrincipal) (leaseId : String) (payload : LeaseVerificationCodeRequest) :
    Except VerificationRequestError PollRequest := do
  discard <| (revalidateVerificationAuthorization w principal leaseId).mapError .authorization
  let (lease, mailbox) ← (loadActiveMailReadLease w principal leaseId).mapError .lease
  let defaultRecipient :=
    (payload.fields.recipient.bind orNone).getD (responseAllocatedEmail lease mailbox)
  (acquireVerificationPollSlot capacity principal.clientKeyId lease.id).1.mapError .capacity
  return {
    principal := principal
    leaseId := leaseId
    mailbox := mailbox
    options := payload.options defaultRecipient }

theorem options_of_getLeaseVerificationCode {w : PollWorld} {capacity : CapacityBuckets}
    {principal : ClientPrincipal} {leaseId : String} {payload : LeaseVerificationCodeRequest}
    {request : PollRequest}
    (h : getLeaseVerificationCode w capacity principal leaseId payload = .ok request) :
    ∃ recipient, request.options = payload.options recipient := by
  unfold getLeaseVerificationCode at h
  cases hchecked : revalidateVerificationAuthorization w principal leaseId with
  | error e =>
      rw [hchecked] at h
      cases h
  | ok found =>
      cases hloaded : loadActiveMailReadLease w principal leaseId with
      | error e =>
          rw [hchecked, hloaded] at h
          cases h
      | ok loaded =>
          rw [hchecked, hloaded] at h
          have hslot : ((acquireVerificationPollSlot capacity principal.clientKeyId
              loaded.1.id).1.mapError VerificationRequestError.capacity >>= fun _ => _) =
                .ok request := h
          cases hacquired : (acquireVerificationPollSlot capacity principal.clientKeyId
              loaded.1.id).1 with
          | error scope =>
              rw [hacquired] at hslot
              cases hslot
          | ok _ =>
              rw [hacquired] at hslot
              cases hslot
              exact ⟨_, rfl⟩

/-! ## Responses -/

/-- The status and the code of the response to an error of a lease. -/
def LeaseError.response : LeaseError → ℕ × String
  | .clientKeyScope _ => (403, "CLIENT_SCOPE_REQUIRED")
  | .providerUnsupported _ => (400, "PROVIDER_UNSUPPORTED")
  | .providerNotConfigured _ => (503, "PROVIDER_NOT_CONFIGURED")
  | .leaseNotFound _ => (404, "LEASE_NOT_FOUND")
  | .leaseEmailNotFound _ => (404, "EMAIL_NOT_FOUND")
  | .leaseMailboxBusy _ => (409, "MAILBOX_BUSY")
  | .leaseUsageSite _ => (400, "INVALID_USAGE_SITE")
  | .leaseEmailSiteConflict _ => (409, "EMAIL_SITE_IN_USE")
  | .leaseUnavailable _ => (409, "NO_AVAILABLE_MAILBOX")
  | .leaseInactive _ => (409, "LEASE_INACTIVE")
  | .leaseMode _ => (409, "LEASE_MODE_MISMATCH")
  | .tokenVersionConflict _ => (409, "TOKEN_VERSION_CONFLICT")
  | .value _ => (422, "INVALID_REQUEST")
  | .runtime _ => (500, "EXTERNAL_API_ERROR")
  | .integrity => (500, "EXTERNAL_API_ERROR")
  | .pendingRollback => (500, "EXTERNAL_API_ERROR")

/-- The status and the code of a failed checkpoint. -/
def VerificationAuthorizationError.response (e : VerificationAuthorizationError) : ℕ × String :=
  (if "CLIENT_KEY".toList.isPrefixOf e.code.toList then 403 else 409, e.code)

/-- The status and the code of the response to a request that has failed. -/
def VerificationRequestError.response : VerificationRequestError → ℕ × String
  | .capacity _ => (429, "VERIFICATION_POLL_CAPACITY_EXCEEDED")
  | .authorization e => e.response
  | .lease e => e.response
  | .poll (.authorization e) => e.response
  | .poll (.unsupportedFilter _) => (400, "PROVIDER_FILTER_UNSUPPORTED")
  | .poll (.read _) => (502, "MAILBOX_INBOX_READ_FAILED")
  | .poll (.value _) => (422, "INVALID_REQUEST")

def PollState.error? (s : PollState) : Option PollError :=
  match s.phase with
  | .raised error => some error
  | _ => none

variable [MailText] [CodeSearch]

/-- The error that a request has ended with after some events, where its poll
starts in the world `w'`. -/
def requestError (w : PollWorld) (capacity : CapacityBuckets) (principal : ClientPrincipal)
    (leaseId : String) (payload : LeaseVerificationCodeRequest) (w' : PollWorld)
    (events : List PollEvent) : Option VerificationRequestError :=
  match getLeaseVerificationCode w capacity principal leaseId payload with
  | .error e => some e
  | .ok request =>
      (exec (pollStep request) (request.start w') events).error?.map .poll

end

end MailboxService
