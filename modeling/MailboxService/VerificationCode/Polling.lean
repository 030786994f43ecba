import MailboxService.VerificationCode.Authorization
import MailboxService.VerificationCode.OnDemandInbox
import MailboxService.Providers.Catalog
import MailboxService.Foundation.Run
import Mathlib.Algebra.Order.Group.Int

/-!
# Polling for a verification code

`wait_for_verification_code` as a machine. It has three loops, one for
Microsoft mailboxes, one for SMSBower and one for the on-demand providers. A
round of a loop is taken apart where the service waits for something or looks
at something that may have changed since: the checkpoint, each network call,
each session, and each reading of the clock. In between, the world may become
anything at all.

The state adds to that of the code the world in which the last checkpoint
succeeded, which every answer of a provider makes the code forget.
-/

namespace MailboxService

open Foundation

/-! ## Options and results -/

inductive MailReadChannel where
  | imap
  | graph
  deriving DecidableEq, Repr

structure InboxMessageCandidate where
  fromAddress : Option String
  subject : Option String
  bodyText : String
  receivedAt : Option ℤ
  channel : MailReadChannel
  recipientAddresses : Finset String

structure VerificationCodeMatch where
  code : String
  matchedFrom : Option String
  matchedSubject : Option String
  messageReceivedAt : Option ℤ
  channel : MailReadChannel
  deriving DecidableEq, Repr

structure VerificationCodeLookupResult where
  found : Bool
  code : Option String := none
  matchedFrom : Option String := none
  matchedSubject : Option String := none
  messageReceivedAt : Option ℤ := none
  channel : Option MailReadChannel := none
  attempts : ℕ := 0
  deriving DecidableEq, Repr

structure VerificationCodeLookupOptions where
  timeoutSeconds : ℤ := 60
  sinceSeconds : ℤ := 180
  pollIntervalSeconds : ℤ := 3
  fromAddress : Option String := none
  subjectContains : Option String := none
  bodyContains : Option String := none
  codeRegex : Option String := none
  recipient : Option String := none
  requireRecipientMatch : Bool := true
  deriving DecidableEq, Repr

/-! ## Matchers -/

inductive VerificationCodePatternType where
  | digits
  | alphanumeric
  | xai
  deriving DecidableEq, Repr

structure SafeVerificationCodeMatcher where
  patternType : VerificationCodePatternType := .digits
  minimumLength : ℕ := 4
  maximumLength : ℕ := 8
  codePrefix : Option String := none
  deriving DecidableEq, Repr

/-- The search for a code in a text: of a matcher, of the service, and the text
that is left of a long body. -/
class CodeSearch where
  search : SafeVerificationCodeMatcher → (subject body : String) → Option String
  extractVerificationCode :
    (subject bodyText : String) → Option SafeVerificationCodeMatcher → Option String
  truncateTextToByteBudget : String → ℕ → String

inductive PollError where
  | authorization (error : VerificationAuthorizationError)
  | read (message : String)
  | unsupportedFilter (message : String)
  | value (message : String)
  deriving DecidableEq, Repr

def safeCodeRegexPresets : List (String × VerificationCodePatternType) :=
  [("\\b(\\d\x7b4,8\x7d)\\b", .digits), ("\\d\x7b4,8\x7d", .digits), ("digits", .digits),
    ("alphanumeric", .alphanumeric), ("xai", .xai),
    ("\\b([A-Z0-9]\x7b3\x7d-[A-Z0-9]\x7b3\x7d)\\b", .xai)]

section

variable [PythonText]

open Text

def fromDeprecatedCodeRegex (codeRegex : String) :
    Except PollError (Option SafeVerificationCodeMatcher) :=
  let normalized := strip codeRegex
  if normalized = "" then .ok none
  else
    match safeCodeRegexPresets.lookup normalized with
    | none =>
        .error (.value ("code_regex 已废弃且仅接受服务端登记的安全 preset" ++
          "（digits / alphanumeric / xai / 对应固定模板）"))
    | some .xai => .ok (some ⟨.xai, 7, 7, none⟩)
    | some patternType => .ok (some ⟨patternType, 4, 8, none⟩)

/-- The matcher of the caller's `code_regex`. -/
def VerificationCodeLookupOptions.customMatcher (options : VerificationCodeLookupOptions) :
    Except PollError (Option SafeVerificationCodeMatcher) :=
  match options.codeRegex.bind orNone with
  | none => .ok none
  | some codeRegex => fromDeprecatedCodeRegex codeRegex

omit [PythonText] in
/-- `text.rfind(c)`. -/
def rfind (text : List Char) (c : Char) : Option ℕ :=
  (text.reverse.findIdx? (· = c)).map (text.length - 1 - ·)

/-- `_normalize_email_address`: a display name is stripped. -/
def normalizeEmailAddress (rawAddress : String) : Option String :=
  let normalized := normalize rawAddress
  let text := normalized.toList
  match rfind text '<', rfind text '>' with
  | some start, some stop =>
      if start < stop then orNone (strip (.ofList ((text.take stop).drop (start + 1))))
      else orNone normalized
  | _, _ => orNone normalized

/-! ## Scanning the messages of a Microsoft mailbox -/

def maxMessageBodyBytes : ℕ := 64 * 1024

def maxScanBodyBytes : ℕ := 512 * 1024

def maxRequestBodyBytes : ℕ := 1024 * 1024

def maxMessagesPerScan : ℕ := 30

def passesOption (wanted : Option String) (value : String) : Bool :=
  occursIn (normalize (wanted.getD "")) (lower value)

variable [CodeSearch]

/-- `min(MAX_SCAN_BODY_BYTES, max(0, remaining_request_budget_bytes))`. -/
def scanBudget (remainingRequestBudgetBytes : ℤ) : ℕ :=
  min maxScanBodyBytes (max 0 remainingRequestBudgetBytes).toNat

/-- The loop of `_find_code_in_messages`: the match, the bytes consumed, and
whether the budget of the request is exhausted. To cut a body off may raise. -/
def findCodeLoop {m : Type → Type} [Monad m] (truncate : String → m String)
    (options : VerificationCodeLookupOptions)
    (customMatcher : Option SafeVerificationCodeMatcher) (recipientFilter : Option String)
    (remainingRequestBudgetBytes : ℤ) (scanBytesConsumed : ℕ) :
    List InboxMessageCandidate → m (Option VerificationCodeMatch × ℕ × Bool)
  | [] => pure (none, scanBytesConsumed, decide (remainingRequestBudgetBytes ≤ 0))
  | message :: rest => do
      let bodyText ← truncate message.bodyText
      let bodyByteLength := bodyText.utf8ByteSize
      if scanBytesConsumed + bodyByteLength > scanBudget remainingRequestBudgetBytes then
        pure (none, scanBytesConsumed,
          decide (remainingRequestBudgetBytes - scanBytesConsumed ≤ bodyByteLength ∨
            scanBytesConsumed ≥ maxScanBodyBytes))
      else
        let scanBytesConsumed := scanBytesConsumed + bodyByteLength
        let next := findCodeLoop truncate options customMatcher recipientFilter
          remainingRequestBudgetBytes scanBytesConsumed rest
        if options.requireRecipientMatch &&
            !recipientFilter.any (· ∈ message.recipientAddresses) then next
        else if !passesOption options.fromAddress (message.fromAddress.getD "") then next
        else if !passesOption options.subjectContains (message.subject.getD "") then next
        else if !passesOption options.bodyContains bodyText then next
        else
          match CodeSearch.extractVerificationCode (message.subject.getD "") bodyText
              customMatcher with
          | none => next
          | some code =>
              pure (some ⟨code, message.fromAddress, message.subject, message.receivedAt,
                message.channel⟩, scanBytesConsumed, false)

/-- `_find_code_in_messages`, for bodies that can be encoded. -/
def findCodeInMessages (messages : List InboxMessageCandidate)
    (options : VerificationCodeLookupOptions)
    (customMatcher : Option SafeVerificationCodeMatcher) (recipientFilter : Option String)
    (remainingRequestBudgetBytes : ℤ) : Option VerificationCodeMatch × ℕ × Bool :=
  Id.run (findCodeLoop
    (fun bodyText => pure (CodeSearch.truncateTextToByteBudget bodyText maxMessageBodyBytes))
    options customMatcher recipientFilter remainingRequestBudgetBytes 0 messages)

end

/-! ## The machine -/

/-- The loop that serves a provider type. -/
inductive PollLoop where
  | microsoft
  | smsbower
  | onDemand
  deriving DecidableEq, Repr

/-- Where a read of a Microsoft channel stands: the token, the messages, and
both once more after the token was rejected. -/
inductive ReadStage where
  | acquireToken
  | listMessages
  | refreshToken
  | listAgain
  deriving DecidableEq, Repr

inductive PollPhase where
  | checking
  | reading (stage : ReadStage) (channel : MailReadChannel) (others : List MailReadChannel)
  | loading
  | configuring
  | asking
  | listing
  | found (result : VerificationCodeLookupResult)
  | scanned
  | pausing
  | sleeping (microseconds : ℕ)
  | returned (result : VerificationCodeLookupResult)
  | raised (error : PollError)
  deriving DecidableEq, Repr

structure MailAccessFailure where
  authFailure : Bool
  summary : String
  deriving DecidableEq, Repr

/-- A call of `wait_for_verification_code` with the checkpoint of the endpoint. -/
structure PollRequest where
  principal : ClientPrincipal
  leaseId : String
  mailbox : Mailbox
  options : VerificationCodeLookupOptions

section

variable [Platform]

structure PollState where
  world : PollWorld
  phase : PollPhase
  deadline : ℕ := 0
  sinceAt : ℤ := 0
  attempts : ℕ := 0
  lastError : Option String := none
  anyScanSucceeded : Bool := false
  requestBodyBytesConsumed : ℕ := 0
  /-- Where the last checkpoint succeeded, unless a provider answered since. -/
  clearedIn : Option PollWorld := none

/-- What happens next: the world changes, or the poll takes a step, with the
answer that it waited for. -/
inductive PollEvent where
  | world (w : PollWorld)
  | checkpoint
  | token (answer : Except String Unit)
  | messages (answer : Except MailAccessFailure (List InboxMessageCandidate))
  | loadResource
  | loadSettings
  | code (answer : Except String (Option String × Bool))
  | inbox (answer : Except String (List ListedMessage))
  | compareClock
  | computeSleep
  | wake

/-- `provider_type or "microsoft"`. -/
def PollRequest.providerType (request : PollRequest) : String :=
  if request.mailbox.providerType = "" then defaultProviderType
  else request.mailbox.providerType

def PollRequest.loop (request : PollRequest) : PollLoop :=
  if request.providerType = "smsbower_gmail" then .smsbower
  else if request.providerType ∈ onDemandProviderTypes then .onDemand
  else .microsoft

/-- `_resolve_channel_order`. -/
def PollRequest.channels (request : PollRequest) : List MailReadChannel :=
  match request.mailbox.capability with
  | some .imap => [.imap]
  | some .graph => [.graph]
  | _ => [.imap, .graph]

def PollRequest.recipientFilter (request : PollRequest) : Option String :=
  normalizeEmailAddress
    ((request.options.recipient.bind orNone).getD request.mailbox.primaryEmail)

def PollRequest.customMatcher (request : PollRequest) : Option SafeVerificationCodeMatcher :=
  match request.options.customMatcher with
  | .ok customMatcher => customMatcher
  | .error _ => none

/-- What an on-demand poll asks its adapter for. -/
def VerificationCodeLookupOptions.query (options : VerificationCodeLookupOptions)
    (sinceAt : ℤ) : VerificationQuery where
  fromAddress := options.fromAddress
  subjectContains := options.subjectContains
  bodyContains := options.bodyContains
  recipient := options.recipient
  newerThan := some sinceAt
  maxMessages := maxMessagesPerScan

/-- The filters that SMSBower has no use for. -/
def VerificationCodeLookupOptions.filters (options : VerificationCodeLookupOptions) :
    List (Option String) :=
  [options.fromAddress, options.subjectContains, options.bodyContains, options.recipient]

/-- The moment before which messages are too old. -/
def VerificationCodeLookupOptions.since (options : VerificationCodeLookupOptions) (now : ℕ) :
    ℤ :=
  now - seconds options.sinceSeconds.toNat

def PollRequest.start (request : PollRequest) (w : PollWorld) : PollState :=
  let s : PollState :=
    { world := w
      phase := .checking
      deadline := w.now + seconds request.options.timeoutSeconds.toNat
      sinceAt := request.options.since w.now }
  match request.options.customMatcher with
  | .error e => { s with phase := .raised e }
  | .ok _ =>
      if request.loop = .smsbower ∧ request.options.filters.any (!missing ·) then
        { s with phase := .raised (.unsupportedFilter
            "SMSBower direct-code path does not support message filters") }
      else s

variable [MailText] [CodeSearch]

namespace PollState

def inPhase (s : PollState) (phase : PollPhase) : PollState := { s with phase := phase }

/-- Go on with the next channel, or end the round. -/
def nextChannel (s : PollState) : List MailReadChannel → PollState
  | [] => s.inPhase .scanned
  | channel :: others => s.inPhase (.reading .acquireToken channel others)

def channelFailed (s : PollState) (summary : String) (others : List MailReadChannel) :
    PollState :=
  { s with lastError := some summary }.nextChannel others

def finish (request : PollRequest) (s : PollState) : PollState :=
  match request.loop, s.anyScanSucceeded, s.lastError with
  | .microsoft, false, some summary => s.inPhase (.raised (.read summary))
  | _, _, _ => s.inPhase (.returned { found := false, attempts := s.attempts })

/-- The checkpoint, before a round and before a code is handed out. -/
def checkpoint (request : PollRequest) (s : PollState) : PollState :=
  match s.phase with
  | .checking =>
      match revalidateVerificationAuthorization s.world request.principal request.leaseId with
      | .error e => s.inPhase (.raised (.authorization e))
      | .ok _ =>
          let s := { s with clearedIn := some s.world, attempts := s.attempts + 1 }
          match request.loop with
          | .microsoft => s.nextChannel request.channels
          | _ => s.inPhase .loading
  | .found result =>
      match revalidateVerificationAuthorization s.world request.principal request.leaseId with
      | .error e => s.inPhase (.raised (.authorization e))
      | .ok _ => { s with clearedIn := some s.world }.inPhase (.returned result)
  | _ => s

/-- `_ensure_mailbox_access_token` has answered. -/
def tokenAnswered (s : PollState) (answer : Except String Unit) : PollState :=
  match s.phase, answer with
  | .reading .acquireToken channel others, .ok () =>
      s.inPhase (.reading .listMessages channel others)
  | .reading .refreshToken channel others, .ok () =>
      s.inPhase (.reading .listAgain channel others)
  | .reading .acquireToken _ others, .error summary => s.channelFailed summary others
  | .reading .refreshToken _ others, .error summary => s.channelFailed summary others
  | _, _ => s

def scan (request : PollRequest) (s : PollState) (others : List MailReadChannel)
    (messages : List InboxMessageCandidate) : PollState :=
  let scanned := findCodeInMessages messages request.options request.customMatcher
    request.recipientFilter (maxRequestBodyBytes - s.requestBodyBytesConsumed)
  let s := { s with
    clearedIn := none
    anyScanSucceeded := true
    requestBodyBytesConsumed := s.requestBodyBytesConsumed + scanned.2.1 }
  match scanned.1 with
  | some m =>
      s.inPhase (.found
        { found := true
          code := some m.code
          matchedFrom := m.matchedFrom
          matchedSubject := m.matchedSubject
          messageReceivedAt := m.messageReceivedAt
          channel := some m.channel
          attempts := s.attempts })
  | none =>
      if scanned.2.2 then s.inPhase (.returned { found := false, attempts := s.attempts })
      else s.nextChannel others

/-- `_list_messages` has answered. -/
def messagesAnswered (request : PollRequest) (s : PollState)
    (answer : Except MailAccessFailure (List InboxMessageCandidate)) : PollState :=
  match s.phase, answer with
  | .reading .listMessages _ others, .ok messages => s.scan request others messages
  | .reading .listAgain _ others, .ok messages => s.scan request others messages
  | .reading .listMessages channel others, .error failure =>
      if failure.authFailure then s.inPhase (.reading .refreshToken channel others)
      else s.channelFailed failure.summary others
  | .reading .listAgain _ others, .error failure => s.channelFailed failure.summary others
  | _, _ => s

def loadResource (request : PollRequest) (s : PollState) : PollState :=
  match s.phase with
  | .loading =>
      let claimed := (s.world.db.providerResources.get? request.mailbox.id).any
        (·.lifecycleState = .claimed)
      match request.loop, claimed with
      | .smsbower, false =>
          s.inPhase (.raised (.read "SMSBower resource not claimable for verification"))
      | .smsbower, true => s.inPhase .configuring
      | _, false =>
          s.inPhase (.raised
            (.read (request.providerType ++ " resource not claimable for verification")))
      | _, true => s.inPhase .listing
  | _ => s

def loadSettings (s : PollState) : PollState :=
  match s.phase with
  | .configuring =>
      let runtime := s.world.smsbower
      if !runtime.enabled || Text.strip (runtime.apiKey.getD "") = "" then
        s.inPhase (.raised (.read "SMSBower is not configured"))
      else s.inPhase .asking
  | _ => s

/-- A call that failed: the poll goes on unless its time is up. -/
def callFailed (s : PollState) (message : String) : PollState :=
  if s.world.now ≥ s.deadline then s.inPhase (.raised (.read message)) else s.inPhase .scanned

/-- `get_code` has answered with a code and whether it is pending. -/
def codeAnswered (s : PollState) (answer : Except String (Option String × Bool)) : PollState :=
  match s.phase, answer with
  | .asking, .error message => { s with clearedIn := none }.callFailed message
  | .asking, .ok (code, isPending) =>
      let s := { s with clearedIn := none }
      match code.bind orNone, isPending with
      | some code, false =>
          s.inPhase (.found { found := true, code := some code, attempts := s.attempts })
      | _, _ => s.inPhase .scanned
  | _, _ => s

/-- What an on-demand poll takes from the evidence, if it finds a code. -/
def takeCode (request : PollRequest) (attempts : ℕ) (evidence : VerificationEvidence) :
    Option VerificationCodeLookupResult :=
  match evidence.directCode.bind orNone with
  | some code => some { found := true, code := some code, attempts := attempts }
  | none =>
      evidence.messages.findSome? fun message =>
        let subject := message.subject.getD ""
        let body := message.bodyText.getD ""
        let code :=
          match request.customMatcher with
          | some matcher => CodeSearch.search matcher subject body
          | none => CodeSearch.extractVerificationCode subject body none
        (code.bind orNone).map fun code =>
          { found := true
            code := some code
            matchedFrom := message.fromAddress
            matchedSubject := message.subject
            messageReceivedAt := message.receivedAt
            attempts := attempts }

/-- `fetch_evidence`, with the listing that the provider answered. -/
def fetchEvidence (request : PollRequest) (sinceAt : ℤ)
    (answer : Except String (List ListedMessage)) : Except String VerificationEvidence :=
  match OnDemandAdapter.ofProviderType request.providerType with
  | none => .error ("unsupported on-demand provider: " ++ request.providerType)
  | some adapter =>
      answer.bind (adapter.fetchEvidence request.mailbox.primaryEmail
        (request.options.query sinceAt))

def inboxAnswered (request : PollRequest) (s : PollState)
    (answer : Except String (List ListedMessage)) : PollState :=
  match s.phase with
  | .listing =>
      let s := { s with clearedIn := none }
      match fetchEvidence request s.sinceAt answer with
      | .error message => s.callFailed message
      | .ok evidence =>
          match takeCode request s.attempts evidence with
          | some result => s.inPhase (.returned result)
          | none => s.inPhase .scanned
  | _ => s

def compareClock (request : PollRequest) (s : PollState) : PollState :=
  match s.phase with
  | .scanned => if s.world.now ≥ s.deadline then s.finish request else s.inPhase .pausing
  | _ => s

def computeSleep (request : PollRequest) (s : PollState) : PollState :=
  match s.phase with
  | .pausing =>
      let sleep := min (seconds (max request.options.pollIntervalSeconds 1).toNat)
        (s.deadline - s.world.now)
      if sleep = 0 then s.finish request else s.inPhase (.sleeping sleep)
  | _ => s

def wake (s : PollState) : PollState :=
  match s.phase with
  | .sleeping _ => s.inPhase .checking
  | _ => s

end PollState

/-- One step: a change of the world, or a step of the poll, which is none where
the poll stands elsewhere. -/
def pollStep (request : PollRequest) (s : PollState) : PollEvent → PollState
  | .world w => { s with world := w }
  | .checkpoint => s.checkpoint request
  | .token answer => s.tokenAnswered answer
  | .messages answer => s.messagesAnswered request answer
  | .loadResource => s.loadResource request
  | .loadSettings => s.loadSettings
  | .code answer => s.codeAnswered answer
  | .inbox answer => s.inboxAnswered request answer
  | .compareClock => s.compareClock request
  | .computeSleep => s.computeSleep request
  | .wake => s.wake

end

end MailboxService
