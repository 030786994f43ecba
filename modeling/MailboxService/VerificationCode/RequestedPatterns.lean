import MailboxService.VerificationCode.Extraction
import MailboxService.VerificationCode.LeaseRequests
import MailboxService.VerificationCode.PollSteps
import MailboxService.VerificationCode.RecipientIsolation

/-!
# The pattern that a request asks for

A request may say what its code looks like: its kind, its length, and what
stands before it. The endpoint builds the options of the poll without that, and
so a poll looks for the default patterns.

A poll with the message that its code was taken from is run next to the poll
itself, to say which codes are those that were asked for.
-/

namespace MailboxService

open Foundation

section

variable [Platform] [CodeText]

/-! ## Requested codes -/

/-- The matcher that `from_options` builds of what a request says, unless its
minimum is beyond its maximum. -/
def LeaseVerificationCodeRequest.requestedMatcher (payload : LeaseVerificationCodeRequest) :
    Option SafeVerificationCodeMatcher :=
  payload.fields.patternType.bind fun patternType =>
    let minimumLength := payload.fields.patternMinimumLength.getD 4
    let maximumLength := payload.fields.patternMaximumLength.getD 8
    if minimumLength > maximumLength then none
    else some ⟨patternType, minimumLength, maximumLength, payload.fields.patternPrefix⟩

/-- The requested matcher finds the code in the message as it is, or as it is
cleaned. -/
def LeaseVerificationCodeRequest.Finds (payload : LeaseVerificationCodeRequest)
    (subject body code : String) : Prop :=
  ∃ m, payload.requestedMatcher = some m ∧
    (m.search subject body = some code ∨ m.search subject (cleanedBody body) = some code)

/-- A code that was asked for: that of an xAI subject, or what the requested
matcher finds. -/
def LeaseVerificationCodeRequest.Requested (payload : LeaseVerificationCodeRequest)
    (subject body code : String) : Prop :=
  xaiSubjectCode subject = some code ∨ payload.Finds subject body code

/-- The first of the default patterns that a message has tells the code that the
requested matcher finds. -/
def LeaseVerificationCodeRequest.DefaultsFit (payload : LeaseVerificationCodeRequest)
    (subject body : String) : Prop :=
  xaiSubjectCode subject = none →
    ∀ code, defaultCode subject (cleanedBody body) = some code → payload.Finds subject body code

/-! ## Polls and their messages -/

variable [MailText]

attribute [local instance] codeSearch

/-- A poll, and the subject and the body that its last code was taken from. -/
structure TracedPoll where
  poll : PollState
  message : Option (String × String) := none

def PollState.takenMessage (request : PollRequest) (s : PollState) (e : PollEvent) :
    Option (String × String) :=
  match s.phase, e with
  | .reading _ _ _, .messages (.ok messages) =>
      ((s.window messages).find? fun message => (message.match? request.options request.customMatcher
        request.recipientFilter).isSome).map fun message =>
          (message.subject.getD "", message.scannedBody)
  | .listing, .inbox answer =>
      match PollState.fetchEvidence request s.sinceAt answer with
      | .error _ => none
      | .ok evidence =>
          (evidence.messages.find? fun message =>
            ((onDemandCode request.customMatcher (message.subject.getD "")
              (message.bodyText.getD "")).bind orNone).isSome).map fun message =>
                (message.subject.getD "", message.bodyText.getD "")
  | _, _ => none

def tracedStep (request : PollRequest) (t : TracedPoll) (e : PollEvent) : TracedPoll where
  poll := pollStep request t.poll e
  message := (t.poll.takenMessage request e).or t.message

/-- The code that the poll has found, handed out or not. -/
def PollState.taken (s : PollState) : Option String :=
  match s.phase with
  | .found result => result.code
  | .returned result => result.code
  | _ => none

/-- A code that was found is what the default patterns tell of the message. -/
def TracedPoll.FromDefaults (t : TracedPoll) : Prop :=
  ∀ code, t.poll.taken = some code →
    ∃ subject body, t.message = some (subject, body) ∧
      extractVerificationCode subject body none = some code

/-- **A code that is handed out was asked for**, of the message it was taken
from. -/
def TracedPoll.Enforced (payload : LeaseVerificationCodeRequest) (t : TracedPoll) : Prop :=
  ∀ code, t.poll.disclosed = some code →
    ∃ subject body, t.message = some (subject, body) ∧ payload.Requested subject body code

/-- The step hands out no code, or one of a message whose default patterns fit. -/
def HandsOutFitting (payload : LeaseVerificationCodeRequest) (request : PollRequest)
    (t : TracedPoll) (e : PollEvent) : Prop :=
  (tracedStep request t e).poll.disclosed.isSome = true →
    ∀ subject body, (tracedStep request t e).message = some (subject, body) →
      payload.DefaultsFit subject body

/-! ## Steps -/

omit [Platform] [CodeText] [MailText] in
/-- The first element that has something to say. -/
theorem find?_of_findSome? {α β : Type} {f : α → Option β} {l : List α} {b : β}
    (h : l.findSome? f = some b) :
    ∃ a, l.find? (fun a => (f a).isSome) = some a ∧ f a = some b := by
  induction l with
  | nil => cases h
  | cons x rest ih =>
      rw [List.findSome?_cons] at h
      rw [List.find?_cons]
      cases hx : f x with
      | none =>
          rw [hx] at h
          exact ih h
      | some y =>
          rw [hx] at h
          cases h
          exact ⟨x, rfl, hx⟩

omit [MailText] in
theorem extract_of_match? {options : VerificationCodeLookupOptions} {filter : Option String}
    {message : InboxMessageCandidate} {m : VerificationCodeMatch}
    (h : message.match? options none filter = some m) :
    extractVerificationCode (message.subject.getD "") message.scannedBody none =
      some m.code := by
  unfold InboxMessageCandidate.match? at h
  split at h
  · obtain ⟨code, hcode, rfl⟩ := Option.map_eq_some_iff.mp h
    exact hcode
  · cases h

omit [CodeText] in
/-- No adapter of an on-demand inbox tells a code itself. -/
theorem directCode_fetchEvidence {request : PollRequest} {sinceAt : ℤ}
    {answer : Except String (List ListedMessage)} {evidence : VerificationEvidence}
    (h : PollState.fetchEvidence request sinceAt answer = .ok evidence) :
    evidence.directCode = none := by
  unfold PollState.fetchEvidence at h
  split at h
  · cases h
  · rename_i adapter hadapter
    cases answer with
    | error message => cases h
    | ok inbox =>
        have hfetch : adapter.fetchEvidence request.mailbox.primaryEmail
            (request.options.query sinceAt) inbox = .ok evidence := h
        rw [OnDemandAdapter.fetchEvidence_eq, fetchWith_eq] at hfetch
        cases hadmitted : admittedMessages request.mailbox.primaryEmail
            (request.options.query sinceAt)
            ((adapter.window (request.options.query sinceAt) inbox).filterMap adapter.source) with
        | error message =>
            rw [hadmitted] at hfetch
            cases hfetch
        | ok messages =>
            rw [hadmitted] at hfetch
            cases hfetch
            rfl

section

variable {request : PollRequest} {payload : LeaseVerificationCodeRequest} {t : TracedPoll}

theorem takenMessage_scan {stage : ReadStage} {channel : MailReadChannel}
    {others : List MailReadChannel} {messages : List InboxMessageCandidate}
    {m : VerificationCodeMatch} (hmatcher : request.customMatcher = none)
    (hreading : t.poll.phase = .reading stage channel others)
    (hfinds : t.poll.scanned request messages = some m) :
    ∃ subject body,
      t.poll.takenMessage request (.messages (.ok messages)) = some (subject, body) ∧
        extractVerificationCode subject body none = some m.code := by
  have hscan := (scanned_eq request t.poll messages).symm.trans hfinds
  obtain ⟨message, hfound, hmatch⟩ := find?_of_findSome? hscan
  rw [hmatcher] at hmatch
  refine ⟨message.subject.getD "", message.scannedBody, ?_, extract_of_match? hmatch⟩
  unfold PollState.takenMessage
  rw [hreading]
  dsimp only
  rw [hfound]
  rfl

theorem takenMessage_inbox {answer : Except String (List ListedMessage)}
    {evidence : VerificationEvidence} {result : VerificationCodeLookupResult} {code : String}
    (hmatcher : request.customMatcher = none) (hlisting : t.poll.phase = .listing)
    (hfetched : PollState.fetchEvidence request t.poll.sinceAt answer = .ok evidence)
    (htaken : PollState.takeCode request t.poll.attempts evidence = some result)
    (hcode : result.code = some code) :
    ∃ subject body, t.poll.takenMessage request (.inbox answer) = some (subject, body) ∧
      extractVerificationCode subject body none = some code := by
  rw [takeCode_eq (directCode_fetchEvidence hfetched)] at htaken
  obtain ⟨message, hfound, hmessage⟩ := find?_of_findSome? htaken
  obtain ⟨code', hcode', rfl⟩ := Option.map_eq_some_iff.mp hmessage
  cases hcode
  obtain ⟨code', hextract, hne⟩ := Option.bind_eq_some_iff.mp hcode'
  have hsame : code' = code := by
    unfold orNone at hne
    split at hne
    · cases hne
    · exact Option.some.inj hne
  subst hsame
  rw [hmatcher] at hextract
  refine ⟨message.subject.getD "", message.bodyText.getD "", ?_, hextract⟩
  simp only [Option.isSome_map] at hfound
  unfold PollState.takenMessage
  rw [hlisting]
  simp only [hfetched, hfound, Option.map_some]

/-- The poll is of a mailbox or of an on-demand inbox, and has no matcher. -/
structure Unmatched (request : PollRequest) : Prop where
  noMatcher : request.customMatcher = none
  notSmsbower : request.loop ≠ .smsbower

omit [CodeText] [MailText] in
theorem taken_of_silent {s : PollState} (h : s.phase.Silent) : s.taken = none := by
  unfold PollState.taken
  split
  · rename_i hphase
    rw [hphase] at h
    exact absurd h id
  · rename_i hphase
    rw [hphase] at h
    exact absurd h id
  · rfl

theorem message_of_taken {s : PollState} {code : String} (h : s.taken = some code)
    (e : PollEvent) : s.takenMessage request e = none := by
  unfold PollState.taken at h
  unfold PollState.takenMessage
  split at h
  · rename_i hphase
    rw [hphase]
  · rename_i hphase
    rw [hphase]
  · cases h

/-- **Step lemma**: the code of a poll without a matcher stays the one that the
default patterns tell of its message. -/
theorem fromDefaults_step (hrequest : Unmatched request)
    (hloop : t.poll.phase.Belongs request.loop) (ht : t.FromDefaults) (e : PollEvent) :
    (tracedStep request t e).FromDefaults := by
  intro code hcode
  have hchange := phaseChange_step request t.poll e
  -- a code that was found already keeps its message
  have hkept : t.poll.taken = some code →
      ∃ subject body, (tracedStep request t e).message = some (subject, body) ∧
        extractVerificationCode subject body none = some code := by
    intro hbefore
    obtain ⟨subject, body, hmessage, hextract⟩ := ht code hbefore
    refine ⟨subject, body, ?_, hextract⟩
    show (t.poll.takenMessage request e).or t.message = _
    rw [message_of_taken hbefore, Option.none_or]
    exact hmessage
  have hnew : ∀ {subject body : String},
      t.poll.takenMessage request e = some (subject, body) →
      extractVerificationCode subject body none = some code →
      ∃ subject body, (tracedStep request t e).message = some (subject, body) ∧
        extractVerificationCode subject body none = some code := by
    intro subject body hmessage hextract
    refine ⟨subject, body, ?_, hextract⟩
    show (t.poll.takenMessage request e).or t.message = _
    rw [hmessage, Option.some_or]
  have htaken : (pollStep request t.poll e).taken = some code := hcode
  unfold PollState.taken at htaken
  generalize hphase : (pollStep request t.poll e).phase = phase at hchange htaken
  cases hchange with
  | stays =>
      exact hkept htaken
  | goesOn _ hsilent =>
      have hnone := taken_of_silent (s := { t.poll with phase := phase }) hsilent
      unfold PollState.taken at hnone
      rw [hnone] at htaken
      cases htaken
  | fails => cases htaken
  | givesUp => cases htaken
  | scanFinds hreading hfinds =>
      obtain ⟨subject, body, hmessage, hextract⟩ :=
        takenMessage_scan hrequest.noMatcher hreading hfinds
      cases htaken
      exact hnew hmessage hextract
  | codeArrives hasking =>
      rw [hasking] at hloop
      exact absurd hloop hrequest.notSmsbower
  | inboxFinds hlisting hfetched htakes =>
      obtain ⟨subject, body, hmessage, hextract⟩ :=
        takenMessage_inbox hrequest.noMatcher hlisting hfetched htakes htaken
      exact hnew hmessage hextract
  | confirms hfound =>
      refine hkept ?_
      unfold PollState.taken
      rw [hfound]
      exact htaken

/-- **A code is handed out as asked for** exactly if the default patterns fit
its message. -/
theorem enforced_step (hrequest : Unmatched request)
    (hloop : t.poll.phase.Belongs request.loop) (ht : t.FromDefaults) (e : PollEvent) :
    (tracedStep request t e).Enforced payload ↔ HandsOutFitting payload request t e := by
  have hdefaults := fromDefaults_step hrequest hloop ht e
  have htaken : ∀ code, (tracedStep request t e).poll.disclosed = some code →
      (tracedStep request t e).poll.taken = some code := by
    intro code hcode
    unfold PollState.disclosed at hcode
    unfold PollState.taken
    split at hcode
    · rename_i hphase
      rw [hphase]
      exact hcode
    · cases hcode
  constructor
  · intro henforced hdisclosed subject body hmessage hnoXai code' hdefault
    obtain ⟨code, hcode⟩ := Option.isSome_iff_exists.mp hdisclosed
    obtain ⟨_, _, hmessage₁, hextract⟩ := hdefaults code (htaken code hcode)
    obtain ⟨_, _, hmessage₂, hrequested⟩ := henforced code hcode
    -- both speak of the message that the code was taken from
    rw [hmessage] at hmessage₁ hmessage₂
    cases hmessage₁
    cases hmessage₂
    have hsame : extractVerificationCode subject body none =
        defaultCode subject (cleanedBody body) := by
      unfold extractVerificationCode codeOfCleaned
      rw [hnoXai]
    rw [hsame, hdefault] at hextract
    cases hextract
    rcases hrequested with hxai | hfinds
    · rw [hnoXai] at hxai
      cases hxai
    · exact hfinds
  · intro hfitting code hcode
    obtain ⟨subject, body, hmessage, hextract⟩ := hdefaults code (htaken code hcode)
    refine ⟨subject, body, hmessage, ?_⟩
    have hfits := hfitting (Option.isSome_iff_exists.mpr ⟨code, hcode⟩) subject body hmessage
    unfold extractVerificationCode codeOfCleaned at hextract
    cases hxai : xaiSubjectCode subject with
    | some xai =>
        rw [hxai] at hextract
        exact Or.inl (hxai.trans hextract)
    | none =>
        rw [hxai] at hextract
        exact Or.inr (hfits hxai code hextract)

/-! ## Runs -/

omit [CodeText] [MailText] in
theorem customMatcher_eq_none {w : PollWorld} {capacity : VerificationPollCapacity.CapacityBuckets}
    {principal : ClientPrincipal} {leaseId : String}
    (h : getLeaseVerificationCode w capacity principal leaseId payload = .ok request)
    (hregex : payload.fields.codeRegex = none) : request.customMatcher = none := by
  obtain ⟨recipient, hoptions⟩ := options_of_getLeaseVerificationCode h
  have hnone : request.options.codeRegex = none := by
    rw [hoptions]
    exact hregex
  unfold PollRequest.customMatcher VerificationCodeLookupOptions.customMatcher
  rw [hnone]
  rfl

end

end

/-! ## Six digits were asked for -/

section Sample

attribute [local instance] asciiPlatform plainMail asciiCodeText codeSearch

def sixDigitsFields : RawVerificationCodeRequest where
  patternType := some .digits
  patternMinimumLength := some 6
  patternMaximumLength := some 6

def sixDigits : LeaseVerificationCodeRequest := ⟨sixDigitsFields, rfl, rfl⟩

/-- The poll of the request, with the lease of `onDemandDatabase`. -/
def sixDigitsPoll : PollRequest where
  principal := pollingClient
  leaseId := "lease"
  mailbox := { id := "resource", providerType := "ddg_mail", primaryEmail := "a@x.org" }
  options := sixDigits.options "a@x.org"

theorem getLeaseVerificationCode_sixDigits :
    getLeaseVerificationCode (pollingWorld true)
      (VerificationPollCapacity.getCapacity .default) pollingClient "lease" sixDigits =
        .ok sixDigitsPoll := rfl

def textMessage (text : String) : ListedMessage where
  item := .obj [("to", .str "a@x.org"), ("subject", .str "Code"), ("text", .str text)]

/-- The run of a poll that finds a message with the given text. -/
def findsText (text : String) : List PollEvent :=
  [.checkpoint, .loadResource, .inbox (.ok [textMessage text])]

def sixDigitsStart : TracedPoll := ⟨sixDigitsPoll.start (pollingWorld true), none⟩

theorem message_findsText :
    (exec (tracedStep sixDigitsPoll) sixDigitsStart (findsText "482913")).message =
      some ("Code", "482913") := by
  decide +kernel

end Sample

end MailboxService
