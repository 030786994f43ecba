import MailboxService.VerificationCode.ScanBudget

/-!
# What the steps of a poll do

A step of a poll leaves it where it is, lets it go on, ends it, or finds a code.
This is said once, with what the step that ends a poll or finds a code has seen,
and so is what a scan finds in the messages of a mailbox.
-/

namespace MailboxService

open Foundation

/-! ## Phases -/

def PollPhase.Silent : PollPhase → Prop
  | .found _ => False
  | .returned _ => False
  | .raised _ => False
  | _ => True

def PollPhase.Ended : PollPhase → Prop
  | .returned _ => True
  | .raised _ => True
  | _ => False

def PollPhase.Reads : PollPhase → Prop
  | .reading _ _ _ => True
  | _ => False

/-- The poll reads a channel once more, after its token was rejected. -/
def PollPhase.Retries : PollPhase → Prop
  | .reading .refreshToken _ _ => True
  | .reading .listAgain _ _ => True
  | _ => False

theorem PollPhase.reads_of_retries {phase : PollPhase} (h : phase.Retries) : phase.Reads := by
  cases phase with
  | reading stage channel others => trivial
  | _ => exact h

def PollPhase.Belongs (loop : PollLoop) : PollPhase → Prop
  | .reading _ _ _ => loop = .microsoft
  | .loading => loop ≠ .microsoft
  | .configuring => loop = .smsbower
  | .asking => loop = .smsbower
  | .listing => loop = .onDemand
  | _ => True

section

variable [Platform] [CodeSearch]

/-! ## Scans -/

def PollState.window (s : PollState) (messages : List InboxMessageCandidate) :
    List InboxMessageCandidate :=
  affordable InboxMessageCandidate.bodyBytes
    (min maxScanBodyBytes (maxRequestBodyBytes - s.requestBodyBytesConsumed)) messages

def PollState.scanned (request : PollRequest) (s : PollState)
    (messages : List InboxMessageCandidate) : Option VerificationCodeMatch :=
  (findCodeInMessages messages request.options request.customMatcher request.recipientFilter
    (maxRequestBodyBytes - s.requestBodyBytesConsumed)).1

/-- **A scan takes the first code** of the messages that it gets to. -/
theorem scanned_eq (request : PollRequest) (s : PollState)
    (messages : List InboxMessageCandidate) :
    s.scanned request messages = (s.window messages).findSome?
      (·.match? request.options request.customMatcher request.recipientFilter) := by
  unfold PollState.scanned
  rw [findCodeInMessages_request]
  rfl

/-! ## Steps -/

/-- The result of a poll that has found a code in a message of a mailbox. -/
def VerificationCodeMatch.result (m : VerificationCodeMatch) (attempts : ℕ) :
    VerificationCodeLookupResult where
  found := true
  code := some m.code
  matchedFrom := m.matchedFrom
  matchedSubject := m.matchedSubject
  messageReceivedAt := m.messageReceivedAt
  channel := some m.channel
  attempts := attempts

/-- A poll that runs raises nothing but the error of a checkpoint or of a read. -/
def MayRaise (w : PollWorld) (request : PollRequest) : PollError → Prop
  | .authorization e =>
      revalidateVerificationAuthorization w request.principal request.leaseId = .error e
  | .read _ => True
  | _ => False

def StartsRound (request : PollRequest) (s : PollState) (e : PollEvent) : Prop :=
  s.phase = .checking ∧ e = .checkpoint ∧
    Authorized s.world request.principal request.leaseId

/-- The step is the answer that the token of a channel is rejected. -/
def PollState.Rejected (s : PollState) (e : PollEvent) : Prop :=
  ∃ channel others failure, s.phase = .reading .listMessages channel others ∧
    e = .messages (.error failure) ∧ failure.authFailure = true

/-- A step goes on to read a channel where one is read or a round starts, and to
read it once more where it is read once more or is rejected. -/
structure EntersRead (request : PollRequest) (s : PollState) (e : PollEvent)
    (phase : PollPhase) : Prop where
  reads : phase.Reads → s.phase.Reads ∨ StartsRound request s e
  retries : phase.Retries → s.phase.Retries ∨ s.Rejected e

omit [CodeSearch] in
theorem EntersRead.elsewhere {request : PollRequest} {s : PollState} {e : PollEvent}
    {phase : PollPhase} (h : ¬ phase.Reads) : EntersRead request s e phase :=
  ⟨fun hreads => absurd hreads h, fun hretries => absurd (PollPhase.reads_of_retries hretries) h⟩

omit [CodeSearch] in
theorem EntersRead.first {request : PollRequest} {s : PollState} {e : PollEvent}
    {phase : PollPhase} (h : s.phase.Reads ∨ StartsRound request s e)
    (hfirst : ¬ phase.Retries) : EntersRead request s e phase :=
  ⟨fun _ => h, fun hretries => absurd hretries hfirst⟩

omit [CodeSearch] in
theorem EntersRead.again {request : PollRequest} {s : PollState} {e : PollEvent}
    {phase : PollPhase} (h : s.phase.Reads) (hretries : s.phase.Retries ∨ s.Rejected e) :
    EntersRead request s e phase :=
  ⟨fun _ => Or.inl h, fun _ => hretries⟩

variable [MailText]

inductive PhaseChange (request : PollRequest) (s : PollState) : PollEvent → PollPhase → Prop where
  | stays (e : PollEvent) : PhaseChange request s e s.phase
  | goesOn (e : PollEvent) {phase : PollPhase} (silent : phase.Silent)
      (loop : s.phase.Belongs request.loop → phase.Belongs request.loop)
      (enters : EntersRead request s e phase) :
      PhaseChange request s e phase
  | fails (e : PollEvent) {error : PollError} (raises : MayRaise s.world request error) :
      PhaseChange request s e (.raised error)
  | givesUp (e : PollEvent) (attempts : ℕ) :
      PhaseChange request s e (.returned { found := false, attempts := attempts })
  | scanFinds {channel : MailReadChannel} {others : List MailReadChannel} {stage : ReadStage}
      {messages : List InboxMessageCandidate} {m : VerificationCodeMatch}
      (reading : s.phase = .reading stage channel others)
      (finds : s.scanned request messages = some m) :
      PhaseChange request s (.messages (.ok messages)) (.found (m.result s.attempts))
  | codeArrives {answer : Except String (Option String × Bool)} {code : String}
      (asking : s.phase = .asking) :
      PhaseChange request s (.code answer)
        (.found { found := true, code := some code, attempts := s.attempts })
  | inboxFinds {answer : Except String (List ListedMessage)} {evidence : VerificationEvidence}
      {result : VerificationCodeLookupResult} (listing : s.phase = .listing)
      (fetched : PollState.fetchEvidence request s.sinceAt answer = .ok evidence)
      (taken : PollState.takeCode request s.attempts evidence = some result) :
      PhaseChange request s (.inbox answer) (.returned result)
  | confirms {result : VerificationCodeLookupResult} (found : s.phase = .found result)
      (authorized : Authorized s.world request.principal request.leaseId) :
      PhaseChange request s .checkpoint (.returned result)

section

variable {request : PollRequest} {s t : PollState} {e : PollEvent}

omit [CodeSearch] [MailText] in
theorem belongs_of_reading {stage : ReadStage} {channel : MailReadChannel}
    {others : List MailReadChannel} (hphase : s.phase = .reading stage channel others)
    (h : s.phase.Belongs request.loop) : request.loop = .microsoft := by
  rw [hphase] at h
  exact h

omit [CodeSearch] [MailText] in
theorem reads_of_reading {stage : ReadStage} {channel : MailReadChannel}
    {others : List MailReadChannel} (hphase : s.phase = .reading stage channel others) :
    s.phase.Reads := by
  rw [hphase]
  trivial

theorem phaseChange_nextChannel (h : s.phase.Belongs request.loop → request.loop = .microsoft)
    (hreads : s.phase.Reads ∨ StartsRound request s e) (channels : List MailReadChannel) :
    PhaseChange request s e (t.nextChannel channels).phase := by
  cases channels with
  | nil => exact .goesOn e trivial (fun _ => trivial) (.elsewhere id)
  | cons channel others => exact .goesOn e trivial h (.first hreads id)

theorem phaseChange_callFailed (message : String) :
    PhaseChange request s e (t.callFailed message).phase := by
  unfold PollState.callFailed
  split
  · exact .fails e trivial
  · exact .goesOn e trivial (fun _ => trivial) (.elsewhere id)

theorem phaseChange_finish : PhaseChange request s e (t.finish request).phase := by
  unfold PollState.finish
  split
  · exact .fails e trivial
  · exact .givesUp e t.attempts

theorem phaseChange_checkpoint :
    PhaseChange request s .checkpoint (s.checkpoint request).phase := by
  unfold PollState.checkpoint
  split
  · rename_i hchecking
    split
    · rename_i failure hfailure
      exact .fails _ hfailure
    · rename_i found hok
      dsimp only
      split
      · rename_i hloop
        exact phaseChange_nextChannel (fun _ => hloop)
          (Or.inr ⟨hchecking, rfl, revalidate_ok_iff.mp ⟨found, hok⟩⟩) _
      · rename_i hloop
        exact .goesOn _ trivial (fun _ => hloop) (.elsewhere id)
  · rename_i result hfound
    split
    · rename_i failure hfailure
      exact .fails _ hfailure
    · rename_i found hok
      exact .confirms hfound (revalidate_ok_iff.mp ⟨found, hok⟩)
  · exact .stays _

theorem phaseChange_token (answer : Except String Unit) :
    PhaseChange request s (.token answer) (s.tokenAnswered answer).phase := by
  unfold PollState.tokenAnswered
  split
  · rename_i hphase
    exact .goesOn _ trivial (belongs_of_reading hphase)
      (.first (Or.inl (reads_of_reading hphase)) id)
  · rename_i hphase
    have hretries : s.phase.Retries := by
      rw [hphase]
      trivial
    exact .goesOn _ trivial (belongs_of_reading hphase)
      (.again (reads_of_reading hphase) (Or.inl hretries))
  · rename_i hphase
    exact phaseChange_nextChannel (belongs_of_reading hphase) (Or.inl (reads_of_reading hphase)) _
  · rename_i hphase
    exact phaseChange_nextChannel (belongs_of_reading hphase) (Or.inl (reads_of_reading hphase)) _
  · exact .stays _

theorem phaseChange_scan {stage : ReadStage} {channel : MailReadChannel}
    {others : List MailReadChannel} (hreading : s.phase = .reading stage channel others)
    (messages : List InboxMessageCandidate) :
    PhaseChange request s (.messages (.ok messages)) (s.scan request others messages).phase := by
  unfold PollState.scan
  dsimp only
  split
  · rename_i m hm
    exact .scanFinds hreading hm
  · split
    · exact .givesUp _ _
    · exact phaseChange_nextChannel (belongs_of_reading hreading)
        (Or.inl (reads_of_reading hreading)) _

theorem phaseChange_messages (answer : Except MailAccessFailure (List InboxMessageCandidate)) :
    PhaseChange request s (.messages answer) (s.messagesAnswered request answer).phase := by
  unfold PollState.messagesAnswered
  split
  · rename_i hphase
    exact phaseChange_scan hphase _
  · rename_i hphase
    exact phaseChange_scan hphase _
  · rename_i hphase
    split
    · rename_i hauth
      exact .goesOn _ trivial (belongs_of_reading hphase)
        (.again (reads_of_reading hphase) (Or.inr ⟨_, _, _, hphase, rfl, hauth⟩))
    · exact phaseChange_nextChannel (belongs_of_reading hphase)
        (Or.inl (reads_of_reading hphase)) _
  · rename_i hphase
    exact phaseChange_nextChannel (belongs_of_reading hphase) (Or.inl (reads_of_reading hphase)) _
  · exact .stays _

theorem phaseChange_loadResource :
    PhaseChange request s .loadResource (s.loadResource request).phase := by
  unfold PollState.loadResource
  split
  · rename_i hphase
    dsimp only
    split
    · exact .fails _ trivial
    · rename_i hloop _
      exact .goesOn _ trivial (fun _ => hloop) (.elsewhere id)
    · exact .fails _ trivial
    · rename_i hsmsbower
      refine .goesOn _ trivial (fun h => ?_) (.elsewhere id)
      rw [hphase] at h
      show request.loop = .onDemand
      cases hloop : request.loop with
      | microsoft => exact absurd hloop h
      | smsbower => exact absurd hloop hsmsbower
      | onDemand => rfl
  · exact .stays _

theorem phaseChange_loadSettings :
    PhaseChange request s .loadSettings s.loadSettings.phase := by
  unfold PollState.loadSettings
  split
  · rename_i hphase
    dsimp only
    split
    · exact .fails _ trivial
    · exact .goesOn _ trivial (fun h => by rwa [hphase] at h) (.elsewhere id)
  · exact .stays _

theorem phaseChange_code (answer : Except String (Option String × Bool)) :
    PhaseChange request s (.code answer) (s.codeAnswered answer).phase := by
  unfold PollState.codeAnswered
  split
  · exact phaseChange_callFailed _
  · rename_i hphase
    dsimp only
    split
    · exact .codeArrives hphase
    · exact .goesOn _ trivial (fun _ => trivial) (.elsewhere id)
  · exact .stays _

theorem phaseChange_inbox (answer : Except String (List ListedMessage)) :
    PhaseChange request s (.inbox answer) (s.inboxAnswered request answer).phase := by
  unfold PollState.inboxAnswered
  split
  · rename_i hphase
    dsimp only
    split
    · exact phaseChange_callFailed _
    · rename_i evidence hfetched
      split
      · rename_i result htaken
        exact .inboxFinds hphase hfetched htaken
      · exact .goesOn _ trivial (fun _ => trivial) (.elsewhere id)
  · exact .stays _

theorem phaseChange_compareClock :
    PhaseChange request s .compareClock (s.compareClock request).phase := by
  unfold PollState.compareClock
  split
  · split
    · exact phaseChange_finish
    · exact .goesOn _ trivial (fun _ => trivial) (.elsewhere id)
  · exact .stays _

omit [CodeSearch] [MailText] in
theorem computeSleep_cases (request : PollRequest) (s : PollState) :
    s.computeSleep request = s.finish request ∨
      (∃ sleep, s.computeSleep request = s.inPhase (.sleeping sleep)) ∨
      s.computeSleep request = s := by
  unfold PollState.computeSleep
  split
  · dsimp only
    split
    · exact Or.inl rfl
    · exact Or.inr (Or.inl ⟨_, rfl⟩)
  · exact Or.inr (Or.inr rfl)

theorem phaseChange_computeSleep :
    PhaseChange request s .computeSleep (s.computeSleep request).phase := by
  rcases computeSleep_cases request s with h | ⟨sleep, h⟩ | h
  · rw [h]
    exact phaseChange_finish
  · rw [h]
    exact .goesOn _ trivial (fun _ => trivial) (.elsewhere id)
  · rw [h]
    exact .stays _

theorem phaseChange_wake : PhaseChange request s .wake s.wake.phase := by
  unfold PollState.wake
  split
  · exact .goesOn _ trivial (fun _ => trivial) (.elsewhere id)
  · exact .stays _

/-- **What a step makes of the phase of a poll.** -/
theorem phaseChange_step (request : PollRequest) (s : PollState) (e : PollEvent) :
    PhaseChange request s e (pollStep request s e).phase := by
  cases e with
  | world w => exact .stays _
  | checkpoint => exact phaseChange_checkpoint
  | token answer => exact phaseChange_token answer
  | messages answer => exact phaseChange_messages answer
  | loadResource => exact phaseChange_loadResource
  | loadSettings => exact phaseChange_loadSettings
  | code answer => exact phaseChange_code answer
  | inbox answer => exact phaseChange_inbox answer
  | compareClock => exact phaseChange_compareClock
  | computeSleep => exact phaseChange_computeSleep
  | wake => exact phaseChange_wake

end

theorem phase_of_ended {request : PollRequest} {s : PollState} (h : s.phase.Ended)
    (e : PollEvent) : (pollStep request s e).phase = s.phase := by
  cases hphase : s.phase with
  | returned result =>
      cases e <;> simp only [pollStep, PollState.checkpoint, PollState.tokenAnswered,
        PollState.messagesAnswered, PollState.loadResource, PollState.loadSettings,
        PollState.codeAnswered, PollState.inboxAnswered, PollState.compareClock,
        PollState.computeSleep, PollState.wake, hphase]
  | raised error =>
      cases e <;> simp only [pollStep, PollState.checkpoint, PollState.tokenAnswered,
        PollState.messagesAnswered, PollState.loadResource, PollState.loadSettings,
        PollState.codeAnswered, PollState.inboxAnswered, PollState.compareClock,
        PollState.computeSleep, PollState.wake, hphase]
  | _ =>
      rw [hphase] at h
      exact absurd h id

/-! ## Runs -/

theorem phase_exec_of_ended {request : PollRequest} {s : PollState} (h : s.phase.Ended)
    (events : List PollEvent) : (exec (pollStep request) s events).phase = s.phase := by
  refine exec_invariant (P := fun t : PollState => t.phase = s.phase) ?_ rfl events
  intro t e ht
  rw [phase_of_ended (ht ▸ h), ht]

/-- **A poll only goes through the phases of its loop.** -/
theorem belongs_exec {request : PollRequest} {s : PollState}
    (hs : s.phase.Belongs request.loop) (events : List PollEvent) :
    (exec (pollStep request) s events).phase.Belongs request.loop := by
  refine exec_invariant (P := fun s : PollState => s.phase.Belongs request.loop) ?_ hs events
  intro s e hs
  generalize hphase : (pollStep request s e).phase = phase
  have hchange := phaseChange_step request s e
  rw [hphase] at hchange
  cases hchange with
  | stays => exact hs
  | goesOn _ _ hloop _ => exact hloop hs
  | fails => trivial
  | givesUp => trivial
  | scanFinds => trivial
  | codeArrives => trivial
  | inboxFinds => trivial
  | confirms => trivial

end

end MailboxService
