import MailboxService.VerificationCode.BoundedPolls
import MailboxService.VerificationCode.RequestedPatterns

/-!
# Polls that give up

A poll of a Microsoft mailbox gives up before its deadline where a scan says that
the budget of the request is exhausted. A scan says so of the messages behind
those that it got to, and it goes wrong where their bodies land exactly on one of
the two limits.
-/

namespace MailboxService

open Foundation

section

variable [Platform] [CodeSearch] [MailText]

/-! ## What a scan leaves -/

/-- The messages behind those that a scan of the poll gets to. -/
def PollState.unscanned (s : PollState) (messages : List InboxMessageCandidate) :
    List InboxMessageCandidate :=
  messages.drop (s.window messages).length

/-- The bytes of the bodies of the messages that a scan gets to. -/
def PollState.windowBytes (s : PollState) (messages : List InboxMessageCandidate) : ℕ :=
  totalSize InboxMessageCandidate.bodyBytes (s.window messages)

structure ScansInVain (request : PollRequest) (s : PollState) (e : PollEvent)
    (others : List MailReadChannel) (messages : List InboxMessageCandidate) : Prop where
  answer : e = .messages (.ok messages)
  reading : ∃ channel, s.phase = .reading .listMessages channel others ∨
    s.phase = .reading .listAgain channel others
  inVain : ∀ message ∈ s.window messages,
    message.match? request.options request.customMatcher request.recipientFilter = none

/-! ## Giving up -/

def GivesUp (request : PollRequest) (s : PollState) (e : PollEvent) : Prop :=
  ¬ s.phase.Ended ∧
    ∃ result, (pollStep request s e).phase = .returned result ∧ result.found = false

/-- The next message that was not scanned is beyond the limit of the request. -/
def PastRequestLimit (request : PollRequest) (s : PollState) (e : PollEvent) : Prop :=
  ∃ messages next behind, e = .messages (.ok messages) ∧
    s.unscanned messages = next :: behind ∧
    maxRequestBodyBytes < (pollStep request s e).requestBodyBytesConsumed + next.bodyBytes

/-- The scan stops at the limit of a scan, and not at that of the request. -/
def ReachesScanLimit (request : PollRequest) (s : PollState) (e : PollEvent)
    (others : List MailReadChannel) : Prop :=
  ∃ messages next behind, ScansInVain request s e others messages ∧
    s.unscanned messages = next :: behind ∧
    maxScanBodyBytes < s.windowBytes messages + next.bodyBytes ∧
    s.requestBodyBytesConsumed + s.windowBytes messages + next.bodyBytes ≤ maxRequestBodyBytes

/-- The step does not give up too soon: before the deadline it does so only at
the limit of the request, and at the limit of a scan the poll goes on. -/
def Perseveres (request : PollRequest) (s : PollState) (e : PollEvent) : Prop :=
  (GivesUp request s e → s.world.now < s.deadline → PastRequestLimit request s e) ∧
    ∀ others, ReachesScanLimit request s e others →
      (pollStep request s e).phase = (s.nextChannel others).phase

/-- The scan takes a limit for one that is exceeded: the bodies that it got to are
as many bytes as the limit of a scan, or the next one just fits into the request,
or nothing is left, neither of the messages nor of the budget. -/
def MistakesLimit (request : PollRequest) (s : PollState) (e : PollEvent) : Prop :=
  ∃ others messages, ScansInVain request s e others messages ∧
    ((∃ next behind, s.unscanned messages = next :: behind ∧
        s.requestBodyBytesConsumed + s.windowBytes messages + next.bodyBytes ≤
          maxRequestBodyBytes ∧
        (s.windowBytes messages = maxScanBodyBytes ∨
          s.requestBodyBytesConsumed + s.windowBytes messages + next.bodyBytes =
            maxRequestBodyBytes)) ∨
      (s.unscanned messages = [] ∧ s.requestBodyBytesConsumed = maxRequestBodyBytes ∧
        s.world.now < s.deadline))

variable {request : PollRequest} {s : PollState} {e : PollEvent}
  {others : List MailReadChannel} {messages : List InboxMessageCandidate}

/-! ## Scans in vain -/

omit [MailText] in
theorem windowBytes_le (s : PollState) (messages : List InboxMessageCandidate) :
    s.windowBytes messages ≤ maxScanBodyBytes ∧
      s.windowBytes messages ≤ maxRequestBodyBytes - s.requestBodyBytesConsumed := by
  have hlongest : IsLongestWithin InboxMessageCandidate.bodyBytes
      (min maxScanBodyBytes (maxRequestBodyBytes - s.requestBodyBytesConsumed)) messages
      (s.window messages) := isLongestWithin_affordable _ messages
  exact le_min_iff.mp hlongest.within

omit [MailText] in
theorem unscanned_beyond {next : InboxMessageCandidate} {behind : List InboxMessageCandidate}
    (h : s.unscanned messages = next :: behind) :
    min maxScanBodyBytes (maxRequestBodyBytes - s.requestBodyBytesConsumed) <
      s.windowBytes messages + next.bodyBytes := by
  have hcases : s.window messages = messages ∨
      ∃ next rest, messages = s.window messages ++ next :: rest ∧
        min maxScanBodyBytes (maxRequestBodyBytes - s.requestBodyBytesConsumed) <
          s.windowBytes messages + next.bodyBytes := affordable_cases _ messages
  unfold PollState.unscanned at h
  rcases hcases with hall | ⟨next', behind', hsplit, hbeyond⟩
  · rw [hall, List.drop_length] at h
    cases h
  · have hdrop : messages.drop (s.window messages).length = next' :: behind' := by
      generalize s.window messages = window at hsplit ⊢
      rw [hsplit, List.drop_left]
    rw [hdrop] at h
    cases h
    exact hbeyond

/-- **What a scan in vain makes of a poll**: it pays for the messages it got to,
and gives up or goes on with the next channel. -/
theorem scan_inVain (h : ScansInVain request s e others messages) :
    pollStep request s e = s.scan request others messages ∧
      (s.scan request others messages).requestBodyBytesConsumed =
        s.requestBodyBytesConsumed + s.windowBytes messages ∧
      (s.scan request others messages).phase =
        if requestBudgetExhausted (maxRequestBodyBytes - s.requestBodyBytesConsumed)
            (s.windowBytes messages) (s.unscanned messages) = true then
          .returned { found := false, attempts := s.attempts }
        else (s.nextChannel others).phase := by
  obtain ⟨rfl, ⟨channel, hreading⟩, hvain⟩ := h
  have hstep : pollStep request s (.messages (.ok messages)) = s.scan request others messages := by
    show s.messagesAnswered request (.ok messages) = _
    unfold PollState.messagesAnswered
    rcases hreading with hreading | hreading
    · rw [hreading]
    · rw [hreading]
  have hfound : (s.window messages).findSome? (InboxMessageCandidate.match? · request.options
      request.customMatcher request.recipientFilter) = none :=
    List.findSome?_eq_none_iff.mpr hvain
  -- a scan that finds nothing pays for all the messages it gets to
  have hscan : findCodeInMessages messages request.options request.customMatcher
      request.recipientFilter (maxRequestBodyBytes - s.requestBodyBytesConsumed) =
      (none, s.windowBytes messages,
        requestBudgetExhausted (maxRequestBodyBytes - s.requestBodyBytesConsumed)
          (s.windowBytes messages) (s.unscanned messages)) := by
    rw [findCodeInMessages_request]
    dsimp only
    have hscanned := scannedMessages_inVain hvain
    unfold PollState.windowBytes PollState.unscanned
    unfold PollState.window at hfound hscanned ⊢
    rw [hfound, hscanned]
    rfl
  refine ⟨hstep, ?_, ?_⟩
  · unfold PollState.scan
    dsimp only
    rw [hscan]
    dsimp only
    split
    · rfl
    · exact (nextChannel_consumed _ others).1
  · unfold PollState.scan
    dsimp only
    rw [hscan]
    dsimp only
    split
    · rfl
    · cases others with
      | nil => rfl
      | cons channel rest => rfl

omit [MailText] in
theorem scan_found (others : List MailReadChannel) {message : InboxMessageCandidate}
    (hmem : message ∈ s.window messages)
    (hmatch : message.match? request.options request.customMatcher request.recipientFilter ≠
      none) :
    ∃ result, (s.scan request others messages).phase = .found result := by
  have hfound : (findCodeInMessages messages request.options request.customMatcher
      request.recipientFilter (maxRequestBodyBytes - s.requestBodyBytesConsumed)).1 ≠ none := by
    rw [findCodeInMessages_request]
    intro hnone
    exact hmatch (List.findSome?_eq_none_iff.mp hnone message hmem)
  obtain ⟨m, hm⟩ := Option.ne_none_iff_exists'.mp hfound
  unfold PollState.scan
  dsimp only
  rw [hm]
  exact ⟨_, rfl⟩

omit [MailText] in
theorem exhausted_cons {next : InboxMessageCandidate} {behind : List InboxMessageCandidate} :
    requestBudgetExhausted (maxRequestBodyBytes - s.requestBodyBytesConsumed)
        (s.windowBytes messages) (next :: behind) = true ↔
      maxRequestBodyBytes ≤ s.requestBodyBytesConsumed + s.windowBytes messages + next.bodyBytes ∨
        s.windowBytes messages = maxScanBodyBytes := by
  have hle := windowBytes_le s messages
  unfold requestBudgetExhausted
  rw [decide_eq_true_iff]
  omega

omit [CodeSearch] [MailText] in
theorem nextChannel_ne_returned (others : List MailReadChannel)
    (result : VerificationCodeLookupResult) :
    (s.nextChannel others).phase ≠ .returned result := by
  cases others with
  | nil => exact nofun
  | cons channel rest => exact nofun

/-! ## Steps -/

def FoundIsFound (s : PollState) : Prop :=
  ∀ result, s.phase = .found result → result.found = true

theorem foundIsFound_step (h : FoundIsFound s) (e : PollEvent) :
    FoundIsFound (pollStep request s e) := by
  intro result hresult
  have hchange := phaseChange_step request s e
  rw [hresult] at hchange
  generalize hphase : PollPhase.found result = phase at hchange
  cases hchange with
  | stays _ => exact h result hphase.symm
  | goesOn _ silent _ _ =>
      rw [← hphase] at silent
      exact absurd silent id
  | fails _ _ => cases hphase
  | givesUp _ _ => cases hphase
  | scanFinds _ _ =>
      cases hphase
      rfl
  | codeArrives _ =>
      cases hphase
      rfl
  | inboxFinds _ _ _ => cases hphase
  | confirms _ _ => cases hphase

theorem inVain_of_givesUp (h : MailboxPoll request s) (hfound : FoundIsFound s)
    (hgives : GivesUp request s e) (hearly : s.world.now < s.deadline) :
    ∃ others messages, ScansInVain request s e others messages := by
  obtain ⟨hopen, result, hphase, hnot⟩ := hgives
  have hmove := mailboxMove_step h.1 h.2 e
  generalize pollStep request s e = t at hmove hphase
  cases hmove with
  | world w =>
      have hended : s.phase.Ended := by
        rw [show s.phase = .returned result from hphase]
        trivial
      exact absurd hended hopen
  | stays _ =>
      have hended : s.phase.Ended := by
        rw [hphase]
        trivial
      exact absurd hended hopen
  | denied _ => cases hphase
  | startsRound _ => exact absurd hphase (nextChannel_ne_returned _ _)
  | confirms hresult =>
      cases hphase
      rw [hfound _ hresult] at hnot
      cases hnot
  | readsOn _ _ _ => cases hphase
  | fails _ _ _ => exact absurd hphase (nextChannel_ne_returned _ _)
  | @scans stage channel others hreading hlists messages =>
      refine ⟨others, messages, rfl, ⟨channel, ?_⟩, ?_⟩
      · rcases hlists with rfl | rfl
        · exact Or.inl hreading
        · exact Or.inr hreading
      · intro message hmem
        by_contra hmatch
        obtain ⟨found, hfound⟩ := scan_found others hmem hmatch
        rw [hfound] at hphase
        cases hphase
  | timesOut _ hlate => exact absurd hearly (Nat.not_lt.mpr hlate)
  | pauses _ _ => cases hphase
  | stops _ hlate => exact absurd hearly (Nat.not_lt.mpr hlate)
  | sleeps _ _ => cases hphase
  | wakes _ => cases hphase

theorem pastRequestLimit_of_givesUp (hconsumed : s.requestBodyBytesConsumed ≤ maxRequestBodyBytes)
    (hvain : ScansInVain request s e others messages) (hgives : GivesUp request s e)
    (hearly : s.world.now < s.deadline) (h : ¬ MistakesLimit request s e) :
    PastRequestLimit request s e := by
  obtain ⟨hstep, hbytes, hphase⟩ := scan_inVain hvain
  obtain ⟨-, result, hreturned, -⟩ := hgives
  rw [hstep] at hreturned
  have hexhausted : requestBudgetExhausted (maxRequestBodyBytes - s.requestBodyBytesConsumed)
      (s.windowBytes messages) (s.unscanned messages) = true := by
    by_contra hno
    rw [if_neg hno, hreturned] at hphase
    exact nextChannel_ne_returned others result hphase.symm
  cases hunscanned : s.unscanned messages with
  | nil =>
      rw [hunscanned] at hexhausted
      have hzero : maxRequestBodyBytes - s.requestBodyBytesConsumed = 0 :=
        of_decide_eq_true hexhausted
      exact absurd ⟨others, messages, hvain, Or.inr ⟨hunscanned, by omega, hearly⟩⟩ h
  | cons next behind =>
      refine ⟨messages, next, behind, hvain.answer, hunscanned, ?_⟩
      rw [hstep, hbytes]
      by_contra hfits
      rw [hunscanned, exhausted_cons] at hexhausted
      refine h ⟨others, messages, hvain, Or.inl ⟨next, behind, hunscanned, by omega, ?_⟩⟩
      rcases hexhausted with hlimit | hlimit
      · exact Or.inr (by omega)
      · exact Or.inl hlimit

/-- **A step perseveres exactly if its scan mistakes no limit.** -/
theorem perseveres_iff_not_mistakesLimit (h : MailboxPoll request s) (hfound : FoundIsFound s)
    (hconsumed : s.requestBodyBytesConsumed ≤ maxRequestBodyBytes) :
    Perseveres request s e ↔ ¬ MistakesLimit request s e := by
  constructor
  · rintro ⟨hearly, hlimit⟩ ⟨others, messages, hvain, hkinds⟩
    obtain ⟨hstep, hbytes, hphase⟩ := scan_inVain hvain
    rcases hkinds with ⟨next, behind, hunscanned, hfits, hexact⟩ | ⟨hunscanned, hused, hnow⟩
    -- the next message is past the limit of the scan and fits into the request
    · have hbeyond := unscanned_beyond hunscanned
      have hreaches : ReachesScanLimit request s e others :=
        ⟨messages, next, behind, hvain, hunscanned, by omega, hfits⟩
      have hgoes := hlimit others hreaches
      rw [hunscanned, if_pos (exhausted_cons.mpr (by omega))] at hphase
      rw [hstep, hphase] at hgoes
      exact nextChannel_ne_returned others _ hgoes.symm
    -- nothing is left of the messages or of the budget, so no next one is past the limit
    · have hexhausted : requestBudgetExhausted
          (maxRequestBodyBytes - s.requestBodyBytesConsumed) (s.windowBytes messages)
          (s.unscanned messages) = true := by
        rw [hunscanned, hused, Nat.sub_self]
        rfl
      rw [if_pos hexhausted] at hphase
      have hopen : ¬ s.phase.Ended := by
        obtain ⟨channel, hreading | hreading⟩ := hvain.reading
        · rw [hreading]
          exact id
        · rw [hreading]
          exact id
      obtain ⟨messages', next, behind, he, hnext, -⟩ :=
        hearly ⟨hopen, _, hstep ▸ hphase, rfl⟩ hnow
      rw [hvain.answer] at he
      cases he
      rw [hunscanned] at hnext
      cases hnext
  · intro hno
    refine ⟨?_, ?_⟩
    · intro hgives hearly
      obtain ⟨others, messages, hvain⟩ := inVain_of_givesUp h hfound hgives hearly
      exact pastRequestLimit_of_givesUp hconsumed hvain hgives hearly hno
    · rintro others ⟨messages, next, behind, hvain, hunscanned, -, hfits⟩
      obtain ⟨hstep, -, hphase⟩ := scan_inVain hvain
      rw [hstep, hphase]
      refine if_neg ?_
      rw [hunscanned, exhausted_cons]
      intro hexhausted
      refine hno ⟨others, messages, hvain, Or.inl ⟨next, behind, hunscanned, hfits, ?_⟩⟩
      rcases hexhausted with hlimit | hlimit
      · exact Or.inr (by omega)
      · exact Or.inl hlimit

/-! ## Runs -/

/-- A poll of a Microsoft mailbox that keeps its accounts. -/
structure SoundPoll (request : PollRequest) (s : PollState) : Prop where
  poll : MailboxPoll request s
  found : FoundIsFound s
  consumed : s.requestBodyBytesConsumed ≤ maxRequestBodyBytes

theorem soundPoll_step (h : SoundPoll request s) (e : PollEvent) :
    SoundPoll request (pollStep request s e) := by
  refine ⟨mailboxPoll_step h.poll e, foundIsFound_step h.found e, ?_⟩
  have hconsumed := h.consumed
  have hstep := consumed_step (mailboxMove_step h.poll.1 h.poll.2 e)
  have hbytes : s.bytesScanned request e ≤ maxRequestBodyBytes - s.requestBodyBytesConsumed :=
    bytesScanned_le e
  omega

omit [CodeSearch] [MailText] in
theorem soundPoll_start (hloop : request.loop = .microsoft) (w : PollWorld) :
    SoundPoll request (request.start w) := by
  refine ⟨⟨hloop, (onTime_start w 0).belongs⟩, ?_, ?_⟩
  · intro result hresult
    rcases start_phase request w with hphase | ⟨error, hphase⟩
    · rw [hphase] at hresult
      cases hresult
    · rw [hphase] at hresult
      cases hresult
  · rw [consumed_start w]
    exact Nat.zero_le _

/-- **No premature give-up**: in a run of a poll of a Microsoft mailbox, every
step perseveres exactly if no scan of the run mistakes a limit. -/
theorem no_premature_giveUp_iff (hloop : request.loop = .microsoft) (w : PollWorld)
    (events : List PollEvent) :
    Meets (pollStep request) (Perseveres request) (request.start w) events ↔
      Meets (pollStep request) (fun s e => ¬ MistakesLimit request s e) (request.start w)
        events :=
  meets_congr (P := SoundPoll request) (fun _ e hs _ => soundPoll_step hs e)
    (fun _ _ hs => perseveres_iff_not_mistakesLimit hs.poll hs.found hs.consumed)
    (soundPoll_start hloop w)

end

/-! ## Bodies that land on the limit of a scan -/

section Sample

attribute [local instance] asciiPlatform plainMail asciiCodeText codeSearch

/-- A message for someone else, with as long a body as a scan pays for. -/
def longMessage : InboxMessageCandidate where
  fromAddress := none
  subject := none
  bodyText := .ofList (List.replicate maxMessageBodyBytes 'x')
  receivedAt := none
  channel := .imap
  recipientAddresses := ∅

def shortMessage : InboxMessageCandidate where
  fromAddress := none
  subject := none
  bodyText := "482913"
  receivedAt := none
  channel := .imap
  recipientAddresses := {"a@x.org"}

def crowdedInbox : List InboxMessageCandidate :=
  List.replicate 8 longMessage ++ [shortMessage]

theorem utf8ByteSize_replicate (n : ℕ) :
    (String.ofList (List.replicate n 'x')).utf8ByteSize = n := by
  induction n with
  | zero => rfl
  | succ n ih =>
      rw [List.replicate_succ, String.ofList_cons, String.utf8ByteSize_append, ih, Nat.add_comm]
      rfl

/-- A body within the limit of a message is not cut. -/
theorem bodyBytes_of_fits {message : InboxMessageCandidate}
    (h : message.bodyText.utf8ByteSize ≤ maxMessageBodyBytes) :
    message.bodyBytes = message.bodyText.utf8ByteSize := by
  show (truncateTextToByteBudget message.bodyText maxMessageBodyBytes).utf8ByteSize = _
  unfold truncateTextToByteBudget
  rw [if_pos h]

theorem bodyBytes_longMessage : longMessage.bodyBytes = maxMessageBodyBytes := by
  have hsize : longMessage.bodyText.utf8ByteSize = maxMessageBodyBytes :=
    utf8ByteSize_replicate maxMessageBodyBytes
  rw [bodyBytes_of_fits hsize.le, hsize]

theorem bodyBytes_shortMessage : shortMessage.bodyBytes = 6 := by
  decide +kernel

theorem window_crowdedInbox {s : PollState} (h : s.requestBodyBytesConsumed = 0) :
    s.window crowdedInbox = List.replicate 8 longMessage := by
  unfold PollState.window crowdedInbox
  rw [h]
  simp [affordable, List.replicate, bodyBytes_longMessage, bodyBytes_shortMessage,
    maxScanBodyBytes, maxRequestBodyBytes, maxMessageBodyBytes]

def beforeScan : List PollEvent := [.checkpoint, .token (.ok ())]

theorem beforeScan_reads :
    let s := exec (pollStep microsoftPoll) (microsoftPoll.start microsoftWorld) beforeScan
    s.phase = .reading .listMessages .imap [.graph] ∧ s.requestBodyBytesConsumed = 0 := by
  decide +kernel

/-- The scan of the messages stops at its limit, with half of the budget of the
request left. -/
theorem mistakesLimit_crowdedInbox {s : PollState}
    (hphase : s.phase = .reading .listMessages .imap [.graph])
    (hconsumed : s.requestBodyBytesConsumed = 0) :
    MistakesLimit microsoftPoll s (.messages (.ok crowdedInbox)) := by
  have hwindow := window_crowdedInbox hconsumed
  have hbytes : s.windowBytes crowdedInbox = maxScanBodyBytes := by
    unfold PollState.windowBytes
    rw [hwindow, totalSize_replicate, bodyBytes_longMessage]
    rfl
  have hunscanned : s.unscanned crowdedInbox = [shortMessage] := by
    unfold PollState.unscanned
    rw [hwindow]
    exact List.drop_left
  refine ⟨[.graph], crowdedInbox, ⟨rfl, ⟨.imap, Or.inl hphase⟩, ?_⟩, Or.inl ?_⟩
  · intro message hmem
    rw [hwindow] at hmem
    rw [List.eq_of_mem_replicate hmem]
    by_contra hmatch
    obtain ⟨m, hm⟩ := Option.ne_none_iff_exists'.mp hmatch
    obtain ⟨recipient, -, hrecipient⟩ := recipient_of_match? rfl hm
    cases hrecipient
  · refine ⟨shortMessage, [], hunscanned, ?_, Or.inl hbytes⟩
    rw [hconsumed, hbytes, bodyBytes_shortMessage]
    decide

/-- **A poll gives up with half of its budget left**, and does not look for the
code in the other channel. -/
theorem gives_up_at_scan_limit :
    ¬ Meets (pollStep microsoftPoll) (Perseveres microsoftPoll)
      (microsoftPoll.start microsoftWorld)
      (beforeScan ++ [.messages (.ok crowdedInbox)]) := by
  intro h
  obtain ⟨-, hscan, -⟩ := meets_append.mp h
  obtain ⟨hphase, hconsumed⟩ := beforeScan_reads
  have hsound : SoundPoll microsoftPoll
      (exec (pollStep microsoftPoll) (microsoftPoll.start microsoftWorld) beforeScan) :=
    exec_invariant (P := SoundPoll microsoftPoll) (fun _ e hs => soundPoll_step hs e)
      (soundPoll_start rfl microsoftWorld) beforeScan
  exact (perseveres_iff_not_mistakesLimit hsound.poll hsound.found hsound.consumed).mp hscan
    (mistakesLimit_crowdedInbox hphase hconsumed)

/-- A poll that finds nothing in one message goes on. -/
theorem no_premature_giveUp_sample :
    Meets (pollStep microsoftPoll) (Perseveres microsoftPoll)
      (microsoftPoll.start microsoftWorld)
      (beforeScan ++ [.messages (.ok [longMessage])]) := by
  refine (no_premature_giveUp_iff rfl microsoftWorld _).mpr (meets_append.mpr ⟨?_, ?_, trivial⟩)
  · refine ⟨?_, ?_, trivial⟩
    · rintro ⟨others, messages, ⟨hanswer, -, -⟩, -⟩
      cases hanswer
    · rintro ⟨others, messages, ⟨hanswer, -, -⟩, -⟩
      cases hanswer
  · obtain ⟨hphase, hconsumed⟩ := beforeScan_reads
    generalize exec (pollStep microsoftPoll) (microsoftPoll.start microsoftWorld) beforeScan = s
      at hphase hconsumed
    rintro ⟨others, messages, ⟨hanswer, -, -⟩, hkinds⟩
    cases hanswer
    have hwindow : s.window [longMessage] = [longMessage] := by
      unfold PollState.window
      rw [hconsumed]
      simp [affordable, bodyBytes_longMessage, maxScanBodyBytes, maxRequestBodyBytes,
        maxMessageBodyBytes]
    have hunscanned : s.unscanned [longMessage] = [] := by
      unfold PollState.unscanned
      rw [hwindow]
      rfl
    rw [hunscanned, hconsumed] at hkinds
    rcases hkinds with ⟨next, behind, hnext, -⟩ | ⟨-, hused, -⟩
    · cases hnext
    · exact absurd hused (by decide)

end Sample

end MailboxService
