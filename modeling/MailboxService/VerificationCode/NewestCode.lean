import MailboxService.Foundation.Newest
import MailboxService.VerificationCode.Extraction
import MailboxService.VerificationCode.PollSteps
import MailboxService.VerificationCode.RecipientIsolation

/-!
# The newest code of an on-demand inbox

A poll of an on-demand inbox takes the first code in the order in which the
messages are listed. It keeps a limited number of the messages that pass its
filters, and an adapter may cut the listing off before it reads anything of it.
-/

namespace MailboxService

open Foundation

section

variable [PythonText] [MailText]

/-! ## The messages of a listing -/

/-- What a message of a listing says, if it can be read. -/
def OnDemandAdapter.evidence? (adapter : OnDemandAdapter) (address : String)
    (message : ListedMessage) : Option InboxMessageEvidence :=
  (adapter.source message).bind fun raw => (readMessage address raw).toOption

def OnDemandAdapter.evidences (adapter : OnDemandAdapter) (address : String)
    (inbox : List ListedMessage) : List InboxMessageEvidence :=
  inbox.filterMap (adapter.evidence? address)

/-- The messages of a listing that are handed to the poll. -/
def OnDemandAdapter.kept (adapter : OnDemandAdapter) (address : String)
    (query : VerificationQuery) (inbox : List ListedMessage) : List InboxMessageEvidence :=
  match admittedMessages address query
      ((adapter.window query inbox).filterMap adapter.source) with
  | .ok messages => messages.take (max query.maxMessages 1)
  | .error _ => []

omit [PythonText] [MailText] in
theorem mem_of_mem_window {adapter : OnDemandAdapter} {query : VerificationQuery}
    {inbox : List ListedMessage} {message : ListedMessage}
    (h : message ∈ adapter.window query inbox) : message ∈ inbox := by
  unfold OnDemandAdapter.window at h
  split at h
  · exact List.mem_of_mem_filter (List.mem_of_mem_take h)
  · exact h

theorem mem_readMessages {address : String} {raws : List (Except String JsonObject)}
    {messages : List InboxMessageEvidence} (h : readMessages address raws = .ok messages)
    {e : InboxMessageEvidence} (he : e ∈ messages) :
    ∃ raw ∈ raws, readMessage address raw = .ok e := by
  induction raws generalizing messages with
  | nil =>
      cases h
      cases he
  | cons raw rest ih =>
      unfold readMessages at h
      cases hread : readMessage address raw with
      | error message =>
          rw [hread] at h
          cases h
      | ok first =>
          cases hothers : readMessages address rest with
          | error message =>
              rw [hread, hothers] at h
              cases h
          | ok others =>
              rw [hread, hothers] at h
              cases h
              rcases List.mem_cons.mp he with rfl | he
              · exact ⟨raw, List.mem_cons_self .., hread⟩
              · obtain ⟨raw', hraw', hread'⟩ := ih hothers he
                exact ⟨raw', List.mem_cons_of_mem raw hraw', hread'⟩

/-- A message that is handed to the poll is one of the listing, and passes the
filters. -/
theorem mem_kept {adapter : OnDemandAdapter} {address : String} {query : VerificationQuery}
    {inbox : List ListedMessage} {e : InboxMessageEvidence}
    (h : e ∈ adapter.kept address query inbox) :
    e ∈ adapter.evidences address inbox ∧ query.admits e = true := by
  unfold OnDemandAdapter.kept admittedMessages at h
  cases hread : readMessages address
      ((adapter.window query inbox).filterMap adapter.source) with
  | error message =>
      rw [hread] at h
      cases h
  | ok messages =>
      rw [hread] at h
      have hfiltered : e ∈ messages.filter query.admits := List.mem_of_mem_take h
      obtain ⟨he, hadmits⟩ := List.mem_filter.mp hfiltered
      refine ⟨?_, hadmits⟩
      obtain ⟨raw, hraw, hevidence⟩ := mem_readMessages hread he
      obtain ⟨message, hmessage, hsource⟩ := List.mem_filterMap.mp hraw
      refine List.mem_filterMap.mpr ⟨message, mem_of_mem_window hmessage, ?_⟩
      unfold OnDemandAdapter.evidence?
      rw [hsource, Option.bind_some, hevidence]
      rfl

end

section

variable [Platform] [MailText] [CodeSearch]

/-! ## The first code -/

def PollRequest.codeOf (request : PollRequest) (e : InboxMessageEvidence) : Option String :=
  (onDemandCode request.customMatcher (e.subject.getD "") (e.bodyText.getD "")).bind orNone

def InboxMessageEvidence.result (e : InboxMessageEvidence) (code : String) (attempts : ℕ) :
    VerificationCodeLookupResult where
  found := true
  code := some code
  matchedFrom := e.fromAddress
  matchedSubject := e.subject
  messageReceivedAt := e.receivedAt
  attempts := attempts

variable {request : PollRequest} {s : PollState} {adapter : OnDemandAdapter}

omit [CodeSearch] in
theorem fetchEvidence_kept
    (hadapter : OnDemandAdapter.ofProviderType request.providerType = some adapter)
    (sinceAt : ℤ) (inbox : List ListedMessage) :
    (∃ evidence, PollState.fetchEvidence request sinceAt (.ok inbox) = .ok evidence ∧
        evidence.directCode = none ∧ evidence.messages =
          adapter.kept request.mailbox.primaryEmail (request.options.query sinceAt) inbox) ∨
      (∃ message, PollState.fetchEvidence request sinceAt (.ok inbox) = .error message) ∧
        adapter.kept request.mailbox.primaryEmail (request.options.query sinceAt) inbox = [] := by
  have hfetch : PollState.fetchEvidence request sinceAt (.ok inbox) =
      adapter.fetchEvidence request.mailbox.primaryEmail (request.options.query sinceAt)
        inbox := by
    unfold PollState.fetchEvidence
    rw [hadapter]
    rfl
  rw [hfetch, OnDemandAdapter.fetchEvidence_eq, fetchWith_eq]
  unfold OnDemandAdapter.kept
  cases admittedMessages request.mailbox.primaryEmail (request.options.query sinceAt)
      ((adapter.window (request.options.query sinceAt) inbox).filterMap adapter.source) with
  | error message => exact Or.inr ⟨⟨message, rfl⟩, rfl⟩
  | ok messages => exact Or.inl ⟨_, rfl, rfl, rfl⟩

def PollState.handed (request : PollRequest) (s : PollState) (adapter : OnDemandAdapter)
    (inbox : List ListedMessage) : List InboxMessageEvidence :=
  adapter.kept request.mailbox.primaryEmail (request.options.query s.sinceAt) inbox

/-- **A poll returns the first code** of the messages that it is handed. -/
theorem inboxAnswered_returned_iff (hlisting : s.phase = .listing)
    (hadapter : OnDemandAdapter.ofProviderType request.providerType = some adapter)
    (inbox : List ListedMessage) (result : VerificationCodeLookupResult) :
    (pollStep request s (.inbox (.ok inbox))).phase = .returned result ↔
      (s.handed request adapter inbox).findSome? (fun e =>
        (request.codeOf e).map fun code => e.result code s.attempts) = some result := by
  show (s.inboxAnswered request (.ok inbox)).phase = _ ↔ _
  unfold PollState.inboxAnswered PollState.handed
  rw [hlisting]
  dsimp only
  rcases fetchEvidence_kept hadapter s.sinceAt inbox with
    ⟨evidence, hfetch, hdirect, hmessages⟩ | ⟨⟨message, hfetch⟩, hkept⟩
  · rw [hfetch]
    dsimp only
    rw [takeCode_eq hdirect, hmessages]
    unfold PollRequest.codeOf InboxMessageEvidence.result
    cases (adapter.kept request.mailbox.primaryEmail (request.options.query s.sinceAt)
        inbox).findSome? _ with
    | none => exact iff_of_false nofun nofun
    | some found =>
        constructor
        · intro h
          cases h
          rfl
        · intro h
          cases h
          rfl
  · rw [hfetch, hkept]
    dsimp only
    refine iff_of_false ?_ nofun
    intro h
    unfold PollState.callFailed at h
    split at h
    · cases h
    · cases h

/-! ## The newest code -/

/-- The message passes the filters and yields a code. -/
def PollState.Qualifies (request : PollRequest) (s : PollState) (e : InboxMessageEvidence) :
    Prop :=
  (request.options.query s.sinceAt).admits e = true ∧ (request.codeOf e).isSome = true

/-- The newest message of a listing that passes the filters and yields a code. -/
structure PollState.NewestMessage (request : PollRequest) (s : PollState)
    (adapter : OnDemandAdapter) (inbox : List ListedMessage) (e : InboxMessageEvidence) :
    Prop where
  mem : e ∈ adapter.evidences request.mailbox.primaryEmail inbox
  qualifies : s.Qualifies request e
  newest : ∀ e' ∈ adapter.evidences request.mailbox.primaryEmail inbox,
    s.Qualifies request e' → ∀ t ∈ e.receivedAt, ∀ t' ∈ e'.receivedAt, t' ≤ t

/-- **The newest code wins**: a poll that returns a code of the listing returns
that of the newest message that passes the filters and yields one. -/
def PollState.NewestWins (request : PollRequest) (s : PollState) (adapter : OnDemandAdapter)
    (inbox : List ListedMessage) : Prop :=
  ∀ result, (pollStep request s (.inbox (.ok inbox))).phase = .returned result →
    ∃ e code, s.NewestMessage request adapter inbox e ∧ request.codeOf e = some code ∧
      result = e.result code s.attempts

def OnDemandAdapter.DistinctTimes (adapter : OnDemandAdapter) (address : String)
    (inbox : List ListedMessage) : Prop :=
  ((adapter.evidences address inbox).map (·.receivedAt)).Nodup

/-- The poll is handed no code, or is handed the newest message with a code
before all others with a code. -/
def PollState.NewestFirst (request : PollRequest) (s : PollState) (adapter : OnDemandAdapter)
    (inbox : List ListedMessage) : Prop :=
  (∀ e ∈ s.handed request adapter inbox, request.codeOf e = none) ∨
    ∃ older e later, s.handed request adapter inbox = older ++ e :: later ∧
      s.NewestMessage request adapter inbox e ∧ ∀ e' ∈ older, request.codeOf e' = none

omit [CodeSearch] in
theorem eq_of_receivedAt {adapter : OnDemandAdapter} {address : String}
    {inbox : List ListedMessage} (h : adapter.DistinctTimes address inbox)
    {e e' : InboxMessageEvidence} (he : e ∈ adapter.evidences address inbox)
    (he' : e' ∈ adapter.evidences address inbox) (htime : e.receivedAt = e'.receivedAt) :
    e = e' :=
  List.inj_on_of_nodup_map h he he' htime

/-- **The newest code wins** exactly if the poll is handed no code, or the
newest message with a code before the others. -/
theorem newest_code_wins_iff (hlisting : s.phase = .listing)
    (hadapter : OnDemandAdapter.ofProviderType request.providerType = some adapter)
    {inbox : List ListedMessage}
    (hdistinct : adapter.DistinctTimes request.mailbox.primaryEmail inbox) :
    s.NewestWins request adapter inbox ↔ s.NewestFirst request adapter inbox := by
  have hreturned := inboxAnswered_returned_iff hlisting hadapter inbox
  constructor
  · intro hwins
    by_cases hnone : ∀ e ∈ s.handed request adapter inbox, request.codeOf e = none
    · exact Or.inl hnone
    · -- the first message with a code is the newest one
      cases hfirst : (s.handed request adapter inbox).findSome? (fun e =>
          (request.codeOf e).map fun code => e.result code s.attempts) with
      | none =>
          refine absurd ?_ hnone
          intro e he
          have := List.findSome?_eq_none_iff.mp hfirst e he
          exact Option.map_eq_none_iff.mp this
      | some result =>
          obtain ⟨older, e, later, hhanded, he, holder⟩ :=
            List.findSome?_eq_some_iff.mp hfirst
          obtain ⟨code, hcode, hresult⟩ := Option.map_eq_some_iff.mp he
          obtain ⟨newest, code', hnewest, hcode', hsame⟩ :=
            hwins result ((hreturned result).mpr hfirst)
          have hmem : e ∈ adapter.evidences request.mailbox.primaryEmail inbox := by
            have hkept : e ∈ s.handed request adapter inbox := by
              rw [hhanded]
              exact List.mem_append_right _ (List.mem_cons_self ..)
            exact (mem_kept hkept).1
          have htime : e.receivedAt = newest.receivedAt :=
            congrArg VerificationCodeLookupResult.messageReceivedAt (hresult.trans hsame)
          obtain rfl := eq_of_receivedAt hdistinct hmem hnewest.mem htime
          refine Or.inr ⟨older, e, later, hhanded, hnewest, ?_⟩
          intro e' he'
          exact Option.map_eq_none_iff.mp (holder e' he')
  · rintro hcondition result hresult
    have hfound := (hreturned result).mp hresult
    rcases hcondition with hnone | ⟨older, e, later, hhanded, hnewest, holder⟩
    · have hmissing : (s.handed request adapter inbox).findSome? (fun e =>
          (request.codeOf e).map fun code => e.result code s.attempts) = none := by
        rw [List.findSome?_eq_none_iff]
        intro e he
        rw [hnone e he]
        rfl
      rw [hmissing] at hfound
      cases hfound
    · obtain ⟨code, hcode⟩ := Option.isSome_iff_exists.mp hnewest.qualifies.2
      have hfirst : (s.handed request adapter inbox).findSome? (fun e =>
          (request.codeOf e).map fun code => e.result code s.attempts) =
            some (e.result code s.attempts) := by
        rw [List.findSome?_eq_some_iff]
        refine ⟨older, e, later, hhanded, by rw [hcode]; rfl, ?_⟩
        intro e' he'
        rw [holder e' he']
        rfl
      rw [hfirst] at hfound
      exact ⟨e, code, hnewest, hcode, (Option.some.inj hfound).symm⟩

end

/-! ## A listing with the oldest message first -/

section Sample

@[reducible] def timedMail : MailText where
  repr _ := ""
  htmlToVisibleText := id
  sanitizeMailText := id
  parseReceivedAt
    | .int t => .ok (some t)
    | _ => .ok none

attribute [local instance] asciiPlatform timedMail digitCodes

def timedMessage (code : String) (time : ℤ) : ListedMessage where
  item := .obj [("to", .str "a@x.org"), ("subject", .str "Code"), ("text", .str code),
    ("date", .int time)]

def timedEvidence (code : String) (time : ℤ) : InboxMessageEvidence where
  fromAddress := none
  subject := some "Code"
  bodyText := some code
  receivedAt := some time
  recipientAddresses := ["a@x.org"].toFinset

def listingPoll : PollState :=
  exec (pollStep onDemandPoll) (onDemandPoll.start (pollingWorld true)) [.checkpoint, .loadResource]

theorem phase_listingPoll : listingPoll.phase = .listing := by decide +kernel

theorem adapter_onDemandPoll :
    OnDemandAdapter.ofProviderType onDemandPoll.providerType = some .ddgMail := by
  decide +kernel

def newestFirstInbox : List ListedMessage := [timedMessage "2222" 2, timedMessage "1111" 1]

def oldestFirstInbox : List ListedMessage := [timedMessage "1111" 1, timedMessage "2222" 2]

theorem distinctTimes_oldestFirst :
    OnDemandAdapter.ddgMail.DistinctTimes "a@x.org" oldestFirstInbox := by
  show ((OnDemandAdapter.ddgMail.evidences "a@x.org" oldestFirstInbox).map (·.receivedAt)).Nodup
  decide +kernel

theorem distinctTimes_newestFirst :
    OnDemandAdapter.ddgMail.DistinctTimes "a@x.org" newestFirstInbox := by
  show ((OnDemandAdapter.ddgMail.evidences "a@x.org" newestFirstInbox).map (·.receivedAt)).Nodup
  decide +kernel

theorem evidences_newestFirst :
    OnDemandAdapter.ddgMail.evidences "a@x.org" newestFirstInbox =
      [timedEvidence "2222" 2, timedEvidence "1111" 1] := by
  decide +kernel

theorem newest_code_wins_sample :
    listingPoll.NewestWins onDemandPoll .ddgMail newestFirstInbox := by
  refine (newest_code_wins_iff phase_listingPoll adapter_onDemandPoll
    distinctTimes_newestFirst).mpr (Or.inr ?_)
  refine ⟨[], timedEvidence "2222" 2, [timedEvidence "1111" 1], by decide +kernel, ?_, nofun⟩
  refine ⟨?_, ⟨by decide +kernel, by decide +kernel⟩, ?_⟩
  · show _ ∈ OnDemandAdapter.ddgMail.evidences "a@x.org" newestFirstInbox
    rw [evidences_newestFirst]
    exact List.mem_cons_self ..
  · intro e' he' _
    have he' : e' ∈ OnDemandAdapter.ddgMail.evidences "a@x.org" newestFirstInbox := he'
    rw [evidences_newestFirst] at he'
    rcases List.mem_cons.mp he' with rfl | he'
    · rintro t ⟨⟩ t' ⟨⟩
      decide
    · rw [List.mem_singleton.mp he']
      rintro t ⟨⟩ t' ⟨⟩
      decide

/-- **The older code is returned** where the older message is listed first. -/
theorem older_code_wins :
    OnDemandAdapter.ddgMail.DistinctTimes "a@x.org" oldestFirstInbox ∧
      ¬ listingPoll.NewestWins onDemandPoll .ddgMail oldestFirstInbox := by
  refine ⟨distinctTimes_oldestFirst, ?_⟩
  intro hwins
  have hreturned : (pollStep onDemandPoll listingPoll (.inbox (.ok oldestFirstInbox))).phase =
      .returned ((timedEvidence "1111" 1).result "1111" 1) := by
    decide +kernel
  obtain ⟨e, code, hnewest, -, hresult⟩ := hwins _ hreturned
  have htime : e.receivedAt = some 1 :=
    (congrArg VerificationCodeLookupResult.messageReceivedAt hresult).symm
  have hmem : timedEvidence "2222" 2 ∈
      OnDemandAdapter.ddgMail.evidences onDemandPoll.mailbox.primaryEmail oldestFirstInbox := by
    decide +kernel
  have hle := hnewest.newest _ hmem ⟨by decide +kernel, by decide +kernel⟩ 1 htime 2 rfl
  exact absurd hle (by decide)

end Sample

end MailboxService
