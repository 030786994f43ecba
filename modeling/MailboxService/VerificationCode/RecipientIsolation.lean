import MailboxService.VerificationCode.CheckedCodes
import Mathlib.Data.Set.Basic

/-!
# Mails to other addresses

An inbox may hold mails to several addresses. A poll for one of them should not
depend on the mails whose own fields name only others and whose text does not
name it: deleting them should change neither the evidence nor the code.

The recipient filter never rejects such a mail, because the service counts the
allocated address among the recipients of every mail. So the deletion changes
nothing exactly where the other filters reject the mails. One adapter cuts the
listing off before it filters; there a mail also takes the place of another.
-/

namespace MailboxService

open Foundation

/-- The address of an on-demand mailbox, stripped and lowered when it was
provisioned. -/
structure OnDemandAddress [PythonText] where
  text : String
  normalized : Text.normalize text = text
  nonempty : text ≠ ""

namespace OnDemandAddress

variable [PythonText] (a : OnDemandAddress)

theorem strip_text : Text.strip a.text = a.text := by
  have h := Text.strip_normalize a.text
  rw [a.normalized] at h
  exact h

theorem lower_text : Text.lower a.text = a.text := by
  have h : Text.normalize a.text = Text.lower a.text := by
    unfold Text.normalize
    rw [a.strip_text]
  rw [← h, a.normalized]

end OnDemandAddress

section

variable [PythonText] [MailText]

open Text

/-- The recipients that the fields of a message name, in the listing and in the
answer to its lookup. -/
def ListedMessage.recipients (message : ListedMessage) : List String :=
  match message.item.dict? with
  | none => []
  | some item => ownRecipients item ++ ((message.detail.answer?.bind Json.dict?).elim [] ownRecipients)

/-- The text of a message: that of the listing, where its lookup has raised. -/
def OnDemandAdapter.bodyText (adapter : OnDemandAdapter) (message : ListedMessage) : String :=
  match adapter.source message with
  | some (.ok raw) => (bodyFields raw).2
  | some (.error _) => message.item.dict?.elim "" fun item => (bodyFields item).2
  | none => ""

/-- **A mail to others**: it names recipients, the address is not among them,
and its text does not contain the address. -/
def OnDemandAdapter.foreign (adapter : OnDemandAdapter) (a : OnDemandAddress)
    (message : ListedMessage) : Bool :=
  message.recipients ≠ [] && a.text ∉ message.recipients &&
    !occursIn a.text (lower (adapter.bodyText message))

def OnDemandAdapter.withoutForeign (adapter : OnDemandAdapter) (a : OnDemandAddress)
    (inbox : List ListedMessage) : List ListedMessage :=
  inbox.filter fun message => !adapter.foreign a message

/-- The lookup of the message raises nothing that is not caught, the message can be read,
and a filter other than that on recipients rejects it. -/
def OnDemandAdapter.Rejected (adapter : OnDemandAdapter) (a : OnDemandAddress)
    (query : VerificationQuery) (message : ListedMessage) : Prop :=
  ∀ raw, adapter.source message = some raw →
    ∃ evidence, readMessage a.text raw = .ok evidence ∧
      query.admitsContent evidence = false

/-- What arrives in `inbox` is among the given messages. -/
def AllAmong (S : Set ListedMessage) (inbox : List ListedMessage) : Prop :=
  ∀ message ∈ inbox, message ∈ S

/-! ## What a message contributes -/

def admittedMessages (address : String) (query : VerificationQuery)
    (raws : List (Except String JsonObject)) : Except String (List InboxMessageEvidence) :=
  (readMessages address raws).map (List.filter query.admits)

theorem fetchWith_eq (source : ListedMessage → Option (Except String JsonObject))
    (readMethod address : String) (query : VerificationQuery) (inbox : List ListedMessage) :
    fetchWith source readMethod address query inbox =
      (admittedMessages address query (inbox.filterMap source)).map fun messages =>
        { messages := messages.take (max query.maxMessages 1), readMethod := some readMethod } := by
  unfold fetchWith admittedMessages
  cases readMessages address (inbox.filterMap source) with
  | error message => rfl
  | ok messages =>
      show Except.ok _ = Except.ok _
      rw [filterMessages_eq]

theorem admittedMessages_cons_ok {address : String} {query : VerificationQuery}
    {raw : Except String JsonObject} {rest : List (Except String JsonObject)}
    {evidence : InboxMessageEvidence} (h : readMessage address raw = .ok evidence) :
    admittedMessages address query (raw :: rest) =
      (admittedMessages address query rest).map fun messages =>
        [evidence].filter query.admits ++ messages := by
  unfold admittedMessages
  rw [readMessages, h]
  cases readMessages address rest with
  | error message => rfl
  | ok messages =>
      show Except.ok (List.filter query.admits (evidence :: messages)) = Except.ok _
      rw [← List.singleton_append, List.filter_append]

theorem admittedMessages_cons_error {address : String} {query : VerificationQuery}
    {raw : Except String JsonObject} {rest : List (Except String JsonObject)} {error : String}
    (h : readMessage address raw = .error error) :
    admittedMessages address query (raw :: rest) = .error error := by
  unfold admittedMessages
  rw [readMessages, h]
  rfl

variable {adapter : OnDemandAdapter} {a : OnDemandAddress} {query : VerificationQuery}

/-- **The recipient filter rejects nothing**: every message counts as one to the
address. -/
theorem admits_eq {raw : Except String JsonObject} {evidence : InboxMessageEvidence}
    (hrecipient : query.recipient = some a.text) (h : readMessage a.text raw = .ok evidence) :
    query.admits evidence = query.admitsContent evidence := by
  apply VerificationQuery.admits_of_recipient hrecipient
  have hne : strip a.text ≠ "" := by
    rw [a.strip_text]
    exact a.nonempty
  have hmem : normalize a.text ∈ evidence.recipientAddresses := by
    cases raw with
    | error message => cases h
    | ok item => exact messageDictToEvidence_recipient hne h
  rw [a.normalized] at hmem
  rw [a.lower_text]
  exact hmem

theorem admittedMessages_rejected {raw : Except String JsonObject}
    {rest : List (Except String JsonObject)} {evidence : InboxMessageEvidence}
    (hrecipient : query.recipient = some a.text) (h : readMessage a.text raw = .ok evidence)
    (hrejected : query.admitsContent evidence = false) :
    admittedMessages a.text query (raw :: rest) = admittedMessages a.text query rest := by
  rw [admittedMessages_cons_ok h]
  have hfilter : [evidence].filter query.admits = [] := by
    rw [List.filter_cons, admits_eq hrecipient h, hrejected]
    rfl
  rw [hfilter]
  cases admittedMessages a.text query rest with
  | error message => rfl
  | ok messages => rfl

theorem admittedMessages_delete (hrecipient : query.recipient = some a.text)
    {deleted : ListedMessage → Bool} {inbox : List ListedMessage}
    (h : ∀ m ∈ inbox, deleted m = true → adapter.Rejected a query m) :
    admittedMessages a.text query ((inbox.filter (!deleted ·)).filterMap adapter.source) =
      admittedMessages a.text query (inbox.filterMap adapter.source) := by
  induction inbox with
  | nil => rfl
  | cons m rest ih =>
      have ih := ih fun m' hm' => h m' (List.mem_cons_of_mem _ hm')
      cases hdeleted : deleted m with
      | true =>
          rw [List.filter_cons, hdeleted]
          simp only [Bool.not_true, Bool.false_eq_true, if_false]
          rw [ih, List.filterMap_cons]
          cases hsource : adapter.source m with
          | none => rfl
          | some raw =>
              obtain ⟨evidence, hread, hrejected⟩ := h m (List.mem_cons_self ..) hdeleted raw hsource
              exact (admittedMessages_rejected hrecipient hread hrejected).symm
      | false =>
          rw [List.filter_cons, hdeleted]
          simp only [Bool.not_false, if_true]
          rw [List.filterMap_cons, List.filterMap_cons]
          cases hsource : adapter.source m with
          | none => exact ih
          | some raw =>
              dsimp only
              cases hread : readMessage a.text raw with
              | error message =>
                  rw [admittedMessages_cons_error hread, admittedMessages_cons_error hread]
              | ok evidence =>
                  rw [admittedMessages_cons_ok hread, admittedMessages_cons_ok hread, ih]

theorem admittedMessages_all_rejected (hrecipient : query.recipient = some a.text)
    {inbox : List ListedMessage} (h : ∀ m ∈ inbox, adapter.Rejected a query m) :
    admittedMessages a.text query (inbox.filterMap adapter.source) = .ok [] := by
  let all : ListedMessage → Bool := fun _ => true
  have hdelete : admittedMessages a.text query ((inbox.filter (!all ·)).filterMap adapter.source) =
      admittedMessages a.text query (inbox.filterMap adapter.source) :=
    admittedMessages_delete hrecipient fun m hm _ => h m hm
  have hempty : inbox.filter (!all ·) = [] :=
    List.filter_eq_nil_iff.mpr fun _ _ => by simp [all]
  rw [← hdelete, hempty]
  rfl

/-! ## What a fetch depends on -/

def OnDemandAdapter.nothing (adapter : OnDemandAdapter) : VerificationEvidence where
  messages := []
  readMethod := some adapter.providerType

theorem fetchEvidence_window_rejected (hrecipient : query.recipient = some a.text)
    {inbox : List ListedMessage}
    (h : ∀ m ∈ adapter.window query inbox, adapter.Rejected a query m) :
    adapter.fetchEvidence a.text query inbox = .ok adapter.nothing := by
  rw [OnDemandAdapter.fetchEvidence_eq, fetchWith_eq,
    admittedMessages_all_rejected hrecipient h]
  simp only [Except.map, List.take_nil]
  rfl

theorem fetchEvidence_all_rejected (hrecipient : query.recipient = some a.text)
    {inbox : List ListedMessage} (h : ∀ m ∈ inbox, adapter.Rejected a query m) :
    adapter.fetchEvidence a.text query inbox = .ok adapter.nothing := by
  apply fetchEvidence_window_rejected hrecipient
  intro m hm
  apply h m
  unfold OnDemandAdapter.window at hm
  split at hm
  · exact List.mem_of_mem_filter (List.mem_of_mem_take hm)
  · exact hm

/-- Every mail to others is rejected; where the listing is cut off, every mail
is, if there is one to others among them. -/
structure OnDemandAdapter.NeverMatters (adapter : OnDemandAdapter) (a : OnDemandAddress)
    (query : VerificationQuery) (S : Set ListedMessage) : Prop where
  rejected : ∀ m ∈ S, adapter.foreign a m = true → adapter.Rejected a query m
  cutOff : adapter = .inbucket → (∃ m ∈ S, adapter.foreign a m = true) →
    ∀ m ∈ S, adapter.Rejected a query m

/-- Mails to others that never matter may be deleted. -/
theorem fetchEvidence_withoutForeign (hrecipient : query.recipient = some a.text)
    {S : Set ListedMessage} (h : adapter.NeverMatters a query S) {inbox : List ListedMessage}
    (hinbox : AllAmong S inbox) :
    adapter.fetchEvidence a.text query (adapter.withoutForeign a inbox) =
      adapter.fetchEvidence a.text query inbox := by
  by_cases hforeign : ∃ m ∈ inbox, adapter.foreign a m = true
  · by_cases hcut : adapter = .inbucket
    · obtain ⟨m, hm, hmforeign⟩ := hforeign
      have hall : ∀ m ∈ inbox, adapter.Rejected a query m := fun m' hm' =>
        h.cutOff hcut ⟨m, hinbox m hm, hmforeign⟩ m' (hinbox m' hm')
      have hdeleted : ∀ m ∈ adapter.withoutForeign a inbox, adapter.Rejected a query m :=
        fun m' hm' => hall m' (List.mem_of_mem_filter hm')
      rw [fetchEvidence_all_rejected hrecipient hall,
        fetchEvidence_all_rejected hrecipient hdeleted]
    · have hwindow : ∀ inbox, adapter.window query inbox = inbox := by
        intro inbox
        unfold OnDemandAdapter.window
        split
        · exact absurd rfl hcut
        · rfl
      rw [OnDemandAdapter.fetchEvidence_eq, OnDemandAdapter.fetchEvidence_eq, hwindow, hwindow,
        fetchWith_eq, fetchWith_eq]
      unfold OnDemandAdapter.withoutForeign
      rw [admittedMessages_delete hrecipient fun m hm => h.rejected m (hinbox m hm)]
  · have hsame : adapter.withoutForeign a inbox = inbox := by
      unfold OnDemandAdapter.withoutForeign
      rw [List.filter_eq_self]
      intro m hm
      rw [Bool.not_eq_true']
      by_contra hne
      exact hforeign ⟨m, hm, by simpa using hne⟩
    rw [hsame]

theorem isSome_of_foreign {m : ListedMessage} (h : adapter.foreign a m = true) :
    m.item.dict?.isSome = true := by
  unfold OnDemandAdapter.foreign ListedMessage.recipients at h
  cases hitem : m.item.dict? with
  | some item => rfl
  | none =>
      rw [hitem] at h
      simp at h

omit [MailText] in
theorem filterMessages_singleton {evidence : InboxMessageEvidence}
    (h : filterMessages [evidence] query = []) : query.admits evidence = false := by
  rw [filterMessages_eq] at h
  by_contra hadmits
  rw [List.filter_cons, if_pos (by simpa using hadmits), List.filter_nil,
    List.take_of_length_le (by simp)] at h
  cases h

theorem rejected_of_singleton (hrecipient : query.recipient = some a.text) {m : ListedMessage}
    (h : adapter.fetchEvidence a.text query [m] = .ok adapter.nothing) :
    adapter.Rejected a query m := by
  intro raw hsource
  have hitem : m.item.dict?.isSome = true := by
    rw [Option.isSome_iff_ne_none]
    intro hnone
    rw [OnDemandAdapter.source_eq_none hnone] at hsource
    cases hsource
  have hwindow : adapter.window query [m] = [m] := by
    unfold OnDemandAdapter.window
    split
    · rw [List.filter_cons, if_pos hitem, List.filter_nil, List.take_of_length_le (by simp)]
    · rfl
  rw [OnDemandAdapter.fetchEvidence_eq, hwindow] at h
  unfold fetchWith at h
  rw [List.filterMap_cons, hsource] at h
  dsimp only at h
  rw [List.filterMap_nil, readMessages] at h
  cases hread : readMessage a.text raw with
  | error message =>
      rw [hread] at h
      cases h
  | ok evidence =>
      refine ⟨evidence, rfl, ?_⟩
      rw [hread] at h
      have hmessages : filterMessages [evidence] query = [] := by
        injection h with h
        exact congrArg VerificationEvidence.messages h
      rw [← admits_eq hrecipient hread]
      exact filterMessages_singleton hmessages

/-- **The deletion is without effect exactly where the mails never matter.** -/
theorem fetchEvidence_isolated_iff (hrecipient : query.recipient = some a.text)
    {S : Set ListedMessage} :
    (∀ inbox, AllAmong S inbox →
      adapter.fetchEvidence a.text query (adapter.withoutForeign a inbox) =
        adapter.fetchEvidence a.text query inbox) ↔ adapter.NeverMatters a query S := by
  constructor
  · intro h
    have hempty : adapter.fetchEvidence a.text query [] = .ok adapter.nothing :=
      fetchEvidence_all_rejected hrecipient nofun
    have hrejected : ∀ m ∈ S, adapter.foreign a m = true → adapter.Rejected a query m := by
      intro m hm hforeign
      apply rejected_of_singleton hrecipient
      have hdelete : adapter.withoutForeign a [m] = [] := by
        unfold OnDemandAdapter.withoutForeign
        rw [List.filter_cons, hforeign]
        rfl
      rw [← h [m] (by simpa [AllAmong] using hm), hdelete]
      exact hempty
    refine ⟨hrejected, ?_⟩
    rintro hcut ⟨f, hf, hforeign⟩ m hm
    by_cases hmforeign : adapter.foreign a m = true
    · exact hrejected m hm hmforeign
    -- the window is filled with mails to others, so that the message falls out of it
    apply rejected_of_singleton hrecipient
    let room := max query.maxMessages 1
    have hamong : AllAmong S (List.replicate room f ++ [m]) := by
      intro x hx
      rcases List.mem_append.mp hx with hx | hx
      · rw [List.eq_of_mem_replicate hx]
        exact hf
      · rw [List.mem_singleton.mp hx]
        exact hm
    have hdelete : adapter.withoutForeign a (List.replicate room f ++ [m]) = [m] := by
      unfold OnDemandAdapter.withoutForeign
      rw [List.filter_append, List.filter_replicate, hforeign, List.filter_cons,
        Bool.eq_false_iff.mpr hmforeign]
      rfl
    have hwindow : adapter.window query (List.replicate room f ++ [m]) =
        List.replicate room f := by
      rw [hcut]
      unfold OnDemandAdapter.window
      dsimp only
      rw [List.filter_append, List.filter_replicate, if_pos (isSome_of_foreign hforeign),
        List.take_append_of_le_length (by simp [room]), List.take_of_length_le (by simp [room])]
    have hfull : adapter.fetchEvidence a.text query (List.replicate room f ++ [m]) =
        .ok adapter.nothing := by
      apply fetchEvidence_window_rejected hrecipient
      rw [hwindow]
      intro x hx
      rw [List.eq_of_mem_replicate hx]
      exact hrejected f hf hforeign
    rw [← hdelete, h _ hamong]
    exact hfull
  · intro h inbox hinbox
    exact fetchEvidence_withoutForeign hrecipient h hinbox

end

/-! ## Polls -/

section

variable [Platform]

/-- A poll for the address that its mailbox was allocated, as the endpoint asks
for it where the caller names no recipient. -/
def OnDemandAdapter.poll (adapter : OnDemandAdapter) (a : OnDemandAddress)
    (principal : ClientPrincipal) (leaseId mailboxId : String)
    (options : VerificationCodeLookupOptions) : PollRequest where
  principal := principal
  leaseId := leaseId
  mailbox := { id := mailboxId, providerType := adapter.providerType, primaryEmail := a.text }
  options := { options with recipient := some a.text, requireRecipientMatch := true }

@[simp] theorem poll_providerType (adapter : OnDemandAdapter) (a : OnDemandAddress)
    (principal : ClientPrincipal) (leaseId mailboxId : String)
    (options : VerificationCodeLookupOptions) :
    (adapter.poll a principal leaseId mailboxId options).providerType =
      adapter.providerType := by
  cases adapter <;> rfl

/-! ### The age limit stays -/

theorem sinceAt_nextChannel (s : PollState) (channels : List MailReadChannel) :
    (s.nextChannel channels).sinceAt = s.sinceAt := by
  cases channels <;> rfl

theorem sinceAt_callFailed (s : PollState) (message : String) :
    (s.callFailed message).sinceAt = s.sinceAt := by
  unfold PollState.callFailed
  split <;> rfl

theorem sinceAt_finish (request : PollRequest) (s : PollState) :
    (s.finish request).sinceAt = s.sinceAt := by
  unfold PollState.finish
  split <;> rfl

theorem sinceAt_checkpoint (request : PollRequest) (s : PollState) :
    (s.checkpoint request).sinceAt = s.sinceAt := by
  unfold PollState.checkpoint
  split
  · split
    · rfl
    · dsimp only
      split
      · exact sinceAt_nextChannel _ _
      · rfl
  · split <;> rfl
  · rfl

theorem sinceAt_start (request : PollRequest) (w : PollWorld) :
    (request.start w).sinceAt = request.options.since w.now := by
  unfold PollRequest.start
  dsimp only
  split
  · rfl
  · split <;> rfl

variable [CodeSearch]

theorem sinceAt_scan (request : PollRequest) (s : PollState) (others : List MailReadChannel)
    (messages : List InboxMessageCandidate) :
    (s.scan request others messages).sinceAt = s.sinceAt := by
  unfold PollState.scan
  dsimp only
  split
  · rfl
  · split
    · rfl
    · exact sinceAt_nextChannel _ _

variable [MailText]

/-- No step moves the moment before which messages are too old. -/
theorem sinceAt_step (request : PollRequest) (s : PollState) (e : PollEvent) :
    (pollStep request s e).sinceAt = s.sinceAt := by
  cases e with
  | world w => rfl
  | checkpoint => exact sinceAt_checkpoint request s
  | token answer =>
      simp only [pollStep, PollState.tokenAnswered, PollState.channelFailed]
      split
      · rfl
      · rfl
      · exact sinceAt_nextChannel _ _
      · exact sinceAt_nextChannel _ _
      · rfl
  | messages answer =>
      simp only [pollStep, PollState.messagesAnswered, PollState.channelFailed]
      split
      · exact sinceAt_scan request s _ _
      · exact sinceAt_scan request s _ _
      · split
        · rfl
        · exact sinceAt_nextChannel _ _
      · exact sinceAt_nextChannel _ _
      · rfl
  | loadResource =>
      simp only [pollStep, PollState.loadResource]
      split
      · split <;> rfl
      · rfl
  | loadSettings =>
      simp only [pollStep, PollState.loadSettings]
      split
      · split <;> rfl
      · rfl
  | code answer =>
      simp only [pollStep, PollState.codeAnswered]
      split
      · exact sinceAt_callFailed _ _
      · split <;> rfl
      · rfl
  | inbox answer =>
      simp only [pollStep, PollState.inboxAnswered]
      split
      · split
        · exact sinceAt_callFailed _ _
        · split <;> rfl
      · rfl
  | compareClock =>
      simp only [pollStep, PollState.compareClock]
      split
      · split
        · exact sinceAt_finish request s
        · rfl
      · rfl
  | computeSleep =>
      simp only [pollStep, PollState.computeSleep]
      split
      · split
        · exact sinceAt_finish request s
        · rfl
      · rfl
  | wake =>
      simp only [pollStep, PollState.wake]
      split <;> rfl

/-! ### Isolation -/

/-- The event, with the mails to others deleted from a listing. -/
def PollEvent.withoutForeign (adapter : OnDemandAdapter) (a : OnDemandAddress) :
    PollEvent → PollEvent
  | .inbox answer => .inbox (answer.map (adapter.withoutForeign a))
  | e => e

def PollEvent.Among (S : Set ListedMessage) : PollEvent → Prop
  | .inbox (.ok listing) => AllAmong S listing
  | _ => True

variable {adapter : OnDemandAdapter} {a : OnDemandAddress} {principal : ClientPrincipal}
  {leaseId mailboxId : String} {options : VerificationCodeLookupOptions}

theorem pollStep_withoutForeign {S : Set ListedMessage} {sinceAt : ℤ}
    (h : adapter.NeverMatters a
      ((adapter.poll a principal leaseId mailboxId options).options.query sinceAt) S)
    {s : PollState} {e : PollEvent} (hsince : s.sinceAt = sinceAt) (he : e.Among S) :
    pollStep (adapter.poll a principal leaseId mailboxId options) s (e.withoutForeign adapter a) =
      pollStep (adapter.poll a principal leaseId mailboxId options) s e := by
  cases e with
  | inbox answer =>
      cases answer with
      | error message => rfl
      | ok listing =>
          have hfetch : ∀ listing : List ListedMessage,
              PollState.fetchEvidence (adapter.poll a principal leaseId mailboxId options) sinceAt
                (.ok listing) =
              adapter.fetchEvidence a.text
                ((adapter.poll a principal leaseId mailboxId options).options.query sinceAt)
                listing := by
            intro listing
            unfold PollState.fetchEvidence
            rw [poll_providerType, OnDemandAdapter.ofProviderType_providerType]
            rfl
          subst hsince
          show PollState.inboxAnswered _ s (.ok (adapter.withoutForeign a listing)) =
            PollState.inboxAnswered _ s (.ok listing)
          unfold PollState.inboxAnswered
          dsimp only
          rw [hfetch, hfetch, fetchEvidence_withoutForeign rfl h he]
  | _ => rfl

omit [MailText] [CodeSearch] in
theorem among_univ (e : PollEvent) : e.Among Set.univ := by
  cases e with
  | inbox answer =>
      cases answer with
      | error message => trivial
      | ok listing => exact fun message _ => Set.mem_univ message
  | _ => trivial

/-- **The mails of others have no influence**: neither on the evidence that the
adapter fetches from any listing of the given messages, nor on the code that any
run of the poll over such listings hands out. -/
def OnDemandAdapter.Isolated (adapter : OnDemandAdapter) (a : OnDemandAddress)
    (principal : ClientPrincipal) (leaseId mailboxId : String)
    (options : VerificationCodeLookupOptions) (w : PollWorld) (S : Set ListedMessage) : Prop :=
  let request := adapter.poll a principal leaseId mailboxId options
  let query := request.options.query (request.options.since w.now)
  (∀ inbox, AllAmong S inbox →
    adapter.fetchEvidence a.text query (adapter.withoutForeign a inbox) =
      adapter.fetchEvidence a.text query inbox) ∧
    ∀ events : List PollEvent, (∀ e ∈ events, e.Among S) →
      (exec (pollStep request) (request.start w)
        (events.map (PollEvent.withoutForeign adapter a))).disclosed =
      (exec (pollStep request) (request.start w) events).disclosed

/-- **Recipient isolation**: for every adapter, address and request, and
whatever messages may arrive, the mails to others have no influence exactly if
the filters of the request other than that on recipients reject all of them and
looking them up and reading them raises nothing, and if, where the adapter cuts the listing off,
they reject every message that may arrive along with one to others. -/
theorem isolated_iff (w : PollWorld) (S : Set ListedMessage) :
    adapter.Isolated a principal leaseId mailboxId options w S ↔
      adapter.NeverMatters a
        ((adapter.poll a principal leaseId mailboxId options).options.query
          (options.since w.now)) S := by
  constructor
  · rintro ⟨hevidence, -⟩
    exact (fetchEvidence_isolated_iff rfl).mp hevidence
  · intro h
    refine ⟨(fetchEvidence_isolated_iff rfl).mpr h, ?_⟩
    intro events hevents
    let request := adapter.poll a principal leaseId mailboxId options
    have hinv : ∀ (s : PollState) (e : PollEvent), s.sinceAt = options.since w.now →
        (pollStep request s e).sinceAt = options.since w.now :=
      fun s e hsince => (sinceAt_step request s e).trans hsince
    have hstart : (request.start w).sinceAt = options.since w.now := sinceAt_start request w
    exact congrArg PollState.disclosed
      (exec_map hinv (fun s e hsince he => pollStep_withoutForeign h hsince he) hstart hevents)

end

/-! ## A code for another address -/

section Sample

attribute [local instance] asciiPlatform plainMail digitCodes

def leasedAddress : OnDemandAddress where
  text := "a@x.org"
  normalized := by decide
  nonempty := by decide

/-- A round of a poll in which a code for another address arrives. -/
def strangersCode : List PollEvent :=
  [.checkpoint, .loadResource, .inbox (.ok [codeMessage "b@x.org"])]

def ddgPoll : PollRequest :=
  OnDemandAdapter.ddgMail.poll leasedAddress pollingClient "lease" "resource" {}

theorem disclosed_strangersCode :
    (exec (pollStep ddgPoll) (ddgPoll.start (pollingWorld true)) strangersCode).disclosed =
        some "482913" ∧
      (exec (pollStep ddgPoll) (ddgPoll.start (pollingWorld true))
        (strangersCode.map (PollEvent.withoutForeign .ddgMail leasedAddress))).disclosed =
        none := by
  decide +kernel

/-- **A code mailed to one address is handed to the lease of another.** -/
theorem strangers_code_handed_out :
    ¬ OnDemandAdapter.ddgMail.Isolated leasedAddress pollingClient "lease" "resource" {}
      (pollingWorld true) Set.univ := by
  rintro ⟨-, hcodes⟩
  have hsame := hcodes strangersCode fun e _ => among_univ e
  obtain ⟨hwith, hwithout⟩ := disclosed_strangersCode
  have hnone : some "482913" = none := hwith.symm.trans (hsame.symm.trans hwithout)
  cases hnone

end Sample

end MailboxService
