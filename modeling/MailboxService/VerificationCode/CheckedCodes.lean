import MailboxService.VerificationCode.ScanBudget

/-!
# Codes are handed out after a checkpoint

A call of a provider takes time, and what the caller may see can change in that
time. So a code should leave the service only if a checkpoint has succeeded
since the provider answered. The Microsoft loop and the SMSBower loop pass
through a checkpoint between an answer and the return. The on-demand loop
returns at once.
-/

namespace MailboxService

open Foundation

section

variable [Platform]

def PollState.disclosed (s : PollState) : Option String :=
  match s.phase with
  | .returned result => result.code
  | _ => none

/-- **A code is out only if a checkpoint has succeeded since the provider
answered**, with the caller authorized there. -/
def PollState.Cleared (request : PollRequest) (s : PollState) : Prop :=
  ∀ code, s.disclosed = some code →
    ∃ w, s.clearedIn = some w ∧ Authorized w request.principal request.leaseId

/-! ## Steps that hand out nothing -/

/-- A poll reads a resource, and lists messages, in the loops that do so. -/
structure PollState.InLoop (request : PollRequest) (s : PollState) : Prop where
  loading : s.phase = .loading → request.loop ≠ .microsoft
  listing : s.phase = .listing → request.loop = .onDemand

/-- The step does nothing, or leaves a poll that has handed out nothing. -/
def Quiet (request : PollRequest) (s s' : PollState) : Prop :=
  s' = s ∨ s'.disclosed = none ∧ s'.InLoop request

theorem quiet_nextChannel (request : PollRequest) (s t : PollState) (channels : List MailReadChannel) :
    Quiet request s (t.nextChannel channels) := by
  cases channels with
  | nil => exact Or.inr ⟨rfl, nofun, nofun⟩
  | cons channel others => exact Or.inr ⟨rfl, nofun, nofun⟩

theorem quiet_callFailed (request : PollRequest) (s t : PollState) (message : String) :
    Quiet request s (t.callFailed message) := by
  unfold PollState.callFailed
  split
  · exact Or.inr ⟨rfl, nofun, nofun⟩
  · exact Or.inr ⟨rfl, nofun, nofun⟩

theorem quiet_finish (request : PollRequest) (s : PollState) :
    Quiet request s (s.finish request) := by
  unfold PollState.finish
  split
  · exact Or.inr ⟨rfl, nofun, nofun⟩
  · exact Or.inr ⟨rfl, nofun, nofun⟩

theorem quiet_token (request : PollRequest) (s : PollState) (answer : Except String Unit) :
    Quiet request s (s.tokenAnswered answer) := by
  unfold PollState.tokenAnswered
  split
  · exact Or.inr ⟨rfl, nofun, nofun⟩
  · exact Or.inr ⟨rfl, nofun, nofun⟩
  · exact quiet_nextChannel request s _ _
  · exact quiet_nextChannel request s _ _
  · exact Or.inl rfl

theorem quiet_loadResource {request : PollRequest} {s : PollState} (h : s.InLoop request) :
    Quiet request s (s.loadResource request) := by
  unfold PollState.loadResource
  split
  · rename_i hphase
    dsimp only
    split
    · exact Or.inr ⟨rfl, nofun, nofun⟩
    · exact Or.inr ⟨rfl, nofun, nofun⟩
    · exact Or.inr ⟨rfl, nofun, nofun⟩
    · rename_i hsmsbower
      refine Or.inr ⟨rfl, nofun, fun _ => ?_⟩
      cases hloop : request.loop with
      | microsoft => exact absurd hloop (h.loading hphase)
      | smsbower => exact absurd hloop hsmsbower
      | onDemand => rfl
  · exact Or.inl rfl

theorem quiet_loadSettings (request : PollRequest) (s : PollState) :
    Quiet request s s.loadSettings := by
  unfold PollState.loadSettings
  split
  · dsimp only
    split <;> exact Or.inr ⟨rfl, nofun, nofun⟩
  · exact Or.inl rfl

theorem quiet_code (request : PollRequest) (s : PollState) (answer : Except String (Option String × Bool)) :
    Quiet request s (s.codeAnswered answer) := by
  unfold PollState.codeAnswered
  split
  · exact quiet_callFailed request s _ _
  · dsimp only
    split <;> exact Or.inr ⟨rfl, nofun, nofun⟩
  · exact Or.inl rfl

theorem quiet_compareClock (request : PollRequest) (s : PollState) :
    Quiet request s (s.compareClock request) := by
  unfold PollState.compareClock
  split
  · split
    · exact quiet_finish request s
    · exact Or.inr ⟨rfl, nofun, nofun⟩
  · exact Or.inl rfl

theorem quiet_computeSleep (request : PollRequest) (s : PollState) :
    Quiet request s (s.computeSleep request) := by
  unfold PollState.computeSleep
  split
  · dsimp only
    split
    · exact quiet_finish request s
    · exact Or.inr ⟨rfl, nofun, nofun⟩
  · exact Or.inl rfl

theorem quiet_wake (request : PollRequest) (s : PollState) : Quiet request s s.wake := by
  unfold PollState.wake
  split
  · exact Or.inr ⟨rfl, nofun, nofun⟩
  · exact Or.inl rfl

theorem cleared_of_silent {request : PollRequest} {s : PollState} (h : s.disclosed = none) :
    s.Cleared request := by
  intro code hcode
  rw [h] at hcode
  cases hcode

theorem inLoop_of_quiet {request : PollRequest} {s s' : PollState} (h : Quiet request s s')
    (hs : s.InLoop request) : s'.InLoop request := by
  rcases h with h | h
  · rw [h]
    exact hs
  · exact h.2

/-- A quiet step keeps every code accounted for. -/
theorem cleared_of_quiet {request : PollRequest} {s s' : PollState} (h : Quiet request s s')
    (hs : s.Cleared request) : s'.Cleared request := by
  rcases h with h | h
  · rw [h]
    exact hs
  · exact cleared_of_silent h.1

/-! ## Checkpoints -/

/-- **A checkpoint hands out nothing, or goes on record with the caller
authorized.** -/
theorem checkpoint_step (request : PollRequest) (s : PollState) :
    Quiet request s (s.checkpoint request) ∨
      (s.checkpoint request).clearedIn = some s.world ∧
        Authorized s.world request.principal request.leaseId := by
  unfold PollState.checkpoint
  split
  · split
    · exact Or.inl (Or.inr ⟨rfl, nofun, nofun⟩)
    · rename_i found hok
      refine Or.inr ⟨?_, revalidate_ok_iff.mp ⟨found, hok⟩⟩
      dsimp only
      split
      · cases request.channels <;> rfl
      · rfl
  · split
    · exact Or.inl (Or.inr ⟨rfl, nofun, nofun⟩)
    · rename_i found hok
      exact Or.inr ⟨rfl, revalidate_ok_iff.mp ⟨found, hok⟩⟩
  · exact Or.inl (Or.inl rfl)

theorem inLoop_checkpoint {request : PollRequest} {s : PollState} (hs : s.InLoop request) :
    (s.checkpoint request).InLoop request := by
  unfold PollState.checkpoint
  split
  · split
    · exact ⟨nofun, nofun⟩
    · dsimp only
      split
      · exact inLoop_of_quiet (quiet_nextChannel request s _ _) hs
      · rename_i hmicrosoft
        exact ⟨fun _ => hmicrosoft, nofun⟩
  · split
    · exact ⟨nofun, nofun⟩
    · exact ⟨nofun, nofun⟩
  · exact hs

theorem cleared_checkpoint {request : PollRequest} {s : PollState} (hs : s.Cleared request) :
    (s.checkpoint request).Cleared request := by
  rcases checkpoint_step request s with h | ⟨hcleared, hauthorized⟩
  · exact cleared_of_quiet h hs
  · exact fun _ _ => ⟨s.world, hcleared, hauthorized⟩

/-! ## The start -/

theorem start_phase (request : PollRequest) (w : PollWorld) :
    (request.start w).phase = .checking ∨ ∃ error, (request.start w).phase = .raised error := by
  unfold PollRequest.start
  dsimp only
  split
  · exact Or.inr ⟨_, rfl⟩
  · split
    · exact Or.inr ⟨_, rfl⟩
    · exact Or.inl rfl

theorem inLoop_start (request : PollRequest) (w : PollWorld) :
    (request.start w).InLoop request := by
  rcases start_phase request w with h | ⟨error, h⟩
  · exact ⟨by rw [h]; exact nofun, by rw [h]; exact nofun⟩
  · exact ⟨by rw [h]; exact nofun, by rw [h]; exact nofun⟩

theorem cleared_start (request : PollRequest) (w : PollWorld) :
    (request.start w).Cleared request := by
  apply cleared_of_silent
  unfold PollState.disclosed
  rcases start_phase request w with h | ⟨error, h⟩
  · rw [h]
  · rw [h]

variable [CodeSearch]

/-! ## Answers with messages -/

theorem quiet_scan (request : PollRequest) (s : PollState) (others : List MailReadChannel)
    (messages : List InboxMessageCandidate) : Quiet request s (s.scan request others messages) := by
  unfold PollState.scan
  dsimp only
  split
  · exact Or.inr ⟨rfl, nofun, nofun⟩
  · split
    · exact Or.inr ⟨rfl, nofun, nofun⟩
    · exact quiet_nextChannel request s _ others

theorem quiet_messages (request : PollRequest) (s : PollState)
    (answer : Except MailAccessFailure (List InboxMessageCandidate)) :
    Quiet request s (s.messagesAnswered request answer) := by
  unfold PollState.messagesAnswered
  split
  · exact quiet_scan request s _ _
  · exact quiet_scan request s _ _
  · split
    · exact Or.inr ⟨rfl, nofun, nofun⟩
    · exact quiet_nextChannel request s _ _
  · exact quiet_nextChannel request s _ _
  · exact Or.inl rfl

theorem takeCode_code {request : PollRequest} {attempts : ℕ} {evidence : VerificationEvidence}
    {result : VerificationCodeLookupResult}
    (h : PollState.takeCode request attempts evidence = some result) :
    ∃ code, result.code = some code := by
  unfold PollState.takeCode at h
  split at h
  · cases h
    exact ⟨_, rfl⟩
  · obtain ⟨message, -, hmessage⟩ := List.exists_of_findSome?_eq_some h
    obtain ⟨code, -, rfl⟩ := Option.map_eq_some_iff.mp hmessage
    exact ⟨code, rfl⟩

variable [MailText]

/-- The step brings an on-demand poll no listing that holds a code. -/
def BringsNoCode (request : PollRequest) (s : PollState) : PollEvent → Prop
  | .inbox answer =>
      request.loop = .onDemand → s.phase = .listing →
        ∀ evidence, PollState.fetchEvidence request s.sinceAt answer = .ok evidence →
          PollState.takeCode request s.attempts evidence = none
  | _ => True

/-- **An on-demand poll that takes a code hands it out unchecked.** -/
theorem cleared_inbox {request : PollRequest} {s : PollState} (hloop : s.InLoop request)
    (hs : s.Cleared request) (answer : Except String (List ListedMessage)) :
    (s.inboxAnswered request answer).Cleared request ↔
      BringsNoCode request s (.inbox answer) := by
  unfold PollState.inboxAnswered BringsNoCode
  split
  · rename_i hphase
    dsimp only
    cases hfetch : PollState.fetchEvidence request s.sinceAt answer with
    | error message =>
        refine iff_of_true (cleared_of_quiet (quiet_callFailed request s _ message) hs) ?_
        rintro - - evidence ⟨⟩
    | ok evidence =>
        dsimp only
        cases htake : PollState.takeCode request s.attempts evidence with
        | none =>
            refine iff_of_true (cleared_of_silent rfl) ?_
            rintro - - _ ⟨⟩
            exact htake
        | some result =>
            obtain ⟨code, hcode⟩ := takeCode_code htake
            refine iff_of_false ?_ ?_
            · intro hcleared
              obtain ⟨w, hw, -⟩ := hcleared code hcode
              cases hw
            · intro hnone
              rw [hnone (hloop.listing hphase) hphase evidence rfl] at htake
              cases htake
  · rename_i hphase
    refine iff_of_true hs ?_
    intro _ h
    exact absurd h hphase

theorem inLoop_inbox {request : PollRequest} {s : PollState} (hs : s.InLoop request)
    (answer : Except String (List ListedMessage)) :
    (s.inboxAnswered request answer).InLoop request := by
  unfold PollState.inboxAnswered
  split
  · dsimp only
    split
    · exact inLoop_of_quiet (quiet_callFailed request s _ _) hs
    · split <;> exact ⟨nofun, nofun⟩
  · exact hs

/-! ## Runs -/

/-- The steps that are neither a checkpoint nor a listing hand out nothing. -/
theorem quiet_step {request : PollRequest} {s : PollState} (hs : s.InLoop request)
    {e : PollEvent} (hworld : ∀ w, e ≠ .world w) (hcheckpoint : e ≠ .checkpoint)
    (hinbox : ∀ answer, e ≠ .inbox answer) : Quiet request s (pollStep request s e) := by
  cases e with
  | world w => exact absurd rfl (hworld w)
  | checkpoint => exact absurd rfl hcheckpoint
  | inbox answer => exact absurd rfl (hinbox answer)
  | token answer => exact quiet_token request s answer
  | messages answer => exact quiet_messages request s answer
  | loadResource => exact quiet_loadResource hs
  | loadSettings => exact quiet_loadSettings request s
  | code answer => exact quiet_code request s answer
  | compareClock => exact quiet_compareClock request s
  | computeSleep => exact quiet_computeSleep request s
  | wake => exact quiet_wake request s

theorem inLoop_step {request : PollRequest} {s : PollState} (hs : s.InLoop request)
    (e : PollEvent) : (pollStep request s e).InLoop request := by
  cases e with
  | world w => exact ⟨hs.loading, hs.listing⟩
  | checkpoint => exact inLoop_checkpoint hs
  | inbox answer => exact inLoop_inbox hs answer
  | _ => exact inLoop_of_quiet (quiet_step hs nofun nofun nofun) hs

/-- **Step lemma**: every code stays accounted for, unless a listing brings an
on-demand poll a code. -/
theorem cleared_step {request : PollRequest} {s : PollState} (hloop : s.InLoop request)
    (hs : s.Cleared request) (e : PollEvent) :
    (pollStep request s e).Cleared request ↔ BringsNoCode request s e := by
  cases e with
  | world w => exact iff_of_true hs trivial
  | checkpoint => exact iff_of_true (cleared_checkpoint hs) trivial
  | inbox answer => exact cleared_inbox hloop hs answer
  | _ => exact iff_of_true (cleared_of_quiet (quiet_step hloop nofun nofun nofun) hs) trivial

/-- **Authorization before disclosure**: whatever happens to the key, the lease
and the mailbox in the course of a poll, the poll hands out only codes that a
checkpoint was passed for after they had been fetched, exactly if it is not an
on-demand poll to which a listing brings a code. -/
theorem codesCleared_iff (request : PollRequest) (w : PollWorld) (events : List PollEvent) :
    Throughout (pollStep request) (PollState.Cleared request) (request.start w) events ↔
      Meets (pollStep request) (BringsNoCode request) (request.start w) events :=
  meets_iff_throughout (fun _ e h => inLoop_step h e) (fun _ e hloop h => cleared_step hloop h e)
    (inLoop_start request w) (cleared_start request w)

end

/-! ## A key that is disabled while the messages are fetched -/

section Sample

attribute [local instance] asciiPlatform

@[reducible] def plainMail : MailText where
  repr _ := ""
  htmlToVisibleText := id
  sanitizeMailText := id
  parseReceivedAt _ := .ok none

attribute [local instance] plainMail digitCodes

def pollingClient : ClientPrincipal where
  clientKeyId := "key"
  name := "client"
  scopes := [verificationCodeScope]

/-- A lease on a resource of `ddg_mail`, held by the client. -/
def onDemandDatabase : Database where
  leases :=
    ⟨[{ id := "lease", mailboxId := none, providerResourceId := some "resource"
        clientKeyId := some "key", allocatedEmail := some "a@x.org", mode := .mailRead
        providerType := "ddg_mail", expiresAt := 600000000 }],
      List.pairwise_singleton _ _⟩
  providerResources :=
    ⟨[{ id := "resource", providerType := "ddg_mail", providerInstanceId := "default"
        externalResourceId := "a@x.org", primaryEmail := "a@x.org", lifecycleState := .claimed
        readiness := .ready }],
      List.pairwise_singleton _ _⟩

def pollingWorld (enabled : Bool) : PollWorld where
  db := onDemandDatabase
  clientKeys :=
    ⟨[{ id := "key", enabled := enabled, scopes := [verificationCodeScope] }],
      List.pairwise_singleton _ _⟩

def onDemandPoll : PollRequest where
  principal := pollingClient
  leaseId := "lease"
  mailbox := { id := "resource", providerType := "ddg_mail", primaryEmail := "a@x.org" }
  options := { recipient := some "a@x.org" }

def codeMessage (recipient : String) : ListedMessage where
  item := .obj [("to", .str recipient), ("subject", .str "Code"), ("text", .str "482913")]

/-- The run of a poll whose key is disabled while it waits for the listing. -/
def disabledWhileFetching : List PollEvent :=
  [.checkpoint, .loadResource, .world (pollingWorld false), .inbox (.ok [codeMessage "a@x.org"])]

theorem disclosed_disabledWhileFetching :
    let s := exec (pollStep onDemandPoll) (onDemandPoll.start (pollingWorld true))
      disabledWhileFetching
    s.disclosed = some "482913" ∧ s.clearedIn.isNone := by
  decide +kernel

/-- **A code is handed out to a key that has been disabled.** -/
theorem disabled_key_gets_code :
    ¬ Throughout (pollStep onDemandPoll) (PollState.Cleared onDemandPoll)
      (onDemandPoll.start (pollingWorld true)) disabledWhileFetching := by
  intro h
  obtain ⟨hdisclosed, hcleared⟩ := disclosed_disabledWhileFetching
  obtain ⟨w, hw, -⟩ := h.last _ hdisclosed
  rw [hw] at hcleared
  cases hcleared

end Sample

end MailboxService
