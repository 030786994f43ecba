import MailboxService.TokenService.AccessTokens

/-!
# Capability probes

`capability_probe_service.py`: a probe of one mailbox over IMAP and Graph, in the
order that its scope hints at, which stops at the first channel that works. A
Graph probe that is refused may exchange the refresh token for a token of the
Graph audience and try once more. What IMAP, Graph and the token endpoint answer
is an input.
-/

namespace MailboxService

/-! ## Outcomes -/

inductive ProbeOutcomeKind where
  | success
  | authFailed
  | transportFailed
  deriving DecidableEq, Repr

def ProbeOutcomeKind.value : ProbeOutcomeKind → String
  | .success => "success"
  | .authFailed => "auth_failed"
  | .transportFailed => "transport_failed"

def MailAccessChannel.value : MailAccessChannel → String
  | .imap => "imap"
  | .graph => "graph"

structure ChannelProbeOutcome where
  channel : MailAccessChannel
  kind : ProbeOutcomeKind
  errorSummary : Option String := none
  deriving DecidableEq, Repr

/-- `item.error_summary or fallback`. -/
def ChannelProbeOutcome.summary (item : ChannelProbeOutcome) (fallback : String) : String :=
  (orElseMissing item.errorSummary (some fallback)).getD ""

/-! ## One channel -/

/-- How an IMAP login ends that fails, with the text of its exception. -/
inductive ImapLoginFailure where
  | proxyTransport (message : String)
  | authOrProtocol (message : String)
  | transport (message : String)
  | unexpected (message : String)
  deriving DecidableEq, Repr

def probeImap : Except ImapLoginFailure Unit → ChannelProbeOutcome
  | .ok () => ⟨.imap, .success, none⟩
  | .error (.proxyTransport message) => ⟨.imap, .transportFailed, some message⟩
  | .error (.authOrProtocol message) => ⟨.imap, .authFailed, some message⟩
  | .error (.transport message) => ⟨.imap, .transportFailed, some message⟩
  | .error (.unexpected message) => ⟨.imap, .transportFailed, some message⟩

/-- What comes of one request for the messages: a response with its status, a
connection that fails without a proxy, or a failure on the way of the proxy. -/
inductive GraphAttempt where
  | responded (status : ℕ)
  | unreachable
  | proxyFailed (message : String)
  deriving DecidableEq, Repr

def probeOnce : GraphAttempt → Except String ChannelProbeOutcome
  | .responded status =>
      if status = 401 ∨ status = 403 then
        .ok ⟨.graph, .authFailed, some ("Graph 鉴权失败，HTTP " ++ toString status)⟩
      else if 400 ≤ status then
        .ok ⟨.graph, .authFailed, some ("Graph 探测失败，HTTP " ++ toString status)⟩
      else .ok ⟨.graph, .success, none⟩
  | .unreachable => .ok ⟨.graph, .transportFailed, some "无法连接 Microsoft Graph"⟩
  | .proxyFailed message => .error message

/-- The requests of one Graph probe: the second is sent if the first has failed
at the proxy that was selected. -/
structure GraphAttempts where
  selectedProxy : Bool := false
  first : GraphAttempt
  second : GraphAttempt := .unreachable
  deriving DecidableEq, Repr

def probeMessagesAccess (attempts : GraphAttempts) : ChannelProbeOutcome :=
  match probeOnce attempts.first with
  | .ok outcome => outcome
  | .error message =>
      if attempts.selectedProxy then
        match probeOnce attempts.second with
        | .ok outcome => outcome
        | .error retryMessage => ⟨.graph, .transportFailed, some retryMessage⟩
      else ⟨.graph, .transportFailed, some message⟩

/-! ## Graph with another audience -/

/-- How an exchange for the Graph audience fails without ending the probe. -/
inductive ReaudienceFailure where
  | oauth (summary : String)
  | transport (message : String)
  deriving DecidableEq, Repr

/-- What the remote services answer while a mailbox is probed. -/
structure ProbeAnswers where
  imap : Except ImapLoginFailure Unit
  graph : GraphAttempts
  reaudience : Except ReaudienceFailure MicrosoftTokenResponse
  graphAgain : GraphAttempts
  deriving DecidableEq, Repr

def TokenSettings.probeGraphWithOptionalReaudience (settings : TokenSettings) (m : Mailbox)
    (answers : ProbeAnswers) : ChannelProbeOutcome × Option MicrosoftTokenResponse :=
  let firstOutcome := probeMessagesAccess answers.graph
  if firstOutcome.kind ≠ .authFailed then (firstOutcome, none)
  else if !settings.canReaudience m then (firstOutcome, none)
  else
    match answers.reaudience with
    | .error (.oauth summary) =>
        (⟨.graph, .authFailed,
          some (firstOutcome.summary "auth_failed" ++ "；graph_reaudience:" ++ summary)⟩, none)
    | .error (.transport message) =>
        (⟨.graph, .transportFailed,
          some (firstOutcome.summary "auth_failed" ++ "；graph_reaudience:" ++ message)⟩, none)
    | .ok replacement =>
        let secondOutcome := probeMessagesAccess answers.graphAgain
        if secondOutcome.kind = .success then (secondOutcome, some replacement)
        else
          let again := "graph_reaudience:" ++ secondOutcome.summary secondOutcome.kind.value
          let combinedError :=
            if missing firstOutcome.errorSummary then again
            else firstOutcome.errorSummary.getD "" ++ "；" ++ again
          (⟨.graph, secondOutcome.kind, some combinedError⟩, none)

/-! ## The probe of a mailbox -/

def imapScopeMarkers : List String :=
  ["imap.accessasuser", "outlook.office.com", "outlook.office365.com",
    "https://outlook.office.com/"]

def graphScopeMarkers : List String :=
  ["graph.microsoft.com", "mail.read", "mail.readwrite", "mail.readbasic",
    "https://graph.microsoft.com/"]

/-- `infer_mail_access_channel_preference`: the preferred channel, and the
other one. -/
def TokenSettings.inferMailAccessChannelPreference (settings : TokenSettings)
    (scope : Option String) : MailAccessChannel × MailAccessChannel :=
  let hintsImap := settings.hints imapScopeMarkers scope
  let hintsGraph := settings.hints graphScopeMarkers scope
  if hintsImap && !hintsGraph then (.imap, .graph)
  else if hintsGraph && !hintsImap then (.graph, .imap)
  else (.imap, .graph)

def decideFailure (outcomes : List ChannelProbeOutcome) : MailboxCapability × String :=
  let authFailures := outcomes.filter (·.kind = .authFailed)
  let transportFailures := outcomes.filter (·.kind = .transportFailed)
  let joined := fun (part : ChannelProbeOutcome → String) items =>
    String.ofList (("；".intercalate (items.map part)).toList.take 500)
  let summaryPart := fun (item : ChannelProbeOutcome) =>
    item.channel.value ++ ":" ++ item.kind.value ++ ":" ++ item.summary "failed"
  if authFailures.length = outcomes.length ∧ outcomes ≠ [] then
    (.unusable, joined (fun item => item.channel.value ++ ":" ++ item.summary "auth_failed")
      authFailures)
  else if transportFailures ≠ [] ∧ authFailures = [] then
    (.unknown, joined (fun item => item.channel.value ++ ":" ++ item.summary "transport_failed")
      transportFailures)
  else if authFailures ≠ [] ∧ transportFailures ≠ [] then
    (.unknown, joined summaryPart outcomes)
  else (.unusable, joined summaryPart outcomes)

/-- The whole of `CapabilityProbeResult`. -/
structure MailboxProbe extends CapabilityProbeResult where
  preferredChannel : MailAccessChannel
  probeError : Option String
  outcomes : List ChannelProbeOutcome
  deriving DecidableEq, Repr

def MailAccessChannel.capability : MailAccessChannel → MailboxCapability
  | .imap => .imap
  | .graph => .graph

/-- The probe of one channel, with the replacement that it comes back with. -/
def TokenSettings.probeChannel (settings : TokenSettings) (m : Mailbox)
    (answers : ProbeAnswers) : MailAccessChannel →
      ChannelProbeOutcome × Option MicrosoftTokenResponse
  | .graph => settings.probeGraphWithOptionalReaudience m answers
  | .imap => (probeImap answers.imap, none)

/-- The loop of `probe_mailbox_capability`, with the outcomes and the replacement
so far. -/
def TokenSettings.probeChannels (settings : TokenSettings) (m : Mailbox)
    (answers : ProbeAnswers) (preferred : MailAccessChannel) :
    List MailAccessChannel → List ChannelProbeOutcome → Option MicrosoftTokenResponse →
      MailboxProbe
  | [], outcomes, replacement =>
      { capability := (decideFailure outcomes).1
        accessTokenReplacement := replacement
        preferredChannel := preferred
        probeError := some (decideFailure outcomes).2
        outcomes }
  | channel :: rest, outcomes, replacement =>
      let (outcome, found) := settings.probeChannel m answers channel
      if outcome.kind = .success then
        { capability := channel.capability
          accessTokenReplacement := found.or replacement
          preferredChannel := preferred
          probeError := none
          outcomes := outcomes ++ [outcome] }
      else
        settings.probeChannels m answers preferred rest (outcomes ++ [outcome])
          (found.or replacement)

def TokenSettings.probeMailboxCapability (settings : TokenSettings) (m : Mailbox)
    (answers : ProbeAnswers) : MailboxProbe :=
  let preference := settings.inferMailAccessChannelPreference m.scope
  settings.probeChannels m answers preference.1 [preference.1, preference.2] [] none

/-! ## The exchange of a probe -/

variable {settings : TokenSettings} {m : Mailbox} {answers : ProbeAnswers}

/-- The token that the token endpoint has issued to a Graph probe. -/
def TokenSettings.reaudienced (settings : TokenSettings) (m : Mailbox)
    (answers : ProbeAnswers) : Option MicrosoftTokenResponse :=
  if (probeMessagesAccess answers.graph).kind = .authFailed ∧ settings.canReaudience m then
    answers.reaudience.toOption
  else none

/-- The token that it has issued to a probe of the mailbox. Graph is not asked
when IMAP comes first and works. -/
def TokenSettings.issuedToProbe (settings : TokenSettings) (m : Mailbox)
    (answers : ProbeAnswers) : Option MicrosoftTokenResponse :=
  if (settings.inferMailAccessChannelPreference m.scope).1 = .imap ∧
      (probeImap answers.imap).kind = .success then none
  else settings.reaudienced m answers

/-- Without credentials, or with a scope for Graph, there is no exchange. -/
theorem issuedToProbe_of_not_canReaudience (h : settings.canReaudience m = false) :
    settings.issuedToProbe m answers = none := by
  unfold TokenSettings.issuedToProbe TokenSettings.reaudienced
  rw [h]
  simp only [Bool.false_eq_true, and_false, if_false, ite_self]

def ProbeAnswers.worksForGraph (answers : ProbeAnswers) : Bool :=
  (probeMessagesAccess answers.graphAgain).kind = .success

theorem probeGraph_replacement :
    (settings.probeGraphWithOptionalReaudience m answers).2 =
      (settings.reaudienced m answers).filter fun _ => answers.worksForGraph := by
  unfold TokenSettings.probeGraphWithOptionalReaudience TokenSettings.reaudienced
    ProbeAnswers.worksForGraph
  by_cases hfirst : (probeMessagesAccess answers.graph).kind = .authFailed
  · cases hcan : settings.canReaudience m with
    | false => simp [hfirst]
    | true =>
        cases hanswer : answers.reaudience with
        | error failure => cases failure <;> simp [hfirst, Except.toOption]
        | ok replacement =>
            by_cases hsecond : (probeMessagesAccess answers.graphAgain).kind = .success
            · simp [hfirst, hsecond, Except.toOption, Option.filter]
            · simp [hfirst, hsecond, Except.toOption]
  · simp [hfirst]

/-- **What a probe hands on**: the token that it was issued, if the token then
works for Graph. -/
theorem probe_replacement :
    (settings.probeMailboxCapability m answers).accessTokenReplacement =
      (settings.issuedToProbe m answers).filter fun _ => answers.worksForGraph := by
  have hgraph : (settings.probeGraphWithOptionalReaudience m answers).2 =
      (settings.reaudienced m answers).filter fun _ => answers.worksForGraph :=
    probeGraph_replacement
  unfold TokenSettings.probeMailboxCapability TokenSettings.issuedToProbe
  have horder : settings.inferMailAccessChannelPreference m.scope = (.imap, .graph) ∨
      settings.inferMailAccessChannelPreference m.scope = (.graph, .imap) := by
    unfold TokenSettings.inferMailAccessChannelPreference
    dsimp only
    split
    · exact Or.inl rfl
    · split
      · exact Or.inr rfl
      · exact Or.inl rfl
  rcases horder with horder | horder
  · rw [horder]
    by_cases himap : (probeImap answers.imap).kind = .success
    · simp [TokenSettings.probeChannels, TokenSettings.probeChannel, himap]
    · by_cases hkind :
        (settings.probeGraphWithOptionalReaudience m answers).1.kind = .success
      · simp [TokenSettings.probeChannels, TokenSettings.probeChannel, himap, hkind, hgraph]
      · simp [TokenSettings.probeChannels, TokenSettings.probeChannel, himap, hkind, hgraph]
  · rw [horder]
    by_cases hkind : (settings.probeGraphWithOptionalReaudience m answers).1.kind = .success
    · simp [TokenSettings.probeChannels, TokenSettings.probeChannel, hkind, hgraph]
    · by_cases himap : (probeImap answers.imap).kind = .success
      · simp [TokenSettings.probeChannels, TokenSettings.probeChannel, himap, hkind, hgraph]
      · simp [TokenSettings.probeChannels, TokenSettings.probeChannel, himap, hkind, hgraph]

end MailboxService
