import MailboxService.Foundation.Guarded
import MailboxService.VerificationCode.CheckedCodes
import MailboxService.VerificationCode.PollSteps

/-!
# A checkpoint before every access to a mailbox

A poll passes a checkpoint at the start of each round. In the round it may read
two channels, and read each of them once more with a token that it has forced to
be refreshed. Here a poll keeps a log of what it does over the network, so that
one can ask what stands between a checkpoint and an access.
-/

namespace MailboxService

open Foundation

/-! ## What a poll does over the network -/

/-- A checkpoint that succeeds, or a call with the connections that it makes. -/
inductive PollOperation where
  | checkpoint
  | acquireToken (connections : ℕ)
  | refreshToken (channel : MailReadChannel) (connections : ℕ)
  | scan (channel : MailReadChannel) (connections : ℕ)
  deriving DecidableEq, Repr

namespace PollOperation

def connections : PollOperation → ℕ
  | .checkpoint => 0
  | .acquireToken n => n
  | .refreshToken _ n => n
  | .scan _ n => n

/-- The operation scans an inbox, or forces a refresh of its token. -/
def IsAccess : PollOperation → Prop
  | .refreshToken _ _ => True
  | .scan _ _ => True
  | _ => False

/-- **Every access follows a checkpoint** with no connection in between. -/
def Fresh (operations : List PollOperation) : Prop :=
  Guarded (· = .checkpoint) (·.connections ≠ 0) IsAccess operations

def Cleared (operations : List PollOperation) : Prop :=
  Shielded (· = .checkpoint) (·.connections ≠ 0) operations

end PollOperation

section

variable [Platform]

/-- The connections that a listing makes: messages and rejections are answers of
a server. -/
def listingConnections (answer : Except MailAccessFailure (List InboxMessageCandidate))
    (n : ℕ) : ℕ :=
  match answer with
  | .ok _ => n + 1
  | .error failure => if failure.authFailure then n + 1 else n

/-- What a step does over the network, with the number of its connections. -/
def PollState.operation (request : PollRequest) (s : PollState) (e : PollEvent) (n : ℕ) :
    Option PollOperation :=
  match s.phase, e with
  | .checking, .checkpoint =>
      match revalidateVerificationAuthorization s.world request.principal request.leaseId with
      | .ok _ => some .checkpoint
      | .error _ => none
  | .found _, .checkpoint =>
      match revalidateVerificationAuthorization s.world request.principal request.leaseId with
      | .ok _ => some .checkpoint
      | .error _ => none
  | .reading .acquireToken _ _, .token _ => some (.acquireToken n)
  | .reading .refreshToken channel _, .token _ => some (.refreshToken channel n)
  | .reading .listMessages channel _, .messages answer =>
      some (.scan channel (listingConnections answer n))
  | .reading .listAgain channel _, .messages answer =>
      some (.scan channel (listingConnections answer n))
  | _, _ => none

/-- A poll that keeps a log, and counts the connections of its round. -/
structure LoggedPoll where
  poll : PollState
  operations : List PollOperation := []
  roundConnections : ℕ := 0

namespace LoggedPoll

/-- The operation goes on the log. A checkpoint starts a round. -/
def record (s : LoggedPoll) : Option PollOperation → LoggedPoll
  | none => s
  | some op =>
      { s with
        operations := s.operations ++ [op]
        roundConnections :=
          if op = .checkpoint then 0 else s.roundConnections + op.connections }

def start (request : PollRequest) (w : PollWorld) : LoggedPoll where
  poll := request.start w

end LoggedPoll

/-- The step is no access, or is the first scan of a channel, with no connection
before it in its round. -/
def Undisturbed (request : PollRequest) (s : LoggedPoll) (e : PollEvent × ℕ) : Prop :=
  ∀ op ∈ s.poll.operation request e.1 e.2, op.IsAccess →
    ¬ s.poll.phase.Retries ∧ s.roundConnections = 0

variable [MailText] [CodeSearch]

def LoggedPoll.step (request : PollRequest) (s : LoggedPoll) (e : PollEvent × ℕ) : LoggedPoll :=
  { s with poll := pollStep request s.poll e.1 }.record (s.poll.operation request e.1 e.2)

/-! ## Operations -/

section

omit [MailText] [CodeSearch]

variable {request : PollRequest} {s : PollState} {e : PollEvent} {n : ℕ}

theorem reads_of_access {op : PollOperation} (hop : s.operation request e n = some op)
    (haccess : op.IsAccess) : s.phase.Reads := by
  unfold PollState.operation at hop
  split at hop
  · split at hop <;> cases hop
    exact absurd haccess id
  · split at hop <;> cases hop
    exact absurd haccess id
  · cases hop
    exact absurd haccess id
  · exact reads_of_reading ‹_›
  · exact reads_of_reading ‹_›
  · exact reads_of_reading ‹_›
  · cases hop

theorem operation_of_reads (hreads : s.phase.Reads) {op : PollOperation}
    (hop : s.operation request e n = some op) : op ≠ .checkpoint := by
  rintro rfl
  unfold PollState.operation at hop
  split at hop
  · rename_i hphase
    rw [hphase] at hreads
    exact hreads
  · rename_i hphase
    rw [hphase] at hreads
    exact hreads
  all_goals cases hop

theorem operation_of_startsRound (h : StartsRound request s e) :
    s.operation request e n = some .checkpoint := by
  obtain ⟨hphase, rfl, hauthorized⟩ := h
  obtain ⟨found, hok⟩ := revalidate_ok_iff.mpr hauthorized
  unfold PollState.operation
  rw [hphase]
  dsimp only
  rw [hok]

theorem operation_of_rejected (h : s.Rejected e) :
    ∃ channel, s.operation request e n = some (.scan channel (n + 1)) := by
  obtain ⟨channel, others, failure, hphase, rfl, hauth⟩ := h
  refine ⟨channel, ?_⟩
  unfold PollState.operation listingConnections
  rw [hphase]
  dsimp only
  rw [if_pos hauth]

end

/-! ## The invariant -/

/-- While a poll reads, its last checkpoint is fresh as long as its round has
made no connection. A channel is read once more only after one. -/
structure LoggedPoll.Tracked (s : LoggedPoll) : Prop where
  cleared : s.poll.phase.Reads →
    (PollOperation.Cleared s.operations ↔ s.roundConnections = 0)
  retried : s.poll.phase.Retries → s.roundConnections ≠ 0

section

omit [MailText] [CodeSearch]

variable {s : LoggedPoll} {op : PollOperation}

theorem poll_record (s : LoggedPoll) (op : Option PollOperation) :
    (s.record op).poll = s.poll := by
  cases op with
  | none => rfl
  | some op => rfl

theorem roundConnections_record (hop : op ≠ .checkpoint) :
    (s.record (some op)).roundConnections = s.roundConnections + op.connections :=
  if_neg hop

theorem cleared_record (h : PollOperation.Cleared s.operations ↔ s.roundConnections = 0) :
    PollOperation.Cleared (s.record (some op)).operations ↔
      (s.record (some op)).roundConnections = 0 := by
  unfold PollOperation.Cleared at h ⊢
  show Shielded _ _ (s.operations ++ [op]) ↔ _
  rw [shielded_append_singleton, h]
  by_cases hop : op = .checkpoint
  · exact iff_of_true (Or.inl hop) (if_pos hop)
  · rw [roundConnections_record hop, Nat.add_eq_zero_iff, not_not]
    exact or_iff_right hop

theorem cleared_record_checkpoint :
    PollOperation.Cleared (s.record (some .checkpoint)).operations ↔
      (s.record (some .checkpoint)).roundConnections = 0 := by
  have hcleared : PollOperation.Cleared (s.operations ++ [.checkpoint]) :=
    shielded_append_singleton.mpr (Or.inl rfl)
  exact iff_of_true hcleared rfl

end

section

variable {request : PollRequest}

theorem entersRead_step (s : PollState) (e : PollEvent) :
    EntersRead request s e (pollStep request s e).phase := by
  have hchange := phaseChange_step request s e
  generalize (pollStep request s e).phase = phase at hchange
  cases hchange with
  | stays => exact ⟨Or.inl, Or.inl⟩
  | goesOn _ _ _ henters => exact henters
  | fails => exact .elsewhere id
  | givesUp => exact .elsewhere id
  | scanFinds => exact .elsewhere id
  | codeArrives => exact .elsewhere id
  | inboxFinds => exact .elsewhere id
  | confirms => exact .elsewhere id

/-- **Step lemma**: a poll keeps track of its connections. -/
theorem tracked_step {s : LoggedPoll} (hs : s.Tracked) (e : PollEvent × ℕ) :
    (s.step request e).Tracked := by
  have henters : EntersRead request s.poll e.1 (pollStep request s.poll e.1).phase :=
    entersRead_step s.poll e.1
  constructor
  · intro hreads
    unfold LoggedPoll.step at hreads ⊢
    rw [poll_record] at hreads
    rcases henters.reads hreads with hreads | hstarts
    · -- the round goes on
      cases s.poll.operation request e.1 e.2 with
      | none => exact hs.cleared hreads
      | some op => exact cleared_record (s := { s with poll := _ }) (hs.cleared hreads)
    · rw [operation_of_startsRound hstarts]
      exact cleared_record_checkpoint
  · intro hretries
    unfold LoggedPoll.step at hretries ⊢
    rw [poll_record] at hretries
    rcases henters.retries hretries with hretries | hrejected
    · cases hop : s.poll.operation request e.1 e.2 with
      | none => exact hs.retried hretries
      | some op =>
          have hcheckpoint : op ≠ .checkpoint :=
            operation_of_reads (PollPhase.reads_of_retries hretries) hop
          rw [roundConnections_record hcheckpoint]
          have := hs.retried hretries
          show s.roundConnections + op.connections ≠ 0
          omega
    · obtain ⟨channel, hop⟩ : ∃ channel, s.poll.operation request e.1 e.2 =
          some (.scan channel (e.2 + 1)) := operation_of_rejected hrejected
      have hcheckpoint : PollOperation.scan channel (e.2 + 1) ≠ .checkpoint := by
        rintro ⟨⟩
      rw [hop, roundConnections_record hcheckpoint]
      show s.roundConnections + (e.2 + 1) ≠ 0
      omega

/-- **Step lemma**: the accesses stay fresh exactly if the step makes none that
is disturbed. -/
theorem fresh_step {s : LoggedPoll} (hs : s.Tracked)
    (hfresh : PollOperation.Fresh s.operations) (e : PollEvent × ℕ) :
    PollOperation.Fresh (s.step request e).operations ↔ Undisturbed request s e := by
  unfold LoggedPoll.step Undisturbed
  cases hop : s.poll.operation request e.1 e.2 with
  | none => exact iff_of_true hfresh nofun
  | some op =>
      have hnext : PollOperation.Fresh (s.operations ++ [op]) ↔
          (op.IsAccess → PollOperation.Cleared s.operations) :=
        guarded_append_singleton.trans (and_iff_right hfresh)
      have hcleared : op.IsAccess → (PollOperation.Cleared s.operations ↔
          ¬ s.poll.phase.Retries ∧ s.roundConnections = 0) := by
        intro haccess
        rw [hs.cleared (reads_of_access hop haccess), iff_and_self]
        exact fun hzero hretries => hs.retried hretries hzero
      refine hnext.trans ?_
      constructor
      · rintro h _ ⟨⟩ haccess
        exact (hcleared haccess).mp (h haccess)
      · intro h haccess
        exact (hcleared haccess).mpr (h op rfl haccess)

/-! ## Runs -/

omit [MailText] [CodeSearch] in
theorem tracked_start (request : PollRequest) (w : PollWorld) :
    (LoggedPoll.start request w).Tracked := by
  rcases start_phase request w with h | ⟨error, h⟩
  · constructor
    · intro hreads
      rw [LoggedPoll.start, h] at hreads
      exact absurd hreads id
    · intro hretries
      rw [LoggedPoll.start, h] at hretries
      exact absurd hretries id
  · constructor
    · intro hreads
      rw [LoggedPoll.start, h] at hreads
      exact absurd hreads id
    · intro hretries
      rw [LoggedPoll.start, h] at hretries
      exact absurd hretries id

/-- **A checkpoint before every access**: in a run of a poll every scan and every
forced refresh follows a checkpoint with no connection in between exactly if the
run forces no refresh, and each of its scans is the first connection of its
round. -/
theorem fresh_checkpoints_iff (request : PollRequest) (w : PollWorld)
    (events : List (PollEvent × ℕ)) :
    Throughout (LoggedPoll.step request) (fun s => PollOperation.Fresh s.operations)
        (LoggedPoll.start request w) events ↔
      Meets (LoggedPoll.step request) (Undisturbed request) (LoggedPoll.start request w)
        events :=
  meets_iff_throughout (fun _ e hs => tracked_step hs e)
    (fun _ e hs hfresh => fresh_step hs hfresh e) (tracked_start request w) guarded_nil

end

end

/-! ## A token that is rejected -/

section Sample

attribute [local instance] asciiPlatform plainMail digitCodes

def microsoftWorld : PollWorld where
  db :=
    { mailboxes := ⟨[{ id := "mailbox", primaryEmail := "a@x.org" }], List.pairwise_singleton _ _⟩
      leases :=
        ⟨[{ id := "lease", mailboxId := some "mailbox", providerResourceId := none
            clientKeyId := some "key", allocatedEmail := some "a@x.org", mode := .mailRead
            providerType := "microsoft", expiresAt := 600000000 }],
          List.pairwise_singleton _ _⟩ }
  clientKeys :=
    ⟨[{ id := "key", scopes := [verificationCodeScope] }], List.pairwise_singleton _ _⟩

def microsoftPoll : PollRequest where
  principal := pollingClient
  leaseId := "lease"
  mailbox := { id := "mailbox", primaryEmail := "a@x.org" }
  options := { recipient := some "a@x.org" }

/-- A cached token that the server rejects, and a forced refresh. -/
def rejectedToken : List (PollEvent × ℕ) :=
  [(.checkpoint, 0), (.token (.ok ()), 0), (.messages (.error ⟨true, "401"⟩), 0),
    (.token (.ok ()), 1)]

theorem operations_rejectedToken :
    (exec (LoggedPoll.step microsoftPoll) (LoggedPoll.start microsoftPoll microsoftWorld)
      rejectedToken).operations =
      [.checkpoint, .acquireToken 0, .scan .imap 1, .refreshToken .imap 1] := by
  decide +kernel

/-- **A token is refreshed without a checkpoint** after it has been rejected. -/
theorem refresh_without_checkpoint :
    ¬ Throughout (LoggedPoll.step microsoftPoll) (fun s => PollOperation.Fresh s.operations)
      (LoggedPoll.start microsoftPoll microsoftWorld) rejectedToken := by
  intro h
  have hfresh := h.last
  rw [operations_rejectedToken] at hfresh
  have hcleared : Shielded (· = .checkpoint) (·.connections ≠ 0)
      ([.checkpoint, .acquireToken 0] ++ [PollOperation.scan .imap 1]) :=
    hfresh [.checkpoint, .acquireToken 0, .scan .imap 1] (.refreshToken .imap 1) [] rfl trivial
  rcases shielded_append_singleton.mp hcleared with hopens | ⟨-, hspends⟩
  · cases hopens
  · exact hspends (Nat.succ_ne_zero 0)

end Sample

end MailboxService
