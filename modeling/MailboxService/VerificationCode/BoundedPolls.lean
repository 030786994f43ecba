import MailboxService.VerificationCode.FreshCheckpoints
import Mathlib.Algebra.Order.Floor.Div

/-!
# Polls of a mailbox are bounded

The loop of the Microsoft mailboxes, as moves from one phase to the next. A
clock that advances by each requested sleep bounds its rounds, a round has a
bounded number of moves, and the budget of the request bounds the bytes that its
scans read.
-/

namespace MailboxService

open Foundation

section

variable [Platform] [CodeSearch] [MailText]

/-! ## Moves -/

def ScanCompletes (s : PollState) (e : PollEvent) : Prop :=
  ∃ messages channel others, e = .messages (.ok messages) ∧
    (s.phase = .reading .listMessages channel others ∨
      s.phase = .reading .listAgain channel others)

/-- How far a read of a channel is from its end. -/
def ReadStage.left : ReadStage → ℕ
  | .acquireToken => 4
  | .listMessages => 3
  | .refreshToken => 2
  | .listAgain => 1

def PollState.startRound (s : PollState) : PollState :=
  { s with clearedIn := some s.world, attempts := s.attempts + 1 }

inductive MailboxMove (request : PollRequest) (s : PollState) : PollEvent → PollState → Prop where
  | world (w : PollWorld) : MailboxMove request s (.world w) { s with world := w }
  | stays {e : PollEvent} (silent : ¬ ScanCompletes s e) : MailboxMove request s e s
  | denied {error : VerificationAuthorizationError} (open_ : ¬ s.phase.Ended) :
      MailboxMove request s .checkpoint (s.inPhase (.raised (.authorization error)))
  | startsRound (checking : s.phase = .checking) :
      MailboxMove request s .checkpoint
        (s.startRound.nextChannel request.channels)
  | confirms {result : VerificationCodeLookupResult} (found : s.phase = .found result) :
      MailboxMove request s .checkpoint
        ({ s with clearedIn := some s.world }.inPhase (.returned result))
  | readsOn {e : PollEvent} {stage next : ReadStage} {channel : MailReadChannel}
      {others : List MailReadChannel} (reading : s.phase = .reading stage channel others)
      (silent : ¬ ScanCompletes s e) (further : next.left < stage.left) :
      MailboxMove request s e (s.inPhase (.reading next channel others))
  | fails {e : PollEvent} {stage : ReadStage} {channel : MailReadChannel}
      {others : List MailReadChannel} (reading : s.phase = .reading stage channel others)
      (silent : ¬ ScanCompletes s e) (summary : String) :
      MailboxMove request s e (s.channelFailed summary others)
  | scans {stage : ReadStage} {channel : MailReadChannel} {others : List MailReadChannel}
      (reading : s.phase = .reading stage channel others)
      (lists : stage = .listMessages ∨ stage = .listAgain)
      (messages : List InboxMessageCandidate) :
      MailboxMove request s (.messages (.ok messages)) (s.scan request others messages)
  | timesOut (scanned : s.phase = .scanned) (late : s.world.now ≥ s.deadline) :
      MailboxMove request s .compareClock (s.finish request)
  | pauses (scanned : s.phase = .scanned) (early : s.world.now < s.deadline) :
      MailboxMove request s .compareClock (s.inPhase .pausing)
  | stops (pausing : s.phase = .pausing) (late : s.world.now ≥ s.deadline) :
      MailboxMove request s .computeSleep (s.finish request)
  | sleeps (pausing : s.phase = .pausing) (early : s.world.now < s.deadline) :
      MailboxMove request s .computeSleep
        (s.inPhase (.sleeping (min (seconds (max request.options.pollIntervalSeconds 1).toNat)
          (s.deadline - s.world.now))))
  | wakes {microseconds : ℕ} (sleeping : s.phase = .sleeping microseconds) :
      MailboxMove request s .wake (s.inPhase .checking)

variable {request : PollRequest} {s t : PollState} {e : PollEvent}

omit [CodeSearch] [MailText] in
theorem not_scanCompletes (h : ∀ messages, e ≠ .messages (.ok messages)) :
    ¬ ScanCompletes s e := by
  rintro ⟨messages, -, -, he, -⟩
  exact h messages he

omit [MailText] in
theorem mailboxMove_checkpoint (hloop : request.loop = .microsoft) :
    MailboxMove request s .checkpoint (s.checkpoint request) := by
  unfold PollState.checkpoint
  split
  · rename_i hchecking
    split
    · exact .denied (by rw [hchecking]; exact id)
    · dsimp only
      rw [hloop]
      exact .startsRound hchecking
  · rename_i result hfound
    split
    · exact .denied (by rw [hfound]; exact id)
    · exact .confirms hfound
  · exact .stays (not_scanCompletes nofun)

omit [MailText] in
theorem mailboxMove_token (answer : Except String Unit) :
    MailboxMove request s (.token answer) (s.tokenAnswered answer) := by
  have hsilent : ¬ ScanCompletes s (.token answer) := not_scanCompletes nofun
  unfold PollState.tokenAnswered
  split
  · rename_i hphase
    exact .readsOn hphase hsilent (by decide)
  · rename_i hphase
    exact .readsOn hphase hsilent (by decide)
  · rename_i hphase
    exact .fails hphase hsilent _
  · rename_i hphase
    exact .fails hphase hsilent _
  · exact .stays hsilent

omit [MailText] in
theorem mailboxMove_messages
    (answer : Except MailAccessFailure (List InboxMessageCandidate)) :
    MailboxMove request s (.messages answer) (s.messagesAnswered request answer) := by
  cases answer with
  | ok messages =>
      unfold PollState.messagesAnswered
      split
      · rename_i hphase heq
        cases heq
        exact .scans hphase (Or.inl rfl) _
      · rename_i hphase heq
        cases heq
        exact .scans hphase (Or.inr rfl) _
      · rename_i heq
        cases heq
      · rename_i heq
        cases heq
      · rename_i hlist hagain _ _
        refine .stays ?_
        rintro ⟨messages', channel, others, he, hphase | hphase⟩
        · exact hlist _ _ _ hphase rfl
        · exact hagain _ _ _ hphase rfl
  | error failure =>
      have hsilent : ¬ ScanCompletes s (.messages (.error failure)) :=
        not_scanCompletes fun _ h => by cases h
      unfold PollState.messagesAnswered
      split
      · rename_i heq
        cases heq
      · rename_i heq
        cases heq
      · rename_i hphase heq
        split
        · exact .readsOn hphase hsilent (by decide)
        · exact .fails hphase hsilent _
      · rename_i hphase heq
        exact .fails hphase hsilent _
      · exact .stays hsilent

omit [MailText] in
theorem mailboxMove_computeSleep :
    MailboxMove request s .computeSleep (s.computeSleep request) := by
  unfold PollState.computeSleep
  split
  · rename_i hpausing
    dsimp only
    have hinterval : 0 < seconds (max request.options.pollIntervalSeconds 1).toNat := by
      unfold seconds
      omega
    split
    · rename_i hzero
      exact .stops hpausing (by omega)
    · rename_i hpositive
      exact .sleeps hpausing (by omega)
  · exact .stays (not_scanCompletes nofun)

/-- **What a step does to a poll of a Microsoft mailbox.** -/
theorem mailboxMove_step (hloop : request.loop = .microsoft) (h : s.phase.Belongs .microsoft)
    (e : PollEvent) : MailboxMove request s e (pollStep request s e) := by
  have hstays : ∀ e, (∀ messages, e ≠ .messages (.ok messages)) → MailboxMove request s e s :=
    fun e he => .stays (not_scanCompletes he)
  cases e with
  | world w => exact .world w
  | checkpoint => exact mailboxMove_checkpoint hloop
  | token answer => exact mailboxMove_token answer
  | messages answer => exact mailboxMove_messages answer
  | loadResource =>
      show MailboxMove request s .loadResource (s.loadResource request)
      unfold PollState.loadResource
      split
      · rename_i hphase
        rw [hphase] at h
        exact absurd rfl h
      · exact hstays _ fun _ he => by cases he
  | loadSettings =>
      show MailboxMove request s .loadSettings s.loadSettings
      unfold PollState.loadSettings
      split
      · rename_i hphase
        rw [hphase] at h
        cases h
      · exact hstays _ fun _ he => by cases he
  | code answer =>
      show MailboxMove request s (.code answer) (s.codeAnswered answer)
      unfold PollState.codeAnswered
      split
      · rename_i hphase
        rw [hphase] at h
        cases h
      · rename_i hphase
        rw [hphase] at h
        cases h
      · exact hstays _ fun _ he => by cases he
  | inbox answer =>
      show MailboxMove request s (.inbox answer) (s.inboxAnswered request answer)
      unfold PollState.inboxAnswered
      split
      · rename_i hphase
        rw [hphase] at h
        cases h
      · exact hstays _ fun _ he => by cases he
  | compareClock =>
      show MailboxMove request s .compareClock (s.compareClock request)
      unfold PollState.compareClock
      split
      · rename_i hphase
        split
        · rename_i hlate
          exact .timesOut hphase hlate
        · rename_i hearly
          exact .pauses hphase (by omega)
      · exact hstays _ fun _ he => by cases he
  | computeSleep => exact mailboxMove_computeSleep
  | wake =>
      show MailboxMove request s .wake s.wake
      unfold PollState.wake
      split
      · rename_i hphase
        exact .wakes hphase
      · exact hstays _ fun _ he => by cases he

/-! ## The phases that a move leads to -/

def PollPhase.InRound : PollPhase → Prop
  | .reading _ _ _ => True
  | .found _ => True
  | .scanned => True
  | _ => False

/-- Between two states a poll has counted no attempt, and it is as late. -/
structure SameRound (s t : PollState) : Prop where
  attempts : t.attempts = s.attempts
  world : t.world = s.world
  deadline : t.deadline = s.deadline

inductive AfterChannel (others : List MailReadChannel) : PollPhase → Prop where
  | found (result : VerificationCodeLookupResult) : AfterChannel others (.found result)
  | returned (result : VerificationCodeLookupResult) : AfterChannel others (.returned result)
  | scanned : AfterChannel others .scanned
  | next (channel : MailReadChannel) (rest : List MailReadChannel)
      (split : others = channel :: rest) :
      AfterChannel others (.reading .acquireToken channel rest)

omit [CodeSearch] [MailText] in
theorem afterChannel_nextChannel (t : PollState) (others : List MailReadChannel) :
    AfterChannel others (t.nextChannel others).phase ∧ SameRound t (t.nextChannel others) := by
  cases others with
  | nil => exact ⟨.scanned, rfl, rfl, rfl⟩
  | cons channel rest => exact ⟨.next channel rest rfl, rfl, rfl, rfl⟩

omit [MailText] in
theorem afterChannel_scan (request : PollRequest) (s : PollState)
    (others : List MailReadChannel) (messages : List InboxMessageCandidate) :
    AfterChannel others (s.scan request others messages).phase ∧
      SameRound s (s.scan request others messages) := by
  unfold PollState.scan
  dsimp only
  split
  · exact ⟨.found _, rfl, rfl, rfl⟩
  · split
    · exact ⟨.returned _, rfl, rfl, rfl⟩
    · obtain ⟨hphase, hattempts, hworld, hdeadline⟩ := afterChannel_nextChannel
        { s with
          clearedIn := none
          anyScanSucceeded := true
          requestBodyBytesConsumed := s.requestBodyBytesConsumed +
            (findCodeInMessages messages request.options request.customMatcher
              request.recipientFilter (maxRequestBodyBytes - s.requestBodyBytesConsumed)).2.1 }
        others
      exact ⟨hphase, hattempts, hworld, hdeadline⟩

omit [CodeSearch] [MailText] in
theorem finish_ended (request : PollRequest) (s : PollState) :
    (s.finish request).phase.Ended ∧ SameRound s (s.finish request) := by
  unfold PollState.finish
  split
  · exact ⟨trivial, rfl, rfl, rfl⟩
  · exact ⟨trivial, rfl, rfl, rfl⟩

/-! ## The clock -/

/-- A poll, and the moment its last sleep was computed in. -/
structure TimedPoll where
  poll : PollState
  sleptFrom : ℕ := 0

def timedStep (request : PollRequest) (t : TimedPoll) (e : PollEvent) : TimedPoll where
  poll := pollStep request t.poll e
  sleptFrom := if t.poll.phase = .pausing then t.poll.world.now else t.sleptFrom

/-- The clock does not go back, and a sleep takes as long as was asked for. -/
def KeepsTime (t : TimedPoll) : PollEvent → Prop
  | .world w => t.poll.world.now ≤ w.now
  | .wake => ∀ microseconds, t.poll.phase = .sleeping microseconds →
      t.sleptFrom + microseconds ≤ t.poll.world.now
  | _ => True

/-- `max(poll_interval_seconds, 1)`. -/
def VerificationCodeLookupOptions.interval (options : VerificationCodeLookupOptions) : ℕ :=
  (max options.pollIntervalSeconds 1).toNat

def VerificationCodeLookupOptions.rounds (options : VerificationCodeLookupOptions) : ℕ :=
  options.timeoutSeconds.toNat ⌈/⌉ options.interval

/-- The rounds that a poll was in are as many as the time allows: after each of
them, an interval has gone by, or the deadline has. -/
def InTime (request : PollRequest) (start : ℕ) (t : TimedPoll) : PollPhase → Prop
  | .checking => t.poll.attempts ≤ request.options.rounds ∧
      min t.poll.deadline (start + t.poll.attempts * seconds request.options.interval) ≤
        t.poll.world.now
  | .pausing => t.poll.attempts ≤ request.options.rounds ∧
      min (t.poll.deadline + seconds request.options.interval)
          (start + t.poll.attempts * seconds request.options.interval) ≤
        t.poll.world.now + seconds request.options.interval
  | .sleeping microseconds => t.poll.attempts ≤ request.options.rounds ∧
      min t.poll.deadline (start + t.poll.attempts * seconds request.options.interval) ≤
        t.sleptFrom + microseconds
  | .returned _ => t.poll.attempts ≤ request.options.rounds + 1
  | .raised _ => t.poll.attempts ≤ request.options.rounds + 1
  | _ => t.poll.attempts ≤ request.options.rounds + 1 ∧
      min (t.poll.deadline + seconds request.options.interval)
          (start + t.poll.attempts * seconds request.options.interval) ≤
        t.poll.world.now + seconds request.options.interval

/-- A poll of a Microsoft mailbox that started at a moment, on time. -/
structure OnTime (request : PollRequest) (start : ℕ) (t : TimedPoll) : Prop where
  belongs : t.poll.phase.Belongs .microsoft
  deadline : t.poll.deadline = start + seconds request.options.timeoutSeconds.toNat
  channels : ∀ stage channel others, t.poll.phase = .reading stage channel others →
    others.length ≤ 1
  inTime : InTime request start t t.poll.phase

omit [CodeSearch] [MailText] in
theorem attempts_le {request : PollRequest} {start : ℕ} {t : TimedPoll} {phase : PollPhase}
    (h : InTime request start t phase) : t.poll.attempts ≤ request.options.rounds + 1 := by
  cases phase with
  | checking => exact h.1.trans (Nat.le_succ _)
  | pausing => exact h.1.trans (Nat.le_succ _)
  | sleeping microseconds => exact h.1.trans (Nat.le_succ _)
  | returned result => exact h
  | raised error => exact h
  | _ => exact h.1

omit [Platform] [CodeSearch] [MailText] in
theorem interval_pos (options : VerificationCodeLookupOptions) : 0 < options.interval := by
  unfold VerificationCodeLookupOptions.interval
  omega

omit [Platform] [CodeSearch] [MailText] in
/-- A round that ends before the deadline is one of those there is time for. -/
theorem attempts_le_rounds {options : VerificationCodeLookupOptions} {start attempts now : ℕ}
    (hnow : now < start + seconds options.timeoutSeconds.toNat)
    (h : min (start + seconds options.timeoutSeconds.toNat + seconds options.interval)
      (start + attempts * seconds options.interval) ≤ now + seconds options.interval) :
    attempts ≤ options.rounds := by
  have hpos := interval_pos options
  unfold VerificationCodeLookupOptions.rounds
  rw [Nat.ceilDiv_eq_add_pred_div, Nat.le_div_iff_mul_le hpos]
  have hmul : attempts * seconds options.interval = seconds (attempts * options.interval) := by
    unfold seconds
    rw [Nat.mul_assoc]
  rw [hmul] at h
  unfold seconds at h hnow
  omega

section

variable {start : ℕ} {t' : TimedPoll}

omit [CodeSearch] [MailText] in
/-- Within a round, a poll that counts no attempt stays in time as the clock goes
on. -/
theorem inTime_of_sameRound {t : TimedPoll} {phase phase' : PollPhase}
    (hphase : phase.InRound) (hphase' : phase'.InRound ∨ phase'.Ended)
    (hround : SameRound t.poll t'.poll) (h : InTime request start t phase) :
    InTime request start t' phase' := by
  have hin : t.poll.attempts ≤ request.options.rounds + 1 ∧
      min (t.poll.deadline + seconds request.options.interval)
          (start + t.poll.attempts * seconds request.options.interval) ≤
        t.poll.world.now + seconds request.options.interval := by
    cases phase with
    | reading stage channel others => exact h
    | found result => exact h
    | scanned => exact h
    | _ => exact absurd hphase id
  rw [← hround.attempts, ← hround.world, ← hround.deadline] at hin
  rcases hphase' with hphase' | hphase'
  · cases phase' with
    | reading stage channel others => exact hin
    | found result => exact hin
    | scanned => exact hin
    | _ => exact absurd hphase' id
  · cases phase' with
    | returned result => exact hin.1
    | raised error => exact hin.1
    | _ => exact absurd hphase' id

omit [CodeSearch] [MailText] in
theorem inTime_of_ended {t : TimedPoll} {phase : PollPhase} (hended : phase.Ended)
    (h : t.poll.attempts ≤ request.options.rounds + 1) : InTime request start t phase := by
  cases phase with
  | returned result => exact h
  | raised error => exact h
  | _ => exact absurd hended id

omit [CodeSearch] [MailText] in
theorem inTime_of_later {t : TimedPoll} {phase : PollPhase}
    (hattempts : t'.poll.attempts = t.poll.attempts)
    (hdeadline : t'.poll.deadline = t.poll.deadline)
    (hnow : t.poll.world.now ≤ t'.poll.world.now)
    (hslept : phase = .pausing ∨ t'.sleptFrom = t.sleptFrom)
    (h : InTime request start t phase) : InTime request start t' phase := by
  cases phase with
  | checking =>
      refine ⟨hattempts ▸ h.1, ?_⟩
      rw [hattempts, hdeadline]
      exact h.2.trans hnow
  | sleeping microseconds =>
      refine ⟨hattempts ▸ h.1, ?_⟩
      rw [hattempts, hdeadline, hslept.resolve_left nofun]
      exact h.2
  | returned result => exact hattempts.le.trans h
  | raised error => exact hattempts.le.trans h
  | _ =>
      refine ⟨hattempts ▸ h.1, ?_⟩
      rw [hattempts, hdeadline]
      exact h.2.trans (Nat.add_le_add_right hnow _)

end

omit [Platform] [CodeSearch] [MailText] in
theorem AfterChannel.cases {others : List MailReadChannel} {phase : PollPhase}
    (h : AfterChannel others phase) :
    (phase.InRound ∨ phase.Ended) ∧
      ∀ stage channel rest, phase = .reading stage channel rest → rest.length < others.length := by
  cases h with
  | found result => exact ⟨Or.inl trivial, nofun⟩
  | returned result => exact ⟨Or.inr trivial, nofun⟩
  | scanned => exact ⟨Or.inl trivial, nofun⟩
  | next channel rest hsplit =>
      refine ⟨Or.inl trivial, ?_⟩
      rintro stage channel' rest' ⟨⟩
      rw [hsplit, List.length_cons]
      exact Nat.lt_succ_self _

/-- **A poll stays on time** as long as the clock does. -/
theorem onTime_step {request : PollRequest} (hloop : request.loop = .microsoft) {start : ℕ}
    {t : TimedPoll} {e : PollEvent} (h : OnTime request start t) (htime : KeepsTime t e) :
    OnTime request start (timedStep request t e) := by
  have hmove := mailboxMove_step hloop h.belongs e
  have hbelongs : (pollStep request t.poll e).phase.Belongs .microsoft := by
    have := belongs_exec (hloop ▸ h.belongs : t.poll.phase.Belongs request.loop) [e]
    rw [hloop] at this
    exact this
  have hin := h.inTime
  have hslept : t.poll.phase = .pausing ∨ (timedStep request t e).sleptFrom = t.sleptFrom := by
    by_cases hpausing : t.poll.phase = .pausing
    · exact Or.inl hpausing
    · exact Or.inr (if_neg hpausing)
  suffices hsuffices : (pollStep request t.poll e).deadline = t.poll.deadline ∧
      (∀ stage channel others, (pollStep request t.poll e).phase = .reading stage channel others →
        others.length ≤ 1) ∧
      InTime request start (timedStep request t e) (pollStep request t.poll e).phase from
    ⟨hbelongs, hsuffices.1.trans h.deadline, hsuffices.2.1, hsuffices.2.2⟩
  -- a sleep lasts an interval, or to the deadline if that is sooner
  have hinterval : t.poll.phase = .pausing → t.poll.world.now < t.poll.deadline →
      t.poll.attempts ≤ request.options.rounds ∧
      min t.poll.deadline (start + t.poll.attempts * seconds request.options.interval) ≤
        t.poll.world.now + min (seconds request.options.interval)
          (t.poll.deadline - t.poll.world.now) := by
    intro hpausing hearly
    rw [hpausing] at hin
    refine ⟨hin.1, ?_⟩
    have hbound := hin.2
    omega
  have hsleptFrom : t.poll.phase = .pausing →
      (timedStep request t e).sleptFrom = t.poll.world.now := fun hpausing => if_pos hpausing
  have hpoll : (timedStep request t e).poll = pollStep request t.poll e := rfl
  generalize timedStep request t e = t' at hslept hsleptFrom hpoll ⊢
  obtain ⟨u, slept⟩ := t'
  obtain rfl : u = pollStep request t.poll e := hpoll
  generalize pollStep request t.poll e = u at hmove hslept hsleptFrom ⊢
  cases hmove with
  | world w => exact ⟨rfl, h.channels, inTime_of_later (t := t) rfl rfl htime hslept hin⟩
  | stays _ =>
      exact ⟨rfl, h.channels, inTime_of_later (t := t) rfl rfl (Nat.le_refl _) hslept hin⟩
  | denied _ =>
      have hattempts := attempts_le hin
      exact ⟨rfl, nofun, hattempts⟩
  | startsRound hchecking =>
      obtain ⟨hafter, hround⟩ := afterChannel_nextChannel t.poll.startRound request.channels
      rw [hchecking] at hin
      have hround' : InTime request start ⟨t.poll.startRound, slept⟩ .scanned := by
        refine ⟨Nat.add_le_add_right hin.1 1, ?_⟩
        have hbound := hin.2
        show min (t.poll.deadline + _) (start + (t.poll.attempts + 1) * _) ≤
          t.poll.world.now + _
        rw [Nat.add_mul, Nat.one_mul]
        omega
      refine ⟨hround.deadline, ?_, inTime_of_sameRound ?_ hafter.cases.1 hround hround'⟩
      swap
      · trivial
      intro stage channel others hphase
      have hfewer := hafter.cases.2 stage channel others hphase
      have htwo : request.channels.length ≤ 2 := by
        unfold PollRequest.channels
        split <;> decide
      omega
  | confirms hfound =>
      rw [hfound] at hin
      exact ⟨rfl, nofun, hin.1⟩
  | readsOn hreading _ _ =>
      refine ⟨rfl, ?_, ?_⟩
      · rintro stage channel others hphase
        cases hphase
        exact h.channels _ _ _ hreading
      · rw [hreading] at hin
        exact hin
  | fails hreading _ summary =>
      obtain ⟨hafter, hround⟩ := afterChannel_nextChannel
        { t.poll with lastError := some summary } _
      refine ⟨hround.deadline, ?_, ?_⟩
      · intro stage channel others hphase
        exact (hafter.cases.2 stage channel others hphase).le.trans (h.channels _ _ _ hreading)
      · rw [hreading] at hin
        have hround : SameRound t.poll (t.poll.channelFailed summary _) :=
          ⟨hround.attempts, hround.world, hround.deadline⟩
        refine inTime_of_sameRound ?_ hafter.cases.1 hround hin
        trivial
  | scans hreading _ messages =>
      obtain ⟨hafter, hround⟩ := afterChannel_scan request t.poll _ messages
      refine ⟨hround.deadline, ?_, ?_⟩
      · intro stage channel others hphase
        exact (hafter.cases.2 stage channel others hphase).le.trans (h.channels _ _ _ hreading)
      · rw [hreading] at hin
        refine inTime_of_sameRound ?_ hafter.cases.1 hround hin
        trivial
  | timesOut _ _ =>
      obtain ⟨hended, hround⟩ := finish_ended request t.poll
      refine ⟨hround.deadline, ?_, inTime_of_ended hended ?_⟩
      · intro stage channel others hphase
        rw [hphase] at hended
        exact absurd hended id
      · exact hround.attempts.le.trans (attempts_le hin)
  -- before the deadline there is time for one more round
  | pauses hscanned hearly =>
      rw [hscanned] at hin
      refine ⟨rfl, nofun, ?_, hin.2⟩
      exact attempts_le_rounds (h.deadline ▸ hearly) (h.deadline ▸ hin.2)
  | stops _ _ =>
      obtain ⟨hended, hround⟩ := finish_ended request t.poll
      refine ⟨hround.deadline, ?_, inTime_of_ended hended ?_⟩
      · intro stage channel others hphase
        rw [hphase] at hended
        exact absurd hended id
      · exact hround.attempts.le.trans (attempts_le hin)
  | sleeps hpausing hearly =>
      obtain ⟨hrounds, hbound⟩ := hinterval hpausing hearly
      refine ⟨rfl, nofun, hrounds, ?_⟩
      rw [hsleptFrom hpausing]
      exact hbound
  | wakes hsleeping =>
      rw [hsleeping] at hin
      exact ⟨rfl, nofun, hin.1, hin.2.trans (htime _ hsleeping)⟩

/-! ## Bytes -/

/-- The bytes of the bodies that the loop of a step goes through. -/
def PollState.bytesScanned (request : PollRequest) (s : PollState) : PollEvent → ℕ
  | .messages (.ok messages) =>
      match s.phase with
      | .reading .listMessages _ _ | .reading .listAgain _ _ =>
          (findCodeInMessages messages request.options request.customMatcher
            request.recipientFilter (maxRequestBodyBytes - s.requestBodyBytesConsumed)).2.1
      | _ => 0
  | _ => 0

/-- The bytes of the bodies that a run scans, in all its rounds and channels. -/
def totalBytesScanned (request : PollRequest) : PollState → List PollEvent → ℕ
  | _, [] => 0
  | s, e :: es => s.bytesScanned request e + totalBytesScanned request (pollStep request s e) es

omit [MailText] in
theorem bytesScanned_silent (h : ¬ ScanCompletes s e) : s.bytesScanned request e = 0 := by
  unfold PollState.bytesScanned
  split
  · rename_i messages
    split
    · rename_i hphase
      exact absurd ⟨messages, _, _, rfl, Or.inl hphase⟩ h
    · rename_i hphase
      exact absurd ⟨messages, _, _, rfl, Or.inr hphase⟩ h
    · rfl
  · rfl

omit [MailText] in
theorem bytesScanned_scan {stage : ReadStage} {channel : MailReadChannel}
    {others : List MailReadChannel} (hreading : s.phase = .reading stage channel others)
    (hlists : stage = .listMessages ∨ stage = .listAgain)
    (messages : List InboxMessageCandidate) :
    (s.scan request others messages).requestBodyBytesConsumed =
      s.requestBodyBytesConsumed + s.bytesScanned request (.messages (.ok messages)) := by
  have hconsumed : (s.scan request others messages).requestBodyBytesConsumed =
      s.requestBodyBytesConsumed + (findCodeInMessages messages request.options
        request.customMatcher request.recipientFilter
        (maxRequestBodyBytes - s.requestBodyBytesConsumed)).2.1 := by
    unfold PollState.scan
    dsimp only
    split
    · rfl
    · split
      · rfl
      · cases others with
        | nil => rfl
        | cons channel rest => rfl
  rw [hconsumed]
  unfold PollState.bytesScanned
  rcases hlists with rfl | rfl
  · rw [hreading]
  · rw [hreading]

omit [MailText] in
theorem bytesScanned_le (e : PollEvent) :
    s.bytesScanned request e ≤ maxRequestBodyBytes - s.requestBodyBytesConsumed := by
  have hwindow : ∀ messages : List InboxMessageCandidate,
      (findCodeInMessages messages request.options request.customMatcher request.recipientFilter
        (maxRequestBodyBytes - s.requestBodyBytesConsumed)).2.1 ≤
          maxRequestBodyBytes - s.requestBodyBytesConsumed := by
    intro messages
    obtain ⟨-, hwithin, -⟩ : IsLongestWithin InboxMessageCandidate.bodyBytes
        (min maxScanBodyBytes (maxRequestBodyBytes - s.requestBodyBytesConsumed)) messages _ :=
      isLongestWithin_affordable _ messages
    rw [findCodeInMessages_request]
    exact (totalSize_scannedMessages_le _).trans (hwithin.trans (Nat.min_le_right _ _))
  unfold PollState.bytesScanned
  split
  · split
    · exact hwindow _
    · exact hwindow _
    · exact Nat.zero_le _
  · exact Nat.zero_le _

omit [CodeSearch] [MailText] in
theorem finish_consumed (request : PollRequest) (s : PollState) :
    (s.finish request).requestBodyBytesConsumed = s.requestBodyBytesConsumed ∧
      (s.finish request).anyScanSucceeded = s.anyScanSucceeded := by
  unfold PollState.finish
  split
  · exact ⟨rfl, rfl⟩
  · exact ⟨rfl, rfl⟩

omit [CodeSearch] [MailText] in
theorem nextChannel_consumed (s : PollState) (channels : List MailReadChannel) :
    (s.nextChannel channels).requestBodyBytesConsumed = s.requestBodyBytesConsumed ∧
      (s.nextChannel channels).anyScanSucceeded = s.anyScanSucceeded := by
  cases channels with
  | nil => exact ⟨rfl, rfl⟩
  | cons channel rest => exact ⟨rfl, rfl⟩

omit [MailText] in
theorem consumed_step (hmove : MailboxMove request s e t) :
    t.requestBodyBytesConsumed = s.requestBodyBytesConsumed + s.bytesScanned request e := by
  cases hmove with
  | world w => rfl
  | stays hsilent => rw [bytesScanned_silent hsilent, Nat.add_zero]
  | denied _ => rfl
  | startsRound _ => exact (nextChannel_consumed _ _).1
  | confirms _ => rfl
  | readsOn _ hsilent _ =>
      rw [bytesScanned_silent hsilent, Nat.add_zero]
      rfl
  | fails _ hsilent summary =>
      rw [bytesScanned_silent hsilent, Nat.add_zero]
      exact (nextChannel_consumed _ _).1
  | scans hreading hlists messages => exact bytesScanned_scan hreading hlists messages
  | timesOut _ _ => exact (finish_consumed request s).1
  | pauses _ _ => rfl
  | stops _ _ => exact (finish_consumed request s).1
  | sleeps _ _ => rfl
  | wakes _ => rfl

def MailboxPoll (request : PollRequest) (s : PollState) : Prop :=
  request.loop = .microsoft ∧ s.phase.Belongs .microsoft

theorem mailboxPoll_step (h : MailboxPoll request s) (e : PollEvent) :
    MailboxPoll request (pollStep request s e) := by
  have hbelongs := belongs_exec (h.1 ▸ h.2 : s.phase.Belongs request.loop) [e]
  rw [h.1] at hbelongs
  exact ⟨h.1, hbelongs⟩

theorem totalBytesScanned_le (h : MailboxPoll request s)
    (hconsumed : s.requestBodyBytesConsumed ≤ maxRequestBodyBytes) (events : List PollEvent) :
    s.requestBodyBytesConsumed + totalBytesScanned request s events ≤ maxRequestBodyBytes := by
  induction events generalizing s with
  | nil => exact hconsumed
  | cons e es ih =>
      have hstep := consumed_step (mailboxMove_step h.1 h.2 e)
      have hbytes : s.bytesScanned request e ≤ maxRequestBodyBytes - s.requestBodyBytesConsumed :=
        bytesScanned_le e
      have hrest := ih (mailboxPoll_step h e) (by omega)
      rw [totalBytesScanned]
      omega

theorem consumed_exec (h : MailboxPoll request s) (events : List PollEvent) :
    (exec (pollStep request) s events).requestBodyBytesConsumed =
      s.requestBodyBytesConsumed + totalBytesScanned request s events := by
  induction events generalizing s with
  | nil => rfl
  | cons e es ih =>
      have hstep := consumed_step (mailboxMove_step h.1 h.2 e)
      have hrest := ih (mailboxPoll_step h e)
      rw [exec_cons, hrest, hstep, totalBytesScanned, Nat.add_assoc]

/-! ## Errors -/

/-- A scan was completed, and the poll has not raised an error of a read. -/
def HasScanned (s : PollState) : Prop :=
  s.anyScanSucceeded = true ∧ ∀ message, s.phase ≠ .raised (.read message)

omit [CodeSearch] [MailText] in
theorem finish_hasScanned (h : s.anyScanSucceeded = true) : HasScanned (s.finish request) := by
  refine ⟨(finish_consumed request s).2.trans h, ?_⟩
  unfold PollState.finish
  rw [h]
  split
  · rename_i hnone _
    cases hnone
  · exact fun _ hphase => by cases hphase

omit [CodeSearch] [MailText] in
theorem nextChannel_hasScanned (h : s.anyScanSucceeded = true) (channels : List MailReadChannel) :
    HasScanned (s.nextChannel channels) := by
  refine ⟨(nextChannel_consumed s channels).2.trans h, ?_⟩
  intro message hphase
  have hafter := (afterChannel_nextChannel s channels).1
  rw [hphase] at hafter
  cases hafter

omit [MailText] in
theorem scan_hasScanned (others : List MailReadChannel) (messages : List InboxMessageCandidate) :
    HasScanned (s.scan request others messages) := by
  refine ⟨?_, ?_⟩
  · unfold PollState.scan
    dsimp only
    split
    · rfl
    · split
      · rfl
      · exact (nextChannel_consumed _ others).2
  · intro message hphase
    have hafter := (afterChannel_scan request s others messages).1
    rw [hphase] at hafter
    cases hafter

omit [MailText] in
/-- **A completed scan is not forgotten.** -/
theorem hasScanned_step (hmove : MailboxMove request s e t)
    (h : HasScanned s ∨ ScanCompletes s e) : HasScanned t := by
  cases hmove with
  | world w => exact h.resolve_right (not_scanCompletes fun _ he => by cases he)
  | stays hsilent => exact h.resolve_right hsilent
  | denied _ =>
      have hscanned := h.resolve_right (not_scanCompletes fun _ he => by cases he)
      exact ⟨hscanned.1, fun _ hphase => by cases hphase⟩
  | startsRound _ =>
      have hscanned := h.resolve_right (not_scanCompletes fun _ he => by cases he)
      have hstarted : s.startRound.anyScanSucceeded = true := hscanned.1
      exact nextChannel_hasScanned hstarted _
  | confirms _ =>
      have hscanned := h.resolve_right (not_scanCompletes fun _ he => by cases he)
      exact ⟨hscanned.1, fun _ hphase => by cases hphase⟩
  | readsOn _ hsilent _ => exact ⟨(h.resolve_right hsilent).1, fun _ hphase => by cases hphase⟩
  | fails _ hsilent summary =>
      have hscanned : ({ s with lastError := some summary } : PollState).anyScanSucceeded = true :=
        (h.resolve_right hsilent).1
      exact nextChannel_hasScanned hscanned _
  | scans _ _ messages => exact scan_hasScanned _ messages
  | timesOut _ _ =>
      exact finish_hasScanned (h.resolve_right (not_scanCompletes fun _ he => by cases he)).1
  | pauses _ _ =>
      have hscanned := h.resolve_right (not_scanCompletes fun _ he => by cases he)
      exact ⟨hscanned.1, fun _ hphase => by cases hphase⟩
  | stops _ _ =>
      exact finish_hasScanned (h.resolve_right (not_scanCompletes fun _ he => by cases he)).1
  | sleeps _ _ =>
      have hscanned := h.resolve_right (not_scanCompletes fun _ he => by cases he)
      exact ⟨hscanned.1, fun _ hphase => by cases hphase⟩
  | wakes _ =>
      have hscanned := h.resolve_right (not_scanCompletes fun _ he => by cases he)
      exact ⟨hscanned.1, fun _ hphase => by cases hphase⟩

theorem hasScanned_exec (h : MailboxPoll request s) (hscanned : HasScanned s)
    (events : List PollEvent) : HasScanned (exec (pollStep request) s events) := by
  refine (exec_invariant (P := fun s => MailboxPoll request s ∧ HasScanned s) ?_ ⟨h, hscanned⟩
    events).2
  rintro s e ⟨h, hscanned⟩
  exact ⟨mailboxPoll_step h e, hasScanned_step (mailboxMove_step h.1 h.2 e) (Or.inl hscanned)⟩

/-- **An error of a read means that no scan was completed.** -/
theorem no_scan_of_readError (h : MailboxPoll request s) {events : List PollEvent}
    {message : String}
    (hraised : (exec (pollStep request) s events).phase = .raised (.read message)) :
    Meets (pollStep request) (fun s e => ¬ ScanCompletes s e) s events := by
  induction events generalizing s with
  | nil => trivial
  | cons e es ih =>
      refine ⟨?_, ih (mailboxPoll_step h e) hraised⟩
      intro hcompletes
      have hscanned := hasScanned_step (mailboxMove_step h.1 h.2 e) (Or.inr hcompletes)
      exact (hasScanned_exec (mailboxPoll_step h e) hscanned es).2 message hraised

/-! ## Moves of a round -/

/-- A bound on the moves that are left in a round. -/
def PollPhase.movesLeft : PollPhase → ℕ
  | .reading stage _ others => 5 + stage.left + 4 * others.length
  | .scanned => 5
  | .pausing => 4
  | .sleeping _ => 3
  | .checking => 2
  | .found _ => 1
  | _ => 0

def Moves (request : PollRequest) (s : PollState) (e : PollEvent) : Prop :=
  (pollStep request s e).phase ≠ s.phase

instance (request : PollRequest) (s : PollState) (e : PollEvent) :
    Decidable (Moves request s e) :=
  inferInstanceAs (Decidable (_ ≠ _))

/-- A bound on the moves that are left of a poll. -/
def TimedPoll.movesLeft (request : PollRequest) (t : TimedPoll) : ℕ :=
  12 * (request.options.rounds + 1 - t.poll.attempts) + t.poll.phase.movesLeft

omit [Platform] [CodeSearch] [MailText] in
theorem AfterChannel.movesLeft_lt {stage : ReadStage} {channel : MailReadChannel}
    {others : List MailReadChannel} {phase : PollPhase} (h : AfterChannel others phase) :
    phase.movesLeft < (PollPhase.reading stage channel others).movesLeft := by
  have hstage : 1 ≤ stage.left := by cases stage <;> decide
  cases h with
  | found result =>
      show 1 < 5 + stage.left + 4 * others.length
      omega
  | returned result =>
      show 0 < 5 + stage.left + 4 * others.length
      omega
  | scanned =>
      show 5 < 5 + stage.left + 4 * others.length
      omega
  | next channel' rest hsplit =>
      show 5 + 4 + 4 * rest.length < 5 + stage.left + 4 * others.length
      rw [hsplit, List.length_cons]
      omega

omit [Platform] [CodeSearch] [MailText] in
theorem movesLeft_of_ended {phase : PollPhase} (h : phase.Ended) : phase.movesLeft = 0 := by
  cases phase with
  | returned result => rfl
  | raised error => rfl
  | _ => exact absurd h id

omit [Platform] [CodeSearch] [MailText] in
theorem movesLeft_pos {phase : PollPhase} (h : phase.Belongs .microsoft) (hopen : ¬ phase.Ended) :
    0 < phase.movesLeft := by
  cases phase with
  | reading stage channel others =>
      show 0 < 5 + stage.left + 4 * others.length
      omega
  | loading => exact absurd rfl h
  | configuring => cases h
  | asking => cases h
  | listing => cases h
  | returned result => exact absurd trivial hopen
  | raised error => exact absurd trivial hopen
  | found result => exact Nat.one_pos
  | scanned => decide
  | pausing => decide
  | sleeping microseconds => exact Nat.succ_pos 2
  | checking => decide

/-- **A move leaves fewer of them.** -/
theorem movesLeft_step (hloop : request.loop = .microsoft) {start : ℕ} {t : TimedPoll}
    {e : PollEvent} (h : OnTime request start t) :
    (pollStep request t.poll e).phase = t.poll.phase ∧
        (pollStep request t.poll e).attempts = t.poll.attempts ∨
      (timedStep request t e).movesLeft request < t.movesLeft request := by
  have hmove := mailboxMove_step hloop h.belongs e
  have hin := h.inTime
  unfold TimedPoll.movesLeft
  show _ ∨ 12 * (request.options.rounds + 1 - (pollStep request t.poll e).attempts) +
    (pollStep request t.poll e).phase.movesLeft < _
  generalize pollStep request t.poll e = u at hmove ⊢
  -- within a round, fewer moves are left of the phase
  have hless : u.attempts = t.poll.attempts → u.phase.movesLeft < t.poll.phase.movesLeft →
      12 * (request.options.rounds + 1 - u.attempts) + u.phase.movesLeft <
        12 * (request.options.rounds + 1 - t.poll.attempts) + t.poll.phase.movesLeft := by
    intro hattempts hphase
    rw [hattempts]
    exact Nat.add_lt_add_left hphase _
  cases hmove with
  | world w => exact Or.inl ⟨rfl, rfl⟩
  | stays _ => exact Or.inl ⟨rfl, rfl⟩
  | denied hopen => exact Or.inr (hless rfl (movesLeft_pos h.belongs hopen))
  | startsRound hchecking =>
      obtain ⟨hafter, hround⟩ := afterChannel_nextChannel t.poll.startRound request.channels
      have hattempts := hround.attempts
      have htwo : request.channels.length ≤ 2 := by
        unfold PollRequest.channels
        split <;> decide
      have hphase : (t.poll.startRound.nextChannel request.channels).phase.movesLeft <
          (PollPhase.reading .listAgain .imap request.channels).movesLeft := hafter.movesLeft_lt
      have hleft : (PollPhase.reading .listAgain .imap request.channels).movesLeft =
          5 + 1 + 4 * request.channels.length := rfl
      have hchecking' : t.poll.phase.movesLeft = 2 := by
        rw [hchecking]
        rfl
      have hstarted : t.poll.startRound.attempts = t.poll.attempts + 1 := rfl
      rw [hchecking] at hin
      have hrounds := hin.1
      refine Or.inr ?_
      rw [hattempts, hchecking', hstarted]
      omega
  | confirms hfound =>
      refine Or.inr (hless rfl ?_)
      rw [hfound]
      exact Nat.one_pos
  | readsOn hreading _ hfurther =>
      refine Or.inr (hless rfl ?_)
      rw [hreading]
      exact Nat.add_lt_add_right (Nat.add_lt_add_left hfurther 5) _
  | fails hreading _ summary =>
      obtain ⟨hafter, hround⟩ := afterChannel_nextChannel
        { t.poll with lastError := some summary } _
      refine Or.inr (hless hround.attempts ?_)
      rw [hreading]
      exact hafter.movesLeft_lt
  | scans hreading _ messages =>
      obtain ⟨hafter, hround⟩ := afterChannel_scan request t.poll _ messages
      refine Or.inr (hless hround.attempts ?_)
      rw [hreading]
      exact hafter.movesLeft_lt
  | timesOut hscanned _ =>
      obtain ⟨hended, hround⟩ := finish_ended request t.poll
      refine Or.inr (hless hround.attempts ?_)
      rw [movesLeft_of_ended hended, hscanned]
      decide
  | pauses hscanned _ =>
      refine Or.inr (hless rfl ?_)
      rw [hscanned]
      exact Nat.lt_succ_self 4
  | stops hpausing _ =>
      obtain ⟨hended, hround⟩ := finish_ended request t.poll
      refine Or.inr (hless hround.attempts ?_)
      rw [movesLeft_of_ended hended, hpausing]
      decide
  | sleeps hpausing _ =>
      refine Or.inr (hless rfl ?_)
      rw [hpausing]
      exact Nat.lt_succ_self 3
  | wakes hsleeping =>
      refine Or.inr (hless rfl ?_)
      rw [hsleeping]
      exact Nat.lt_succ_self 2

omit [Platform] [CodeSearch] [MailText] in
theorem afterChannel_ne {others : List MailReadChannel} {phase phase' : PollPhase}
    (h : AfterChannel others phase)
    (hphase' : phase' = .checking ∨ ∃ channel rest, phase' = .reading .listAgain channel rest) :
    phase ≠ phase' := by
  rintro rfl
  rcases hphase' with rfl | ⟨channel, rest, rfl⟩
  · cases h
  · cases h

/-- **A poll that has not ended can move on.** -/
theorem exists_move (h : MailboxPoll request s) (hopen : ¬ s.phase.Ended) :
    ∃ e, Moves request s e := by
  obtain ⟨hloop, hbelongs⟩ := h
  cases hphase : s.phase with
  | checking =>
      refine ⟨.checkpoint, ?_⟩
      show (s.checkpoint request).phase ≠ s.phase
      unfold PollState.checkpoint
      rw [hphase]
      dsimp only
      split
      · exact nofun
      · rw [hloop]
        exact afterChannel_ne (afterChannel_nextChannel _ _).1 (Or.inl rfl)
  | reading stage channel others =>
      cases stage with
      | acquireToken =>
          refine ⟨.token (.ok ()), ?_⟩
          show (s.tokenAnswered (.ok ())).phase ≠ s.phase
          unfold PollState.tokenAnswered
          rw [hphase]
          exact nofun
      | listMessages =>
          -- a rejected token moves the poll on, whatever the list
          refine ⟨.messages (.error ⟨true, ""⟩), ?_⟩
          show (s.messagesAnswered request (.error ⟨true, ""⟩)).phase ≠ s.phase
          unfold PollState.messagesAnswered
          rw [hphase]
          exact nofun
      | refreshToken =>
          refine ⟨.token (.ok ()), ?_⟩
          show (s.tokenAnswered (.ok ())).phase ≠ s.phase
          unfold PollState.tokenAnswered
          rw [hphase]
          exact nofun
      | listAgain =>
          refine ⟨.messages (.error ⟨false, ""⟩), ?_⟩
          show (s.messagesAnswered request (.error ⟨false, ""⟩)).phase ≠ s.phase
          unfold PollState.messagesAnswered
          rw [hphase]
          exact afterChannel_ne (afterChannel_nextChannel _ _).1 (Or.inr ⟨_, _, rfl⟩)
  | found result =>
      refine ⟨.checkpoint, ?_⟩
      show (s.checkpoint request).phase ≠ s.phase
      unfold PollState.checkpoint
      rw [hphase]
      dsimp only
      split
      · exact nofun
      · exact nofun
  | scanned =>
      refine ⟨.compareClock, ?_⟩
      show (s.compareClock request).phase ≠ s.phase
      unfold PollState.compareClock
      rw [hphase]
      dsimp only
      split
      · intro heq
        have hended := (finish_ended request s).1
        rw [heq] at hended
        exact hended
      · exact nofun
  | pausing =>
      refine ⟨.computeSleep, ?_⟩
      show (s.computeSleep request).phase ≠ s.phase
      unfold PollState.computeSleep
      rw [hphase]
      dsimp only
      split
      · intro heq
        have hended := (finish_ended request s).1
        rw [heq] at hended
        exact hended
      · exact nofun
  | sleeping microseconds =>
      refine ⟨.wake, ?_⟩
      show s.wake.phase ≠ s.phase
      unfold PollState.wake
      rw [hphase]
      exact nofun
  | loading =>
      rw [hphase] at hbelongs
      exact absurd rfl hbelongs
  | configuring =>
      rw [hphase] at hbelongs
      cases hbelongs
  | asking =>
      rw [hphase] at hbelongs
      cases hbelongs
  | listing =>
      rw [hphase] at hbelongs
      cases hbelongs
  | returned result =>
      rw [hphase] at hopen
      exact absurd trivial hopen
  | raised error =>
      rw [hphase] at hopen
      exact absurd trivial hopen

/-! ## Bounds of a run -/

omit [CodeSearch] [MailText] in
theorem onTime_start (w : PollWorld) (slept : ℕ) :
    OnTime request w.now ⟨request.start w, slept⟩ := by
  have hpolling : (request.start w).deadline =
        w.now + seconds request.options.timeoutSeconds.toNat ∧
      (request.start w).attempts = 0 ∧ (request.start w).world = w := by
    unfold PollRequest.start
    dsimp only
    split
    · exact ⟨rfl, rfl, rfl⟩
    · split
      · exact ⟨rfl, rfl, rfl⟩
      · exact ⟨rfl, rfl, rfl⟩
  obtain ⟨hdeadline, hattempts, hworld⟩ := hpolling
  rcases start_phase request w with hphase | ⟨error, hphase⟩
  · refine ⟨?_, hdeadline, ?_, ?_⟩
    · rw [hphase]
      trivial
    · rw [hphase]
      exact nofun
    · rw [hphase]
      show (request.start w).attempts ≤ _ ∧ min (request.start w).deadline
        (w.now + (request.start w).attempts * _) ≤ (request.start w).world.now
      rw [hattempts, hworld, Nat.zero_mul, Nat.add_zero]
      exact ⟨Nat.zero_le _, Nat.min_le_right _ _⟩
  · refine ⟨?_, hdeadline, ?_, ?_⟩
    · rw [hphase]
      trivial
    · rw [hphase]
      exact nofun
    · rw [hphase]
      show (request.start w).attempts ≤ _
      rw [hattempts]
      exact Nat.zero_le _

omit [CodeSearch] [MailText] in
theorem consumed_start (w : PollWorld) : (request.start w).requestBodyBytesConsumed = 0 := by
  unfold PollRequest.start
  dsimp only
  split
  · rfl
  · split
    · rfl
    · rfl

theorem exec_timedStep (t : TimedPoll) (events : List PollEvent) :
    (exec (timedStep request) t events).poll = exec (pollStep request) t.poll events := by
  induction events generalizing t with
  | nil => rfl
  | cons e es ih => exact ih _

omit [CodeSearch] [MailText] in
theorem movesLeft_start (w : PollWorld) (slept : ℕ) :
    (TimedPoll.mk (request.start w) slept).movesLeft request ≤
      12 * (request.options.rounds + 1) + 2 := by
  have hphase : (request.start w).phase.movesLeft ≤ 2 := by
    rcases start_phase request w with hphase | ⟨error, hphase⟩
    · rw [hphase]
      exact Nat.le_refl 2
    · rw [hphase]
      exact Nat.zero_le 2
  unfold TimedPoll.movesLeft
  dsimp only
  omega

theorem movesLeft_add_le (hloop : request.loop = .microsoft) {start : ℕ} {t : TimedPoll}
    {e : PollEvent} (h : OnTime request start t) :
    (timedStep request t e).movesLeft request + (if Moves request t.poll e then 1 else 0) ≤
      t.movesLeft request := by
  rcases movesLeft_step hloop h with ⟨hphase, hattempts⟩ | hless
  · have hrests : ¬ Moves request t.poll e := fun hmoves => hmoves hphase
    have hleft : (timedStep request t e).movesLeft request = t.movesLeft request := by
      unfold TimedPoll.movesLeft timedStep
      dsimp only
      rw [hphase, hattempts]
    rw [if_neg hrests, hleft]
    exact Nat.le_refl _
  · by_cases hmoves : Moves request t.poll e
    · rw [if_pos hmoves]
      exact hless
    · rw [if_neg hmoves]
      exact hless.le

/-- **Polling is bounded**: with a clock that goes on by each requested sleep, a
poll of a Microsoft mailbox makes no more attempts than there is time for and
one, and takes a bounded number of steps; until it has ended it can take another.
Its scans read no more bytes than the limit of a request, and an error of a read
is raised only if no scan was completed. -/
theorem polling_bounded (hloop : request.loop = .microsoft) (w : PollWorld)
    {events : List PollEvent}
    (htime : Meets (timedStep request) KeepsTime ⟨request.start w, 0⟩ events) :
    let s := exec (pollStep request) (request.start w) events
    s.attempts ≤ request.options.timeoutSeconds.toNat ⌈/⌉
        (max request.options.pollIntervalSeconds 1).toNat + 1 ∧
      stepCount (timedStep request) (fun t e => Moves request t.poll e) ⟨request.start w, 0⟩
          events ≤ 12 * (request.options.rounds + 1) + 2 ∧
      (s.phase.Ended ∨ ∃ e, Moves request s e) ∧
      totalBytesScanned request (request.start w) events ≤ maxRequestBodyBytes ∧
      s.requestBodyBytesConsumed = totalBytesScanned request (request.start w) events ∧
      ∀ message, s.phase = .raised (.read message) →
        Meets (pollStep request) (fun s e => ¬ ScanCompletes s e) (request.start w) events := by
  have hstart : OnTime request w.now ⟨request.start w, 0⟩ := onTime_start w 0
  have hpoll : MailboxPoll request (request.start w) := ⟨hloop, hstart.belongs⟩
  have hend : OnTime request w.now (exec (timedStep request) ⟨request.start w, 0⟩ events) :=
    exec_invariant_of_meets (fun t e h htime => onTime_step hloop h htime) hstart htime
  have hexec : (exec (timedStep request) ⟨request.start w, 0⟩ events).poll =
      exec (pollStep request) (request.start w) events := exec_timedStep _ events
  have hattempts := attempts_le hend.inTime
  have hbelongs := hend.belongs
  rw [hexec] at hattempts hbelongs
  have hconsumed : (request.start w).requestBodyBytesConsumed = 0 := consumed_start w
  refine ⟨hattempts, ?_, ?_, ?_, ?_, fun message => no_scan_of_readError hpoll⟩
  · have hcount : stepCount (timedStep request) (fun t e => Moves request t.poll e)
        ⟨request.start w, 0⟩ events ≤ TimedPoll.movesLeft request ⟨request.start w, 0⟩ :=
      stepCount_le (TimedPoll.movesLeft request)
        (fun t e h htime => ⟨onTime_step hloop h htime, movesLeft_add_le hloop h⟩) hstart htime
    exact hcount.trans (movesLeft_start w 0)
  · by_cases hended : (exec (pollStep request) (request.start w) events).phase.Ended
    · exact Or.inl hended
    · exact Or.inr (exists_move ⟨hloop, hbelongs⟩ hended)
  · have hbytes := totalBytesScanned_le hpoll (by rw [hconsumed]; exact Nat.zero_le _) events
    rw [hconsumed, Nat.zero_add] at hbytes
    exact hbytes
  · have htotal := consumed_exec hpoll events
    rw [hconsumed, Nat.zero_add] at htotal
    exact htotal

end

section Sample

attribute [local instance] asciiPlatform plainMail digitCodes

def hastyPoll : PollRequest :=
  { microsoftPoll with
    options := { timeoutSeconds := 1, pollIntervalSeconds := 1, recipient := some "a@x.org" } }

def messageWithoutCode : InboxMessageCandidate where
  fromAddress := none
  subject := none
  bodyText := "hello"
  receivedAt := none
  channel := .graph
  recipientAddresses := {"a@x.org"}

def scannedRound : List PollEvent :=
  [.checkpoint, .token (.ok ()), .messages (.ok [messageWithoutCode]), .token (.error "timeout"),
    .compareClock, .computeSleep, .world { microsoftWorld with now := seconds 1 }]

theorem sleeping_scannedRound :
    (exec (timedStep hastyPoll) ⟨hastyPoll.start microsoftWorld, 0⟩ scannedRound).poll.phase =
      .sleeping (seconds 1) := by
  decide +kernel

/-- A poll that looks twice, and finds no code. -/
theorem polling_bounded_sample :
    let events := scannedRound ++ [.wake, .checkpoint, .token (.error "timeout"),
      .token (.error "timeout"), .compareClock]
    hastyPoll.loop = .microsoft ∧
      Meets (timedStep hastyPoll) KeepsTime ⟨hastyPoll.start microsoftWorld, 0⟩ events ∧
      stepCount (timedStep hastyPoll) (fun t e => Moves hastyPoll t.poll e)
        ⟨hastyPoll.start microsoftWorld, 0⟩ events ≤ 26 := by
  have htime : Meets (timedStep hastyPoll) KeepsTime ⟨hastyPoll.start microsoftWorld, 0⟩
      (scannedRound ++ [.wake, .checkpoint, .token (.error "timeout"),
        .token (.error "timeout"), .compareClock]) := by
    refine meets_append.mpr ⟨?_, ?_, trivial, trivial, trivial, trivial, trivial⟩
    · exact ⟨trivial, trivial, trivial, trivial, trivial, trivial, Nat.zero_le _, trivial⟩
    · intro microseconds hsleeping
      rw [sleeping_scannedRound] at hsleeping
      cases hsleeping
      decide +kernel
  exact ⟨rfl, htime, (polling_bounded rfl microsoftWorld htime).2.1⟩

end Sample

end MailboxService
