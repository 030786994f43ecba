import MailboxService.Foundation.Turns
import MailboxService.TokenService.Keepalive
import MailboxService.TokenService.LockedEnsure
import MailboxService.TokenService.RotatedTokens

/-!
# Whose turn it is in the keepalive

`run_refresh_token_keepalive_batch` refreshes the mailboxes whose refresh token
expires soonest, and goes on with the next one where a refresh fails. A mailbox that
Microsoft has answered for is out of the way for a lifetime, or invalid for good. One
whose refresh fails before that is as urgent as it was, and is taken again.

`keepalive_reaches_iff` says when a mailbox that waits for the keepalive gets its turn.
-/

namespace MailboxService

open Foundation

section

variable [Platform]

/-! ## Batches -/

/-- The call that a batch makes for a mailbox. -/
def keepaliveRequest (mailboxId : String) : EnsureRequest where
  mailboxId := mailboxId
  forceRefresh := true
  skipActiveRtLeaseCheck := false

/-- One call of a batch, by what the remote services answer. -/
def keepaliveCall (settings : TokenSettings) (now : ℕ) (calls : String → List ServiceEvent)
    (db : Database) (mailboxId : String) : Database :=
  (exec (callStep settings (keepaliveRequest mailboxId)) (EnsureState.start db now)
    (calls mailboxId)).db

/-- Nobody else has a hand in the call; time may pass. -/
def CallUndisturbed (s : EnsureState) : ServiceEvent → Prop
  | .others db now => db = s.db ∧ s.now ≤ now
  | _ => True

/-- Microsoft answers the exchange, with tokens or with an invalid grant. -/
def answersExchange (s : EnsureState) : ServiceEvent → Bool
  | .exchange answer _ =>
      match s.phase.underWay, answer with
      | some (_, startedAt), .ok response =>
          response.storable startedAt true
      | some _, .error .invalidGrant => true
      | _, _ => false
  | _ => false

/-- In the course of a call Microsoft answers its exchange. -/
def answered (settings : TokenSettings) (request : EnsureRequest) :
    EnsureState → List ServiceEvent → Bool
  | _, [] => false
  | s, e :: events =>
      answersExchange s e || answered settings request (callStep settings request s e) events

/-- A batch, or what others make of the database in between. -/
inductive KeepaliveEvent where
  | batch (now : ℕ) (calls : String → List ServiceEvent)
  | others (db : Database)

/-- `run_refresh_token_keepalive_batch`. -/
def keepaliveStep (settings : TokenSettings) (leadDays batchSize : ℕ) (db : Database) :
    KeepaliveEvent → Database
  | .batch now calls =>
      exec (keepaliveCall settings now calls) db
        (db.listDueForKeepalive now settings.refreshTokenLifetimeDays leadDays batchSize)
  | .others db' => db'

def KeepaliveEvent.isBatch : KeepaliveEvent → Bool
  | .batch _ _ => true
  | .others _ => false

/-! ## Turns -/

def Takes (settings : TokenSettings) (leadDays batchSize : ℕ) (mailboxId : String)
    (db : Database) : KeepaliveEvent → Prop
  | .batch now _ =>
      mailboxId ∈ db.listDueForKeepalive now settings.refreshTokenLifetimeDays leadDays batchSize
  | .others _ => False

/-- A mailbox that the keepalive is for, and that it refreshes before another. -/
def Mailbox.precedes (m x : Mailbox) : Bool :=
  x.status = .active && sqlEq x.providerType defaultProviderType && x.clientId.isSome &&
    x.refreshTokenCiphertext.isSome && decide (x.batchRank < m.batchRank)

def Database.preceding (db : Database) (m : Mailbox) : ℕ :=
  db.mailboxes.rows.countP m.precedes

/-- How many of them are among those whose refresh keeps failing. -/
def Database.precedingStuck (db : Database) (m : Mailbox) (stuck : List String) : ℕ :=
  db.mailboxes.rows.countP fun x => m.precedes x && stuck.contains x.id

/-- **A round** that finds a mailbox waiting. Nobody disturbs its calls, and Microsoft
answers for all mailboxes but the stuck ones, which wait just as well. -/
structure KeepaliveRound (settings : TokenSettings) (leadDays : ℕ) (batch : List String)
    (m : Mailbox) (stuck : List String) (db : Database) (now : ℕ)
    (calls : String → List ServiceEvent) : Prop where
  waits : KeepaliveDue db now settings.refreshTokenLifetimeDays leadDays m
  stuckWait : ∀ x ∈ db.mailboxes, m.precedes x = true → x.id ∈ stuck →
    KeepaliveDue db now settings.refreshTokenLifetimeDays leadDays x
  undisturbed : Meets (keepaliveCall settings now calls)
    (fun db k => Meets (callStep settings (keepaliveRequest k)) CallUndisturbed
      (EnsureState.start db now) (calls k)) db batch
  answers : Meets (keepaliveCall settings now calls)
    (fun db k => answered settings (keepaliveRequest k) (EnsureState.start db now) (calls k) =
      !stuck.contains k) db batch

/-- Others neither touch a mailbox nor get ahead of it, and help no stuck one. -/
structure KeepsOrder (m : Mailbox) (stuck : List String) (db db' : Database) : Prop where
  row : db'.mailboxes.get? m.id = db.mailboxes.get? m.id
  preceding : db'.preceding m ≤ db.preceding m
  stuck : db'.precedingStuck m stuck = db.precedingStuck m stuck

def Rounds (settings : TokenSettings) (leadDays batchSize : ℕ) (m : Mailbox)
    (stuck : List String) (db : Database) : KeepaliveEvent → Prop
  | .batch now calls =>
      KeepaliveRound settings leadDays
        (db.listDueForKeepalive now settings.refreshTokenLifetimeDays leadDays batchSize)
        m stuck db now calls
  | .others db' => KeepsOrder m stuck db db'

/-! ## One call -/

/-- Nothing that a batch goes by has changed. -/
structure SamePlace (m m' : Mailbox) : Prop where
  primaryEmail : m'.primaryEmail = m.primaryEmail
  providerType : m'.providerType = m.providerType
  status : m'.status = m.status
  clientId : m'.clientId = m.clientId
  refreshToken : m'.refreshTokenCiphertext = m.refreshTokenCiphertext
  expiresAt : m'.refreshTokenExpiresAt = m.refreshTokenExpiresAt
  lastRefresh : m'.lastRefresh = m.lastRefresh

omit [Platform] in
theorem SamePlace.refl (m : Mailbox) : SamePlace m m := ⟨rfl, rfl, rfl, rfl, rfl, rfl, rfl⟩

omit [Platform] in
theorem SamePlace.trans {m m' m'' : Mailbox} (h : SamePlace m m') (h' : SamePlace m' m'') :
    SamePlace m m'' :=
  ⟨h'.primaryEmail.trans h.primaryEmail, h'.providerType.trans h.providerType,
    h'.status.trans h.status, h'.clientId.trans h.clientId,
    h'.refreshToken.trans h.refreshToken, h'.expiresAt.trans h.expiresAt,
    h'.lastRefresh.trans h.lastRefresh⟩

/-- Out of the way of the others: invalid, or good for a lifetime. -/
def OutOfTheWay (settings : TokenSettings) (now : ℕ) (m : Mailbox) : Prop :=
  m.status ≠ .active ∨ now + days settings.refreshTokenLifetimeDays ≤ m.expiryOrder

omit [Platform] in
theorem outOfTheWay_of_stamped {settings : TokenSettings} {now touchedAt : ℕ} {m : Mailbox}
    (hlater : now ≤ touchedAt)
    (hstamped : m.refreshTokenExpiresAt =
      some (touchedAt + seconds (settings.refreshTokenLifetimeDays * 86400))) :
    OutOfTheWay settings now m := by
  refine Or.inr ?_
  unfold Mailbox.expiryOrder days
  rw [hstamped, Option.getD_some]
  exact Nat.add_le_add_right hlater _

/-- The call has not had its answer, and will not have it if it is over. -/
def EnsurePhase.unanswered : EnsurePhase → Bool
  | .starting | .claiming _ | .exchanging _ _ _ _ | .returned | .raised _ => true
  | .outrun _ | .refreshed _ _ | .probing _ => false

def EnsurePhase.afterAnswer : EnsurePhase → Bool
  | .refreshed _ _ | .probing _ | .returned | .raised _ => true
  | .starting | .claiming _ | .exchanging _ _ _ _ | .outrun _ => false

def EnsurePhase.loaded : EnsurePhase → Option Mailbox
  | .probing loaded => some loaded
  | .starting | .claiming _ | .exchanging _ _ _ _ | .outrun _ | .refreshed _ _ | .returned
  | .raised _ => none

structure BeforeAnswer (id : String) (db : Database) (now : ℕ) (m : Mailbox) (s : EnsureState) :
    Prop where
  row : ∃ m', s.db.mailboxes.get? id = some m' ∧ SamePlace m m' ∧
    ∀ claim startedAt, s.phase.underWay = some (claim, startedAt) →
      claim.mailboxId = id ∧ claim.current m' = true ∧ now ≤ startedAt
  others : ∀ k, k ≠ id → s.db.mailboxes.get? k = db.mailboxes.get? k
  later : now ≤ s.now
  phase : s.phase.unanswered = true

structure AfterAnswer (settings : TokenSettings) (id : String) (db : Database) (now : ℕ)
    (s : EnsureState) : Prop where
  row : ∃ m', s.db.mailboxes.get? id = some m' ∧ OutOfTheWay settings now m' ∧
    ∀ loaded, s.phase = .probing loaded → loaded = m'
  others : ∀ k, k ≠ id → s.db.mailboxes.get? k = db.mailboxes.get? k
  later : now ≤ s.now
  phase : s.phase.afterAnswer = true

variable {settings : TokenSettings} {id : String} {db : Database} {now : ℕ} {m : Mailbox}
  {s : EnsureState}

/-- A call is in no phase that it must not be in. -/
theorem ne_true_of_phase {phase : EnsurePhase} {allowed : EnsurePhase → Bool}
    (hphase : s.phase = phase) (h : allowed phase = false) : allowed s.phase ≠ true := by
  rw [hphase, h]
  exact Bool.false_ne_true

theorem beforeAnswer_start (hm : db.mailboxes.get? id = some m) :
    BeforeAnswer id db now m (EnsureState.start db now) where
  row := ⟨m, hm, .refl m, fun _ _ h => nomatch h⟩
  others _ _ := rfl
  later := le_rfl
  phase := rfl

theorem answersExchange_ok {claim : TokenRefreshClaim} {startedAt : ℕ} (nonce : ℕ)
    {response : MicrosoftTokenResponse} (h : s.phase.underWay = some (claim, startedAt)) :
    answersExchange s (.exchange (.ok response) nonce) = response.storable startedAt true := by
  simp only [answersExchange, h]

/-- The call moves on and leaves the database alone. -/
theorem BeforeAnswer.move (h : BeforeAnswer id db now m s) {phase : EnsurePhase}
    (hphase : phase.unanswered = true) (hidle : phase.underWay = none) :
    BeforeAnswer id db now m { s with phase } := by
  obtain ⟨m', hm', hsame, -⟩ := h.row
  refine ⟨⟨m', hm', hsame, fun claim startedAt heq => ?_⟩, h.others, h.later, hphase⟩
  have heq : phase.underWay = some (claim, startedAt) := heq
  rw [hidle] at heq
  cases heq

theorem BeforeAnswer.claim (h : BeforeAnswer id db now m s) {retry : Bool} (claimId : String) :
    BeforeAnswer id db now m
      (phaseAStep settings (keepaliveRequest id) s retry claimId) := by
  obtain ⟨m', hm', hsame, -⟩ := h.row
  have hrow : s.db.mailboxes.get? (keepaliveRequest id).mailboxId = some m' := hm'
  unfold phaseAStep
  rw [hrow]
  dsimp only
  split
  · exact h.move rfl rfl
  rw [show (keepaliveRequest id).forceRefresh = true from rfl, Bool.true_or, if_pos rfl]
  dsimp only
  split
  · rename_i claim db' hok
    obtain ⟨row, hrow', hunclaimed, hmailbox, hid, hversion, -, -, rfl⟩ := claimTokenRefresh_ok hok
    obtain rfl : m' = row := Option.some.inj (hrow.symm.trans hrow')
    refine ⟨⟨_, updateMailbox_row hm', ?_, ?_⟩, ?_, h.later, rfl⟩
    · rw [if_pos ⟨rfl, by rw [hunclaimed]; rfl⟩]
      exact hsame.trans ⟨rfl, rfl, rfl, rfl, rfl, rfl, rfl⟩
    · intro claim' startedAt heq
      cases heq
      refine ⟨hmailbox, ?_, h.later⟩
      rw [if_pos ⟨rfl, by rw [hunclaimed]; rfl⟩]
      unfold TokenRefreshClaim.current
      rw [hversion, hid]
      simp [assignClaim]
    · intro k hk
      rw [← h.others k hk]
      exact updateMailbox_get?_ne hk
  · split
    · exact h.move rfl rfl
    · exact h.move rfl rfl
  · exact h.move rfl rfl

theorem BeforeAnswer.exchange (h : BeforeAnswer id db now m s) {retry : Bool}
    {target : Option MailAccessChannel} {claim : TokenRefreshClaim} {startedAt nonce : ℕ}
    {answer : Except ExchangeFailure MicrosoftTokenResponse}
    (hphase : s.phase = .exchanging retry target claim startedAt)
    (hunanswered : answersExchange s (.exchange answer nonce) = false) :
    BeforeAnswer id db now m
      (phaseCStep settings s retry target claim startedAt nonce answer) := by
  have hunderWay : s.phase.underWay = some (claim, startedAt) := by
    rw [hphase]
    rfl
  obtain ⟨m', hm', hsame, hclaim⟩ := h.row
  obtain ⟨hmailbox, hcurrent, -⟩ := hclaim claim startedAt hunderWay
  cases answer with
  | error failure =>
      cases failure with
      | invalidGrant =>
          unfold answersExchange at hunanswered
          rw [hunderWay] at hunanswered
          cases hunanswered
      | other =>
          refine ⟨⟨_, updateMailbox_row hm', ?_, fun _ _ heq => nomatch heq⟩, ?_, h.later, rfl⟩
          · split
            · exact hsame.trans ⟨rfl, rfl, rfl, rfl, rfl, rfl, rfl⟩
            · exact hsame
          · intro k hk
            rw [← h.others k hk]
            exact updateMailbox_get?_ne (hmailbox.symm ▸ hk)
  | ok response =>
      rw [answersExchange_ok nonce hunderWay] at hunanswered
      simp only [phaseCStep]
      rw [hmailbox, hm', Option.any_some, hcurrent, if_pos hunanswered]
      exact h.move rfl rfl

omit [Platform] in
theorem not_probing {phase : EnsurePhase} {P : Mailbox → Prop} (h : phase.loaded = none) :
    ∀ loaded, phase = .probing loaded → P loaded := by
  rintro loaded rfl
  cases h

/-- Anywhere but in a probe, only the row counts. -/
theorem AfterAnswer.of_row {m' : Mailbox} (hm' : s.db.mailboxes.get? id = some m')
    (hsettled : OutOfTheWay settings now m')
    (hothers : ∀ k, k ≠ id → s.db.mailboxes.get? k = db.mailboxes.get? k) (hlater : now ≤ s.now)
    (hphase : s.phase.afterAnswer = true) (hidle : s.phase.loaded = none) :
    AfterAnswer settings id db now s :=
  ⟨⟨m', hm', hsettled, not_probing hidle⟩, hothers, hlater, hphase⟩

/-- **The answer**: the mailbox is invalid, or good for another lifetime. -/
theorem BeforeAnswer.answer (h : BeforeAnswer id db now m s) {retry : Bool}
    {target : Option MailAccessChannel} {claim : TokenRefreshClaim} {startedAt nonce : ℕ}
    {answer : Except ExchangeFailure MicrosoftTokenResponse}
    (hphase : s.phase = .exchanging retry target claim startedAt)
    (hanswered : answersExchange s (.exchange answer nonce) = true) :
    AfterAnswer settings id db now
      (phaseCStep settings s retry target claim startedAt nonce answer) := by
  have hunderWay : s.phase.underWay = some (claim, startedAt) := by
    rw [hphase]
    rfl
  obtain ⟨m', hm', hsame, hclaim⟩ := h.row
  obtain ⟨rfl, hcurrent, hstarted⟩ := hclaim claim startedAt hunderWay
  have hothers : ∀ (q : Mailbox → Bool) (f : MailboxAssignment) (k : String),
      k ≠ claim.mailboxId →
        (s.db.updateMailbox claim.mailboxId q f).db.mailboxes.get? k = db.mailboxes.get? k := by
    intro q f k hk
    rw [← h.others k hk]
    exact updateMailbox_get?_ne hk
  cases answer with
  | error failure =>
      cases failure with
      | other =>
          unfold answersExchange at hanswered
          rw [hunderWay] at hanswered
          cases hanswered
      | invalidGrant =>
          refine .of_row (updateMailbox_row hm') ?_ (hothers _ _) h.later rfl rfl
          rw [if_pos ⟨rfl, hcurrent⟩]
          exact Or.inl MailboxStatus.noConfusion
  | ok response =>
      have hstamped : (settings.completion nonce startedAt claim.refreshToken
          response).Stamped := completion_stamped
      rw [answersExchange_ok nonce hunderWay] at hanswered
      simp only [phaseCStep]
      rw [completeTokenRefresh_eq s.db claim hstamped, hm', Option.any_some, hcurrent,
        if_neg (Bool.not_eq_false _ ▸ hanswered), if_pos rfl]
      refine .of_row (updateMailbox_row hm') ?_ (hothers _ _) h.later rfl rfl
      rw [if_pos ⟨rfl, hcurrent⟩]
      refine outOfTheWay_of_stamped hstarted ?_
      unfold completionAssignment
      split <;> rfl

/-- **Step lemma**, without an answer. -/
theorem BeforeAnswer.step (h : BeforeAnswer id db now m s) {e : ServiceEvent}
    (hquiet : CallUndisturbed s e) (hunanswered : answersExchange s e = false) :
    BeforeAnswer id db now m (callStep settings (keepaliveRequest id) s e) := by
  cases e with
  | checkCache answers nonce =>
      simp only [callStep, ensureStep]
      split
      · exact h.move rfl rfl
      · exact h
  | claim claimId =>
      simp only [callStep, ensureStep]
      split
      · exact h.claim claimId
      · exact h
  | exchange answer nonce =>
      simp only [callStep, ensureStep]
      split
      · rename_i hphase
        exact h.exchange hphase hunanswered
      · exact h
  | readWinner seen =>
      simp only [callStep, ensureStep]
      split
      · rename_i hphase
        exact absurd h.phase (ne_true_of_phase hphase rfl)
      · exact h
  | readForProbe =>
      simp only [callStep, ensureStep]
      split
      · rename_i hphase
        exact absurd h.phase (ne_true_of_phase hphase rfl)
      · exact h
  | finishProbe answers nonce =>
      simp only [callStep, ensureStep]
      split
      · rename_i hphase
        exact absurd h.phase (ne_true_of_phase hphase rfl)
      · exact h
  | others db' now' =>
      obtain ⟨rfl, hlater⟩ := hquiet
      exact ⟨h.row, h.others, h.later.trans hlater, h.phase⟩

theorem exists_exchanging {answer : Except ExchangeFailure MicrosoftTokenResponse} {nonce : ℕ}
    (hanswered : answersExchange s (.exchange answer nonce) = true) :
    ∃ retry target claim startedAt, s.phase = .exchanging retry target claim startedAt := by
  unfold answersExchange at hanswered
  cases hphase : s.phase with
  | exchanging retry target claim startedAt => exact ⟨retry, target, claim, startedAt, rfl⟩
  | starting | claiming _ | outrun _ | refreshed _ _ | probing _ | returned | raised _ =>
      rw [hphase] at hanswered
      cases hanswered

/-- **Step lemma**, with the answer. -/
theorem BeforeAnswer.step_answer (h : BeforeAnswer id db now m s) {e : ServiceEvent}
    (hanswered : answersExchange s e = true) :
    AfterAnswer settings id db now (callStep settings (keepaliveRequest id) s e) := by
  cases e with
  | exchange answer nonce =>
      obtain ⟨retry, target, claim, startedAt, hphase⟩ := exists_exchanging hanswered
      simp only [callStep, ensureStep, hphase]
      exact h.answer hphase hanswered
  | checkCache _ _ | claim _ | readWinner _ | readForProbe | finishProbe _ _ | others _ _ =>
      cases hanswered

/-- The call moves on and leaves the database alone. -/
theorem AfterAnswer.move (h : AfterAnswer settings id db now s) {phase : EnsurePhase}
    (hphase : phase.afterAnswer = true)
    (hloaded : ∀ loaded, phase = .probing loaded → s.db.mailboxes.get? id = some loaded) :
    AfterAnswer settings id db now { s with phase } := by
  obtain ⟨m', hm', hsettled, -⟩ := h.row
  refine ⟨⟨m', hm', hsettled, fun loaded heq => ?_⟩, h.others, h.later, hphase⟩
  exact Option.some.inj ((hloaded loaded heq).symm.trans hm')

omit [Platform] in
/-- A probe leaves a settled mailbox settled: what it exchanges is good for a lifetime
of its own. -/
theorem outOfTheWay_writeProbe {startedAt nonce : ℕ} {loaded : Mailbox}
    {result : CapabilityProbeResult} (hsettled : OutOfTheWay settings now loaded)
    (hstarted : now ≤ startedAt) :
    OutOfTheWay settings now
      (settings.writeProbe startedAt nonce loaded loaded result loaded) := by
  unfold TokenSettings.writeProbe
  split
  · rw [flush_loaded]
    exact hsettled
  · dsimp only
    split
    · rw [flush_loaded]
      exact outOfTheWay_of_stamped hstarted rfl
    · rw [flush_loaded]
      exact outOfTheWay_of_stamped hstarted rfl

/-- **Step lemma**, after the answer. -/
theorem AfterAnswer.step (h : AfterAnswer settings id db now s) {e : ServiceEvent}
    (hquiet : CallUndisturbed s e) :
    AfterAnswer settings id db now (callStep settings (keepaliveRequest id) s e) := by
  obtain ⟨m', hm', hsettled, hprobing⟩ := h.row
  cases e with
  | checkCache answers nonce =>
      simp only [callStep, ensureStep]
      split
      · rename_i hphase
        exact absurd h.phase (ne_true_of_phase hphase rfl)
      · exact h
  | claim claimId =>
      simp only [callStep, ensureStep]
      split
      · rename_i hphase
        exact absurd h.phase (ne_true_of_phase hphase rfl)
      · exact h
  | exchange answer nonce =>
      simp only [callStep, ensureStep]
      split
      · rename_i hphase
        exact absurd h.phase (ne_true_of_phase hphase rfl)
      · exact h
  | readWinner seen =>
      simp only [callStep, ensureStep]
      split
      · rename_i hphase
        exact absurd h.phase (ne_true_of_phase hphase rfl)
      · exact h
  | readForProbe =>
      simp only [callStep, ensureStep]
      split
      · have hrow : s.db.mailboxes.get? (keepaliveRequest id).mailboxId = some m' := hm'
        unfold reloadStep
        rw [hrow]
        dsimp only
        split
        · exact h.move rfl (not_probing rfl)
        split
        · refine h.move rfl fun loaded heq => ?_
          cases heq
          exact hm'
        · exact h.move rfl (not_probing rfl)
      · exact h
  | finishProbe answers nonce =>
      simp only [callStep, ensureStep]
      split
      · rename_i loaded hphase
        obtain rfl := hprobing loaded hphase
        have hid : loaded.id = id := Table.key_of_get? hm'
        -- a probe writes the capability, and newer tokens if it has any
        unfold finishProbeStep
        split
        · refine .of_row (updateMailbox_row hm') ?_ ?_ h.later rfl rfl
          · rw [if_pos ⟨hid.symm, rfl⟩]
            exact outOfTheWay_writeProbe hsettled h.later
          · intro k hk
            rw [← h.others k hk]
            exact updateMailbox_get?_ne (hid ▸ hk)
        · exact h.move rfl (not_probing rfl)
      · exact h
  | others db' now' =>
      obtain ⟨rfl, hlater⟩ := hquiet
      exact ⟨⟨m', hm', hsettled, hprobing⟩, h.others, h.later.trans hlater, h.phase⟩

/-- The mailbox of a call after it, and the others. -/
structure CallEffect (settings : TokenSettings) (now : ℕ) (wasAnswered : Bool) (m m' : Mailbox) :
    Prop where
  settled : wasAnswered = true → OutOfTheWay settings now m'
  same : wasAnswered = false → SamePlace m m'

/-- A call with which nobody interferes settles its mailbox if it is answered, leaves it
where it was if not, and leaves the others alone. -/
def CallDecides (settings : TokenSettings) (now : ℕ) (calls : String → List ServiceEvent)
    (db : Database) (id : String) : Prop :=
  ∀ m, db.mailboxes.get? id = some m →
    Meets (callStep settings (keepaliveRequest id)) CallUndisturbed (EnsureState.start db now)
      (calls id) →
    (∃ m', (keepaliveCall settings now calls db id).mailboxes.get? id = some m' ∧
      CallEffect settings now
        (answered settings (keepaliveRequest id) (EnsureState.start db now) (calls id)) m m') ∧
      ∀ k, k ≠ id →
        (keepaliveCall settings now calls db id).mailboxes.get? k = db.mailboxes.get? k

/-- **Run lemma**: with an answer the mailbox is settled, and without one it is where it
was. -/
theorem keepaliveCall_effect (settings : TokenSettings) (now : ℕ)
    (calls : String → List ServiceEvent) (db : Database) (id : String) :
    CallDecides settings now calls db id := by
  intro m hm hquiet
  have hafter : ∀ (events : List ServiceEvent) (s : EnsureState),
      AfterAnswer settings id db now s →
      Meets (callStep settings (keepaliveRequest id)) CallUndisturbed s events →
      AfterAnswer settings id db now
        (exec (callStep settings (keepaliveRequest id)) s events) :=
    fun events s h hquiet => exec_invariant_of_meets (fun s e h he => h.step he) h hquiet
  have hbefore : ∀ (events : List ServiceEvent) (s : EnsureState),
      BeforeAnswer id db now m s →
      Meets (callStep settings (keepaliveRequest id)) CallUndisturbed s events →
      if answered settings (keepaliveRequest id) s events then
        AfterAnswer settings id db now (exec (callStep settings (keepaliveRequest id)) s events)
      else
        BeforeAnswer id db now m (exec (callStep settings (keepaliveRequest id)) s events) := by
    intro events
    induction events with
    | nil => exact fun s h _ => h
    | cons e events ih =>
        intro s h hquiet
        rw [exec_cons]
        cases hanswer : answersExchange s e with
        | true =>
            rw [answered, hanswer, Bool.true_or, if_pos rfl]
            exact hafter events _ (h.step_answer hanswer) hquiet.2
        | false =>
            rw [answered, hanswer, Bool.false_or]
            exact ih _ (h.step hquiet.1 hanswer) hquiet.2
  have hcall := hbefore (calls id) _ (beforeAnswer_start hm) hquiet
  split at hcall
  · rename_i hanswered
    obtain ⟨m', hm', hsettled, -⟩ := hcall.row
    refine ⟨⟨m', hm', fun _ => hsettled, fun hnot => ?_⟩, hcall.others⟩
    rw [hanswered] at hnot
    cases hnot
  · rename_i hunanswered
    obtain ⟨m', hm', hsame, -⟩ := hcall.row
    exact ⟨⟨m', hm', fun hyes => absurd hyes hunanswered, fun _ => hsame⟩, hcall.others⟩

/-! ## One batch -/

variable {leadDays batchSize : ℕ} {stuck : List String} {calls : String → List ServiceEvent}

omit [Platform] in
theorem expiryOrder_le (lifetimeDays : ℕ) (m : Mailbox) :
    m.expiryOrder ≤ m.estimatedExpiry lifetimeDays := by
  unfold Mailbox.expiryOrder Mailbox.estimatedExpiry
  cases m.refreshTokenExpiresAt with
  | some expiresAt => rw [Option.getD_some, Option.getD_some]
  | none =>
      rw [Option.getD_none, Option.getD_none]
      exact Nat.le_add_right _ _

theorem precedes_of_settled {x : Mailbox} (hlead : leadDays < settings.refreshTokenLifetimeDays)
    (hwaits : KeepaliveDue db now settings.refreshTokenLifetimeDays leadDays m)
    (hsettled : OutOfTheWay settings now x) : m.precedes x = false := by
  rw [Bool.eq_false_iff]
  intro hprecedes
  unfold Mailbox.precedes at hprecedes
  simp only [Bool.and_eq_true, decide_eq_true_eq] at hprecedes
  obtain ⟨⟨⟨⟨hactive, -⟩, -⟩, -⟩, hrank⟩ := hprecedes
  rcases hsettled with hinactive | hlater
  · exact hinactive hactive
  · have horder : x.expiryOrder ≤ m.expiryOrder := Prod.Lex.monotone_fst _ _ hrank.le
    have hdue := hwaits.expiry
    have hbefore := expiryOrder_le settings.refreshTokenLifetimeDays m
    have hdays : days leadDays < days settings.refreshTokenLifetimeDays := by
      unfold days seconds
      omega
    rw [min_eq_left hlead.le] at hdue
    omega

theorem precedes_of_samePlace {x x' : Mailbox} (h : SamePlace x x') :
    m.precedes x' = m.precedes x := by
  have hrank : x'.batchRank = x.batchRank := by
    unfold Mailbox.batchRank Mailbox.expiryOrder
    rw [h.primaryEmail, h.expiresAt, h.lastRefresh]
  unfold Mailbox.precedes
  rw [h.status, h.providerType, h.clientId, h.refreshToken, hrank]

def Ahead (db : Database) (m : Mailbox) (batch : List String) : Prop :=
  ∀ k ∈ batch, ∃ x, db.mailboxes.get? k = some x ∧ m.precedes x = true

/-- **The calls of a batch**, if it passes a mailbox over: of those ahead of it the stuck
ones stay there, and each of the others is settled. -/
theorem calls_pass_over (hlead : leadDays < settings.refreshTokenLifetimeDays)
    {batch : List String} {db₀ : Database}
    (hwaits : KeepaliveDue db₀ now settings.refreshTokenLifetimeDays leadDays m)
    (hm : db.mailboxes.get? m.id = some m) (hnodup : batch.Nodup) (hpassed : m.id ∉ batch)
    (hahead : Ahead db m batch)
    (hundisturbed : Meets (keepaliveCall settings now calls)
      (fun db k => Meets (callStep settings (keepaliveRequest k)) CallUndisturbed
        (EnsureState.start db now) (calls k)) db batch)
    (hanswers : Meets (keepaliveCall settings now calls)
      (fun db k => answered settings (keepaliveRequest k) (EnsureState.start db now) (calls k) =
        !stuck.contains k) db batch) :
    let after := exec (keepaliveCall settings now calls) db batch
    after.mailboxes.get? m.id = some m ∧
      after.precedingStuck m stuck = db.precedingStuck m stuck ∧
      after.preceding m + batch.countP (fun k => !stuck.contains k) = db.preceding m := by
  induction batch generalizing db with
  | nil => exact ⟨hm, rfl, rfl⟩
  | cons k batch ih =>
      obtain ⟨hfresh, hnodup⟩ := List.nodup_cons.mp hnodup
      rw [List.mem_cons, not_or] at hpassed
      obtain ⟨x, hx, hprecedes⟩ := hahead k List.mem_cons_self
      obtain ⟨⟨x', hx', heffect⟩, hothers⟩ :=
        keepaliveCall_effect settings now calls db k x hx hundisturbed.1
      rw [hanswers.1] at heffect
      have hid : x.id = k := Table.key_of_get? hx
      have hid' : x'.id = k := Table.key_of_get? hx'
      have hahead' : Ahead (keepaliveCall settings now calls db k) m batch := by
        intro j hj
        rw [hothers j fun heq => hfresh (heq ▸ hj)]
        exact hahead j (List.mem_cons_of_mem _ hj)
      obtain ⟨hrow, hstuck, hcount⟩ := ih ((hothers _ hpassed.1).trans hm) hnodup hpassed.2
        hahead' hundisturbed.2 hanswers.2
      -- the call changes one row, which counts before it and perhaps not after it
      have hmoved := Table.countP_of_modified hx hx' hothers m.precedes
      have hmovedStuck := Table.countP_of_modified hx hx' hothers
        fun x => m.precedes x && stuck.contains x.id
      rw [hprecedes, if_pos rfl] at hmoved
      simp only [hprecedes, Bool.true_and, hid, hid'] at hmovedStuck
      refine ⟨hrow, hstuck.trans ?_, ?_⟩
      · show List.countP _ _ = List.countP _ _
        cases hk : stuck.contains k with
        | true =>
            rw [hk] at heffect hmovedStuck
            rw [precedes_of_samePlace (heffect.same rfl), hprecedes] at hmovedStuck
            exact Nat.add_right_cancel hmovedStuck
        | false =>
            rw [hk, Bool.and_false] at hmovedStuck
            exact Nat.add_right_cancel hmovedStuck
      · rw [exec_cons, List.countP_cons]
        unfold Database.preceding at hcount ⊢
        cases hk : stuck.contains k with
        | true =>
            rw [hk] at heffect
            rw [precedes_of_samePlace (heffect.same rfl), hprecedes, if_pos rfl] at hmoved
            rw [Bool.not_true, if_neg Bool.false_ne_true]
            omega
        | false =>
            rw [hk] at heffect
            rw [precedes_of_settled hlead hwaits (heffect.settled rfl),
              if_neg Bool.false_ne_true] at hmoved
            rw [Bool.not_false, if_pos rfl]
            omega

theorem ahead_of_passed (hm : m ∈ db.mailboxes)
    (hwaits : KeepaliveDue db now settings.refreshTokenLifetimeDays leadDays m)
    (hpassed : m.id ∉
      db.listDueForKeepalive now settings.refreshTokenLifetimeDays leadDays batchSize) :
    ∀ x ∈ firstRanked Mailbox.batchRank batchSize
        (db.keepaliveCandidates now settings.refreshTokenLifetimeDays leadDays),
      x ∈ db.mailboxes ∧ m.precedes x = true := by
  intro x hx
  have hcandidate := mem_keepaliveCandidates.mpr ⟨hm, hwaits⟩
  rw [mem_listDueForKeepalive hm] at hpassed
  obtain ⟨hrow, hdue⟩ := mem_keepaliveCandidates.mp (mem_of_mem_firstRanked hx)
  have hrank := key_lt_of_passed (nodup_keepaliveCandidates _ _ _ _)
    (fun a ha b hb => eq_of_batchRank ha hb) hx hcandidate hpassed
  refine ⟨hrow, ?_⟩
  unfold Mailbox.precedes
  simp only [Bool.and_eq_true, decide_eq_true_eq]
  exact ⟨⟨⟨⟨hdue.active, hdue.microsoft⟩, Option.isSome_iff_ne_none.mpr hdue.clientId⟩,
    Option.isSome_iff_ne_none.mpr hdue.refreshToken⟩, hrank⟩

/-- **A batch that passes a mailbox over** is full; the stuck ones stay ahead, and fewer
of the others do. -/
theorem round_passes_over (hlead : leadDays < settings.refreshTokenLifetimeDays)
    (hm : db.mailboxes.get? m.id = some m)
    (hround : Rounds settings leadDays batchSize m stuck db (.batch now calls))
    (hpassed : ¬ Takes settings leadDays batchSize m.id db (.batch now calls)) :
    let after := keepaliveStep settings leadDays batchSize db (.batch now calls)
    after.mailboxes.get? m.id = some m ∧
      after.precedingStuck m stuck = db.precedingStuck m stuck ∧
      after.preceding m + batchSize ≤ db.preceding m + db.precedingStuck m stuck := by
  have hrow := Table.mem_of_get? hm
  have hahead := ahead_of_passed hrow hround.waits hpassed
  have hnodup := nodup_firstRanked Mailbox.batchRank batchSize
    (nodup_keepaliveCandidates db now settings.refreshTokenLifetimeDays leadDays)
  have hlength := length_firstRanked (mem_keepaliveCandidates.mpr ⟨hrow, hround.waits⟩)
    ((mem_listDueForKeepalive hrow).not.mp hpassed)
  have hids : (db.listDueForKeepalive now settings.refreshTokenLifetimeDays leadDays
      batchSize).Nodup := by
    refine hnodup.map_on fun x hx y hy hid => ?_
    exact Table.eq_of_key (hahead x hx).1 (hahead y hy).1 hid
  have hbatch : Ahead db m
      (db.listDueForKeepalive now settings.refreshTokenLifetimeDays leadDays batchSize) := by
    intro k hk
    obtain ⟨x, hx, rfl⟩ := List.mem_map.mp hk
    exact ⟨x, Table.get?_eq_some.mpr ⟨(hahead x hx).1, rfl⟩, (hahead x hx).2⟩
  obtain ⟨hstays, hstuck, hcount⟩ := calls_pass_over hlead hround.waits hm hids hpassed hbatch
    hround.undisturbed hround.answers
  refine ⟨hstays, hstuck, ?_⟩
  -- of a batch that passes the mailbox over, only the stuck ones keep their place
  have hfew : (db.listDueForKeepalive now settings.refreshTokenLifetimeDays leadDays
      batchSize).countP stuck.contains ≤ db.precedingStuck m stuck := by
    unfold Database.listDueForKeepalive
    rw [List.countP_map]
    have hsub := List.subperm_of_subset hnodup fun x hx => (hahead x hx).1
    refine le_trans (List.countP_mono_left fun x hx hk => ?_) (hsub.countP_le _)
    rw [(hahead x hx).2]
    exact hk
  have hsplit := List.length_eq_countP_add_countP stuck.contains
    (l := db.listDueForKeepalive now settings.refreshTokenLifetimeDays leadDays batchSize)
  have hfull : (db.listDueForKeepalive now settings.refreshTokenLifetimeDays leadDays
      batchSize).length = batchSize := by
    unfold Database.listDueForKeepalive
    rw [List.length_map, hlength]
  have hothers : (db.listDueForKeepalive now settings.refreshTokenLifetimeDays leadDays
      batchSize).countP (fun k => !stuck.contains k) =
        (db.listDueForKeepalive now settings.refreshTokenLifetimeDays leadDays
          batchSize).countP (fun k => decide ¬ stuck.contains k = true) := by
    refine List.countP_congr fun k _ => ?_
    simp
  show Database.preceding (exec _ _ _) m + batchSize ≤ _
  omega

theorem not_takes_of_stuck (hm : m ∈ db.mailboxes)
    (hround : Rounds settings leadDays batchSize m stuck db (.batch now calls))
    (hmany : batchSize ≤ db.precedingStuck m stuck) :
    ¬ Takes settings leadDays batchSize m.id db (.batch now calls) := by
  show m.id ∉ _
  rw [mem_listDueForKeepalive hm]
  refine not_mem_firstRanked (nodup_keepaliveCandidates _ _ _ _)
    (fun a ha b hb => eq_of_batchRank ha hb) (hmany.trans ?_)
  unfold ahead Database.keepaliveCandidates Table.select
  rw [List.countP_filter]
  refine List.countP_mono_left fun x hx hstuck => ?_
  rw [Bool.and_eq_true] at hstuck
  obtain ⟨hprecedes, hcontains⟩ := hstuck
  have hdue := hround.stuckWait x hx hprecedes (List.contains_iff_mem.mp hcontains)
  have hcandidate := mem_keepaliveCandidates.mpr ⟨hx, hdue⟩
  unfold Mailbox.precedes at hprecedes
  rw [Bool.and_eq_true] at hprecedes ⊢
  exact ⟨hprecedes.2, (Table.mem_select.mp hcandidate).2⟩

/-! ## The turn of a mailbox -/

/-- **Every mailbox gets its turn unless too many fail.** A call settles its mailbox or
leaves it in its place. In a run of batches that each find a mailbox waiting, until one
takes it, the stuck mailboxes being those whose refresh fails every time: one takes it if
and only if fewer stuck mailboxes come before it than a batch takes. There are to be more
batches than mailboxes before it. -/
theorem keepalive_reaches_iff (hlead : leadDays < settings.refreshTokenLifetimeDays)
    (hm : db.mailboxes.get? m.id = some m) {events : List KeepaliveEvent}
    (hrounds : MeetsUntil (keepaliveStep settings leadDays batchSize)
      (Rounds settings leadDays batchSize m stuck) (Takes settings leadDays batchSize m.id)
      db events)
    (hlong : db.preceding m < events.countP KeepaliveEvent.isBatch) :
    (∀ now calls db id, CallDecides settings now calls db id) ∧
      (Sometime (keepaliveStep settings leadDays batchSize)
          (Takes settings leadDays batchSize m.id) db events ↔
        db.precedingStuck m stuck < batchSize) := by
  refine ⟨keepaliveCall_effect settings, ?_⟩
  constructor
  · intro hsometime
    by_contra hmany
    refine not_sometime (P := fun db' => db'.mailboxes.get? m.id = some m ∧
      batchSize ≤ db'.precedingStuck m stuck) ?_ ⟨hm, not_lt.mp hmany⟩ hrounds hsometime
    rintro db' (⟨now', calls'⟩ | ⟨db''⟩) ⟨hm', hmany'⟩ hround
    · have hpassed := not_takes_of_stuck (Table.mem_of_get? hm') hround hmany'
      obtain ⟨hstays, hstuck, -⟩ := round_passes_over hlead hm' hround hpassed
      exact ⟨hpassed, hstays, hmany'.trans_eq hstuck.symm⟩
    · exact ⟨id, hround.row.trans hm', hmany'.trans_eq hround.stuck.symm⟩
  · intro hfew
    refine sometime_of_lowering (P := fun db' => db'.mailboxes.get? m.id = some m ∧
      db'.precedingStuck m stuck < batchSize) (fun db' => db'.preceding m)
      KeepaliveEvent.isBatch ?_ ⟨hm, hfew⟩ hrounds hlong
    rintro db' (⟨now', calls'⟩ | ⟨db''⟩) ⟨hm', hfew'⟩ hround hpassed
    · obtain ⟨hstays, hstuck, hless⟩ := round_passes_over hlead hm' hround hpassed
      refine ⟨⟨hstays, hstuck.trans_lt hfew'⟩, ?_⟩
      show Database.preceding _ m + 1 ≤ _
      omega
    · exact ⟨⟨hround.row.trans hm', hround.stuck.trans_lt hfew'⟩, hround.preceding⟩

end

/-! ## A mailbox that never gets its turn -/

section Sample

attribute [local instance] asciiPlatform

def failingMailbox : Mailbox :=
  { id := "m-1", primaryEmail := "failing@outlook.com", clientId := some "c"
    refreshTokenCiphertext := some "t", refreshTokenExpiresAt := some (days 1) }

def waitingMailbox : Mailbox :=
  { id := "m-2", primaryEmail := "waiting@outlook.com", clientId := some "c"
    refreshTokenCiphertext := some "t", refreshTokenExpiresAt := some (days 2) }

theorem waitingMailboxes_distinct :
    [failingMailbox, waitingMailbox].Pairwise mailboxSchema.Distinct := by
  decide +kernel

def waitingDatabase : Database where
  mailboxes := ⟨[failingMailbox, waitingMailbox], waitingMailboxes_distinct⟩

def callsWith (answer : Except ExchangeFailure MicrosoftTokenResponse) (mailboxId : String) :
    List ServiceEvent :=
  [.checkCache none 0, .claim ("claim of " ++ mailboxId), .exchange answer 0]

def twoBatches (answer : Except ExchangeFailure MicrosoftTokenResponse) : List KeepaliveEvent :=
  [.batch (days 3) (callsWith answer), .batch (days 4) (callsWith answer)]

theorem round_of_one {answer : Except ExchangeFailure MicrosoftTokenResponse} {db : Database}
    {now : ℕ} {k : String} {stuck : List String}
    (hbatch : db.listDueForKeepalive now 90 7 1 = [k])
    (hwaiting : waitingMailbox ∈ db.keepaliveCandidates now 90 7)
    (hstuck : ∀ x ∈ db.mailboxes.rows, x.id ∈ stuck → x ∈ db.keepaliveCandidates now 90 7)
    (hanswered : answered sampleTokenSettings (keepaliveRequest k)
      (EnsureState.start db now) (callsWith answer k) = !stuck.contains k) :
    Rounds sampleTokenSettings 7 1 waitingMailbox stuck db (.batch now (callsWith answer)) := by
  show KeepaliveRound _ _ (db.listDueForKeepalive now 90 7 1) _ _ _ _ _
  rw [hbatch]
  exact
    { waits := (mem_keepaliveCandidates.mp hwaiting).2
      stuckWait := fun x hx _ hmem => (mem_keepaliveCandidates.mp (hstuck x hx hmem)).2
      undisturbed := ⟨⟨trivial, trivial, trivial, trivial⟩, trivial⟩
      answers := ⟨hanswered, trivial⟩ }

/-- The mailbox behind is never taken while the first exchange fails, but not for an
invalid grant, and is taken once it is answered. -/
theorem keepalive_reaches_iff_sample :
    ¬ Sometime (keepaliveStep sampleTokenSettings 7 1)
        (Takes sampleTokenSettings 7 1 waitingMailbox.id) waitingDatabase
        (twoBatches (.error .other)) ∧
      Sometime (keepaliveStep sampleTokenSettings 7 1)
        (Takes sampleTokenSettings 7 1 waitingMailbox.id) waitingDatabase
        (twoBatches (.ok (sampleAnswer "access" "scope" none))) := by
  have hreaches : ∀ answer stuck,
      MeetsUntil (keepaliveStep sampleTokenSettings 7 1)
        (Rounds sampleTokenSettings 7 1 waitingMailbox stuck)
        (Takes sampleTokenSettings 7 1 waitingMailbox.id) waitingDatabase (twoBatches answer) →
      (Sometime (keepaliveStep sampleTokenSettings 7 1)
          (Takes sampleTokenSettings 7 1 waitingMailbox.id) waitingDatabase (twoBatches answer) ↔
        waitingDatabase.precedingStuck waitingMailbox stuck < 1) := by
    intro answer stuck hrounds
    refine (keepalive_reaches_iff (by decide) (by decide +kernel) hrounds ?_).2
    show waitingDatabase.preceding waitingMailbox < 2
    decide +kernel
  constructor
  · rw [hreaches (.error .other) ["m-1"]]
    · decide +kernel
    · refine ⟨round_of_one (k := "m-1") ?_ ?_ ?_ ?_, fun _ => ⟨round_of_one (k := "m-1")
        ?_ ?_ ?_ ?_, fun _ => trivial⟩⟩
      all_goals decide +kernel
  · rw [hreaches _ []]
    · decide +kernel
    · refine ⟨round_of_one (k := "m-1") ?_ ?_ ?_ ?_, fun _ => ⟨round_of_one (k := "m-2")
        ?_ ?_ ?_ ?_, fun _ => trivial⟩⟩
      all_goals decide +kernel

end Sample

end MailboxService
