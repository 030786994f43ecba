import Mathlib.Data.List.Count
import MailboxService.Foundation.Run
import MailboxService.Foundation.Dict

/-!
# Capacity limits for verification-code long polls

A poll enters by taking one token of a process-wide semaphore and counting
itself under its client key and its lease; it is refused at once when any of
the three is exhausted. The counting and its cleanup stand in one
`try … finally`, so the cleanup also runs on the two branches that refuse the
poll after the semaphore was taken.

`PollSlots` adds to the counters the list of the polls inside, which the code
does not keep, and `accounted_iff` says when the counters agree with it: as
long as no poll is refused for its client or its lease.
-/

namespace MailboxService.VerificationPollCapacity

open Foundation

structure Settings where
  mailPollMaxConcurrency : ℕ
  mailPollMaxConcurrencyPerClient : ℕ
  mailPollMaxConcurrencyPerLease : ℕ
  global_bounds : 1 ≤ mailPollMaxConcurrency ∧ mailPollMaxConcurrency ≤ 512
  client_bounds :
    1 ≤ mailPollMaxConcurrencyPerClient ∧ mailPollMaxConcurrencyPerClient ≤ 64
  lease_bounds :
    1 ≤ mailPollMaxConcurrencyPerLease ∧ mailPollMaxConcurrencyPerLease ≤ 8

def Settings.default : Settings where
  mailPollMaxConcurrency := 32
  mailPollMaxConcurrencyPerClient := 4
  mailPollMaxConcurrencyPerLease := 1
  global_bounds := by decide
  client_bounds := by decide
  lease_bounds := by decide

/-- `threading.BoundedSemaphore`: the tokens left and their initial number. -/
structure BoundedSemaphore where
  value : ℕ
  bound : ℕ

/-- `acquire(blocking=False)`: `none` when no token is left. -/
def BoundedSemaphore.acquire (s : BoundedSemaphore) : Option BoundedSemaphore :=
  if s.value = 0 then none else some { s with value := s.value - 1 }

/-- `release()`; a release beyond the bound raises and changes nothing. -/
def BoundedSemaphore.release (s : BoundedSemaphore) : BoundedSemaphore :=
  if s.value < s.bound then { s with value := s.value + 1 } else s

inductive Scope where
  | global
  | client
  | lease
  deriving DecidableEq, Repr

structure CapacityBuckets where
  globalSemaphore : BoundedSemaphore
  perClientLimit : ℕ
  perLeaseLimit : ℕ
  perClientCounts : Dict String ℕ
  perLeaseCounts : Dict String ℕ

/-- The buckets `_get_capacity` builds on first use. -/
def getCapacity (settings : Settings) : CapacityBuckets where
  globalSemaphore := ⟨settings.mailPollMaxConcurrency, settings.mailPollMaxConcurrency⟩
  perClientLimit := settings.mailPollMaxConcurrencyPerClient
  perLeaseLimit := settings.mailPollMaxConcurrencyPerLease
  perClientCounts := ∅
  perLeaseCounts := ∅

def countUp (counts : Dict String ℕ) (k : String) : Dict String ℕ :=
  counts.set k (counts.get k 0 + 1)

/-- One less under a key; the last one removes the key. -/
def countDown (counts : Dict String ℕ) (k : String) : Dict String ℕ :=
  if counts.get k 0 ≤ 1 then counts.pop k else counts.set k (counts.get k 0 - 1)

/-- The `finally` block. -/
def CapacityBuckets.cleanup (c : CapacityBuckets) (clientKeyId leaseId : String) :
    CapacityBuckets :=
  { c with
    perClientCounts := countDown c.perClientCounts clientKeyId
    perLeaseCounts := countDown c.perLeaseCounts leaseId
    globalSemaphore := c.globalSemaphore.release }

/-- Entering `acquire_verification_poll_slot`, up to the `yield` or the raise.
A refusal for the client or the lease is raised inside the `try`, so it runs
the cleanup as well. -/
def acquireVerificationPollSlot (c : CapacityBuckets) (clientKeyId leaseId : String) :
    Except Scope Unit × CapacityBuckets :=
  match c.globalSemaphore.acquire with
  | none => (.error .global, c)
  | some semaphore =>
      let c := { c with globalSemaphore := semaphore }
      if c.perClientCounts.get clientKeyId 0 ≥ c.perClientLimit then
        (.error .client, c.cleanup clientKeyId leaseId)
      else if c.perLeaseCounts.get leaseId 0 ≥ c.perLeaseLimit then
        (.error .lease, c.cleanup clientKeyId leaseId)
      else
        (.ok (), { c with
          perClientCounts := countUp c.perClientCounts clientKeyId
          perLeaseCounts := countUp c.perLeaseCounts leaseId })

/-! ## Runs -/

structure Poll where
  clientKeyId : String
  leaseId : String
  deriving DecidableEq, Repr

/-- The buckets, and the polls between their `yield` and their exit. -/
structure PollSlots where
  capacity : CapacityBuckets
  inside : List Poll

inductive SlotEvent where
  /-- A poll tries to enter; it is admitted or refused. -/
  | enter (p : Poll)
  /-- A poll that is inside ends. -/
  | exit (p : Poll)
  deriving DecidableEq, Repr

def PollSlots.start (settings : Settings) : PollSlots := ⟨getCapacity settings, []⟩

def slotStep (s : PollSlots) : SlotEvent → PollSlots
  | .enter p =>
      match acquireVerificationPollSlot s.capacity p.clientKeyId p.leaseId with
      | (.ok _, c) => ⟨c, p :: s.inside⟩
      | (.error _, c) => { s with capacity := c }
  | .exit p =>
      if p ∈ s.inside then
        ⟨s.capacity.cleanup p.clientKeyId p.leaseId, s.inside.erase p⟩
      else s

def PollSlots.clientPolls (s : PollSlots) (clientKeyId : String) : ℕ :=
  s.inside.countP fun p => p.clientKeyId = clientKeyId

def PollSlots.leasePolls (s : PollSlots) (leaseId : String) : ℕ :=
  s.inside.countP fun p => p.leaseId = leaseId

/-- **Accounting**: every counter is the number of polls inside, and no limit
is exceeded. -/
structure Accounted (settings : Settings) (s : PollSlots) : Prop where
  client : ∀ k, s.capacity.perClientCounts.get k 0 = s.clientPolls k
  lease : ∀ k, s.capacity.perLeaseCounts.get k 0 = s.leasePolls k
  global_limit : s.inside.length ≤ settings.mailPollMaxConcurrency
  client_limit : ∀ k, s.clientPolls k ≤ settings.mailPollMaxConcurrencyPerClient
  lease_limit : ∀ k, s.leasePolls k ≤ settings.mailPollMaxConcurrencyPerLease

/-- A step that refuses a poll leaves every counter as it was. -/
def RefusalNeutral (s : PollSlots) : SlotEvent → Prop
  | .enter p => (slotStep s (.enter p)).inside = s.inside →
      (slotStep s (.enter p)).capacity = s.capacity
  | .exit _ => True

/-- A poll that finds a global token free also finds room under its client key
and its lease. -/
def RoomBelowGlobal (settings : Settings) (s : PollSlots) : SlotEvent → Prop
  | .enter p => s.inside.length < settings.mailPollMaxConcurrency →
      s.clientPolls p.clientKeyId < settings.mailPollMaxConcurrencyPerClient ∧
        s.leasePolls p.leaseId < settings.mailPollMaxConcurrencyPerLease
  | .exit _ => True

instance (settings : Settings) (s : PollSlots) (e : SlotEvent) :
    Decidable (RoomBelowGlobal settings s e) := by
  cases e <;> unfold RoomBelowGlobal <;> infer_instance

/-! ## What a step does -/

/-- What holds of the buckets whatever is refused: the limits never change and
the semaphore's tokens and the polls inside add up to its bound. -/
structure Balanced (settings : Settings) (s : PollSlots) : Prop where
  clientLimit : s.capacity.perClientLimit = settings.mailPollMaxConcurrencyPerClient
  leaseLimit : s.capacity.perLeaseLimit = settings.mailPollMaxConcurrencyPerLease
  bound : s.capacity.globalSemaphore.bound = settings.mailPollMaxConcurrency
  tokens : s.capacity.globalSemaphore.value + s.inside.length =
    settings.mailPollMaxConcurrency

theorem get_countUp (counts : Dict String ℕ) (k k' : String) :
    (countUp counts k).get k' 0 = counts.get k' 0 + if k' = k then 1 else 0 := by
  unfold countUp
  rw [Dict.get_set]
  split
  · rename_i h
    rw [h]
  · rfl

theorem get_countDown (counts : Dict String ℕ) (k k' : String) :
    (countDown counts k).get k' 0 = counts.get k' 0 - if k' = k then 1 else 0 := by
  unfold countDown
  split
  · rename_i h
    rw [Dict.get_pop]
    split
    · rename_i hk
      subst hk
      omega
    · rfl
  · rw [Dict.get_set]
    split
    · rename_i hk
      rw [hk]
    · rfl

theorem release_of_balanced {settings : Settings} {s : PollSlots}
    (h : Balanced settings s) (hpos : 0 < s.inside.length) :
    s.capacity.globalSemaphore.release =
      { s.capacity.globalSemaphore with value := s.capacity.globalSemaphore.value + 1 } := by
  unfold BoundedSemaphore.release
  rw [if_pos]
  rw [h.bound]
  have := h.tokens
  omega

/-- What an entering poll does, with all guards: no token, no room for the
client, no room for the lease, or admission. -/
theorem enter_cases {settings : Settings} {s : PollSlots} (h : Balanced settings s)
    (p : Poll) :
    (s.inside.length = settings.mailPollMaxConcurrency ∧
      slotStep s (.enter p) = s) ∨
    (s.inside.length < settings.mailPollMaxConcurrency ∧
      (settings.mailPollMaxConcurrencyPerClient ≤
          s.capacity.perClientCounts.get p.clientKeyId 0 ∨
        settings.mailPollMaxConcurrencyPerLease ≤
          s.capacity.perLeaseCounts.get p.leaseId 0) ∧
      slotStep s (.enter p) = { s with capacity := { s.capacity with
        perClientCounts := countDown s.capacity.perClientCounts p.clientKeyId
        perLeaseCounts := countDown s.capacity.perLeaseCounts p.leaseId } }) ∨
    (s.inside.length < settings.mailPollMaxConcurrency ∧
      s.capacity.perClientCounts.get p.clientKeyId 0 <
        settings.mailPollMaxConcurrencyPerClient ∧
      s.capacity.perLeaseCounts.get p.leaseId 0 <
        settings.mailPollMaxConcurrencyPerLease ∧
      slotStep s (.enter p) =
        ⟨{ s.capacity with
          globalSemaphore := { s.capacity.globalSemaphore with
            value := s.capacity.globalSemaphore.value - 1 }
          perClientCounts := countUp s.capacity.perClientCounts p.clientKeyId
          perLeaseCounts := countUp s.capacity.perLeaseCounts p.leaseId },
          p :: s.inside⟩) := by
  have htokens := h.tokens
  have hbound := h.bound
  by_cases hzero : s.capacity.globalSemaphore.value = 0
  · refine Or.inl ⟨by omega, ?_⟩
    simp only [slotStep, acquireVerificationPollSlot, BoundedSemaphore.acquire, hzero,
      if_true]
  · have hlt : s.inside.length < settings.mailPollMaxConcurrency := by omega
    -- the token just taken goes back in the cleanup
    have hback : BoundedSemaphore.release
        { s.capacity.globalSemaphore with value := s.capacity.globalSemaphore.value - 1 } =
        s.capacity.globalSemaphore := by
      unfold BoundedSemaphore.release
      rw [if_pos (by simp only; omega)]
      show BoundedSemaphore.mk (s.capacity.globalSemaphore.value - 1 + 1) _ = _
      rw [Nat.sub_add_cancel (by omega)]
    by_cases hc : settings.mailPollMaxConcurrencyPerClient ≤
        s.capacity.perClientCounts.get p.clientKeyId 0
    · refine Or.inr (Or.inl ⟨hlt, Or.inl hc, ?_⟩)
      simp only [slotStep, acquireVerificationPollSlot, BoundedSemaphore.acquire, hzero,
        if_false, ge_iff_le, h.clientLimit, hc, if_true, CapacityBuckets.cleanup, hback]
    · by_cases hl : settings.mailPollMaxConcurrencyPerLease ≤
          s.capacity.perLeaseCounts.get p.leaseId 0
      · refine Or.inr (Or.inl ⟨hlt, Or.inr hl, ?_⟩)
        simp only [slotStep, acquireVerificationPollSlot, BoundedSemaphore.acquire, hzero,
          if_false, ge_iff_le, h.clientLimit, h.leaseLimit, hc, hl, if_true,
          CapacityBuckets.cleanup, hback]
      · refine Or.inr (Or.inr ⟨hlt, by omega, by omega, ?_⟩)
        simp only [slotStep, acquireVerificationPollSlot, BoundedSemaphore.acquire, hzero,
          if_false, ge_iff_le, h.clientLimit, h.leaseLimit, hc, hl]

theorem start_balanced (settings : Settings) : Balanced settings (.start settings) :=
  ⟨rfl, rfl, rfl, rfl⟩

theorem slotStep_balanced {settings : Settings} {s : PollSlots} (e : SlotEvent)
    (h : Balanced settings s) : Balanced settings (slotStep s e) := by
  cases e with
  | enter p =>
      rcases enter_cases h p with ⟨-, heq⟩ | ⟨-, -, heq⟩ | ⟨hlt, -, -, heq⟩
      · rw [heq]
        exact h
      · rw [heq]
        exact ⟨h.clientLimit, h.leaseLimit, h.bound, h.tokens⟩
      · rw [heq]
        refine ⟨h.clientLimit, h.leaseLimit, h.bound, ?_⟩
        have := h.tokens
        simp only [List.length_cons]
        omega
  | exit p =>
      simp only [slotStep]
      split
      · rename_i hp
        have hpos : 0 < s.inside.length := List.length_pos_of_mem hp
        refine ⟨h.clientLimit, h.leaseLimit, ?_, ?_⟩
        · simp only [CapacityBuckets.cleanup, release_of_balanced h hpos]
          exact h.bound
        · simp only [CapacityBuckets.cleanup, release_of_balanced h hpos,
            List.length_erase_of_mem hp]
          have := h.tokens
          omega
      · exact h

/-! ## Accounting -/

theorem start_accounted (settings : Settings) : Accounted settings (.start settings) :=
  ⟨fun _ => rfl, fun _ => rfl, Nat.zero_le _, fun _ => Nat.zero_le _, fun _ => Nat.zero_le _⟩

theorem countP_erase_of_mem {inside : List Poll} {p : Poll} (q : Poll → Bool)
    (hp : p ∈ inside) :
    (inside.erase p).countP q = inside.countP q - if q p then 1 else 0 := by
  have := (List.perm_cons_erase hp).countP_eq q
  rw [List.countP_cons] at this
  omega

theorem exit_accounted {settings : Settings} {s : PollSlots} (p : Poll)
    (h : Accounted settings s) : Accounted settings (slotStep s (.exit p)) := by
  simp only [slotStep]
  split
  · rename_i hp
    have hclient : ∀ k, (s.inside.erase p).countP (fun q => q.clientKeyId = k) =
        s.clientPolls k - if k = p.clientKeyId then 1 else 0 := by
      intro k
      rw [countP_erase_of_mem _ hp]
      simp only [decide_eq_true_eq, eq_comm (a := k)]
      rfl
    have hlease : ∀ k, (s.inside.erase p).countP (fun q => q.leaseId = k) =
        s.leasePolls k - if k = p.leaseId then 1 else 0 := by
      intro k
      rw [countP_erase_of_mem _ hp]
      simp only [decide_eq_true_eq, eq_comm (a := k)]
      rfl
    refine ⟨?_, ?_, ?_, ?_, ?_⟩
    · intro k
      simp only [CapacityBuckets.cleanup, get_countDown, h.client, PollSlots.clientPolls,
        hclient]
    · intro k
      simp only [CapacityBuckets.cleanup, get_countDown, h.lease, PollSlots.leasePolls,
        hlease]
    · have := h.global_limit
      simp only [List.length_erase_of_mem hp]
      omega
    · intro k
      have := h.client_limit k
      simp only [PollSlots.clientPolls, hclient] at this ⊢
      omega
    · intro k
      have := h.lease_limit k
      simp only [PollSlots.leasePolls, hlease] at this ⊢
      omega
  · exact h

/-- **Exact step lemma**: an entering poll keeps the accounting exactly if it
is not refused for its client or its lease. -/
theorem enter_accounted_iff {settings : Settings} {s : PollSlots} (p : Poll)
    (hb : Balanced settings s) (h : Accounted settings s) :
    Accounted settings (slotStep s (.enter p)) ↔
      RoomBelowGlobal settings s (.enter p) := by
  have hclient := h.client p.clientKeyId
  have hlease := h.lease p.leaseId
  rcases enter_cases hb p with ⟨hfull, heq⟩ | ⟨hlt, hno, heq⟩ | ⟨hlt, hc, hl, heq⟩
  · rw [heq]
    exact ⟨fun _ hlt => absurd hlt (by omega), fun _ => h⟩
  · -- the cleanup of the refused poll counts down a poll that is still inside
    constructor
    · intro hacc
      rw [heq] at hacc
      exfalso
      have hclient' := hacc.client p.clientKeyId
      have hlease' := hacc.lease p.leaseId
      change (countDown s.capacity.perClientCounts p.clientKeyId).get p.clientKeyId 0 =
        s.clientPolls p.clientKeyId at hclient'
      change (countDown s.capacity.perLeaseCounts p.leaseId).get p.leaseId 0 =
        s.leasePolls p.leaseId at hlease'
      rw [get_countDown, if_pos rfl] at hclient' hlease'
      have hone := settings.client_bounds.1
      have hone' := settings.lease_bounds.1
      rcases hno with hno | hno <;> omega
    · intro hroom
      obtain ⟨hc, hl⟩ := hroom hlt
      rcases hno with hno | hno <;> omega
  · rw [heq]
    constructor
    · intro _ _
      exact ⟨by omega, by omega⟩
    · intro _
      refine ⟨?_, ?_, ?_, ?_, ?_⟩
      · intro k
        simp only [get_countUp, h.client, PollSlots.clientPolls, List.countP_cons,
          decide_eq_true_eq, eq_comm (a := k)]
      · intro k
        simp only [get_countUp, h.lease, PollSlots.leasePolls, List.countP_cons,
          decide_eq_true_eq, eq_comm (a := k)]
      · simp only [List.length_cons]
        omega
      · intro k
        have hk := h.client_limit k
        simp only [PollSlots.clientPolls, List.countP_cons, decide_eq_true_eq] at hk ⊢
        split
        · rename_i hkp
          subst hkp
          rw [hclient] at hc
          unfold PollSlots.clientPolls at hc
          omega
        · omega
      · intro k
        have hk := h.lease_limit k
        simp only [PollSlots.leasePolls, List.countP_cons, decide_eq_true_eq] at hk ⊢
        split
        · rename_i hkp
          subst hkp
          rw [hlease] at hl
          unfold PollSlots.leasePolls at hl
          omega
        · omega

theorem slotStep_accounted_iff {settings : Settings} (s : PollSlots) (e : SlotEvent)
    (hb : Balanced settings s) (h : Accounted settings s) :
    Accounted settings (slotStep s e) ↔ RoomBelowGlobal settings s e := by
  cases e with
  | enter p => exact enter_accounted_iff p hb h
  | exit p => exact ⟨fun _ => trivial, fun _ => exit_accounted p h⟩

theorem slotStep_refusalNeutral {settings : Settings} (s : PollSlots) (e : SlotEvent)
    (hb : Balanced settings s) (h : Accounted settings s)
    (hroom : RoomBelowGlobal settings s e) : RefusalNeutral s e := by
  cases e with
  | exit p => trivial
  | enter p =>
      intro hinside
      rcases enter_cases hb p with ⟨-, heq⟩ | ⟨hlt, hno, -⟩ | ⟨-, -, -, heq⟩
      · rw [heq]
      · have hclient := h.client p.clientKeyId
        have hlease := h.lease p.leaseId
        obtain ⟨hc, hl⟩ := hroom hlt
        rcases hno with hno | hno <;> omega
      · rw [heq] at hinside
        have := congrArg List.length hinside
        simp only [List.length_cons] at this
        omega

/-! ## Every run -/

/-- The promise of the module over one run: the counters are right in every
state, and refusals change none of them. -/
def SlotAccounting (settings : Settings) (events : List SlotEvent) : Prop :=
  Throughout slotStep (Accounted settings) (.start settings) events ∧
    Meets slotStep RefusalNeutral (.start settings) events

/-- **The counters are right exactly in the runs that refuse no poll for its
client or its lease.** -/
theorem slotAccounting_iff (settings : Settings) (events : List SlotEvent) :
    SlotAccounting settings events ↔
      Meets slotStep (RoomBelowGlobal settings) (.start settings) events := by
  have hiff : Throughout slotStep (Accounted settings) (.start settings) events ↔
      Meets slotStep (RoomBelowGlobal settings) (.start settings) events :=
    meets_iff_throughout (fun _ e hs => slotStep_balanced e hs) slotStep_accounted_iff
      (start_balanced settings) (start_accounted settings)
  constructor
  · intro h
    exact hiff.mp h.1
  · intro h
    refine ⟨hiff.mpr h, ?_⟩
    refine Meets.imp_of_invariant (P := fun s => Balanced settings s ∧ Accounted settings s)
      ?_ ?_ ⟨start_balanced settings, start_accounted settings⟩ h
    · intro s e hs hroom
      exact ⟨slotStep_balanced e hs.1, (slotStep_accounted_iff s e hs.1 hs.2).mpr hroom⟩
    · intro s e hs hroom
      exact slotStep_refusalNeutral s e hs.1 hs.2 hroom

/-- Under the default limits a second poll on a lease is refused, and its
cleanup forgets the first, which is still inside. -/
theorem refused_poll_forgets_other :
    ¬ SlotAccounting Settings.default
      [.enter ⟨"client", "lease"⟩, .enter ⟨"client", "lease"⟩] := by
  intro h
  have hcount := h.1.last.client "client"
  revert hcount
  decide

end MailboxService.VerificationPollCapacity
