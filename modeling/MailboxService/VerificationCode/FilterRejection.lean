import MailboxService.Foundation.Checks
import MailboxService.VerificationCode.LeaseRequests
import MailboxService.VerificationCode.PollSteps

/-!
# Filters that SMSBower turns down

A request for a code from SMSBower ends with `PROVIDER_FILTER_UNSUPPORTED` where
its poll is handed a filter. The endpoint hands it a recipient whether or not
the request names one.
-/

namespace MailboxService

open Foundation VerificationPollCapacity

section

variable [Platform]

/-! ## The codes of failed checkpoints -/

/-- The code of the response to a filter that is turned down. -/
def filterUnsupported : String := "PROVIDER_FILTER_UNSUPPORTED"

/-- The codes of failed checkpoints. -/
def authorizationCodes : List String :=
  ["CLIENT_KEY_SCOPE_DENIED", "CLIENT_KEY_INACTIVE", "CLIENT_KEY_EXPIRED", "LEASE_NOT_FOUND",
    "LEASE_MODE_MISMATCH", "LEASE_INACTIVE"]

omit [Platform] in
theorem code_requireVerificationScope {principal : ClientPrincipal}
    {e : VerificationAuthorizationError} (h : requireVerificationScope principal = .error e) :
    e.code ∈ authorizationCodes := by
  unfold requireVerificationScope at h
  split at h
  · cases h
  · cases h
    decide

theorem code_revalidateClientKey {w : PollWorld} {principal : ClientPrincipal}
    {e : VerificationAuthorizationError} (h : revalidateClientKey w principal = .error e) :
    e.code ∈ authorizationCodes := by
  unfold revalidateClientKey at h
  split at h
  · cases h
    decide
  · split_ifs at h
    · cases h
      decide
    · cases h
      decide
    · cases h
      decide

theorem code_revalidateLease {w : PollWorld} {principal : ClientPrincipal} {leaseId : String}
    {e : VerificationAuthorizationError} (h : revalidateLease w principal leaseId = .error e) :
    e.code ∈ authorizationCodes := by
  unfold revalidateLease at h
  split at h
  · cases h
    decide
  · split_ifs at h
    · cases h
      decide
    · cases h
      decide
    · cases h
      decide
    · cases h
      decide

theorem code_revalidateLeasedMailbox {w : PollWorld} {lease : Lease}
    {e : VerificationAuthorizationError} (h : revalidateLeasedMailbox w lease = .error e) :
    e.code ∈ authorizationCodes := by
  unfold revalidateLeasedMailbox at h
  dsimp only at h
  split_ifs at h
  · split at h
    · cases h
      decide
    · split_ifs at h
      cases h
      decide
  · cases h
    decide
  · split at h
    · cases h
      decide
    · split_ifs at h
      cases h
      decide

theorem code_revalidate {w : PollWorld} {principal : ClientPrincipal} {leaseId : String}
    {e : VerificationAuthorizationError}
    (h : revalidateVerificationAuthorization w principal leaseId = .error e) :
    e.code ∈ authorizationCodes := by
  unfold revalidateVerificationAuthorization at h
  rcases Checks.bind_eq_error.mp h with h | ⟨_, -, h⟩
  · exact code_requireVerificationScope h
  · rcases Checks.bind_eq_error.mp h with h | ⟨_, -, h⟩
    · exact code_revalidateClientKey h
    · rcases Checks.bind_eq_error.mp h with h | ⟨lease, -, h⟩
      · exact code_revalidateLease h
      · rcases Checks.bind_eq_error.mp h with h | ⟨_, -, h⟩
        · exact code_revalidateLeasedMailbox h
        · cases h

/-! ## What a poll raises -/

/-- The error is not that of a filter that is turned down. -/
def PollError.KeepsFilters (error : PollError) : Prop :=
  (VerificationRequestError.poll error).response.2 ≠ filterUnsupported

theorem error?_eq_some {s : PollState} {error : PollError} :
    s.error? = some error ↔ s.phase = .raised error := by
  unfold PollState.error?
  split
  · rename_i e h
    rw [h]
    constructor
    · rintro ⟨⟩
      rfl
    · rintro ⟨⟩
      rfl
  · rename_i h
    refine iff_of_false nofun ?_
    intro hraised
    exact h error hraised

variable [MailText] [CodeSearch]

/-- **What one step raises.** -/
theorem error?_step {request : PollRequest} {s : PollState} {e : PollEvent} {error : PollError}
    (h : (pollStep request s e).error? = some error) :
    s.error? = some error ∨ MayRaise s.world request error := by
  have hphase := error?_eq_some.mp h
  have hchange := phaseChange_step request s e
  rw [hphase] at hchange
  generalize hraised : PollPhase.raised error = phase at hchange
  cases hchange with
  | stays => exact Or.inl (error?_eq_some.mpr hraised.symm)
  | goesOn _ hsilent =>
      rw [← hraised] at hsilent
      exact absurd hsilent id
  | fails _ hraises =>
      cases hraised
      exact Or.inr hraises
  | givesUp => cases hraised
  | scanFinds => cases hraised
  | codeArrives => cases hraised
  | inboxFinds => cases hraised
  | confirms => cases hraised

/-! ## Runs -/

omit [MailText] [CodeSearch] in
theorem keepsFilters_of_mayRaise {w : PollWorld} {request : PollRequest} {error : PollError}
    (h : MayRaise w request error) : error.KeepsFilters := by
  cases error with
  | authorization e =>
      have hcode := code_revalidate h
      rintro hunsupported
      rw [show e.code = filterUnsupported from hunsupported] at hcode
      exact absurd hcode (by decide)
  | read message =>
      show "MAILBOX_INBOX_READ_FAILED" ≠ filterUnsupported
      decide
  | unsupportedFilter message => exact absurd h id
  | value message => exact absurd h id

/-- **A poll that runs turns no filter down.** -/
theorem keepsFilters_exec {request : PollRequest} {s : PollState} (hs : s.error? = none)
    (events : List PollEvent) :
    ∀ error, (exec (pollStep request) s events).error? = some error → error.KeepsFilters := by
  refine exec_invariant (P := fun s : PollState => ∀ error, s.error? = some error →
    error.KeepsFilters) ?_ ?_ events
  · intro s e ih error h
    rcases error?_step h with h | h
    · exact ih error h
    · exact keepsFilters_of_mayRaise h
  · intro error h
    rw [hs] at h
    cases h

theorem error?_exec {request : PollRequest} {s : PollState} {error : PollError}
    (hs : s.error? = some error) (events : List PollEvent) :
    (exec (pollStep request) s events).error? = some error := by
  have hphase := error?_eq_some.mp hs
  have hended : s.phase.Ended := by
    rw [hphase]
    trivial
  exact error?_eq_some.mpr ((phase_exec_of_ended hended events).trans hphase)

/-! ## Leases of SMSBower -/

/-- An active lease of the caller for reading mail, on a resource of SMSBower. -/
structure ActiveSmsBowerLease (w : PollWorld) (principal : ClientPrincipal) (leaseId : String)
    (lease : Lease) (resource : MailboxProviderResource) : Prop where
  scope : verificationCodeScope ∈ principal.scopes
  key : KeyAuthorized w principal
  active : LeaseAuthorized w principal leaseId lease
  noMailbox : missing lease.mailboxId = true
  onResource : missing lease.providerResourceId = false
  found : w.db.providerResources.get? (lease.providerResourceId.getD "") = some resource
  claimed : resource.lifecycleState = .claimed
  smsbower : resource.providerType = "smsbower_gmail"

def MailboxProviderResource.standIn (resource : MailboxProviderResource) : Mailbox where
  id := resource.id
  providerType := resource.providerType
  primaryEmail := resource.primaryEmail
  status := .active
  tokenVersion := 1

/-- The poll that a request for a code starts. -/
def LeaseVerificationCodeRequest.poll (payload : LeaseVerificationCodeRequest)
    (principal : ClientPrincipal) (leaseId : String) (lease : Lease)
    (resource : MailboxProviderResource) : PollRequest where
  principal := principal
  leaseId := leaseId
  mailbox := resource.standIn
  options := payload.options
    ((payload.fields.recipient.bind orNone).getD (responseAllocatedEmail lease resource.standIn))

section Lease

variable {w : PollWorld} {principal : ClientPrincipal} {leaseId : String} {lease : Lease}
  {resource : MailboxProviderResource} {payload : LeaseVerificationCodeRequest}

omit [MailText] [CodeSearch] in
theorem loadActive_smsbower (h : ActiveSmsBowerLease w principal leaseId lease resource) :
    loadActiveMailReadLease w principal leaseId = .ok (lease, resource.standIn) := by
  obtain ⟨hget, howner, hmode, hreleased, hexpires⟩ := h.active
  have howned : loadOwnedLease w principal leaseId = .ok lease := by
    unfold loadOwnedLease Database.ownedLease?
    rw [hget, Option.filter_some, if_pos (decide_eq_true howner)]
    simp only [hreleased, isExpired, Option.isSome_none, Bool.false_or, decide_eq_true_eq,
      if_neg (not_le.mpr hexpires)]
  have hmailbox : loadLeasedMailbox w lease = .ok resource.standIn := by
    unfold loadLeasedMailbox
    simp only [h.noMailbox, h.onResource, h.found, h.claimed, Bool.not_true, Bool.false_eq_true,
      if_false, ne_eq, not_true_eq_false]
    rfl
  unfold loadActiveMailReadLease
  simp only [if_neg (not_not.mpr h.scope), howned, bind, Except.bind, hmode, hmailbox, ne_eq,
    not_true_eq_false, if_false]
  rfl

omit [MailText] [CodeSearch] in
theorem getLeaseVerificationCode_smsbower
    (h : ActiveSmsBowerLease w principal leaseId lease resource) (capacity : CapacityBuckets) :
    getLeaseVerificationCode w capacity principal leaseId payload =
      (((acquireVerificationPollSlot capacity principal.clientKeyId lease.id).1.mapError
        .capacity).map fun _ => payload.poll principal leaseId lease resource) := by
  have hauthorized : Authorized w principal leaseId := by
    refine ⟨h.scope, h.key, lease, h.active, ?_⟩
    unfold LeasedMailboxReadable
    rw [if_pos h.noMailbox]
    exact ⟨h.onResource, resource, h.found, h.claimed⟩
  obtain ⟨found, hfound⟩ := revalidate_ok_iff.mpr hauthorized
  unfold getLeaseVerificationCode
  rw [hfound, loadActive_smsbower h]
  show ((acquireVerificationPollSlot capacity principal.clientKeyId lease.id).1.mapError
    VerificationRequestError.capacity >>= fun _ =>
      Except.ok (payload.poll principal leaseId lease resource)) = _
  cases (acquireVerificationPollSlot capacity principal.clientKeyId lease.id).1 with
  | error scope => rfl
  | ok _ => rfl

omit [MailText] [CodeSearch] in
theorem loop_poll (h : ActiveSmsBowerLease w principal leaseId lease resource) :
    (payload.poll principal leaseId lease resource).loop = .smsbower := by
  have htype : (payload.poll principal leaseId lease resource).providerType =
      "smsbower_gmail" := by
    unfold PollRequest.providerType
    rw [show (payload.poll principal leaseId lease resource).mailbox.providerType =
      "smsbower_gmail" from h.smsbower]
    rfl
  unfold PollRequest.loop
  rw [htype]
  rfl

omit [MailText] [CodeSearch] in
theorem customMatcher_ok (payload : LeaseVerificationCodeRequest) (recipient : String) :
    ∃ m, (payload.options recipient).customMatcher = .ok m := by
  cases hregex : payload.fields.codeRegex with
  | none =>
      refine ⟨none, ?_⟩
      unfold VerificationCodeLookupOptions.customMatcher
      rw [show (payload.options recipient).codeRegex = none from hregex]
      rfl
  | some s =>
      obtain ⟨hne, hstrip⟩ := payload.normalizedText (Or.inr rfl) s hregex
      have hregistered := payload.registered
      rw [hregex] at hregistered
      have hlookup : (safeCodeRegexPresets.lookup s).isSome = true := hregistered
      obtain ⟨patternType, hpattern⟩ := Option.isSome_iff_exists.mp hlookup
      unfold VerificationCodeLookupOptions.customMatcher
      rw [show (payload.options recipient).codeRegex = some s from hregex, Option.bind_some,
        show orNone s = some s from if_neg hne]
      unfold fromDeprecatedCodeRegex
      simp only [hstrip, if_neg hne, hpattern]
      cases patternType <;> exact ⟨_, rfl⟩

omit [MailText] [CodeSearch] in
theorem missing_filter {field : Option String} (h : field ∈ payload.fields.filters) :
    missing field = !field.isSome := by
  cases field with
  | none => rfl
  | some s => exact decide_eq_false (payload.normalizedText (Or.inl h) s rfl).1

def NoAddress (lease : Lease) (resource : MailboxProviderResource) : Prop :=
  missing lease.allocatedEmail = true ∧ resource.primaryEmail = ""

omit [Platform] [MailText] [CodeSearch] in
theorem responseAllocatedEmail_eq_empty :
    responseAllocatedEmail lease resource.standIn = "" ↔ NoAddress lease resource := by
  unfold responseAllocatedEmail NoAddress
  cases lease.allocatedEmail with
  | none => simp [missing, MailboxProviderResource.standIn]
  | some s =>
      by_cases hs : s = ""
      · subst hs
        simp [missing, orNone, MailboxProviderResource.standIn]
      · simp [missing, orNone, hs]

omit [MailText] [CodeSearch] in
/-- **The poll is handed a filter** exactly if the request sets one or the lease
has an address. -/
theorem poll_filters_iff :
    (payload.poll principal leaseId lease resource).options.filters.any (!missing ·) = true ↔
      payload.SetsFilter ∨ ¬ NoAddress lease resource := by
  have hset : ∀ field ∈ payload.fields.filters, (!missing field) = field.isSome := by
    intro field hfield
    rw [missing_filter hfield, Bool.not_not]
  unfold LeaseVerificationCodeRequest.SetsFilter
  have hall : (payload.poll principal leaseId lease resource).options.filters =
      [payload.fields.fromAddress, payload.fields.subjectContains, payload.fields.bodyContains,
        some ((payload.fields.recipient.bind orNone).getD
          (responseAllocatedEmail lease resource.standIn))] := rfl
  have hrecipient : (!missing (some ((payload.fields.recipient.bind orNone).getD
      (responseAllocatedEmail lease resource.standIn)))) = true ↔
      payload.fields.recipient.isSome = true ∨ ¬ NoAddress lease resource := by
    rw [← responseAllocatedEmail_eq_empty]
    cases hfield : payload.fields.recipient with
    | none => simp [missing]
    | some s =>
        have hmem : payload.fields.recipient ∈ payload.fields.filters :=
          List.mem_cons_of_mem _ (List.mem_cons_of_mem _ (List.mem_cons_of_mem _
            (List.mem_singleton_self _)))
        have hne : s ≠ "" := (payload.normalizedText (Or.inl hmem) s hfield).1
        simp [missing, orNone, hne]
  unfold RawVerificationCodeRequest.filters at hset ⊢
  simp only [List.mem_cons, List.not_mem_nil, or_false, forall_eq_or_imp, forall_eq,
    exists_eq_or_imp, exists_eq_left] at hset ⊢
  obtain ⟨hfrom, hsubject, hbody, -⟩ := hset
  rw [hall]
  simp only [List.any_cons, List.any_nil, Bool.or_false, hfrom, hsubject, hbody,
    Bool.or_eq_true, hrecipient]
  tauto

/-! ## The start of the poll -/

omit [MailText] [CodeSearch] in
theorem start_rejected (h : ActiveSmsBowerLease w principal leaseId lease resource)
    (hfilter : payload.SetsFilter ∨ ¬ NoAddress lease resource) (w' : PollWorld) :
    ((payload.poll principal leaseId lease resource).start w').error? =
      some (.unsupportedFilter "SMSBower direct-code path does not support message filters") := by
  obtain ⟨m, hm⟩ := customMatcher_ok payload
    ((payload.fields.recipient.bind orNone).getD (responseAllocatedEmail lease resource.standIn))
  have hany : (payload.poll principal leaseId lease resource).options.filters.any
      (!missing ·) = true := poll_filters_iff.mpr hfilter
  unfold PollRequest.start
  rw [show (payload.poll principal leaseId lease resource).options.customMatcher = .ok m from hm]
  simp only [loop_poll h, hany, and_self, if_true]
  rfl

omit [MailText] [CodeSearch] in
theorem start_checking (hfilter : ¬ (payload.SetsFilter ∨ ¬ NoAddress lease resource))
    (w' : PollWorld) :
    ((payload.poll principal leaseId lease resource).start w').phase = .checking := by
  obtain ⟨m, hm⟩ := customMatcher_ok payload
    ((payload.fields.recipient.bind orNone).getD (responseAllocatedEmail lease resource.standIn))
  have hany : ¬ (payload.poll principal leaseId lease resource).options.filters.any
      (!missing ·) = true := fun hany => hfilter (poll_filters_iff.mp hany)
  unfold PollRequest.start
  rw [show (payload.poll principal leaseId lease resource).options.customMatcher = .ok m from hm]
  simp only [hany, Bool.false_eq_true, and_false, if_false]

/-! ## Exactness -/

/-- **Filter rejection is exact**: the request ends with the error for filters,
whatever happens, if and only if it sets one, and otherwise reaches the loop of
SMSBower. -/
structure FilterRejectionExact (w : PollWorld) (capacity : CapacityBuckets)
    (principal : ClientPrincipal) (leaseId : String) (payload : LeaseVerificationCodeRequest) :
    Prop where
  rejects : ∀ w' events,
    (∃ e, requestError w capacity principal leaseId payload w' events = some e ∧
      e.response.2 = filterUnsupported) ↔ payload.SetsFilter
  polls : ¬ payload.SetsFilter →
    ∃ request, getLeaseVerificationCode w capacity principal leaseId payload = .ok request ∧
      request.loop = .smsbower ∧ ∀ w', (request.start w').phase = .checking

def SlotFree (capacity : CapacityBuckets) (principal : ClientPrincipal) (lease : Lease) : Prop :=
  (acquireVerificationPollSlot capacity principal.clientKeyId lease.id).1 = .ok ()

/-- **Filter rejection is exact** precisely if a poll slot is free and the
request sets a filter or the lease has no address. -/
theorem filter_rejection_exact_iff
    (h : ActiveSmsBowerLease w principal leaseId lease resource) (capacity : CapacityBuckets) :
    FilterRejectionExact w capacity principal leaseId payload ↔
      SlotFree capacity principal lease ∧ (payload.SetsFilter ∨ NoAddress lease resource) := by
  have hrequest : getLeaseVerificationCode w capacity principal leaseId payload = _ :=
    getLeaseVerificationCode_smsbower h capacity
  unfold SlotFree
  cases hslot : (acquireVerificationPollSlot capacity principal.clientKeyId lease.id).1 with
  | error scope =>
      rw [hslot] at hrequest
      have hrequest : getLeaseVerificationCode w capacity principal leaseId payload =
        .error (.capacity scope) := hrequest
      refine iff_of_false ?_ (fun hfree => by cases hfree.1)
      intro hexact
      by_cases hset : payload.SetsFilter
      · obtain ⟨e, he, hcode⟩ := (hexact.rejects w []).mpr hset
        unfold requestError at he
        rw [hrequest] at he
        cases he
        have hcode : "VERIFICATION_POLL_CAPACITY_EXCEEDED" = filterUnsupported := hcode
        exact absurd hcode (by decide)
      · obtain ⟨request, hok, -⟩ := hexact.polls hset
        rw [hrequest] at hok
        cases hok
  | ok _ =>
      rw [hslot] at hrequest
      have hrequest : getLeaseVerificationCode w capacity principal leaseId payload =
        .ok (payload.poll principal leaseId lease resource) := hrequest
      have herror : ∀ w' events,
          requestError w capacity principal leaseId payload w' events =
            (exec (pollStep (payload.poll principal leaseId lease resource))
              ((payload.poll principal leaseId lease resource).start w') events).error?.map
              .poll := by
        intro w' events
        unfold requestError
        rw [hrequest]
      by_cases hfilter : payload.SetsFilter ∨ ¬ NoAddress lease resource
      · -- the poll turns the request down at once
        have hrejected : ∀ w' events, ∃ e,
            requestError w capacity principal leaseId payload w' events = some e ∧
              e.response.2 = filterUnsupported := by
          intro w' events
          rw [herror, error?_exec (start_rejected h hfilter w')]
          exact ⟨_, rfl, rfl⟩
        constructor
        · intro hexact
          exact ⟨rfl, Or.inl ((hexact.rejects w []).mp (hrejected w []))⟩
        · rintro ⟨-, hcondition⟩
          have hset : payload.SetsFilter := by
            rcases hfilter with hset | haddress
            · exact hset
            · exact hcondition.resolve_right haddress
          exact ⟨fun w' events => iff_of_true (hrejected w' events) hset,
            fun hunset => absurd hset hunset⟩
      · -- the poll runs, and a poll that runs turns nothing down
        have hset : ¬ payload.SetsFilter := fun hset => hfilter (Or.inl hset)
        have haddress : NoAddress lease resource := by
          by_contra haddress
          exact hfilter (Or.inr haddress)
        refine iff_of_true ⟨?_, ?_⟩ ⟨rfl, Or.inr haddress⟩
        · intro w' events
          refine iff_of_false ?_ hset
          rintro ⟨e, he, hcode⟩
          rw [herror] at he
          obtain ⟨error, hraised, rfl⟩ := Option.map_eq_some_iff.mp he
          have hstart : ((payload.poll principal leaseId lease resource).start w').error? =
              none := by
            unfold PollState.error?
            rw [start_checking hfilter w']
          exact keepsFilters_exec hstart events error hraised hcode
        · intro _
          exact ⟨_, hrequest, loop_poll h, start_checking hfilter⟩

end Lease

end

/-! ## A request without a filter -/

section Sample

attribute [local instance] asciiPlatform plainMail digitCodes

def smsbowerLease : Lease where
  id := "lease"
  mailboxId := none
  providerResourceId := some "resource"
  clientKeyId := some "key"
  allocatedEmail := some "a@x.org"
  mode := .mailRead
  providerType := "smsbower_gmail"
  expiresAt := 600000000

def smsbowerResource : MailboxProviderResource where
  id := "resource"
  providerType := "smsbower_gmail"
  providerInstanceId := "default"
  externalResourceId := "1"
  primaryEmail := "a@x.org"
  lifecycleState := .claimed
  readiness := .ready

def smsbowerKey : ClientKey where
  id := "key"
  scopes := [verificationCodeScope]

def smsbowerWorld : PollWorld where
  db :=
    { leases := ⟨[smsbowerLease], List.pairwise_singleton _ _⟩
      providerResources := ⟨[smsbowerResource], List.pairwise_singleton _ _⟩ }
  clientKeys := ⟨[smsbowerKey], List.pairwise_singleton _ _⟩

theorem activeSmsBowerLease_sample :
    ActiveSmsBowerLease smsbowerWorld pollingClient "lease" smsbowerLease smsbowerResource where
  scope := List.mem_singleton_self _
  key := ⟨_, rfl, rfl, nofun, List.mem_singleton_self _⟩
  active := ⟨rfl, rfl, rfl, rfl, by decide⟩
  noMailbox := rfl
  onResource := rfl
  found := rfl
  claimed := rfl
  smsbower := rfl

def plainPayload : LeaseVerificationCodeRequest := ⟨{}, rfl, rfl⟩

def subjectFields : RawVerificationCodeRequest where
  subjectContains := some "code"

theorem normalize_subjectFields : subjectFields.normalize = subjectFields := by decide +kernel

def subjectPayload : LeaseVerificationCodeRequest := ⟨subjectFields, normalize_subjectFields, rfl⟩

theorem filter_rejection_exact_sample :
    FilterRejectionExact smsbowerWorld (getCapacity .default) pollingClient "lease"
      subjectPayload := by
  refine (filter_rejection_exact_iff activeSmsBowerLease_sample _).mpr ⟨rfl, Or.inl ?_⟩
  exact ⟨some "code", List.mem_cons_of_mem _ (List.mem_cons_self ..), rfl⟩

/-- **A request without a filter is turned down.** -/
theorem plain_request_rejected :
    ActiveSmsBowerLease smsbowerWorld pollingClient "lease" smsbowerLease smsbowerResource ∧
      ¬ FilterRejectionExact smsbowerWorld (getCapacity .default) pollingClient "lease"
        plainPayload := by
  refine ⟨activeSmsBowerLease_sample, ?_⟩
  intro hexact
  have hset : ¬ plainPayload.SetsFilter := by
    rintro ⟨field, hfield, hsome⟩
    have hnone : ∀ field ∈ plainPayload.fields.filters, field.isSome = false := by decide
    rw [hnone field hfield] at hsome
    cases hsome
  refine hset ((hexact.rejects smsbowerWorld []).mp ?_)
  exact ⟨.poll (.unsupportedFilter
    "SMSBower direct-code path does not support message filters"), by decide +kernel, rfl⟩

end Sample

end MailboxService
