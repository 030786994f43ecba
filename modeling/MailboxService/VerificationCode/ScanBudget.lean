import MailboxService.Ascii
import MailboxService.Foundation.Budget
import MailboxService.VerificationCode.Polling

/-!
# The budget of a scan

`_find_code_in_messages` goes through the messages of a channel as long as their
bodies fit into what is left of two limits, one for a scan and one for the whole
request. What it returns is said once, in terms of the longest prefix of the
messages that fits.

To cut a body off is to encode it, and half of a surrogate pair has no encoding:
the scan raises at the first message with one that it gets to, and nothing of the
others is returned. The machine of a poll has bodies that can be encoded.
-/

namespace MailboxService

open Foundation

section

variable [Platform] [CodeSearch]

/-! ## What is asked of a message -/

def InboxMessageCandidate.scannedBody (message : InboxMessageCandidate) : String :=
  CodeSearch.truncateTextToByteBudget message.bodyText maxMessageBodyBytes

/-- The bytes of a body that a scan pays for. -/
def InboxMessageCandidate.bodyBytes (message : InboxMessageCandidate) : ℕ :=
  message.scannedBody.utf8ByteSize

/-- Either nothing is wanted, or what is wanted occurs in the value; the ends of the one
and the case of both do not count. -/
def AdmitsValue (wanted : Option String) (value : String) : Prop :=
  ∀ needle ∈ wanted, Text.strip needle = "" ∨
    (Text.lower (Text.strip needle)).toList <:+: (Text.lower value).toList

/-- **What the filters ask of a message**: the recipient, if one is required, and what is
wanted of sender, subject and body. -/
structure InboxMessageCandidate.Admitted (message : InboxMessageCandidate)
    (options : VerificationCodeLookupOptions) (recipientFilter : Option String) : Prop where
  recipient : options.requireRecipientMatch = true →
    ∃ recipient ∈ recipientFilter, recipient ∈ message.recipientAddresses
  fromAddress : AdmitsValue options.fromAddress (message.fromAddress.getD "")
  subject : AdmitsValue options.subjectContains (message.subject.getD "")
  body : AdmitsValue options.bodyContains message.scannedBody

/-- The message is admitted, and has the code. -/
structure InboxMessageCandidate.Yields (message : InboxMessageCandidate)
    (options : VerificationCodeLookupOptions)
    (customMatcher : Option SafeVerificationCodeMatcher) (recipientFilter : Option String)
    (code : String) : Prop where
  admitted : message.Admitted options recipientFilter
  code : CodeSearch.extractVerificationCode (message.subject.getD "") message.scannedBody
    customMatcher = some code

def InboxMessageCandidate.withCode (message : InboxMessageCandidate) (code : String) :
    VerificationCodeMatch :=
  ⟨code, message.fromAddress, message.subject, message.receivedAt, message.channel⟩

/-- What a scan takes from the messages that it goes through, and what it pays: for all of
them, or for those up to the first with a code. -/
inductive ScanTakes (options : VerificationCodeLookupOptions)
    (customMatcher : Option SafeVerificationCodeMatcher) (recipientFilter : Option String)
    (window : List InboxMessageCandidate) : Option VerificationCodeMatch → ℕ → Prop
  | nothing (hnone : ∀ message ∈ window, ∀ code,
        ¬ message.Yields options customMatcher recipientFilter code) :
      ScanTakes options customMatcher recipientFilter window none
        (totalSize InboxMessageCandidate.bodyBytes window)
  | code (before after : List InboxMessageCandidate) (message : InboxMessageCandidate)
      (code : String) (hwindow : window = before ++ message :: after)
      (hbefore : ∀ earlier ∈ before, ∀ code,
        ¬ earlier.Yields options customMatcher recipientFilter code)
      (hmessage : message.Yields options customMatcher recipientFilter code) :
      ScanTakes options customMatcher recipientFilter window (some (message.withCode code))
        (totalSize InboxMessageCandidate.bodyBytes (before ++ [message]))

/-- The scan gets to a message: those before it fit into the budget, and none of them has
a code. -/
def ScanGetsTo (options : VerificationCodeLookupOptions)
    (customMatcher : Option SafeVerificationCodeMatcher) (recipientFilter : Option String)
    (budget : ℕ) (messages : List InboxMessageCandidate) (message : InboxMessageCandidate) :
    Prop :=
  ∃ before after, messages = before ++ message :: after ∧
    totalSize InboxMessageCandidate.bodyBytes before ≤ budget ∧
    ∀ earlier ∈ before, ∀ code, ¬ earlier.Yields options customMatcher recipientFilter code

/-! ## The filters -/

def InboxMessageCandidate.passes (message : InboxMessageCandidate)
    (options : VerificationCodeLookupOptions) (recipientFilter : Option String) : Bool :=
  !(options.requireRecipientMatch && !recipientFilter.any (· ∈ message.recipientAddresses)) &&
    passesOption options.fromAddress (message.fromAddress.getD "") &&
    passesOption options.subjectContains (message.subject.getD "") &&
    passesOption options.bodyContains message.scannedBody

def InboxMessageCandidate.match? (message : InboxMessageCandidate)
    (options : VerificationCodeLookupOptions)
    (customMatcher : Option SafeVerificationCodeMatcher) (recipientFilter : Option String) :
    Option VerificationCodeMatch :=
  if message.passes options recipientFilter then
    (CodeSearch.extractVerificationCode (message.subject.getD "") message.scannedBody
      customMatcher).map message.withCode
  else none

variable {options : VerificationCodeLookupOptions}
  {customMatcher : Option SafeVerificationCodeMatcher} {recipientFilter : Option String}
  {message : InboxMessageCandidate}

omit [CodeSearch] in
theorem passesOption_iff {wanted : Option String} {value : String} :
    passesOption wanted value = true ↔ AdmitsValue wanted value := by
  unfold passesOption Text.occursIn AdmitsValue
  rw [decide_eq_true_eq]
  cases wanted with
  | none => exact iff_of_true List.nil_infix fun _ hneedle => by cases hneedle
  | some needle =>
      simp only [Option.getD_some, Option.mem_def, Option.some.injEq, forall_eq']
      refine ⟨Or.inr, ?_⟩
      rintro (hblank | hoccurs)
      · unfold Text.normalize
        rw [hblank]
        exact List.nil_infix
      · exact hoccurs

/-- **The loop asks what the filters ask.** -/
theorem passes_iff : message.passes options recipientFilter = true ↔
    message.Admitted options recipientFilter := by
  have hrecipient : (!(options.requireRecipientMatch &&
        !recipientFilter.any (· ∈ message.recipientAddresses))) = true ↔
      (options.requireRecipientMatch = true →
        ∃ recipient ∈ recipientFilter, recipient ∈ message.recipientAddresses) := by
    cases hrequired : options.requireRecipientMatch <;> cases recipientFilter <;> simp
  unfold InboxMessageCandidate.passes
  rw [Bool.and_eq_true, Bool.and_eq_true, Bool.and_eq_true, hrecipient, passesOption_iff,
    passesOption_iff, passesOption_iff]
  exact ⟨fun ⟨⟨⟨hto, hfrom⟩, hsubject⟩, hbody⟩ => ⟨hto, hfrom, hsubject, hbody⟩,
    fun h => ⟨⟨⟨h.recipient, h.fromAddress⟩, h.subject⟩, h.body⟩⟩

theorem messageMatch_eq_some {m : VerificationCodeMatch} :
    message.match? options customMatcher recipientFilter = some m ↔
      ∃ code, message.Yields options customMatcher recipientFilter code ∧
        m = message.withCode code := by
  unfold InboxMessageCandidate.match?
  rw [Option.ite_none_right_eq_some, passes_iff, Option.map_eq_some_iff]
  constructor
  · rintro ⟨hadmitted, code, hcode, rfl⟩
    exact ⟨code, ⟨hadmitted, hcode⟩, rfl⟩
  · rintro ⟨code, hyields, rfl⟩
    exact ⟨hyields.admitted, code, hyields.code, rfl⟩

theorem messageMatch_eq_none :
    message.match? options customMatcher recipientFilter = none ↔
      ∀ code, ¬ message.Yields options customMatcher recipientFilter code := by
  rw [Option.eq_none_iff_forall_ne_some]
  constructor
  · intro h code hyields
    exact h _ (messageMatch_eq_some.mpr ⟨code, hyields, rfl⟩)
  · intro h m hm
    obtain ⟨code, hyields, -⟩ := messageMatch_eq_some.mp hm
    exact h code hyields

theorem recipient_of_match? {m : VerificationCodeMatch}
    (hrequired : options.requireRecipientMatch = true)
    (h : message.match? options customMatcher recipientFilter = some m) :
    ∃ recipient, recipientFilter = some recipient ∧ recipient ∈ message.recipientAddresses := by
  obtain ⟨code, hyields, -⟩ := messageMatch_eq_some.mp h
  exact hyields.admitted.recipient hrequired

/-! ## One message -/

omit [Platform] [CodeSearch] in
/-- Filters that are tried one after the other. -/
theorem ite_guards {α : Type} (skipped a b c : Bool) (next found : α) :
    (if skipped then next
      else if !a then next
      else if !b then next
      else if !c then next
      else found) = if !skipped && a && b && c then found else next := by
  cases skipped <;> cases a <;> cases b <;> cases c <;> rfl

section

variable {m : Type → Type} [Monad m] [LawfulMonad m] {truncate : String → m String}

theorem findCodeLoop_cons {r : ℤ} {consumed : ℕ} {rest : List InboxMessageCandidate}
    (htruncate : truncate message.bodyText = pure message.scannedBody) :
    findCodeLoop truncate options customMatcher recipientFilter r consumed (message :: rest) =
      if consumed + message.bodyBytes > scanBudget r then
        pure (none, consumed,
          decide (r - consumed ≤ message.bodyBytes ∨ consumed ≥ maxScanBodyBytes))
      else
        match message.match? options customMatcher recipientFilter with
        | some found => pure (some found, consumed + message.bodyBytes, false)
        | none => findCodeLoop truncate options customMatcher recipientFilter r
            (consumed + message.bodyBytes) rest := by
  rw [findCodeLoop, htruncate, pure_bind]
  dsimp only
  unfold InboxMessageCandidate.bodyBytes
  by_cases hbeyond : consumed + message.scannedBody.utf8ByteSize > scanBudget r
  · rw [if_pos hbeyond, if_pos hbeyond]
  · rw [if_neg hbeyond, if_neg hbeyond, ite_guards]
    unfold InboxMessageCandidate.match?
    by_cases hpasses : message.passes options recipientFilter = true
    · rw [if_pos hpasses]
      refine (if_pos hpasses).trans ?_
      cases CodeSearch.extractVerificationCode (message.subject.getD "") message.scannedBody
          customMatcher with
      | none => rfl
      | some code => rfl
    · rw [if_neg hpasses]
      exact if_neg hpasses

end

/-! ## What a scan returns -/

/-- The messages that a scan looks at: those up to the first match. -/
def scannedMessages (options : VerificationCodeLookupOptions)
    (customMatcher : Option SafeVerificationCodeMatcher) (recipientFilter : Option String)
    (window : List InboxMessageCandidate) : List InboxMessageCandidate :=
  window.take
    (window.findIdx (fun message =>
      (message.match? options customMatcher recipientFilter).isSome) + 1)

theorem scannedMessages_cons (message : InboxMessageCandidate)
    (rest : List InboxMessageCandidate) :
    scannedMessages options customMatcher recipientFilter (message :: rest) =
      message :: if (message.match? options customMatcher recipientFilter).isSome then []
        else scannedMessages options customMatcher recipientFilter rest := by
  unfold scannedMessages
  rw [List.findIdx_cons, List.take_succ_cons]
  cases (message.match? options customMatcher recipientFilter).isSome with
  | true => rfl
  | false => rfl

theorem scannedMessages_inVain {window : List InboxMessageCandidate}
    (h : ∀ message ∈ window, message.match? options customMatcher recipientFilter = none) :
    scannedMessages options customMatcher recipientFilter window = window := by
  induction window with
  | nil => rfl
  | cons message rest ih =>
      rw [List.forall_mem_cons] at h
      rw [scannedMessages_cons, h.1, ih h.2]
      rfl

theorem scannedMessages_upTo {before after : List InboxMessageCandidate}
    (hbefore : ∀ earlier ∈ before,
      earlier.match? options customMatcher recipientFilter = none)
    (hmatch : (message.match? options customMatcher recipientFilter).isSome = true) :
    scannedMessages options customMatcher recipientFilter (before ++ message :: after) =
      before ++ [message] := by
  induction before with
  | nil => rw [List.nil_append, scannedMessages_cons, hmatch, if_pos rfl, List.nil_append]
  | cons first rest ih =>
      rw [List.forall_mem_cons] at hbefore
      rw [List.cons_append, scannedMessages_cons, hbefore.1, ih hbefore.2]
      rfl

theorem totalSize_scannedMessages_le (window : List InboxMessageCandidate) :
    totalSize InboxMessageCandidate.bodyBytes
        (scannedMessages options customMatcher recipientFilter window) ≤
      totalSize InboxMessageCandidate.bodyBytes window := by
  have hprefix : scannedMessages options customMatcher recipientFilter window <+: window :=
    List.take_prefix _ _
  obtain ⟨behind, hsplit⟩ := hprefix
  conv_rhs => rw [← hsplit, totalSize_append]
  exact Nat.le_add_right _ _

/-- What is said about the budget of the request by a scan that has not found a
code, of the messages behind its window. -/
def requestBudgetExhausted (remaining consumed : ℕ) :
    List InboxMessageCandidate → Bool
  | [] => remaining = 0
  | next :: _ => remaining - consumed ≤ next.bodyBytes ∨ consumed ≥ maxScanBodyBytes

/-- What a scan makes of messages whose bodies can be encoded. -/
def scanResult (options : VerificationCodeLookupOptions)
    (customMatcher : Option SafeVerificationCodeMatcher) (recipientFilter : Option String)
    (r : ℤ) (consumed : ℕ) (messages : List InboxMessageCandidate) :
    Option VerificationCodeMatch × ℕ × Bool :=
  let window := affordable InboxMessageCandidate.bodyBytes (scanBudget r - consumed) messages
  let found := window.findSome? (·.match? options customMatcher recipientFilter)
  let consumed := consumed + totalSize InboxMessageCandidate.bodyBytes
    (scannedMessages options customMatcher recipientFilter window)
  (found, consumed,
    !found.isSome && requestBudgetExhausted r.toNat consumed (messages.drop window.length))

omit [Platform] [CodeSearch] in
theorem scanBudget_eq (r : ℤ) : scanBudget r = min maxScanBodyBytes r.toNat := by
  unfold scanBudget
  omega

theorem ScanGetsTo.cons {budget : ℕ} {messages : List InboxMessageCandidate}
    {next : InboxMessageCandidate} (hfits : message.bodyBytes ≤ budget)
    (hnone : message.match? options customMatcher recipientFilter = none)
    (h : ScanGetsTo options customMatcher recipientFilter (budget - message.bodyBytes) messages
      next) :
    ScanGetsTo options customMatcher recipientFilter budget (message :: messages) next := by
  obtain ⟨before, after, rfl, hbudget, hbefore⟩ := h
  refine ⟨message :: before, after, rfl, ?_, ?_⟩
  · rw [totalSize_cons]
    omega
  · rw [List.forall_mem_cons]
    exact ⟨messageMatch_eq_none.mp hnone, hbefore⟩

/-- **What a scan returns**: the first match of the longest prefix of the messages
within the budget, and the bytes of the messages up to it. -/
theorem findCodeLoop_eq {m : Type → Type} [Monad m] [LawfulMonad m]
    {truncate : String → m String} (r : ℤ) (consumed : ℕ)
    (messages : List InboxMessageCandidate) (hconsumed : consumed ≤ scanBudget r)
    (htruncate : ∀ message, ScanGetsTo options customMatcher recipientFilter
      (scanBudget r - consumed) messages message →
        truncate message.bodyText = pure message.scannedBody) :
    findCodeLoop truncate options customMatcher recipientFilter r consumed messages =
      pure (scanResult options customMatcher recipientFilter r consumed messages) := by
  induction messages generalizing consumed with
  | nil => simp [findCodeLoop, scanResult, affordable, scannedMessages, requestBudgetExhausted]
  | cons message rest ih =>
      rw [findCodeLoop_cons (htruncate message ⟨[], rest, rfl, Nat.zero_le _, by simp⟩)]
      by_cases hfits : message.bodyBytes ≤ scanBudget r - consumed
      · rw [if_neg (by omega)]
        unfold scanResult
        rw [affordable, if_pos hfits]
        dsimp only
        rw [scannedMessages_cons, List.findSome?_cons, totalSize_cons, List.length_cons,
          List.drop_succ_cons]
        cases hmatch : message.match? options customMatcher recipientFilter with
        | some found => simp
        | none =>
            have hleft : scanBudget r - consumed - message.bodyBytes =
                scanBudget r - (consumed + message.bodyBytes) := by
              omega
            have hrest := ih (consumed + message.bodyBytes) (by omega) fun next hnext =>
              htruncate next (hleft ▸ hnext |>.cons hfits hmatch)
            rw [hleft, Option.isSome_none, if_neg Bool.false_ne_true, ← Nat.add_assoc]
            exact hrest
      · rw [if_pos (by omega)]
        have hle : consumed ≤ r.toNat := by
          rw [scanBudget_eq] at hconsumed
          omega
        unfold scanResult
        rw [affordable, if_neg hfits]
        have hflag : (r - consumed ≤ message.bodyBytes ∨ consumed ≥ maxScanBodyBytes) ↔
            (r.toNat - consumed ≤ message.bodyBytes ∨ consumed ≥ maxScanBodyBytes) := by
          omega
        rw [decide_eq_decide.mpr hflag]
        rfl

/-- A scan of bodies that can be encoded. -/
theorem findCodeInMessages_eq (r : ℤ) (messages : List InboxMessageCandidate) :
    findCodeInMessages messages options customMatcher recipientFilter r =
      scanResult options customMatcher recipientFilter r 0 messages :=
  findCodeLoop_eq (m := Id) r 0 messages (Nat.zero_le _) fun _ _ => rfl

theorem findCodeInMessages_request (consumed : ℕ) (messages : List InboxMessageCandidate) :
    findCodeInMessages messages options customMatcher recipientFilter
        (maxRequestBodyBytes - consumed) =
      (let remaining := maxRequestBodyBytes - consumed
        let window := affordable InboxMessageCandidate.bodyBytes (min maxScanBodyBytes remaining)
          messages
        let found := window.findSome? (·.match? options customMatcher recipientFilter)
        let consumed := totalSize InboxMessageCandidate.bodyBytes
          (scannedMessages options customMatcher recipientFilter window)
        (found, consumed,
          !found.isSome && requestBudgetExhausted remaining consumed
            (messages.drop window.length))) := by
  have hremaining : ((maxRequestBodyBytes : ℤ) - consumed).toNat =
      maxRequestBodyBytes - consumed := by
    omega
  rw [findCodeInMessages_eq]
  unfold scanResult
  rw [scanBudget_eq, hremaining, Nat.sub_zero]
  simp only [Nat.zero_add]

theorem scanTakes_window (window : List InboxMessageCandidate) :
    ScanTakes options customMatcher recipientFilter window
      (window.findSome? (·.match? options customMatcher recipientFilter))
      (totalSize InboxMessageCandidate.bodyBytes
        (scannedMessages options customMatcher recipientFilter window)) := by
  cases hfound : window.findSome? (·.match? options customMatcher recipientFilter) with
  | none =>
      rw [List.findSome?_eq_none_iff] at hfound
      rw [scannedMessages_inVain hfound]
      exact .nothing fun message hmessage => messageMatch_eq_none.mp (hfound message hmessage)
  | some found =>
      obtain ⟨before, message, after, rfl, hmatch, hbefore⟩ := List.findSome?_eq_some_iff.mp hfound
      obtain ⟨code, hyields, rfl⟩ := messageMatch_eq_some.mp hmatch
      rw [scannedMessages_upTo hbefore (by rw [hmatch]; rfl)]
      exact .code before after message code rfl
        (fun earlier hearlier => messageMatch_eq_none.mp (hbefore earlier hearlier)) hyields

/-! ## Bodies that cannot be encoded -/

section

variable [LoneSurrogates]

def findCodeInMessages? (messages : List InboxMessageCandidate)
    (options : VerificationCodeLookupOptions)
    (customMatcher : Option SafeVerificationCodeMatcher) (recipientFilter : Option String)
    (remainingRequestBudgetBytes : ℤ) :
    Except UnicodeEncodeError (Option VerificationCodeMatch × ℕ × Bool) :=
  findCodeLoop
    (fun bodyText =>
      whenEncodable bodyText (CodeSearch.truncateTextToByteBudget bodyText maxMessageBodyBytes))
    options customMatcher recipientFilter remainingRequestBudgetBytes 0 messages

/-- **A scan as it is specified**: it goes through the longest prefix of the messages whose
bodies fit into both budgets, takes the code of the first of them that has one, and pays
for those up to there. -/
def ScanSpecified (messages : List InboxMessageCandidate)
    (options : VerificationCodeLookupOptions)
    (customMatcher : Option SafeVerificationCodeMatcher) (recipientFilter : Option String)
    (r : ℤ) : Prop :=
  ∃ window found consumed exhausted,
    findCodeInMessages? messages options customMatcher recipientFilter r =
        .ok (found, consumed, exhausted) ∧
      IsLongestWithin InboxMessageCandidate.bodyBytes (min maxScanBodyBytes (max 0 r).toNat)
        messages window ∧
      ScanTakes options customMatcher recipientFilter window found consumed ∧
      consumed ≤ min maxScanBodyBytes (max 0 r).toNat

/-- **A scan raises** at a body that cannot be encoded. -/
theorem findCodeLoop_raises {truncate : String → Except UnicodeEncodeError String} {r : ℤ}
    {consumed : ℕ} {messages : List InboxMessageCandidate}
    (htruncate : ∀ message ∈ messages, truncate message.bodyText =
      whenEncodable message.bodyText message.scannedBody)
    {bad : InboxMessageCandidate} (hbad : encodable bad.bodyText = false)
    (hconsumed : consumed ≤ scanBudget r)
    (h : ScanGetsTo options customMatcher recipientFilter (scanBudget r - consumed) messages bad) :
    findCodeLoop truncate options customMatcher recipientFilter r consumed messages =
      .error .surrogatesNotAllowed := by
  induction messages generalizing consumed with
  | nil =>
      obtain ⟨before, after, hsplit, -⟩ := h
      cases before <;> cases hsplit
  | cons message rest ih =>
      rw [List.forall_mem_cons] at htruncate
      cases hencodable : encodable message.bodyText with
      | false =>
          rw [findCodeLoop, htruncate.1, whenEncodable, hencodable]
          rfl
      | true =>
          obtain ⟨before, after, hsplit, hbudget, hbefore⟩ := h
          cases before with
          | nil =>
              cases hsplit
              rw [hbad] at hencodable
              cases hencodable
          | cons first before =>
              obtain ⟨rfl, hrest⟩ := List.cons.inj hsplit
              rw [totalSize_cons] at hbudget
              rw [List.forall_mem_cons] at hbefore
              have hpure : truncate message.bodyText = pure message.scannedBody := by
                rw [htruncate.1, whenEncodable, hencodable]
                rfl
              rw [findCodeLoop_cons hpure, if_neg (by omega), messageMatch_eq_none.mpr hbefore.1]
              exact ih htruncate.2 (by omega) ⟨before, after, hrest, by omega, hbefore.2⟩

/-- **A scan is as specified** exactly if every body that it gets to can be encoded. -/
theorem findCodeInMessages_spec (messages : List InboxMessageCandidate)
    (options : VerificationCodeLookupOptions)
    (customMatcher : Option SafeVerificationCodeMatcher) (recipientFilter : Option String)
    (r : ℤ) :
    ScanSpecified messages options customMatcher recipientFilter r ↔
      ∀ message, ScanGetsTo options customMatcher recipientFilter
          (min maxScanBodyBytes (max 0 r).toNat) messages message →
        encodable message.bodyText = true := by
  constructor
  · rintro ⟨window, found, consumed, exhausted, hscan, -⟩ bad hbad
    by_contra hlone
    rw [Bool.not_eq_true] at hlone
    have hraises : findCodeInMessages? messages options customMatcher recipientFilter r =
        .error .surrogatesNotAllowed :=
      findCodeLoop_raises (fun _ _ => rfl) hlone (Nat.zero_le _) hbad
    rw [hraises] at hscan
    cases hscan
  · intro hencodable
    have hlongest : IsLongestWithin InboxMessageCandidate.bodyBytes (scanBudget r) messages
        (affordable InboxMessageCandidate.bodyBytes (scanBudget r) messages) :=
      isLongestWithin_affordable (scanBudget r) messages
    have hscan : findCodeInMessages? messages options customMatcher recipientFilter r =
        .ok (scanResult options customMatcher recipientFilter r 0 messages) := by
      refine findCodeLoop_eq r 0 messages (Nat.zero_le _) fun message hreached => ?_
      rw [whenEncodable, hencodable message hreached]
      rfl
    unfold scanResult at hscan
    rw [Nat.sub_zero] at hscan
    simp only [Nat.zero_add] at hscan
    exact ⟨_, _, _, _, hscan, hlongest, scanTakes_window _,
      (totalSize_scannedMessages_le _).trans hlongest.within⟩

end

end

/-! ## Half of a surrogate pair -/

section Sample

attribute [local instance] asciiPlatform

/-- U+FFFD stands for half of a surrogate pair. -/
@[reducible] def replacementSurrogates : LoneSurrogates where
  isLoneSurrogate c := c = '\ufffd'
  isLoneSurrogate_ascii c hc := by
    rw [decide_eq_false_iff_not]
    rintro rfl
    exact absurd hc (by decide)

@[reducible] def digitCodes : CodeSearch where
  search _ _ _ := none
  extractVerificationCode _ body _ :=
    if body.toList.all Char.isDigit ∧ 4 ≤ body.length ∧ body.length ≤ 8 then some body else none
  truncateTextToByteBudget text _ := text

attribute [local instance] replacementSurrogates digitCodes

def graphMessage (bodyText : String) : InboxMessageCandidate where
  fromAddress := none
  subject := none
  bodyText := bodyText
  receivedAt := none
  channel := .graph
  recipientAddresses := [].toFinset

def anyRecipient : VerificationCodeLookupOptions where
  requireRecipientMatch := false

/-- **One message hides the code of the other.** -/
theorem lone_surrogate_stops_scan :
    ¬ ScanSpecified [graphMessage "\ufffd", graphMessage "482913"] anyRecipient none none
      maxRequestBodyBytes := by
  have hraises : findCodeInMessages? [graphMessage "\ufffd", graphMessage "482913"]
      anyRecipient none none maxRequestBodyBytes = .error .surrogatesNotAllowed := rfl
  rintro ⟨window, found, consumed, exhausted, hscan, -⟩
  rw [hraises] at hscan
  cases hscan

end Sample

end MailboxService
