import MailboxService.Ascii
import MailboxService.LeaseService.LeaseRuns
import MailboxService.LeaseService.Reacquire

/-!
# Plus aliases, allocated and resolved

An acquire writes an alias by dropping the primary address's own tag and
putting the suffix in its place; a reacquire reads an address by looking for it
among the primary addresses and then for the address without its tag. The two
agree where the mailbox's local part has no tag and no other mailbox has the
alias as its primary address.
-/

namespace MailboxService

open Foundation

/-! ## Addresses -/

section

variable [Platform]

/-- What the Unicode tables say of the characters that the two algorithms look
at: lowering leaves them alone and makes no separator out of another
character. -/
structure LowersAscii : Prop where
  separator : ∀ sep ∈ ['@', '+', ' '], PythonText.lowerChar sep = [sep]
  only : ∀ sep ∈ ['@', '+', ' '], ∀ c, sep ∈ PythonText.lowerChar c → c = sep
  alphabet : ∀ c ∈ plusAliasSuffixAlphabet, PythonText.lowerChar c = [c]

theorem LowersAscii.mem_lower (htext : LowersAscii) {sep : Char} (hsep : sep ∈ ['@', '+', ' '])
    {s : String} : sep ∈ (Text.lower s).toList ↔ sep ∈ s.toList := by
  rw [Text.mem_lower]
  constructor
  · rintro ⟨c, hc, hmem⟩
    rw [← htext.only sep hsep c hmem]
    exact hc
  · intro h
    exact ⟨sep, h, by rw [htext.separator sep hsep]; exact List.mem_singleton_self sep⟩

theorem LowersAscii.lower_text (htext : LowersAscii) {s : String}
    (hs : ∀ c ∈ s.toList, c ∈ ['@', '+', ' ']) : Text.lower s = s :=
  Text.lower_eq_self fun c hc => htext.separator c (hs c hc)

theorem LowersAscii.lower_partition (htext : LowersAscii) {s a b : String} {sep : Char}
    (hsep : sep ∈ ['@', '+', ' ']) (h : Text.partition s sep = (a, true, b)) :
    Text.partition (Text.lower s) sep = (Text.lower a, true, Text.lower b) := by
  apply Text.partition_of_toList
  · rw [htext.mem_lower hsep]
    have hfirst := Text.not_mem_partition_fst s sep
    rwa [h] at hfirst
  · have hs : s = a ++ (String.singleton sep ++ b) := by
      rw [← String.toList_inj, Text.toList_of_partition h]
      simp
    have hsingle : Text.lower (String.singleton sep) = String.singleton sep :=
      htext.lower_text (by simpa using hsep)
    rw [hs, Text.lower_append, Text.lower_append, hsingle]
    simp

structure ValidSuffix (suffix : String) : Prop where
  nonempty : suffix ≠ ""
  alphabet : ∀ c ∈ suffix.toList, c ∈ plusAliasSuffixAlphabet
  short : suffix.length ≤ 32

omit [Platform] in
theorem separator_not_in_alphabet : ∀ sep ∈ ['@', '+', ' '], sep ∉ plusAliasSuffixAlphabet := by
  simp only [List.forall_mem_cons, List.not_mem_nil, false_implies, implies_true, and_true]
  decide

theorem validSuffix_of_checked {preferred suffix : String}
    (h : checkedAliasSuffix preferred = .ok suffix) : ValidSuffix suffix := by
  unfold checkedAliasSuffix at h
  by_cases hempty : Text.normalize preferred = ""
  · simp only [hempty, if_true] at h
    cases h
  by_cases hall : (Text.normalize preferred).toList.all (plusAliasSuffixAlphabet.contains ·) =
    true
  · by_cases hlong : (Text.normalize preferred).length > 32
    · simp only [hempty, hall, hlong, if_false, if_true, Bool.not_true, Bool.false_eq_true] at h
      cases h
    · simp only [hempty, hall, hlong, if_false, Bool.not_true, Bool.false_eq_true] at h
      obtain rfl := Except.ok.inj h
      refine ⟨hempty, ?_, Nat.le_of_not_lt hlong⟩
      intro c hc
      have hcontains := List.all_eq_true.mp hall c hc
      rwa [List.contains_iff_mem] at hcontains
  · simp only [hempty, hall, if_false, if_true, Bool.not_false] at h
    cases h

/-- A primary address as the import leaves it: trimmed, with two parts around
an `@` and no space. -/
structure ImportedAddress (primaryEmail : String) : Prop where
  trimmed : Text.strip primaryEmail = primaryEmail
  parts : ∃ localPart domain, Text.partition primaryEmail '@' = (localPart, true, domain) ∧
    localPart ≠ "" ∧ domain ≠ ""
  noSpace : ' ' ∉ primaryEmail.toList

omit [Platform] in
def baseLocalPart (primaryEmail : String) : String :=
  (Text.partition (Text.partition primaryEmail '@').1 '+').1

omit [Platform] in
def domainOf (primaryEmail : String) : String := (Text.partition primaryEmail '@').2.2

omit [Platform] in
def untagged (primaryEmail : String) : String :=
  baseLocalPart primaryEmail ++ "@" ++ domainOf primaryEmail

def plusAlias (primaryEmail suffix : String) : String :=
  baseLocalPart primaryEmail ++ "+" ++ suffix ++ "@" ++ Text.lower (domainOf primaryEmail)

/-- The address of a lease: the primary one or the alias of a suffix. -/
def leaseAddress (primaryEmail : String) : Option String → String
  | none => Text.normalize primaryEmail
  | some suffix => plusAlias primaryEmail suffix

theorem plusAliasOf_imported {primaryEmail : String} (h : ImportedAddress primaryEmail) :
    plusAliasOf primaryEmail = .ok (plusAlias primaryEmail) := by
  obtain ⟨localPart, domain, hparts, hlocal, hdomain⟩ := h.parts
  unfold plusAliasOf plusAlias baseLocalPart domainOf
  rw [h.trimmed, hparts]
  simp [hlocal, hdomain]

theorem lower_plusAlias (htext : LowersAscii) {primaryEmail suffix : String}
    (hsuffix : ValidSuffix suffix) :
    Text.lower (plusAlias primaryEmail suffix) =
      Text.lower (baseLocalPart primaryEmail) ++ "+" ++ suffix ++ "@" ++
        Text.lower (domainOf primaryEmail) := by
  have hplus : Text.lower "+" = "+" := htext.lower_text (by simp)
  have hat : Text.lower "@" = "@" := htext.lower_text (by simp)
  have halphabet : Text.lower suffix = suffix :=
    Text.lower_eq_self fun c hc => htext.alphabet c (hsuffix.alphabet c hc)
  unfold plusAlias
  simp only [Text.lower_append, hplus, hat, halphabet, Text.lower_lower]

theorem lower_untagged (htext : LowersAscii) (primaryEmail : String) :
    Text.lower (untagged primaryEmail) =
      Text.lower (baseLocalPart primaryEmail) ++ "@" ++ Text.lower (domainOf primaryEmail) := by
  have hat : Text.lower "@" = "@" := htext.lower_text (by simp)
  unfold untagged
  simp only [Text.lower_append, hat]

omit [Platform] in
theorem mem_baseLocalPart {primaryEmail : String} {c : Char}
    (h : c ∈ (baseLocalPart primaryEmail).toList) :
    c ∈ (Text.partition primaryEmail '@').1.toList ∧ c ∈ primaryEmail.toList :=
  have hlocal := (Text.partition_fst_prefix _ '+').subset h
  ⟨hlocal, (Text.partition_fst_prefix primaryEmail '@').subset hlocal⟩

/-! ## Looking an address up -/

/-- A lookup by address finds the one mailbox that has it. -/
theorem mailboxByEmail?_eq_some {db : Database} {email : String} {m : Mailbox} :
    db.mailboxByEmail? email = some m ↔
      m ∈ db.mailboxes ∧ sqlEq m.primaryEmail email = true := by
  unfold Database.mailboxByEmail?
  constructor
  · intro h
    exact ⟨List.mem_of_find?_eq_some h, by simpa using List.find?_some h⟩
  · rintro ⟨hm, hemail⟩
    cases hfind : db.mailboxes.rows.find? fun m => sqlEq m.primaryEmail email with
    | none => exact absurd hemail (by simpa using List.find?_eq_none.mp hfind m hm)
    | some q =>
        have hq : sqlEq q.primaryEmail email = true := by simpa using List.find?_some hfind
        unfold sqlEq at hemail hq
        rw [decide_eq_true_eq] at hemail hq
        have hclash : mailboxSchema.clash q m = true := by
          simp [mailboxSchema, sqlEq, hq, hemail]
        exact congrArg some (Table.eq_of_clash (List.mem_of_find?_eq_some hfind) hm hclash)

theorem mailboxByEmail?_eq_none {db : Database} {email : String} :
    db.mailboxByEmail? email = none ↔
      ∀ m ∈ db.mailboxes, sqlEq m.primaryEmail email = false := by
  unfold Database.mailboxByEmail?
  simp [List.find?_eq_none, Table.mem_def]

/-- Lowering an address does not change what it finds. -/
theorem sqlEq_lower (a b : String) : sqlEq a (Text.lower b) = sqlEq a b := by
  unfold sqlEq
  rw [Platform.key_lower]

/-- **Decoder lemma**: how the alias of a suffix is resolved. -/
theorem resolve_plusAlias (htext : LowersAscii) {db : Database} {primaryEmail suffix : String}
    (himported : ImportedAddress primaryEmail) (hsuffix : ValidSuffix suffix) :
    resolveReacquireEmail db (Text.lower (plusAlias primaryEmail suffix)) =
      match db.mailboxByEmail? (plusAlias primaryEmail suffix) with
      | some m => .ok (m.id, "primary")
      | none =>
          if baseLocalPart primaryEmail = "" then
            .error (.leaseEmailNotFound "邮箱地址不可用或不属于当前调用方")
          else
            match db.mailboxByEmail? (untagged primaryEmail) with
            | none => .error (.leaseEmailNotFound "邮箱地址不可用或不属于当前调用方")
            | some m => .ok (m.id, "plus_alias") := by
  have hlookup : ∀ e, db.mailboxByEmail? (Text.lower e) = db.mailboxByEmail? e := by
    intro e
    unfold Database.mailboxByEmail?
    simp only [sqlEq_lower]
  obtain ⟨localPart, domain, hparts, hlocal, hdomain⟩ := himported.parts
  have hdomainOf : domainOf primaryEmail = domain := by
    unfold domainOf
    rw [hparts]
  -- the characters of the three parts
  have hsep : ∀ sep ∈ ['@', '+', ' '], sep ∉ suffix.toList := fun sep hmem hin =>
    separator_not_in_alphabet sep hmem (hsuffix.alphabet sep hin)
  have hbaseAt : '@' ∉ (Text.lower (baseLocalPart primaryEmail)).toList := by
    rw [htext.mem_lower (by simp)]
    intro h
    exact Text.not_mem_partition_fst primaryEmail '@' (mem_baseLocalPart h).1
  have hbasePlus : '+' ∉ (Text.lower (baseLocalPart primaryEmail)).toList := by
    rw [htext.mem_lower (by simp)]
    exact Text.not_mem_partition_fst _ '+'
  have hbaseSpace : ' ' ∉ (Text.lower (baseLocalPart primaryEmail)).toList := by
    rw [htext.mem_lower (by simp)]
    intro h
    exact himported.noSpace (mem_baseLocalPart h).2
  have hdomainSpace : ' ' ∉ (Text.lower domain).toList := by
    rw [htext.mem_lower (by simp)]
    intro h
    apply himported.noSpace
    rw [Text.toList_of_partition hparts]
    exact List.mem_append_right _ (List.mem_cons_of_mem _ h)
  -- the two splits of the decoder
  have hat : Text.partition (Text.lower (plusAlias primaryEmail suffix)) '@' =
      (Text.lower (baseLocalPart primaryEmail) ++ "+" ++ suffix, true, Text.lower domain) := by
    rw [lower_plusAlias htext hsuffix, hdomainOf]
    apply Text.partition_of_toList
    · simp [hbaseAt, hsep '@']
    · simp
  have hplus : Text.partition (Text.lower (baseLocalPart primaryEmail) ++ "+" ++ suffix) '+' =
      (Text.lower (baseLocalPart primaryEmail), true, suffix) := by
    apply Text.partition_of_toList hbasePlus
    simp
  have hspace : Text.containsChar (Text.lower (plusAlias primaryEmail suffix)) ' ' = false := by
    rw [lower_plusAlias htext hsuffix, hdomainOf]
    simp [Text.containsChar, hbaseSpace, hdomainSpace, hsep ' ']
  have hcontains : Text.containsChar (Text.lower (baseLocalPart primaryEmail) ++ "+" ++ suffix)
      '+' = true := by
    simp [Text.containsChar]
  have hall : suffix.toList.all (plusAliasSuffixAlphabet.contains ·) = true := by
    rw [List.all_eq_true]
    intro c hc
    simpa using hsuffix.alphabet c hc
  have hbase : plusAliasBase (Text.lower (baseLocalPart primaryEmail) ++ "+" ++ suffix)
      (Text.lower domain) =
      if baseLocalPart primaryEmail = "" then
        .error (.leaseEmailNotFound "邮箱地址不可用或不属于当前调用方")
      else .ok (Text.lower (untagged primaryEmail)) := by
    unfold plusAliasBase
    rw [hplus, lower_untagged htext, hdomainOf]
    simp only [Text.lower_eq_empty, hsuffix.nonempty, decide_false, Bool.or_false,
      decide_eq_true_eq, hall, Bool.not_true, Bool.false_eq_true, if_false,
      Nat.not_lt.mpr hsuffix.short]
  unfold resolveReacquireEmail
  rw [hat, hlookup]
  simp only [hspace, hcontains, hbase, Bool.not_true, Bool.or_false, Bool.false_or,
    Text.lower_eq_empty, hdomain, decide_false, Bool.false_eq_true, if_false]
  have hne : Text.lower (baseLocalPart primaryEmail) ++ "+" ++ suffix ≠ "" := by
    intro h
    have := congrArg String.toList h
    simp at this
  simp only [hne, decide_false, Bool.false_eq_true, if_false]
  cases db.mailboxByEmail? (plusAlias primaryEmail suffix) with
  | some m => rfl
  | none =>
      by_cases hempty : baseLocalPart primaryEmail = ""
      · simp only [hempty, if_true]
      · simp only [hempty, if_false]
        cases hrow : db.mailboxByEmail? (untagged primaryEmail) with
        | none => simp only [hlookup, hrow]
        | some m => simp only [hlookup, hrow]

/-! ## The address of an acquire -/

/-- The suffixes behind the address of a request on a Microsoft mailbox: none
without a plus alias, else the explicit one or one of those drawn. -/
def RequestedSuffix (request : AcquireRequest) (draws : Draws) : Option String → Prop
  | none => request.wantsPlusAlias = false
  | some suffix => request.wantsPlusAlias = true ∧
      AliasSuffix draws.suffixes request.preferredAliasSuffix suffix

theorem acquireSingleProviderLease_mailbox {db : Database} {s s' : Session Database}
    {principal : ClientPrincipal} {now : ℕ} {decrypt : String → Except String String}
    {draws : Draws} {request : AcquireRequest} {providerType : String}
    {result : LeaseAcquireResult} (hmode : request.mode = .mailRead)
    (hmailbox : result.mailboxId ≠ none)
    (h : acquireSingleProviderLease principal now decrypt draws request providerType db s =
      (.ok result, s')) :
    providerType = defaultProviderType ∧ ∃ siteCode,
      acquireMailboxLease principal now decrypt draws request request.wantsPlusAlias siteCode
        providerType db s = (.ok result, s') := by
  unfold acquireSingleProviderLease at h
  split at h
  · cases h
  rename_i hknown
  split at h
  · cases h
  rw [Work.bind_eq_ok] at h
  obtain ⟨siteCode, s₁, hsite, h⟩ := h
  have hs₁ := resolveRequestedSite_ok hsite
  rw [hs₁] at h
  split at h
  · -- an on-demand lease has no mailbox
    unfold acquireOnDemandLease at h
    simp only [Work.bind_eq_ok] at h
    obtain ⟨⟨provisioned, address⟩, s₂, -, _, s₃, -, _, s₄, -, h⟩ := h
    obtain ⟨hresult, -⟩ := Prod.mk.inj h
    cases hresult
    exact absurd rfl hmailbox
  rename_i honDemand
  split at h
  · split at h
    · cases h
    · -- neither has a lease on a resource
      unfold acquireSmsbowerLease at h
      simp only [Work.bind_eq_ok] at h
      obtain ⟨picked, s₂, -, r, s₃, -, _, s₄, -, _, s₅, -, _, s₆, -, h⟩ := h
      obtain ⟨hresult, -⟩ := Prod.mk.inj h
      cases hresult
      exact absurd rfl hmailbox
  · rename_i hsmsbower
    have hnot : providerType ∉ onDemandProviderTypes := fun hp => honDemand ⟨hmode, hp⟩
    exact ⟨(eq_of_not_onDemand providerType (not_not.mp hknown) hnot).resolve_right hsmsbower,
      siteCode, h⟩

omit [Platform] in
/-- A candidate gets the plus options of the request if it is Microsoft's. -/
theorem forProvider_default (request : AcquireRequest) :
    (request.forProvider defaultProviderType).wantsPlusAlias = request.wantsPlusAlias ∧
      (request.wantsPlusAlias = true →
        (request.forProvider defaultProviderType).preferredAliasSuffix =
          request.preferredAliasSuffix) := by
  unfold AcquireRequest.forProvider
  by_cases hwants : request.wantsPlusAlias = true
  · rw [if_pos ⟨rfl, hwants⟩, hwants]
    exact ⟨rfl, fun _ => rfl⟩
  · rw [if_neg fun h => hwants h.2]
    rw [Bool.not_eq_true] at hwants
    exact ⟨hwants.symm, fun h => absurd h (by rw [hwants]; exact Bool.false_ne_true)⟩

theorem allocateAddress_suffix {db : Database} {now : ℕ} {draws : Draws}
    {request : AcquireRequest} {siteCode a : Option String} {m : Mailbox}
    (hmode : request.mode = .mailRead) (himported : ImportedAddress m.primaryEmail)
    (h : allocateAddress db now draws request request.wantsPlusAlias siteCode m = .ok a) :
    ∃ suffix, RequestedSuffix request draws suffix ∧
      a = some (leaseAddress m.primaryEmail suffix) := by
  unfold allocateAddress at h
  rw [if_pos hmode] at h
  cases hwants : request.wantsPlusAlias with
  | false =>
      rw [hwants, if_neg Bool.false_ne_true] at h
      exact ⟨none, hwants, (Except.ok.inj h).symm⟩
  | true =>
      rw [hwants, if_pos rfl] at h
      cases halias : allocatePlusAlias db now draws.suffixes m.primaryEmail
        request.preferredAliasSuffix siteCode with
      | error e =>
          rw [halias] at h
          cases h
      | ok x =>
          rw [halias] at h
          obtain ⟨aliasOf, suffix, hof, hsuffix, rfl⟩ := allocatePlusAlias_ok halias
          rw [plusAliasOf_imported himported] at hof
          obtain rfl := Except.ok.inj hof
          exact ⟨some suffix, ⟨hwants, hsuffix⟩, (Except.ok.inj h).symm⟩

/-- **Encoder lemma**: the address of a mail-read lease on a mailbox is its
primary address or the alias of a suffix the request allows. -/
theorem acquireLease_address {db db' : Database} {principal : ClientPrincipal} {now : ℕ}
    {decrypt : String → Except String String} {draws : String → Draws}
    {request : AcquireRequest} {shuffled : List String} {result : LeaseAcquireResult}
    {m : Mailbox} (hmode : request.mode = .mailRead) (hm : m ∈ db'.mailboxes)
    (hmailbox : result.mailboxId = some m.id) (himported : ImportedAddress m.primaryEmail)
    (h : acquireLease principal now decrypt draws request shuffled db ⟨db, true⟩ =
      (.ok result, ⟨db', true⟩)) :
    ∃ suffix, RequestedSuffix request (draws defaultProviderType) suffix ∧
      result.allocatedEmail = some (leaseAddress m.primaryEmail suffix) ∧
      result.addressKind = classifyAddressKind m.primaryEmail result.allocatedEmail := by
  unfold acquireLease at h
  rw [if_pos hmode, Work.bind_eq_ok] at h
  obtain ⟨_, s₁, -, h⟩ := h
  obtain ⟨p, -, s₂, -, h⟩ := Work.tryEach_ok (fun _ _ _ _ _ _ _ _ => trivial) trivial h
  unfold attemptProvider at h
  obtain ⟨rfl, siteCode, h⟩ := acquireSingleProviderLease_mailbox
    (forProvider_mode.trans hmode) (by simp [hmailbox]) h
  obtain ⟨q, a, hpick, hresult⟩ := acquireMailboxLease_result h
  obtain ⟨-, q', a', hacquired⟩ := acquireMailboxLease_ok h rfl
  obtain ⟨rfl, rfl⟩ := Prod.mk.inj (Except.ok.inj (hpick.symm.trans hacquired.picked))
  obtain ⟨hq, -, hall⟩ := pickMailbox_ok hpick
  obtain ⟨hid, haddress, hkind, -⟩ := mailboxLeaseResult_ok hresult
  -- the mailbox keeps its address through the acquire
  have hemail : q.primaryEmail = m.primaryEmail := by
    have hbefore : s₂.db.mailboxes.get? q.id = some q := Table.get?_eq_some.mpr ⟨hq, rfl⟩
    have hafter : db'.mailboxes.get? q.id = some m :=
      Table.get?_eq_some.mpr ⟨hm, Option.some.inj (hmailbox.symm.trans hid)⟩
    have hsame := hacquired.put.emails q.id
    rw [hbefore, hafter] at hsame
    exact (Option.some.inj hsame).symm
  rw [← hemail] at himported ⊢
  obtain ⟨suffix, hsuffix, ha⟩ := allocateAddress_suffix (forProvider_mode.trans hmode)
    himported hall
  refine ⟨suffix, ?_, haddress.trans ha, ?_⟩
  · cases suffix with
    | none => exact (forProvider_default request).1.symm.trans hsuffix
    | some suffix =>
        obtain ⟨hwants, hsuffix⟩ := hsuffix
        rw [(forProvider_default request).1] at hwants
        rw [(forProvider_default request).2 hwants] at hsuffix
        exact ⟨hwants, hsuffix⟩
  · rw [hkind, haddress]

/-! ## The round trip -/

/-- The address of a lease leads back to its mailbox: it is the primary address
itself, or the mailbox has no tag of its own and nobody else has the alias as
primary address. -/
def LeadsBack (db : Database) (primaryEmail : String) : Option String → Prop
  | none => True
  | some suffix =>
      Text.normalize (plusAlias primaryEmail suffix) = Text.normalize primaryEmail ∨
        (baseLocalPart primaryEmail ≠ "" ∧ sqlEq primaryEmail (untagged primaryEmail) = true ∧
          ∀ m ∈ db.mailboxes, sqlEq m.primaryEmail (plusAlias primaryEmail suffix) = false)

omit [Platform] in
theorem untagged_of_no_plus {primaryEmail localPart domain : String}
    (hparts : Text.partition primaryEmail '@' = (localPart, true, domain))
    (hplus : '+' ∉ localPart.toList) :
    baseLocalPart primaryEmail = localPart ∧ untagged primaryEmail = primaryEmail := by
  have hbase : baseLocalPart primaryEmail = localPart := by
    unfold baseLocalPart
    rw [hparts, Text.partition_of_not_mem hplus]
  refine ⟨hbase, ?_⟩
  unfold untagged domainOf
  rw [hbase, hparts, ← String.toList_inj, Text.toList_of_partition hparts]
  simp

/-- Aliases of a mailbox without a tag lead back unless another mailbox has
the alias as its primary address. -/
theorem leadsBack_of_no_plus {db : Database} {primaryEmail localPart domain suffix : String}
    (hparts : Text.partition primaryEmail '@' = (localPart, true, domain))
    (hlocal : localPart ≠ "") (hplus : '+' ∉ localPart.toList)
    (hfree : ∀ m ∈ db.mailboxes, sqlEq m.primaryEmail (plusAlias primaryEmail suffix) = false) :
    LeadsBack db primaryEmail (some suffix) := by
  obtain ⟨hbase, huntagged⟩ := untagged_of_no_plus hparts hplus
  refine Or.inr ⟨?_, ?_, hfree⟩
  · rw [hbase]
    exact hlocal
  · rw [huntagged]
    simp [sqlEq]

theorem mailbox_unique {db : Database} {m q : Mailbox} {email : String}
    (hm : m ∈ db.mailboxes) (hq : q ∈ db.mailboxes) (hme : sqlEq m.primaryEmail email = true)
    (hqe : sqlEq q.primaryEmail email = true) : m = q := by
  have hfound := mailboxByEmail?_eq_some.mpr ⟨hm, hme⟩
  rw [mailboxByEmail?_eq_some.mpr ⟨hq, hqe⟩] at hfound
  exact (Option.some.inj hfound).symm

theorem sqlEq_of_normalize_eq {a primaryEmail : String} (ha : Text.strip a = a)
    (hprimary : Text.strip primaryEmail = primaryEmail)
    (h : Text.normalize a = Text.normalize primaryEmail) : sqlEq primaryEmail a = true := by
  unfold Text.normalize at h
  rw [ha, hprimary] at h
  rw [← sqlEq_lower, h, sqlEq_lower]
  simp [sqlEq]

theorem resolve_primary (htext : LowersAscii) {db : Database} {m : Mailbox}
    (hm : m ∈ db.mailboxes) (himported : ImportedAddress m.primaryEmail) :
    resolveReacquireEmail db (Text.lower (Text.normalize m.primaryEmail)) =
      .ok (m.id, "primary") := by
  obtain ⟨localPart, domain, hparts, hlocal, hdomain⟩ := himported.parts
  have hlower : Text.lower (Text.normalize m.primaryEmail) = Text.lower m.primaryEmail := by
    unfold Text.normalize
    rw [Text.lower_lower, himported.trimmed]
  have hat : Text.partition (Text.lower m.primaryEmail) '@' =
      (Text.lower localPart, true, Text.lower domain) :=
    htext.lower_partition (by simp) hparts
  have hspace : Text.containsChar (Text.lower m.primaryEmail) ' ' = false := by
    have := himported.noSpace
    rw [← htext.mem_lower (by simp)] at this
    simpa [Text.containsChar] using this
  have hfound : db.mailboxByEmail? (Text.lower m.primaryEmail) = some m := by
    rw [mailboxByEmail?_eq_some, sqlEq_lower]
    exact ⟨hm, by simp [sqlEq]⟩
  unfold resolveReacquireEmail
  rw [hlower, hat, hfound]
  simp [hspace, Text.lower_eq_empty, hlocal, hdomain]

/-- **Alias lemma**: resolving a mailbox's alias gives the mailbox and the kind
of the address exactly if the alias leads back. -/
theorem resolve_plusAlias_iff (htext : LowersAscii) {db : Database} {m : Mailbox}
    {suffix : String} (hm : m ∈ db.mailboxes) (himported : ImportedAddress m.primaryEmail)
    (hsuffix : ValidSuffix suffix) :
    resolveReacquireEmail db (Text.lower (plusAlias m.primaryEmail suffix)) =
        .ok (m.id, if Text.normalize (plusAlias m.primaryEmail suffix) =
          Text.normalize m.primaryEmail then "primary" else "plus_alias") ↔
      LeadsBack db m.primaryEmail (some suffix) := by
  have htrimmed : Text.strip (plusAlias m.primaryEmail suffix) =
      plusAlias m.primaryEmail suffix :=
    Text.strip_of_trimmed (plusAliasOf_trimmed (plusAliasOf_imported himported) suffix)
  have hown : Text.normalize (plusAlias m.primaryEmail suffix) = Text.normalize m.primaryEmail →
      db.mailboxByEmail? (plusAlias m.primaryEmail suffix) = some m := fun h =>
    mailboxByEmail?_eq_some.mpr ⟨hm, sqlEq_of_normalize_eq htrimmed himported.trimmed h⟩
  have hid : ∀ {q : Mailbox}, q ∈ db.mailboxes → q.id = m.id → q = m := fun hq h =>
    Table.eq_of_key hq hm h
  rw [resolve_plusAlias htext himported hsuffix]
  show _ ↔ (_ ∨ _)
  by_cases hsame : Text.normalize (plusAlias m.primaryEmail suffix) =
    Text.normalize m.primaryEmail
  · rw [hown hsame, if_pos hsame]
    exact iff_of_true rfl (Or.inl hsame)
  · rw [if_neg hsame, or_iff_right hsame]
    cases hfound : db.mailboxByEmail? (plusAlias m.primaryEmail suffix) with
    | some q =>
        -- another mailbox has the alias as its primary address
        obtain ⟨hq, hemail⟩ := mailboxByEmail?_eq_some.mp hfound
        refine iff_of_false (by simp) ?_
        rintro ⟨-, -, hfree⟩
        rw [hfree q hq] at hemail
        cases hemail
    | none =>
        have hfree := mailboxByEmail?_eq_none.mp hfound
        by_cases hbase : baseLocalPart m.primaryEmail = ""
        · rw [if_pos hbase]
          exact iff_of_false (by simp) fun h => h.1 hbase
        · rw [if_neg hbase, and_iff_right hbase, and_iff_left hfree]
          cases huntagged : db.mailboxByEmail? (untagged m.primaryEmail) with
          | none =>
              have hnone := mailboxByEmail?_eq_none.mp huntagged m hm
              exact iff_of_false (by simp) (by simp [hnone])
          | some q =>
              obtain ⟨hq, hemail⟩ := mailboxByEmail?_eq_some.mp huntagged
              simp only [Except.ok.injEq, Prod.mk.injEq, and_true]
              constructor
              · intro h
                rwa [hid hq h] at hemail
              · intro h
                rw [mailbox_unique hq hm hemail h]

/-- **Alias round trip**: the lower-cased address of a mail-read lease is
resolved to the lease's mailbox with the lease's address kind exactly if it
leads back. -/
theorem alias_round_trip_iff (htext : LowersAscii) (principal : ClientPrincipal) (now : ℕ)
    (decrypt : String → Except String String) (draws : String → Draws)
    (request : AcquireRequest) (shuffled : List String) (db db' : Database)
    (result : LeaseAcquireResult) (m : Mailbox) (hmode : request.mode = .mailRead)
    (hdrawn : ∀ suffix ∈ (draws defaultProviderType).suffixes, ValidSuffix suffix)
    (hacquired : (acquireLease principal now decrypt draws request shuffled).transact db =
      (.ok result, db'))
    (hm : m ∈ db'.mailboxes) (hmailbox : result.mailboxId = some m.id)
    (himported : ImportedAddress m.primaryEmail) :
    ∃ suffix, RequestedSuffix request (draws defaultProviderType) suffix ∧
      result.allocatedEmail = some (leaseAddress m.primaryEmail suffix) ∧
      ∃ kind, result.addressKind = some kind ∧
        ∀ db₂ : Database, ∀ q ∈ db₂.mailboxes, q.id = m.id →
          q.primaryEmail = m.primaryEmail →
          (resolveReacquireEmail db₂ (Text.lower (leaseAddress m.primaryEmail suffix)) =
              .ok (m.id, kind) ↔
            LeadsBack db₂ m.primaryEmail suffix) := by
  obtain ⟨suffix, hsuffix, haddress, hkind⟩ := acquireLease_address hmode hm hmailbox himported
    (Work.transact_eq_ok.mp hacquired)
  rw [haddress] at hkind
  refine ⟨suffix, hsuffix, haddress, _, hkind, ?_⟩
  intro db₂ q hq hid hemail
  rw [← hid]
  rw [← hemail] at himported ⊢
  cases suffix with
  | none =>
      refine iff_of_true ?_ trivial
      rw [leaseAddress, resolve_primary htext hq himported]
      simp only [Text.normalize_normalize, if_true]
  | some suffix =>
      have hvalid : ValidSuffix suffix := by
        have hsuffix := hsuffix.2
        unfold AliasSuffix at hsuffix
        split at hsuffix
        · exact validSuffix_of_checked hsuffix
        · exact hdrawn suffix hsuffix
      exact resolve_plusAlias_iff htext hq himported hvalid

end

/-! ## A mailbox with a tag of its own -/

section Sample

attribute [local instance] asciiPlatform

theorem ascii_lowersAscii : LowersAscii where
  separator := by
    simp only [List.forall_mem_cons, List.not_mem_nil, false_implies, implies_true, and_true]
    decide
  only := by
    intro sep hsep c hc
    have hlower : c.toLower.toNat = sep.toNat :=
      congrArg Char.toNat (List.mem_singleton.mp hc).symm
    rw [Ascii.toNat_toLower] at hlower
    have hbelow : ∀ sep ∈ ['@', '+', ' '], sep.toNat < 65 := by
      simp only [List.forall_mem_cons, List.not_mem_nil, false_implies, implies_true, and_true]
      decide
    have hsep := hbelow sep hsep
    split at hlower
    · omega
    · exact Char.ext (UInt32.toNat_inj.mp hlower)
  alphabet := by
    have hall : (plusAliasSuffixAlphabet.all fun c => PythonText.lowerChar c = [c]) = true := by
      decide +kernel
    simpa only [List.all_eq_true, decide_eq_true_eq] using hall

def aliasRequest : AcquireRequest where
  mode := .mailRead
  ttlSeconds := 60
  preferredAliasSuffix := some "abc"

def acquireAlias (db : Database) : Except LeaseError LeaseAcquireResult × Database :=
  (acquireLease samplePrincipal 0 .ok (sampleDraws "1") aliasRequest ["microsoft"]).transact db

def untaggedDatabase : Database where
  mailboxes := ⟨[{ sampleMailbox with primaryEmail := "A@x.org" }], List.pairwise_singleton _ _⟩

def aliasResult : LeaseAcquireResult where
  leaseId := "microsoft1"
  primaryEmail := "A@x.org"
  mode := .mailRead
  expiresAt := 60000000
  createdAt := 0
  mailboxId := some "mailbox"
  allocatedEmail := some "A+abc@x.org"
  addressKind := some "plus_alias"
  providerType := some "microsoft"

theorem alias_round_trip_sample :
    ∃ suffix, RequestedSuffix aliasRequest (sampleDraws "1" defaultProviderType) suffix ∧
      aliasResult.allocatedEmail = some (leaseAddress "A@x.org" suffix) ∧
      ∃ kind, aliasResult.addressKind = some kind ∧
        ∀ db₂ : Database, ∀ q ∈ db₂.mailboxes, q.id = "mailbox" → q.primaryEmail = "A@x.org" →
          (resolveReacquireEmail db₂ (Text.lower (leaseAddress "A@x.org" suffix)) =
              .ok ("mailbox", kind) ↔
            LeadsBack db₂ "A@x.org" suffix) := by
  refine alias_round_trip_iff ascii_lowersAscii samplePrincipal 0 .ok (sampleDraws "1")
    aliasRequest ["microsoft"] untaggedDatabase (acquireAlias untaggedDatabase).2 aliasResult
    { sampleMailbox with primaryEmail := "A@x.org" } rfl ?_ ?_ ?_ rfl ?_
  · intro suffix hsuffix
    cases hsuffix
  · exact Prod.ext (by decide +kernel) rfl
  · show _ ∈ (acquireAlias untaggedDatabase).2.mailboxes.rows
    decide +kernel
  · exact ⟨by decide +kernel, ⟨"A", "x.org", by decide +kernel, by decide, by decide⟩,
      by decide +kernel⟩

/-- The alias `a+abc@x.org` that the mailbox `a+b@x.org` hands out leads nowhere. -/
theorem alias_not_resolved :
    (∃ result, (acquireAlias sampleDatabase).1 = .ok result ∧
        result.mailboxId = some "mailbox" ∧ result.allocatedEmail = some "a+abc@x.org" ∧
        result.addressKind = some "plus_alias") ∧
      resolveReacquireEmail (acquireAlias sampleDatabase).2 (Text.lower "a+abc@x.org") =
        .error (.leaseEmailNotFound "邮箱地址不可用或不属于当前调用方") := by
  refine ⟨⟨{ aliasResult with
      primaryEmail := "a+b@x.org", allocatedEmail := some "a+abc@x.org" }, ?_, rfl, rfl, rfl⟩, ?_⟩
  · decide +kernel
  · decide +kernel

end Sample

end MailboxService
