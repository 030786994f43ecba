import MailboxService.Ascii
import MailboxService.LeaseService.Reacquire

/-!
# What a reacquire discloses

A caller without history on an address is always refused. Two databases that
agree on the caller's leases refuse him with the same exception, except where
the address has a plus suffix that the service rejects: an exact match on a
stored primary address comes before the suffix is looked at, so the exception
tells whether the mailbox exists.
-/

namespace MailboxService

open Foundation

section

variable [Platform]

/-- The address is well formed, but its plus suffix is one the service
rejects. -/
def rejectedSuffix (normalizedEmail : String) : Bool :=
  match Text.partition normalizedEmail '@' with
  | (localPart, separator, domainPart) =>
      !(!separator || localPart = "" || domainPart = "" ||
          Text.containsChar normalizedEmail ' ') &&
        Text.containsChar localPart '+' &&
        match plusAliasBase localPart domainPart with
        | .error (.value _) => true
        | _ => false

/-- Two databases that a caller cannot tell apart by his own leases. -/
def AgreeOnLeases (clientKeyId : String) (db₁ db₂ : Database) : Prop :=
  ∀ l : Lease, l.clientKeyId = some clientKeyId → (l ∈ db₁.leases ↔ l ∈ db₂.leases)

/-- The exception a caller without history gets once his scope is checked. -/
def strangerError (db : Database) (normalizedEmail : String) : LeaseError :=
  match resolveReacquireEmail db normalizedEmail with
  | .error e => e
  | .ok _ => .leaseEmailNotFound "邮箱地址不可用或不属于当前调用方"

/-- **Refusal lemma**: without history the outcome is the exception of the
resolution, or the uniform one. -/
theorem reacquire_without_history {db : Database} {principal : ClientPrincipal}
    {now ttlSeconds : ℕ} {leaseId email : String} {clientTag purpose : Option String}
    (hhistory : db.clientHasMailReadHistory principal.clientKeyId (Text.normalize email) =
      false) :
    (Work.transact (reacquireLeaseByEmail principal now leaseId email ttlSeconds clientTag
        purpose) db).1 =
      .error (if "mailboxes:reacquire" ∈ principal.scopes then
          if Text.normalize email = "" then .value "email 不能为空"
          else strangerError db (Text.normalize email)
        else .clientKeyScope ("Client Key 缺少权限：" ++ "mailboxes:reacquire")) := by
  unfold Work.transact reacquireLeaseByEmail ClientPrincipal.requireScope
  by_cases hscope : "mailboxes:reacquire" ∈ principal.scopes
  · rw [if_pos hscope, if_pos hscope, Work.bind_of_ok Work.pure_apply]
    by_cases hempty : Text.normalize email = ""
    · simp only [hempty, if_true]
      rfl
    · simp only [hempty, if_false]
      rw [Work.bind_of_ok (Work.read_of_usable rfl)]
      unfold strangerError
      rcases hresolve : resolveReacquireEmail db (Text.normalize email) with e | ⟨id, kind⟩
      · rw [Work.bind_of_error Work.ofExcept_apply]
      · rw [Work.bind_of_ok Work.ofExcept_apply]
        simp only
        rw [Work.bind_of_ok (Work.read_of_usable rfl)]
        simp only [hhistory, Bool.not_false, if_true]
        rfl
  · rw [if_neg hscope, if_neg hscope, Work.bind_of_error Work.raise_apply]

/-- The uniform exception is the rule; a rejected suffix has its own, unless
the whole address is a stored one. -/
theorem strangerError_of_rejected {a : String} (h : rejectedSuffix a = true) :
    ∃ message, ∀ db : Database, strangerError db a =
      if (db.mailboxByEmail? a).isSome then
        .leaseEmailNotFound "邮箱地址不可用或不属于当前调用方" else .value message := by
  unfold rejectedSuffix at h
  unfold strangerError resolveReacquireEmail
  rcases hpart : Text.partition a '@' with ⟨localPart, separator, domainPart⟩
  simp only [hpart, Bool.and_eq_true, Bool.not_eq_true'] at h ⊢
  obtain ⟨⟨hvalid, hplus⟩, hbase⟩ := h
  rcases hresult : plusAliasBase localPart domainPart with e | base
  · rw [hresult] at hbase
    cases e <;> simp only [Bool.false_eq_true] at hbase
    rename_i message
    refine ⟨message, fun db => ?_⟩
    rw [hvalid, if_neg Bool.false_ne_true]
    rcases db.mailboxByEmail? a with _ | m
    · simp [hplus]
    · rfl
  · rw [hresult] at hbase
    cases hbase

omit [Platform] in
theorem plusAliasBase_error {localPart domainPart : String} {e : LeaseError}
    (h : plusAliasBase localPart domainPart = .error e) :
    e = .leaseEmailNotFound "邮箱地址不可用或不属于当前调用方" ∨ ∃ message, e = .value message := by
  unfold plusAliasBase at h
  simp only at h
  split at h
  · exact Or.inl (Except.error.inj h).symm
  · split at h
    · exact Or.inr ⟨_, (Except.error.inj h).symm⟩
    · split at h
      · exact Or.inr ⟨_, (Except.error.inj h).symm⟩
      · cases h

/-- Without a rejected suffix the exception is the address's alone. -/
theorem strangerError_of_accepted {db₁ db₂ : Database} {a : String}
    (h : rejectedSuffix a = false) : strangerError db₁ a = strangerError db₂ a := by
  have huniform : ∀ db : Database, strangerError db a =
      match Text.partition a '@' with
      | (localPart, separator, domainPart) =>
          if !separator || localPart = "" || domainPart = "" || Text.containsChar a ' ' then
            .value ("邮箱地址格式无效：" ++ a)
          else .leaseEmailNotFound "邮箱地址不可用或不属于当前调用方" := by
    intro db
    unfold rejectedSuffix at h
    unfold strangerError resolveReacquireEmail
    rcases hpart : Text.partition a '@' with ⟨localPart, separator, domainPart⟩
    simp only [hpart] at h ⊢
    cases hvalid : (!separator || decide (localPart = "") || decide (domainPart = "") ||
      Text.containsChar a ' ') with
    | true => rfl
    | false =>
        rw [hvalid, Bool.not_false, Bool.true_and] at h
        rw [if_neg Bool.false_ne_true]
        rcases db.mailboxByEmail? a with _ | m
        · cases hplus : Text.containsChar localPart '+' with
          | false => rfl
          | true =>
              rw [hplus, Bool.true_and] at h
              rcases hbase : plusAliasBase localPart domainPart with e | base
              · rcases plusAliasBase_error hbase with rfl | ⟨message, rfl⟩
                · rfl
                · rw [hbase] at h
                  cases h
              · simp only [Bool.not_true, Bool.false_eq_true, if_false]
                rcases db.mailboxByEmail? base with _ | m <;> rfl
        · rfl
  rw [huniform, huniform]

/-- **Disclosure**: for a caller without history two databases give the same
outcome exactly if he lacks the scope anyway, or the suffix of the address is
not a rejected one, or both or neither hold a mailbox of exactly that
address. -/
theorem reacquire_discloses_iff (principal : ClientPrincipal) (now ttlSeconds : ℕ)
    (leaseId email : String) (clientTag purpose : Option String) (db₁ db₂ : Database)
    (hagree : AgreeOnLeases principal.clientKeyId db₁ db₂)
    (hhistory : db₁.clientHasMailReadHistory principal.clientKeyId (Text.normalize email) =
      false) :
    (Work.transact (reacquireLeaseByEmail principal now leaseId email ttlSeconds clientTag
        purpose) db₁).1 =
      (Work.transact (reacquireLeaseByEmail principal now leaseId email ttlSeconds clientTag
        purpose) db₂).1 ↔
      "mailboxes:reacquire" ∉ principal.scopes ∨
        rejectedSuffix (Text.normalize email) = false ∨
        (db₁.mailboxByEmail? (Text.normalize email)).isSome =
          (db₂.mailboxByEmail? (Text.normalize email)).isSome := by
  have hhistory₂ : db₂.clientHasMailReadHistory principal.clientKeyId (Text.normalize email) =
      false := by
    unfold Database.clientHasMailReadHistory at hhistory ⊢
    rw [Table.any_eq_false] at hhistory ⊢
    intro l hl
    by_cases howner : l.clientKeyId = some principal.clientKeyId
    · exact hhistory l ((hagree l howner).mpr hl)
    · simp [howner]
  rw [reacquire_without_history hhistory, reacquire_without_history hhistory₂,
    Except.error.injEq]
  by_cases hscope : "mailboxes:reacquire" ∈ principal.scopes
  · rw [if_pos hscope, if_pos hscope, or_iff_right (not_not.mpr hscope)]
    by_cases hempty : Text.normalize email = ""
    · rw [if_pos hempty, if_pos hempty, hempty]
      exact iff_of_true rfl (Or.inl rfl)
    · rw [if_neg hempty, if_neg hempty]
      cases hsuffix : rejectedSuffix (Text.normalize email) with
      | false => exact iff_of_true (strangerError_of_accepted hsuffix) (Or.inl rfl)
      | true =>
          obtain ⟨message, herror⟩ := strangerError_of_rejected hsuffix
          rw [herror, herror, or_iff_right (by simp)]
          cases (db₁.mailboxByEmail? (Text.normalize email)).isSome <;>
            cases (db₂.mailboxByEmail? (Text.normalize email)).isSome <;> simp
  · rw [if_neg hscope, if_neg hscope]
    exact iff_of_true rfl (Or.inl hscope)

end

/-! ## An address with a dot behind the plus -/

section Sample

attribute [local instance] asciiPlatform

def reacquirer : ClientPrincipal where
  clientKeyId := "key"
  name := "client"
  scopes := ["mailboxes:reacquire"]

def dottedDatabase : Database where
  mailboxes := ⟨[{ id := "mailbox", primaryEmail := "user+news.letter@x.org" }],
    List.pairwise_singleton _ _⟩

theorem reacquire_discloses_sample :
    (Work.transact (reacquireLeaseByEmail reacquirer 0 "lease" "user+abc@x.org" 600 none none)
        dottedDatabase).1 =
      (Work.transact (reacquireLeaseByEmail reacquirer 0 "lease" "user+abc@x.org" 600 none none)
        { }).1 := by
  refine (reacquire_discloses_iff reacquirer 0 600 "lease" "user+abc@x.org" none none
    dottedDatabase { } ?_ ?_).mpr ?_
  · intro l _
    exact Iff.rfl
  · decide +kernel
  · exact Or.inr (Or.inl (by decide +kernel))

/-- The outcome for `user+news.letter@x.org` depends on whether that mailbox
exists. -/
theorem reacquire_discloses_mailbox :
    AgreeOnLeases reacquirer.clientKeyId dottedDatabase { } ∧
      dottedDatabase.clientHasMailReadHistory reacquirer.clientKeyId
        (Text.normalize "user+news.letter@x.org") = false ∧
      (Work.transact (reacquireLeaseByEmail reacquirer 0 "lease" "user+news.letter@x.org" 600
          none none) dottedDatabase).1 =
        .error (.leaseEmailNotFound "邮箱地址不可用或不属于当前调用方") ∧
      (Work.transact (reacquireLeaseByEmail reacquirer 0 "lease" "user+news.letter@x.org" 600
          none none) { }).1 = .error (.value "plus alias 后缀仅允许小写字母与数字") := by
  refine ⟨fun l _ => Iff.rfl, ?_, ?_, ?_⟩
  · decide +kernel
  · decide +kernel
  · decide +kernel

end Sample

end MailboxService
