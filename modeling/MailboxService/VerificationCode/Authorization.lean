import MailboxService.Foundation.Checks
import MailboxService.LeaseService.Store

/-!
# Authorization checkpoints

`revalidate_verification_authorization`: the Client Key, the lease and its
mailbox are looked at afresh each time a poll for a verification code calls it.
The poll lives longer than a request, so the world it reads may change under
it: rows, keys, the settings of a provider and the clock.
-/

namespace MailboxService

open Foundation

structure ClientKey where
  id : String
  enabled : Bool := true
  expiresAt : Option ℕ := none
  scopes : List String
  deriving DecidableEq, Repr

/-- `client_keys`. -/
def clientKeySchema : Schema ClientKey String := .keyed ClientKey.id

/-- What `resolve_smsbower_runtime` finds in the settings. -/
structure SmsBowerRuntime where
  enabled : Bool := false
  apiKey : Option String := none
  deriving DecidableEq, Repr

structure VerificationAuthorizationError where
  code : String
  message : String
  deriving DecidableEq, Repr

/-- The identities that a checkpoint has found. -/
structure VerificationLookupAuthorization where
  leaseId : String
  mailboxId : String
  clientKeyId : String
  primaryEmail : String
  allocatedEmail : String
  deriving DecidableEq, Repr

def verificationCodeScope : String := "mail:verification-code:read"

section

variable [Platform]

structure PollWorld where
  db : Database := {}
  clientKeys : Table clientKeySchema := ∅
  smsbower : SmsBowerRuntime := {}
  now : ℕ := 0

/-! ## The checkpoint -/

/-- The scopes the key had when the request was authenticated. -/
def requireVerificationScope (principal : ClientPrincipal) :
    Except VerificationAuthorizationError Unit :=
  if verificationCodeScope ∈ principal.scopes then .ok ()
  else .error ⟨"CLIENT_KEY_SCOPE_DENIED", "Client Key 缺少权限：" ++ verificationCodeScope⟩

def revalidateClientKey (w : PollWorld) (principal : ClientPrincipal) :
    Except VerificationAuthorizationError Unit :=
  match w.clientKeys.get? principal.clientKeyId with
  | none => .error ⟨"CLIENT_KEY_INACTIVE", "Client Key 已停用或不存在"⟩
  | some clientKey =>
      if !clientKey.enabled then
        .error ⟨"CLIENT_KEY_INACTIVE", "Client Key 已停用或不存在"⟩
      else if clientKey.expiresAt.any (isExpired · w.now) then
        .error ⟨"CLIENT_KEY_EXPIRED", "Client Key 已过期"⟩
      else if verificationCodeScope ∉ clientKey.scopes then
        .error ⟨"CLIENT_KEY_SCOPE_DENIED", "Client Key 缺少权限：mail:verification-code:read"⟩
      else .ok ()

def revalidateLease (w : PollWorld) (principal : ClientPrincipal) (leaseId : String) :
    Except VerificationAuthorizationError Lease :=
  match w.db.leases.get? leaseId with
  | none => .error ⟨"LEASE_NOT_FOUND", "租约不存在或不属于当前调用方"⟩
  | some lease =>
      if lease.clientKeyId ≠ some principal.clientKeyId then
        .error ⟨"LEASE_NOT_FOUND", "租约不存在或不属于当前调用方"⟩
      else if lease.mode ≠ .mailRead then
        .error ⟨"LEASE_MODE_MISMATCH", "该租约不是 mail_read mode"⟩
      else if lease.releasedAt.isSome then .error ⟨"LEASE_INACTIVE", "租约已释放"⟩
      else if isExpired lease.expiresAt w.now then .error ⟨"LEASE_INACTIVE", "租约已过期"⟩
      else .ok lease

def revalidateLeasedMailbox (w : PollWorld) (lease : Lease) :
    Except VerificationAuthorizationError (String × String) :=
  let unavailable := .error ⟨"LEASE_INACTIVE", "租约邮箱当前不可用"⟩
  if !missing lease.mailboxId then
    match w.db.mailboxes.get? (lease.mailboxId.getD "") with
    | none => unavailable
    | some mailbox =>
        if mailbox.status ≠ .active then unavailable
        else .ok (mailbox.id, mailbox.primaryEmail)
  else if missing lease.providerResourceId then unavailable
  else
    match w.db.providerResources.get? (lease.providerResourceId.getD "") with
    | none => unavailable
    | some resource =>
        if resource.lifecycleState ≠ .claimed then unavailable
        else .ok (resource.id, resource.primaryEmail)

def revalidateVerificationAuthorization (w : PollWorld) (principal : ClientPrincipal)
    (leaseId : String) :
    Except VerificationAuthorizationError VerificationLookupAuthorization := do
  requireVerificationScope principal
  revalidateClientKey w principal
  let lease ← revalidateLease w principal leaseId
  let (mailboxId, primaryEmail) ← revalidateLeasedMailbox w lease
  return {
    leaseId := lease.id
    mailboxId := mailboxId
    clientKeyId := principal.clientKeyId
    primaryEmail := primaryEmail
    allocatedEmail :=
      if missing lease.allocatedEmail then primaryEmail else lease.allocatedEmail.getD "" }

/-! ## What it stands for -/

def KeyAuthorized (w : PollWorld) (principal : ClientPrincipal) : Prop :=
  ∃ k, w.clientKeys.get? principal.clientKeyId = some k ∧ k.enabled = true ∧
    (∀ t ∈ k.expiresAt, w.now < t) ∧ verificationCodeScope ∈ k.scopes

def LeasedMailboxReadable (w : PollWorld) (lease : Lease) : Prop :=
  if missing lease.mailboxId then
    missing lease.providerResourceId = false ∧
      ∃ r, w.db.providerResources.get? (lease.providerResourceId.getD "") = some r ∧
        r.lifecycleState = .claimed
  else ∃ m, w.db.mailboxes.get? (lease.mailboxId.getD "") = some m ∧ m.status = .active

def LeaseAuthorized (w : PollWorld) (principal : ClientPrincipal) (leaseId : String)
    (lease : Lease) : Prop :=
  w.db.leases.get? leaseId = some lease ∧ lease.clientKeyId = some principal.clientKeyId ∧
    lease.mode = .mailRead ∧ lease.releasedAt = none ∧ w.now < lease.expiresAt

/-- **The caller may be shown the codes of the lease now.** -/
structure Authorized (w : PollWorld) (principal : ClientPrincipal) (leaseId : String) :
    Prop where
  scope : verificationCodeScope ∈ principal.scopes
  key : KeyAuthorized w principal
  lease : ∃ l, LeaseAuthorized w principal leaseId l ∧ LeasedMailboxReadable w l

omit [Platform] in
theorem requireVerificationScope_ok {principal : ClientPrincipal} :
    requireVerificationScope principal = .ok () ↔
      verificationCodeScope ∈ principal.scopes := by
  unfold requireVerificationScope
  split
  · rename_i h
    exact iff_of_true rfl h
  · rename_i h
    exact iff_of_false (by rintro ⟨⟩) h

theorem revalidateClientKey_ok {w : PollWorld} {principal : ClientPrincipal} :
    revalidateClientKey w principal = .ok () ↔ KeyAuthorized w principal := by
  unfold revalidateClientKey KeyAuthorized
  cases w.clientKeys.get? principal.clientKeyId with
  | none => simp
  | some k =>
      simp only [Option.some.injEq, Bool.not_eq_true', Option.any_eq_true, isExpired,
        decide_eq_true_eq]
      split_ifs with henabled hexpired hscope
      · refine iff_of_false (by rintro ⟨⟩) ?_
        rintro ⟨k', rfl, h, -⟩
        rw [henabled] at h
        cases h
      · refine iff_of_false (by rintro ⟨⟩) ?_
        rintro ⟨k', rfl, -, h, -⟩
        obtain ⟨t, ht, hle⟩ := hexpired
        exact absurd (h t ht) (not_lt.mpr hle)
      · refine iff_of_true rfl ⟨k, rfl, ?_, ?_, hscope⟩
        · simpa using henabled
        · intro t ht
          by_contra hle
          exact hexpired ⟨t, ht, not_lt.mp hle⟩
      · refine iff_of_false (by rintro ⟨⟩) ?_
        rintro ⟨k', rfl, -, -, h⟩
        exact hscope h

theorem revalidateLease_ok {w : PollWorld} {principal : ClientPrincipal} {leaseId : String}
    {lease : Lease} :
    revalidateLease w principal leaseId = .ok lease ↔
      LeaseAuthorized w principal leaseId lease := by
  unfold revalidateLease LeaseAuthorized
  cases w.db.leases.get? leaseId with
  | none => simp
  | some l =>
      simp only [Option.some.injEq, isExpired, decide_eq_true_eq]
      split_ifs with howner hmode hreleased hexpired
      · refine iff_of_false (by rintro ⟨⟩) ?_
        rintro ⟨rfl, h, -⟩
        exact howner h
      · refine iff_of_false (by rintro ⟨⟩) ?_
        rintro ⟨rfl, -, h, -⟩
        exact hmode h
      · refine iff_of_false (by rintro ⟨⟩) ?_
        rintro ⟨rfl, -, -, h, -⟩
        rw [h] at hreleased
        cases hreleased
      · refine iff_of_false (by rintro ⟨⟩) ?_
        rintro ⟨rfl, -, -, -, h⟩
        exact absurd h (not_lt.mpr hexpired)
      · constructor
        · intro h
          cases h
          exact ⟨rfl, not_not.mp howner, not_not.mp hmode,
            Option.not_isSome_iff_eq_none.mp hreleased, not_le.mp hexpired⟩
        · rintro ⟨rfl, -⟩
          rfl

theorem revalidateLeasedMailbox_ok {w : PollWorld} {lease : Lease} :
    (∃ found, revalidateLeasedMailbox w lease = .ok found) ↔
      LeasedMailboxReadable w lease := by
  unfold revalidateLeasedMailbox LeasedMailboxReadable
  cases missing lease.mailboxId with
  | false =>
      simp only [Bool.not_false, if_true]
      cases w.db.mailboxes.get? (lease.mailboxId.getD "") with
      | none => simp
      | some m =>
          by_cases hstatus : m.status = .active
          · simp [hstatus]
          · simp [hstatus]
  | true =>
      cases missing lease.providerResourceId with
      | true => simp
      | false =>
          cases w.db.providerResources.get? (lease.providerResourceId.getD "") with
          | none => simp
          | some r =>
              by_cases hstate : r.lifecycleState = .claimed
              · simp [hstate]
              · simp [hstate]

/-- **A checkpoint succeeds exactly if the caller may be shown the codes.** -/
theorem revalidate_ok_iff {w : PollWorld} {principal : ClientPrincipal} {leaseId : String} :
    (∃ found, revalidateVerificationAuthorization w principal leaseId = .ok found) ↔
      Authorized w principal leaseId := by
  unfold revalidateVerificationAuthorization
  simp only [Checks.exists_bind_ok]
  constructor
  · rintro ⟨_, hscope, _, hkey, lease, hlease, mailbox, hmailbox, -⟩
    exact ⟨requireVerificationScope_ok.mp hscope, revalidateClientKey_ok.mp hkey, lease,
      revalidateLease_ok.mp hlease, revalidateLeasedMailbox_ok.mp ⟨mailbox, hmailbox⟩⟩
  · rintro ⟨hscope, hkey, lease, hlease, hmailbox⟩
    obtain ⟨mailbox, hmailbox⟩ := revalidateLeasedMailbox_ok.mpr hmailbox
    exact ⟨(), requireVerificationScope_ok.mpr hscope, (), revalidateClientKey_ok.mpr hkey,
      lease, revalidateLease_ok.mpr hlease, mailbox, hmailbox, _, rfl⟩

end

end MailboxService
