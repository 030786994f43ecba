import MailboxService.LeaseService.Acquire

/-!
# Reacquiring a lease by address

`LeaseService.reacquire_lease_by_email`: resolve the address to a mailbox,
check that the caller held it before, then renew the caller's own active lease
on it or insert a new one.
-/

namespace MailboxService

open Foundation

section

variable [Platform]

def Database.mailboxByEmail? (db : Database) (email : String) : Option Mailbox :=
  db.mailboxes.rows.find? fun m => sqlEq m.primaryEmail email

/-- The base address of a plus alias, or the complaint about the address. -/
def plusAliasBase (localPart domainPart : String) : Except LeaseError String :=
  match Text.partition localPart '+' with
  | (base, _, suffix) =>
      if base = "" || suffix = "" then
        .error (.leaseEmailNotFound "邮箱地址不可用或不属于当前调用方")
      else if !suffix.toList.all (plusAliasSuffixAlphabet.contains ·) then
        .error (.value "plus alias 后缀仅允许小写字母与数字")
      else if suffix.length > 32 then .error (.value "plus alias 后缀最长 32 个字符")
      else .ok (base ++ "@" ++ domainPart)

/-- `_resolve_reacquire_email`: the mailbox id and the address kind. -/
def resolveReacquireEmail (db : Database) (normalizedEmail : String) :
    Except LeaseError (String × String) :=
  match Text.partition normalizedEmail '@' with
  | (localPart, separator, domainPart) =>
      if !separator || localPart = "" || domainPart = "" ||
          Text.containsChar normalizedEmail ' ' then
        .error (.value ("邮箱地址格式无效：" ++ normalizedEmail))
      else
        match db.mailboxByEmail? normalizedEmail with
        | some m => .ok (m.id, "primary")
        | none =>
            if !Text.containsChar localPart '+' then
              .error (.leaseEmailNotFound "邮箱地址不可用或不属于当前调用方")
            else
              match plusAliasBase localPart domainPart with
              | .error e => .error e
              | .ok baseEmail =>
                  match db.mailboxByEmail? baseEmail with
                  | none => .error (.leaseEmailNotFound "邮箱地址不可用或不属于当前调用方")
                  | some m => .ok (m.id, "plus_alias")

/-- Whether the key held a mail-read lease on the address before. -/
def Database.clientHasMailReadHistory (db : Database) (clientKeyId allocatedEmail : String) :
    Bool :=
  db.leases.any fun l => l.clientKeyId = some clientKeyId &&
    sqlEqNullable l.allocatedEmail (some allocatedEmail) && l.mode = .mailRead

def checkReacquirable (m : Mailbox) : Except LeaseError Unit :=
  if m.status ≠ .active then .error (.leaseUnavailable "目标邮箱当前不可用")
  else if m.capability ≠ some .imap ∧ m.capability ≠ some .graph then
    .error (.leaseUnavailable "目标邮箱尚无可用的邮件读取通道")
  else if m.clientId = none ∨ missing m.refreshTokenCiphertext = true then
    .error (.leaseUnavailable "目标邮箱凭证不完整")
  else .ok ()

def Lease.carries (l : Lease) (allocatedEmail : String) : Bool :=
  Text.normalize (l.allocatedEmail.getD "") = allocatedEmail

/-- Go through the active leases of the mailbox: the caller's own lease on the
address is renewed (the last one found), any other lease on the address is in
the way, and on the primary address every other lease is. -/
def matchOwnedLease (clientKeyId allocatedEmail : String) (isPlusAlias : Bool)
    (found : Option Lease) : List Lease → Except LeaseError (Option Lease)
  | [] => .ok found
  | l :: leases =>
      if l.clientKeyId = some clientKeyId ∧ l.mode = .mailRead ∧
          l.carries allocatedEmail = true then
        matchOwnedLease clientKeyId allocatedEmail isPlusAlias (some l) leases
      else if l.carries allocatedEmail = true ∨ isPlusAlias = false then
        .error (.leaseMailboxBusy "目标邮箱当前被其他租约占用")
      else matchOwnedLease clientKeyId allocatedEmail isPlusAlias found leases

def Lease.renew (l : Lease) (now ttlSeconds : ℕ) (clientTag purpose : Option String) :
    Lease :=
  { l with
    expiresAt := now + seconds ttlSeconds
    clientTag := clientTag.orElse fun _ => l.clientTag
    purpose := purpose.orElse fun _ => l.purpose }

def reacquiredLease (principal : ClientPrincipal) (now ttlSeconds : ℕ) (leaseId : String)
    (clientTag purpose : Option String) (m : Mailbox) (allocatedEmail : String) : Lease where
  id := leaseId
  mailboxId := some m.id
  providerResourceId := none
  clientKeyId := some principal.clientKeyId
  clientTag := clientTag
  purpose := purpose
  allocatedEmail := some allocatedEmail
  mode := .mailRead
  providerType := m.providerType
  expiresAt := now + seconds ttlSeconds
  createdAt := now

def reacquireResult (lease : Lease) (m : Mailbox) (allocatedEmail addressKind : String) :
    LeaseAcquireResult where
  leaseId := lease.id
  primaryEmail := m.primaryEmail
  mode := .mailRead
  expiresAt := lease.expiresAt
  createdAt := lease.createdAt
  mailboxId := some m.id
  allocatedEmail := some allocatedEmail
  addressKind := some addressKind

def renewOrInsertLease (principal : ClientPrincipal) (now ttlSeconds : ℕ) (leaseId : String)
    (clientTag purpose : Option String) (m : Mailbox) (allocatedEmail addressKind : String)
    (owned : Option Lease) : LeaseWork LeaseAcquireResult :=
  match owned with
  | some l => do
      let lease := l.renew now ttlSeconds clientTag purpose
      Work.write fun db => db.updateLease l.id
        (fun l => l.renew now ttlSeconds clientTag purpose) (lease_keeps fun _ => rfl)
      upsertLeaseClaim now lease (some allocatedEmail)
      pure (reacquireResult lease m allocatedEmail addressKind)
  | none => do
      let lease := reacquiredLease principal now ttlSeconds leaseId clientTag purpose m
        allocatedEmail
      Work.flush fun db => db.insertLease? lease
      upsertLeaseClaim now lease (some allocatedEmail)
      pure (reacquireResult lease m allocatedEmail addressKind)

/-- `reacquire_lease_by_email`. The mailbox row is read under its lock, which
is free when transactions are serialised. -/
def reacquireLeaseByEmail (principal : ClientPrincipal) (now : ℕ) (leaseId email : String)
    (ttlSeconds : ℕ) (clientTag purpose : Option String) : LeaseWork LeaseAcquireResult := do
  principal.requireScope "mailboxes:reacquire"
  let allocatedEmail := Text.normalize email
  if allocatedEmail = "" then Work.raise (.value "email 不能为空")
  else do
    let resolved ← Work.read fun db => resolveReacquireEmail db allocatedEmail
    let (mailboxId, addressKind) ← Work.ofExcept resolved
    if !(← Work.read fun db =>
        db.clientHasMailReadHistory principal.clientKeyId allocatedEmail) then
      Work.raise (.leaseEmailNotFound "邮箱地址不可用或不属于当前调用方")
    else
      match ← Work.read fun db => db.mailboxes.get? mailboxId with
      | none => Work.raise (.leaseEmailNotFound "邮箱地址不可用或不属于当前调用方")
      | some m => do
          Work.ofExcept (checkReacquirable m)
          let owned ← Work.read fun db =>
            matchOwnedLease principal.clientKeyId allocatedEmail (addressKind = "plus_alias")
              none (db.leases.select fun l => l.mailboxId = some m.id && l.activeAt now)
          let owned ← Work.ofExcept owned
          renewOrInsertLease principal now ttlSeconds leaseId clientTag purpose m allocatedEmail
            addressKind owned

end

end MailboxService
