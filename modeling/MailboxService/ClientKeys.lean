import MailboxService.Ascii
import MailboxService.Foundation.IdentityMap
import MailboxService.Foundation.Interleaving
import MailboxService.Foundation.Table
import MailboxService.LeaseService.ProviderSelection
import MailboxService.VerificationCode.Authorization

/-!
# Client keys

`client_key_service.py`: API keys are issued once and kept as digests. Any
number of requests create, rename, disable and present keys at the same time.
Each reads its key without a lock and writes its columns when it commits, so
the columns of one row may come from several requests.

`clientKeys_exact` says who is let in, in every state of every run.
-/

namespace MailboxService

open Foundation

/-! ## Data -/

/-- A row of `client_keys`, with the columns that issuing and presenting a key
add to `ClientKey`. -/
structure ClientKeyRow extends ClientKey where
  name : String
  secretDigest : String
  lastUsedAt : Option ℕ := none
  deriving DecidableEq, Repr

inductive ClientKeyError where
  | authentication (message : String)
  | value (message : String)
  | lookup (message : String)
  | integrity
  deriving DecidableEq, Repr

/-- What a creation draws: the uuid, and `secrets.token_urlsafe(32)`. -/
structure ClientKeyDraw where
  id : String
  secret : String
  deriving DecidableEq, Repr

def providerAcquireScopes : List String :=
  (providerDefinitions.filter (·.requiresAcquireScope)).map fun d =>
    providerAcquireScope d.providerType

def allowedClientKeyScopes : List String :=
  ["leases:acquire", "leases:release", "tokens:access:read", "tokens:refresh:read",
   "tokens:refresh:write", "mailboxes:acquire", "mailboxes:reacquire",
   "mail:verification-code:read"] ++ providerAcquireScopes

section

variable [Platform]

/-- `client_keys` with its unique keys. -/
def clientKeyRowSchema : Schema ClientKeyRow String where
  key k := k.id
  clash a b := sqlEq a.id b.id || sqlEq a.name b.name || sqlEq a.secretDigest b.secretDigest
  clash_comm a b := by
    rw [sqlEq_comm a.id, sqlEq_comm a.name, sqlEq_comm a.secretDigest]

abbrev ClientKeyTable := Table clientKeyRowSchema

/-- `session.get` with an id that came from outside. -/
def Foundation.Table.clientKey? (keys : ClientKeyTable) (clientKeyId : String) :
    Option ClientKeyRow :=
  keys.rows.find? fun k => sqlEq k.id clientKeyId

/-! ## The service -/

/-- The name and the scopes that a creation or an update may write. -/
def checkClientKeyFields (name : String) (scopes : List String) :
    Except ClientKeyError (String × List String) :=
  let normalizedName := Text.strip name
  let normalizedScopes := scopes.eraseDups
  let unsupportedScopes := normalizedScopes.filter (· ∉ allowedClientKeyScopes)
  if normalizedName = "" then .error (.value "Client Key 名称不能为空")
  else if unsupportedScopes ≠ [] then
    .error (.value ("不支持的 Client Key 权限：" ++
      ", ".intercalate (unsupportedScopes.insertionSort (· ≤ ·))))
  else if normalizedScopes = [] then .error (.value "Client Key 至少需要一个权限")
  else .ok (normalizedName, normalizedScopes)

def ClientKeyDraw.apiKey (draw : ClientKeyDraw) : String :=
  "mbx_" ++ draw.id ++ "." ++ draw.secret

/-- `create_client_key`; `digest` is `_digest_secret`. -/
def createClientKey (digest : String → String) (keys : ClientKeyTable) (draw : ClientKeyDraw)
    (name : String) (scopes : List String) (expiresAt : Option ℕ) :
    Except ClientKeyError (ClientKeyTable × ClientKeyRow × String) :=
  match checkClientKeyFields name scopes with
  | .error e => .error e
  | .ok (normalizedName, normalizedScopes) =>
      let clientKey : ClientKeyRow :=
        { id := draw.id, name := normalizedName, secretDigest := digest draw.secret
          scopes := normalizedScopes, expiresAt }
      match keys.insert? clientKey with
      | none => .error .integrity
      | some keys' => .ok (keys', clientKey, draw.apiKey)

def invalidApiKey : ClientKeyError := .authentication "Client API Key 无效"

def parseApiKey (apiKey : Option String) : Except ClientKeyError (String × String) :=
  match apiKey with
  | none => .error invalidApiKey
  | some apiKey =>
      if apiKey = "" ∨ ¬ "mbx_".toList <+: apiKey.toList ∨ '.' ∉ apiKey.toList then
        .error invalidApiKey
      else
        let (identifier, _, secret) := Text.partition apiKey '.'
        -- the prefix has no dot, so the identifier starts with it
        let clientKeyId := String.ofList (identifier.toList.drop 4)
        if clientKeyId = "" ∨ secret = "" then .error invalidApiKey
        else .ok (clientKeyId, secret)

/-- `authenticate`: the loaded key, and the principal. -/
def authenticate (digest : String → String) (keys : ClientKeyTable) (now : ℕ)
    (apiKey : Option String) : Except ClientKeyError (ClientKeyRow × ClientPrincipal) :=
  match parseApiKey apiKey with
  | .error e => .error e
  | .ok (clientKeyId, secret) =>
      match keys.clientKey? clientKeyId with
      | none => .error invalidApiKey
      | some clientKey =>
          if clientKey.secretDigest ≠ digest secret ∨ clientKey.enabled = false ∨
              clientKey.expiresAt.any (isExpired · now) then .error invalidApiKey
          else
            .ok (clientKey,
              { clientKeyId := clientKey.id, name := clientKey.name, scopes := clientKey.scopes })

/-- `disable_client_key`: the loaded key, and what it is assigned. -/
def disableClientKey (keys : ClientKeyTable) (clientKeyId : String) :
    Except ClientKeyError (ClientKeyRow × ClientKeyRow) :=
  match keys.clientKey? clientKeyId with
  | none => .error (.lookup "Client Key 不存在")
  | some clientKey => .ok (clientKey, { clientKey with enabled := false })

/-- `update_client_key`: the loaded key, and what it is assigned. -/
def updateClientKey (keys : ClientKeyTable) (clientKeyId name : String)
    (scopes : List String) : Except ClientKeyError (ClientKeyRow × ClientKeyRow) :=
  match keys.clientKey? clientKeyId with
  | none => .error (.lookup "Client Key 不存在")
  | some clientKey =>
      match checkClientKeyFields name scopes with
      | .error e => .error e
      | .ok (normalizedName, normalizedScopes) =>
          if normalizedName ≠ clientKey.name ∧
              keys.any (fun k => sqlEq k.name normalizedName && !sqlEq k.id clientKeyId) then
            .error (.value "Client Key 名称已存在")
          else .ok (clientKey, { clientKey with name := normalizedName, scopes := normalizedScopes })

/-- What a flush of the assigned values leaves in the row of a key. -/
def ClientKeyRow.flush (loaded assigned current : ClientKeyRow) : ClientKeyRow :=
  { current with
    name := flushColumn loaded.name assigned.name current.name
    scopes := flushColumn loaded.scopes assigned.scopes current.scopes
    enabled := flushColumn loaded.enabled assigned.enabled current.enabled
    lastUsedAt := flushColumn loaded.lastUsedAt assigned.lastUsedAt current.lastUsedAt }

/-! ## Requests that take turns -/

structure IssuedKey extends ClientKeyDraw where
  expiresAt : Option ℕ
  deriving DecidableEq, Repr

/-- A request on its way: the key it has loaded, and what it has assigned. -/
inductive KeyHandler where
  | idle
  | pending (loaded assigned : ClientKeyRow)

/-- A run adds to the table what the code does not keep: the issued keys, and the
ids that have been disabled. -/
structure KeyShared where
  keys : ClientKeyTable := ∅
  now : ℕ := 0
  issued : List IssuedKey := []
  disabled : List String := []

inductive KeyAction where
  | create (draw : ClientKeyDraw) (name : String) (scopes : List String)
      (expiresAt : Option ℕ)
  | authenticate (apiKey : Option String)
  | disable (clientKeyId : String)
  | update (clientKeyId name : String) (scopes : List String)
  | commit
  | rollback
  | advance (microseconds : ℕ)

/-- One step of a request. A creation is one statement; a flush that breaks a
constraint ends its request. -/
def keyAct (digest : String → String) (s : KeyShared) (x : KeyHandler) :
    KeyAction → KeyHandler × KeyShared
  | .create draw name scopes expiresAt =>
      match createClientKey digest s.keys draw name scopes expiresAt with
      | .error _ => (x, s)
      | .ok (keys, _, _) =>
          (x, { s with keys, issued := { draw with expiresAt } :: s.issued })
  | .authenticate apiKey =>
      match authenticate digest s.keys s.now apiKey with
      | .error _ => (.idle, s)
      | .ok (clientKey, _) =>
          (.pending clientKey { clientKey with lastUsedAt := some s.now }, s)
  | .disable clientKeyId =>
      match disableClientKey s.keys clientKeyId with
      | .error _ => (.idle, s)
      | .ok (loaded, assigned) => (.pending loaded assigned, s)
  | .update clientKeyId name scopes =>
      match updateClientKey s.keys clientKeyId name scopes with
      | .error _ => (.idle, s)
      | .ok (loaded, assigned) => (.pending loaded assigned, s)
  | .commit =>
      match x with
      | .idle => (.idle, s)
      | .pending loaded assigned =>
          match s.keys.modify? loaded.id (loaded.flush assigned) with
          | none => (.idle, s)
          | some keys =>
              (.idle, { s with
                keys
                disabled := if assigned.enabled then s.disabled else loaded.id :: s.disabled })
  | .rollback => (.idle, s)
  | .advance microseconds => (x, { s with now := s.now + microseconds })

/-! ## What is let in -/

/-- The text presents the key: its secret, by the digest, behind its id, as the
database compares ids. -/
def IssuedKey.PresentedBy (digest : String → String) (key : IssuedKey) (apiKey : String) : Prop :=
  ∃ clientKeyId secret, clientKeyId ≠ "" ∧ '.' ∉ clientKeyId.toList ∧ secret ≠ "" ∧
    apiKey = "mbx_" ++ clientKeyId ++ "." ++ secret ∧ sqlEq key.id clientKeyId = true ∧
      digest secret = digest key.secret

def KeyShared.Live (s : KeyShared) (key : IssuedKey) : Prop :=
  key ∈ s.issued ∧ key.id ∉ s.disabled ∧ ∀ expiry ∈ key.expiresAt, s.now < expiry

def GrantableScopes (scopes : List String) : Prop :=
  scopes ≠ [] ∧ scopes.Nodup ∧ ∀ scope ∈ scopes, scope ∈ allowedClientKeyScopes

/-- A text is let in as the client whose live key it presents, with scopes that
may be granted. -/
structure KeysExact (digest : String → String) (s : KeyShared) : Prop where
  issued : ∀ key, s.Live key → key.PresentedBy digest key.apiKey
  letsIn : ∀ apiKey clientKeyId,
    (∃ row principal, authenticate digest s.keys s.now (some apiKey) = .ok (row, principal) ∧
      principal.clientKeyId = clientKeyId) ↔
      ∃ key, s.Live key ∧ key.id = clientKeyId ∧ key.PresentedBy digest apiKey
  scopes : ∀ apiKey row principal,
    authenticate digest s.keys s.now apiKey = .ok (row, principal) →
      GrantableScopes principal.scopes

omit [Platform] in
theorem nodup_eraseDups {α : Type*} [DecidableEq α] (l : List α) : l.eraseDups.Nodup := by
  induction hlen : l.length using Nat.strong_induction_on generalizing l with
  | _ n ih =>
      cases l with
      | nil => exact List.nodup_nil
      | cons a rest =>
          rw [List.eraseDups_cons, List.nodup_cons]
          have hshort : (rest.filter fun b => !b == a).length < n := by
            rw [← hlen]
            exact Nat.lt_succ_of_le (List.length_filter_le ..)
          refine ⟨?_, ih _ hshort _ rfl⟩
          rw [List.mem_eraseDups, List.mem_filter]
          simp

/-! ## Reading an API key -/

omit [Platform] in
theorem toList_apiKeyText (clientKeyId secret : String) :
    ("mbx_" ++ clientKeyId ++ "." ++ secret).toList =
      ("mbx_" ++ clientKeyId).toList ++ '.' :: secret.toList := by
  simp only [String.toList_append, List.append_assoc]
  rfl

omit [Platform] in
/-- **Round trip**: a text is read as an id and a secret exactly if it is made of
them. -/
theorem parseApiKey_eq_ok {apiKey clientKeyId secret : String} :
    parseApiKey (some apiKey) = .ok (clientKeyId, secret) ↔
      clientKeyId ≠ "" ∧ '.' ∉ clientKeyId.toList ∧ secret ≠ "" ∧
        apiKey = "mbx_" ++ clientKeyId ++ "." ++ secret := by
  constructor
  · intro h
    unfold parseApiKey at h
    split at h
    · cases h
    rename_i k hk
    cases hk
    split at h
    · cases h
    rename_i hshape
    simp only [not_or, not_not] at hshape
    obtain ⟨-, ⟨rest, hrest⟩, hdot⟩ := hshape
    rcases hpart : Text.partition apiKey '.' with ⟨identifier, found, tail⟩
    rw [hpart] at h
    simp only at h
    split at h
    · cases h
    rename_i hparts
    simp only [not_or] at hparts
    obtain ⟨rfl, rfl⟩ := Prod.mk.inj (Except.ok.inj h)
    have hfound : found = true := by
      cases found with
      | true => rfl
      | false =>
          unfold Text.partition at hpart
          split at hpart
          · rename_i hnone
            rw [List.dropWhile_eq_nil_iff] at hnone
            simpa using hnone '.' hdot
          · cases hpart
    rw [hfound] at hpart
    have hsplit := Text.toList_of_partition hpart
    have hclean : '.' ∉ identifier.toList := by
      have := Text.not_mem_partition_fst apiKey '.'
      rwa [hpart] at this
    -- the dot comes behind the prefix, so the identifier begins with it
    have hidentifier : identifier.toList = "mbx_".toList ++ identifier.toList.drop 4 := by
      have hboth : "mbx_".toList ++ rest = identifier.toList ++ '.' :: tail.toList :=
        hrest.trans hsplit
      rcases List.append_eq_append_iff.mp hboth with ⟨more, hmore, -⟩ | ⟨more, hmore, hlast⟩
      · rw [hmore]
        rfl
      · cases more with
        | nil => rw [← List.append_nil identifier.toList, ← hmore]; rfl
        | cons c more =>
            have hc : c = '.' := (List.cons.inj hlast).1.symm
            have hin : '.' ∈ "mbx_".toList := by
              rw [hmore, hc]
              exact List.mem_append_right _ List.mem_cons_self
            exact absurd hin (by decide)
    refine ⟨hparts.1, ?_, hparts.2, ?_⟩
    · rw [String.toList_ofList]
      exact fun hmem => hclean (List.mem_of_mem_drop hmem)
    · apply String.toList_inj.mp
      have hid : (String.ofList (identifier.toList.drop 4)).toList = identifier.toList.drop 4 :=
        String.toList_ofList
      rw [toList_apiKeyText, hsplit, String.toList_append, hid]
      exact congrArg (· ++ _) hidentifier
  · rintro ⟨hid, hclean, hsecret, rfl⟩
    have hidentifier : '.' ∉ ("mbx_" ++ clientKeyId).toList := by
      rw [String.toList_append, List.mem_append]
      rintro (hmem | hmem)
      · exact absurd hmem (by decide)
      · exact hclean hmem
    have hpart : Text.partition ("mbx_" ++ clientKeyId ++ "." ++ secret) '.' =
        ("mbx_" ++ clientKeyId, true, secret) :=
      Text.partition_of_toList hidentifier (toList_apiKeyText clientKeyId secret)
    have hdrop : String.ofList (("mbx_" ++ clientKeyId).toList.drop 4) = clientKeyId := by
      rw [String.toList_append]
      exact String.ofList_toList
    have hshape : ¬("mbx_" ++ clientKeyId ++ "." ++ secret = "" ∨
        ¬ "mbx_".toList <+: ("mbx_" ++ clientKeyId ++ "." ++ secret).toList ∨
        '.' ∉ ("mbx_" ++ clientKeyId ++ "." ++ secret).toList) := by
      rw [toList_apiKeyText, ← String.toList_eq_nil_iff, toList_apiKeyText]
      simp
    unfold parseApiKey
    simp only [if_neg hshape, hpart, hdrop, hid, hsecret, or_self, if_false]

/-! ## Finding a key -/

/-- The unique id makes the row found the only one. -/
theorem clientKey?_eq_some {keys : ClientKeyTable} {clientKeyId : String} {row : ClientKeyRow} :
    keys.clientKey? clientKeyId = some row ↔ row ∈ keys ∧ sqlEq row.id clientKeyId = true := by
  unfold Table.clientKey?
  constructor
  · intro h
    exact ⟨List.mem_of_find?_eq_some h, by simpa using List.find?_some h⟩
  · rintro ⟨hmem, heq⟩
    rcases hfind : keys.rows.find? fun k => sqlEq k.id clientKeyId with _ | other
    · rw [List.find?_eq_none] at hfind
      exact absurd heq (hfind row hmem)
    · have hother := List.find?_some hfind
      have hclash : clientKeyRowSchema.clash other row = true := by
        have hids : sqlEq other.id row.id = true := by
          simp only [sqlEq, decide_eq_true_eq] at heq hother ⊢
          rw [hother, heq]
        show (sqlEq other.id row.id || _ || _) = true
        rw [hids]
        rfl
      rw [← Table.eq_of_clash (List.mem_of_find?_eq_some hfind) hmem hclash]
      exact hfind

theorem authenticate_eq_ok {digest : String → String} {keys : ClientKeyTable} {now : ℕ}
    {apiKey : Option String} {row : ClientKeyRow} {principal : ClientPrincipal} :
    authenticate digest keys now apiKey = .ok (row, principal) ↔
      ∃ clientKeyId secret, parseApiKey apiKey = .ok (clientKeyId, secret) ∧
        row ∈ keys ∧ sqlEq row.id clientKeyId = true ∧ row.secretDigest = digest secret ∧
        row.enabled = true ∧ (∀ expiry ∈ row.expiresAt, now < expiry) ∧
        principal = { clientKeyId := row.id, name := row.name, scopes := row.scopes } := by
  have hexpired : ∀ r : ClientKeyRow, r.expiresAt.any (isExpired · now) = false ↔
      ∀ expiry ∈ r.expiresAt, now < expiry := by
    intro r
    cases r.expiresAt <;> simp [isExpired]
  unfold authenticate
  constructor
  · intro h
    split at h
    · cases h
    rename_i clientKeyId secret hparse
    split at h
    · cases h
    rename_i found hfound
    split at h
    · cases h
    rename_i hgood
    simp only [ne_eq, not_or, not_not, Bool.not_eq_false, Bool.not_eq_true] at hgood
    obtain ⟨hdigest, henabled, hexpiry⟩ := hgood
    obtain ⟨rfl, rfl⟩ := Prod.mk.inj (Except.ok.inj h)
    obtain ⟨hmem, heq⟩ := clientKey?_eq_some.mp hfound
    exact ⟨clientKeyId, secret, hparse, hmem, heq, hdigest, henabled, (hexpired _).mp hexpiry,
      rfl⟩
  · rintro ⟨clientKeyId, secret, hparse, hmem, heq, hdigest, henabled, hexpiry, rfl⟩
    have hgood : ¬(row.secretDigest ≠ digest secret ∨ row.enabled = false ∨
        row.expiresAt.any (isExpired · now) = true) := by
      rw [hdigest, henabled, (hexpired row).mpr hexpiry]
      simp
    rw [hparse]
    simp only [clientKey?_eq_some.mpr ⟨hmem, heq⟩, if_neg hgood]

theorem checkClientKeyFields_ok {name normalizedName : String} {scopes normalizedScopes}
    (h : checkClientKeyFields name scopes = .ok (normalizedName, normalizedScopes)) :
    normalizedName = Text.strip name ∧ GrantableScopes normalizedScopes := by
  unfold checkClientKeyFields at h
  simp only at h
  split at h
  · cases h
  split at h
  · cases h
  rename_i hsupported
  split at h
  · cases h
  rename_i hne
  obtain ⟨rfl, rfl⟩ := Prod.mk.inj (Except.ok.inj h)
  refine ⟨rfl, hne, nodup_eraseDups scopes, ?_⟩
  intro scope hscope
  by_contra hnot
  rw [not_not, List.filter_eq_nil_iff] at hsupported
  exact hsupported scope hscope (decide_eq_true hnot)

/-! ## What the steps keep -/

def RecordOf (digest : String → String) (row : ClientKeyRow) (key : IssuedKey) : Prop :=
  row.id = key.id ∧ row.secretDigest = digest key.secret ∧ row.expiresAt = key.expiresAt

/-- A uuid, and a secret that is not empty. -/
structure ClientKeyDraw.WellDrawn (draw : ClientKeyDraw) : Prop where
  id : draw.id ≠ ""
  undotted : '.' ∉ draw.id.toList
  secret : draw.secret ≠ ""

structure KeysInv (digest : String → String) (s : KeyShared) : Prop where
  issued : ∀ key ∈ s.issued, ∃ row ∈ s.keys, RecordOf digest row key
  stored : ∀ row ∈ s.keys, ∃ key ∈ s.issued, RecordOf digest row key
  drawn : ∀ key ∈ s.issued, key.WellDrawn
  disabled : ∀ row ∈ s.keys, row.enabled = false ↔ row.id ∈ s.disabled
  known : ∀ clientKeyId ∈ s.disabled, ∃ row ∈ s.keys, row.id = clientKeyId
  scopes : ∀ row ∈ s.keys, GrantableScopes row.scopes

structure KeyLoaded (s : KeyShared) (loaded assigned : ClientKeyRow) : Prop where
  stored : ∃ row ∈ s.keys, row.id = loaded.id
  disabled : loaded.enabled = false → loaded.id ∈ s.disabled
  enabled : assigned.enabled = loaded.enabled ∨ assigned.enabled = false
  scopes : GrantableScopes assigned.scopes

def KeyLink (x : KeyHandler) (s : KeyShared) : Prop :=
  match x with
  | .idle => True
  | .pending loaded assigned => KeyLoaded s loaded assigned

/-- Rows stay, and so do the disabled ids. -/
structure KeysGrow (s s' : KeyShared) : Prop where
  rows : ∀ row ∈ s.keys, ∃ row' ∈ s'.keys, row'.id = row.id
  issued : s.issued ⊆ s'.issued
  disabled : s.disabled ⊆ s'.disabled

theorem KeysGrow.refl (s : KeyShared) : KeysGrow s s :=
  ⟨fun row hrow => ⟨row, hrow, rfl⟩, fun _ h => h, fun _ h => h⟩

theorem KeysGrow.trans {s s' s'' : KeyShared} (h : KeysGrow s s') (h' : KeysGrow s' s'') :
    KeysGrow s s'' := by
  refine ⟨?_, List.Subset.trans h.issued h'.issued, List.Subset.trans h.disabled h'.disabled⟩
  intro row hrow
  obtain ⟨row', hrow', hid⟩ := h.rows row hrow
  obtain ⟨row'', hrow'', hid'⟩ := h'.rows row' hrow'
  exact ⟨row'', hrow'', hid'.trans hid⟩

theorem KeyLink.mono {x : KeyHandler} {s s' : KeyShared} (h : KeyLink x s)
    (hgrow : KeysGrow s s') : KeyLink x s' := by
  cases x with
  | idle => trivial
  | pending loaded assigned =>
      obtain ⟨⟨row, hrow, hid⟩, hdisabled, henabled, hscopes⟩ := h
      obtain ⟨row', hrow', hid'⟩ := hgrow.rows row hrow
      exact ⟨⟨row', hrow', hid'.trans hid⟩, fun hoff => hgrow.disabled (hdisabled hoff), henabled,
        hscopes⟩

theorem KeysInv.link {digest : String → String} {s : KeyShared} (h : KeysInv digest s)
    {loaded assigned : ClientKeyRow} (hloaded : loaded ∈ s.keys)
    (henabled : assigned.enabled = loaded.enabled ∨ assigned.enabled = false)
    (hscopes : GrantableScopes assigned.scopes) : KeyLink (.pending loaded assigned) s :=
  ⟨⟨loaded, hloaded, rfl⟩, fun hoff => (h.disabled loaded hloaded).mp hoff, henabled, hscopes⟩

theorem mem_commit {keys keys' : ClientKeyTable} {loaded assigned row : ClientKeyRow}
    (h : keys.modify? loaded.id (loaded.flush assigned) = some keys') :
    row ∈ keys' ↔
      ∃ r ∈ keys, row = if r.id = loaded.id then loaded.flush assigned r else r :=
  Table.mem_modify? h

theorem createClientKey_ok {digest : String → String} {keys keys' : ClientKeyTable}
    {draw : ClientKeyDraw} {name : String} {scopes : List String} {expiresAt : Option ℕ}
    {clientKey : ClientKeyRow} {apiKey : String}
    (h : createClientKey digest keys draw name scopes expiresAt =
      .ok (keys', clientKey, apiKey)) :
    keys.insert? clientKey = some keys' ∧ clientKey.enabled = true ∧
      GrantableScopes clientKey.scopes ∧ RecordOf digest clientKey { draw with expiresAt } ∧
      apiKey = draw.apiKey := by
  unfold createClientKey at h
  split at h
  · cases h
  rename_i normalizedName normalizedScopes hfields
  simp only at h
  split at h
  · cases h
  rename_i table hinsert
  cases h
  exact ⟨hinsert, rfl, (checkClientKeyFields_ok hfields).2, ⟨rfl, rfl, rfl⟩, rfl⟩

theorem disableClientKey_ok {keys : ClientKeyTable} {clientKeyId : String}
    {loaded assigned : ClientKeyRow}
    (h : disableClientKey keys clientKeyId = .ok (loaded, assigned)) :
    loaded ∈ keys ∧ assigned = { loaded with enabled := false } := by
  unfold disableClientKey at h
  split at h
  · cases h
  rename_i row hrow
  cases h
  exact ⟨(clientKey?_eq_some.mp hrow).1, rfl⟩

theorem updateClientKey_ok {keys : ClientKeyTable} {clientKeyId name : String}
    {scopes : List String} {loaded assigned : ClientKeyRow}
    (h : updateClientKey keys clientKeyId name scopes = .ok (loaded, assigned)) :
    loaded ∈ keys ∧ assigned.enabled = loaded.enabled ∧ GrantableScopes assigned.scopes := by
  unfold updateClientKey at h
  split at h
  · cases h
  rename_i row hrow
  split at h
  · cases h
  rename_i normalizedName normalizedScopes hfields
  split at h
  · cases h
  cases h
  exact ⟨(clientKey?_eq_some.mp hrow).1, rfl, (checkClientKeyFields_ok hfields).2⟩

def KeyAction.WellDrawn : KeyAction → Prop
  | .create draw _ _ _ => draw.WellDrawn
  | _ => True

/-- An insertion keeps the invariant: no id among the stored ones is taken again,
so the new key is not among the disabled ones. -/
theorem KeysInv.create {digest : String → String} {s : KeyShared} {keys' : ClientKeyTable}
    {clientKey : ClientKeyRow} {key : IssuedKey} (h : KeysInv digest s)
    (hinsert : s.keys.insert? clientKey = some keys') (henabled : clientKey.enabled = true)
    (hscopes : GrantableScopes clientKey.scopes) (hrecord : RecordOf digest clientKey key)
    (hdrawn : key.WellDrawn) :
    KeysInv digest { s with keys := keys', issued := key :: s.issued } := by
  have hmem : ∀ row, row ∈ keys' ↔ row ∈ s.keys ∨ row = clientKey := fun row =>
    Table.mem_insert? hinsert
  have hnew : clientKey.id ∉ s.disabled := by
    intro hin
    obtain ⟨row, hrow, hid⟩ := h.known _ hin
    exact ((Table.insert?_eq_some hinsert).1 row hrow).1 hid
  constructor
  · intro k hk
    rcases List.mem_cons.mp hk with rfl | hk
    · exact ⟨clientKey, (hmem _).mpr (Or.inr rfl), hrecord⟩
    · obtain ⟨row, hrow, hrec⟩ := h.issued k hk
      exact ⟨row, (hmem _).mpr (Or.inl hrow), hrec⟩
  · intro row hrow
    rcases (hmem row).mp hrow with hrow | rfl
    · obtain ⟨k, hk, hrec⟩ := h.stored row hrow
      exact ⟨k, List.mem_cons_of_mem _ hk, hrec⟩
    · exact ⟨key, List.mem_cons_self, hrecord⟩
  · intro k hk
    rcases List.mem_cons.mp hk with rfl | hk
    · exact hdrawn
    · exact h.drawn k hk
  · intro row hrow
    rcases (hmem row).mp hrow with hrow | rfl
    · exact h.disabled row hrow
    · rw [henabled]
      exact iff_of_false Bool.noConfusion hnew
  · intro clientKeyId hin
    obtain ⟨row, hrow, hid⟩ := h.known clientKeyId hin
    exact ⟨row, (hmem _).mpr (Or.inl hrow), hid⟩
  · intro row hrow
    rcases (hmem row).mp hrow with hrow | rfl
    · exact h.scopes row hrow
    · exact hscopes

/-- A commit keeps the invariant, whatever has become of the row since it was
loaded: a key that was found disabled is still disabled. -/
theorem KeysInv.commit {digest : String → String} {s : KeyShared} {keys' : ClientKeyTable}
    {loaded assigned : ClientKeyRow} (h : KeysInv digest s) (hlink : KeyLoaded s loaded assigned)
    (hflush : s.keys.modify? loaded.id (loaded.flush assigned) = some keys') :
    KeysInv digest { s with
      keys := keys'
      disabled := if assigned.enabled then s.disabled else loaded.id :: s.disabled } := by
  -- the columns of a record are not flushed
  have hrecord : ∀ (r : ClientKeyRow) (key : IssuedKey), RecordOf digest
      (if r.id = loaded.id then loaded.flush assigned r else r) key ↔ RecordOf digest r key := by
    intro r key
    split <;> exact Iff.rfl
  have hid : ∀ r : ClientKeyRow,
      (if r.id = loaded.id then loaded.flush assigned r else r).id = r.id := by
    intro r
    split <;> rfl
  have hkept : ∀ r ∈ s.keys,
      (if r.id = loaded.id then loaded.flush assigned r else r) ∈ keys' := fun r hr =>
    (mem_commit hflush).mpr ⟨r, hr, rfl⟩
  constructor
  · intro key hkey
    obtain ⟨row, hrow, hrec⟩ := h.issued key hkey
    exact ⟨_, hkept row hrow, (hrecord row key).mpr hrec⟩
  · intro row hrow
    obtain ⟨r, hr, rfl⟩ := (mem_commit hflush).mp hrow
    obtain ⟨key, hkey, hrec⟩ := h.stored r hr
    exact ⟨key, hkey, (hrecord r key).mpr hrec⟩
  · exact h.drawn
  · intro row hrow
    obtain ⟨r, hr, rfl⟩ := (mem_commit hflush).mp hrow
    have hbefore := h.disabled r hr
    by_cases hr' : r.id = loaded.id
    · rw [if_pos hr']
      show flushColumn loaded.enabled assigned.enabled r.enabled = false ↔ r.id ∈ _
      cases hassigned : assigned.enabled with
      | true =>
          have hloaded : loaded.enabled = true := by
            rcases hlink.enabled with hsame | hoff
            · rw [← hsame, hassigned]
            · rw [hassigned] at hoff
              cases hoff
          rw [hloaded, flushColumn_unassigned]
          exact hbefore
      | false =>
          refine iff_of_true ?_ (by simp [hr'])
          cases hloaded : loaded.enabled with
          | true => rfl
          | false =>
              rw [flushColumn_unassigned]
              exact hbefore.mpr (hr' ▸ hlink.disabled hloaded)
    · rw [if_neg hr', hbefore]
      cases assigned.enabled with
      | true => exact Iff.rfl
      | false =>
          show r.id ∈ s.disabled ↔ r.id ∈ loaded.id :: s.disabled
          rw [List.mem_cons]
          exact ⟨Or.inr, fun hin => hin.resolve_left hr'⟩
  · have hknown : ∀ clientKeyId ∈ loaded.id :: s.disabled, ∃ row ∈ keys', row.id = clientKeyId := by
      intro clientKeyId hin
      have hstored : ∃ row ∈ s.keys, row.id = clientKeyId := by
        rcases List.mem_cons.mp hin with rfl | hin
        · exact hlink.stored
        · exact h.known clientKeyId hin
      obtain ⟨row, hrow, rfl⟩ := hstored
      exact ⟨_, hkept row hrow, hid row⟩
    intro clientKeyId hin
    refine hknown clientKeyId ?_
    cases hassigned : assigned.enabled with
    | true =>
        rw [hassigned] at hin
        exact List.mem_cons_of_mem _ hin
    | false =>
        rw [hassigned] at hin
        exact hin
  · intro row hrow
    obtain ⟨r, hr, rfl⟩ := (mem_commit hflush).mp hrow
    split
    · show GrantableScopes (flushColumn loaded.scopes assigned.scopes r.scopes)
      rcases flushColumn_eq loaded.scopes assigned.scopes r.scopes with hcol | hcol
      · rw [hcol]
        exact h.scopes r hr
      · rw [hcol]
        exact hlink.scopes
    · exact h.scopes r hr

/-! ## Every step and every run -/

/-- **Step lemma**: a step keeps the invariant, the rows and the disabled ids,
and leaves its request with a key that it knows enough of. -/
theorem keyAct_keeps {digest : String → String} (s : KeyShared) (x : KeyHandler)
    (a : KeyAction) (hdrawn : a.WellDrawn) (h : KeysInv digest s) (hlink : KeyLink x s) :
    KeysInv digest (keyAct digest s x a).2 ∧ KeysGrow s (keyAct digest s x a).2 ∧
      KeyLink (keyAct digest s x a).1 (keyAct digest s x a).2 := by
  cases a with
  | create draw name scopes expiresAt =>
      simp only [keyAct]
      rcases hcreate : createClientKey digest s.keys draw name scopes expiresAt with
        e | ⟨keys', clientKey, apiKey⟩
      · exact ⟨h, .refl s, hlink⟩
      · obtain ⟨hinsert, henabled, hscopes, hrecord, -⟩ := createClientKey_ok hcreate
        have hgrow : KeysGrow s { s with
            keys := keys', issued := { draw with expiresAt } :: s.issued } :=
          ⟨fun row hrow => ⟨row, (Table.mem_insert? hinsert).mpr (Or.inl hrow), rfl⟩,
            List.subset_cons_self _ _, fun _ hin => hin⟩
        exact ⟨h.create hinsert henabled hscopes hrecord hdrawn, hgrow, hlink.mono hgrow⟩
  | authenticate apiKey =>
      simp only [keyAct]
      rcases hauth : authenticate digest s.keys s.now apiKey with e | ⟨row, principal⟩
      · exact ⟨h, .refl s, trivial⟩
      · obtain ⟨-, -, -, hrow, -⟩ := authenticate_eq_ok.mp hauth
        exact ⟨h, .refl s, h.link hrow (Or.inl rfl) (h.scopes row hrow)⟩
  | disable clientKeyId =>
      simp only [keyAct]
      rcases hdisable : disableClientKey s.keys clientKeyId with e | ⟨loaded, assigned⟩
      · exact ⟨h, .refl s, trivial⟩
      · obtain ⟨hloaded, rfl⟩ := disableClientKey_ok hdisable
        exact ⟨h, .refl s, h.link hloaded (Or.inr rfl) (h.scopes loaded hloaded)⟩
  | update clientKeyId name scopes =>
      simp only [keyAct]
      rcases hupdate : updateClientKey s.keys clientKeyId name scopes with
        e | ⟨loaded, assigned⟩
      · exact ⟨h, .refl s, trivial⟩
      · obtain ⟨hloaded, henabled, hscopes⟩ := updateClientKey_ok hupdate
        exact ⟨h, .refl s, h.link hloaded (Or.inl henabled) hscopes⟩
  | commit =>
      cases x with
      | idle => exact ⟨h, .refl s, trivial⟩
      | pending loaded assigned =>
          simp only [keyAct]
          rcases hflush : s.keys.modify? loaded.id (loaded.flush assigned) with _ | keys'
          · exact ⟨h, .refl s, trivial⟩
          · refine ⟨h.commit hlink hflush, ⟨?_, fun _ hin => hin, ?_⟩, trivial⟩
            · intro row hrow
              refine ⟨_, (mem_commit hflush).mpr ⟨row, hrow, rfl⟩, ?_⟩
              split <;> rfl
            -- a flush may add the key to the disabled ones, and takes none away
            · intro clientKeyId hin
              show clientKeyId ∈ if assigned.enabled then s.disabled else loaded.id :: s.disabled
              split
              · exact hin
              · exact List.mem_cons_of_mem _ hin
  | rollback => exact ⟨h, .refl s, trivial⟩
  | advance microseconds =>
      have hgrow : KeysGrow s { s with now := s.now + microseconds } :=
        ⟨fun row hrow => ⟨row, hrow, rfl⟩, fun _ hin => hin, fun _ hin => hin⟩
      exact ⟨⟨h.issued, h.stored, h.drawn, h.disabled, h.known, h.scopes⟩, hgrow,
        hlink.mono hgrow⟩

/-- In a state that keeps the invariant, whoever is let in presents a live key. -/
theorem KeysInv.exact {digest : String → String} {s : KeyShared} (h : KeysInv digest s) :
    KeysExact digest s := by
  refine ⟨?_, ?_, ?_⟩
  · intro key hlive
    obtain ⟨hid, hundotted, hsecret⟩ := h.drawn key hlive.1
    exact ⟨key.id, key.secret, hid, hundotted, hsecret, rfl, decide_eq_true rfl, rfl⟩
  · intro apiKey clientKeyId
    constructor
    · rintro ⟨row, principal, hauth, hprincipal⟩
      obtain ⟨id, secret, hparse, hrow, heq, hsecret, henabled, hexpiry, rfl⟩ :=
        authenticate_eq_ok.mp hauth
      obtain ⟨hne, hclean, hnonempty, rfl⟩ := parseApiKey_eq_ok.mp hparse
      obtain ⟨key, hkey, hid, hdig, hexp⟩ := h.stored row hrow
      have hon : row.id ∉ s.disabled := by
        intro hin
        rw [(h.disabled row hrow).mpr hin] at henabled
        cases henabled
      refine ⟨key, ⟨hkey, by rwa [← hid], by rwa [← hexp]⟩, hid.symm.trans hprincipal,
        id, secret, hne, hclean, hnonempty, rfl, by rwa [← hid], hsecret.symm.trans hdig⟩
    · rintro ⟨key, ⟨hkey, hon, hexpiry⟩, hkeyId,
        id, secret, hne, hclean, hnonempty, rfl, heq, hsame⟩
      obtain ⟨row, hrow, hid, hdig, hexp⟩ := h.issued key hkey
      have henabled : row.enabled = true := by
        cases hrowEnabled : row.enabled with
        | true => rfl
        | false => exact absurd (hid ▸ (h.disabled row hrow).mp hrowEnabled) hon
      have hauth : authenticate digest s.keys s.now
          (some ("mbx_" ++ id ++ "." ++ secret)) = .ok (row, _) :=
        authenticate_eq_ok.mpr ⟨id, secret, parseApiKey_eq_ok.mpr
          ⟨hne, hclean, hnonempty, rfl⟩, hrow, by rwa [hid], hdig.trans hsame.symm, henabled,
          by rwa [hexp], rfl⟩
      exact ⟨row, _, hauth, hid.trans hkeyId⟩
  · intro apiKey row principal hauth
    obtain ⟨id, secret, -, hrow, -, -, -, -, rfl⟩ := authenticate_eq_ok.mp hauth
    exact h.scopes row hrow

section

variable {ι : Type*} [DecidableEq ι]

/-- The state after the events, with every request idle at first. -/
def keysRun (digest : String → String) (now : ℕ) (events : List (ι × KeyAction)) :
    Threads ι KeyHandler KeyShared :=
  exec (Threads.step (keyAct digest)) (Threads.start { now } .idle) events

/-- The invariant, of the shared state and of what each request holds. -/
def KeysSound (digest : String → String) (t : Threads ι KeyHandler KeyShared) : Prop :=
  KeysInv digest t.shared ∧ t.Linked KeyLink

theorem keysSound_step {digest : String → String} (t : Threads ι KeyHandler KeyShared)
    (e : ι × KeyAction) (h : KeysSound digest t) (hdrawn : e.2.WellDrawn) :
    KeysSound digest (t.step (keyAct digest) e) ∧
      KeysGrow t.shared (t.step (keyAct digest) e).shared := by
  obtain ⟨i, a⟩ := e
  obtain ⟨hinv, hlinked⟩ := h
  obtain ⟨hnext, hgrow, hown⟩ := keyAct_keeps t.shared (t.held i) a hdrawn hinv (hlinked i)
  refine ⟨⟨hnext, ?_⟩, hgrow⟩
  intro j
  rw [Threads.step_held]
  split
  · exact hown
  · exact (hlinked j).mono hgrow

/-- **Run lemma.** -/
theorem keysSound_exec {digest : String → String} {t : Threads ι KeyHandler KeyShared}
    {events : List (ι × KeyAction)} (h : KeysSound digest t)
    (hdrawn : ∀ e ∈ events, e.2.WellDrawn) :
    KeysSound digest (exec (Threads.step (keyAct digest)) t events) ∧
      KeysGrow t.shared (exec (Threads.step (keyAct digest)) t events).shared := by
  have hstep : ∀ (u : Threads ι KeyHandler KeyShared) (e : ι × KeyAction),
      (KeysSound digest u ∧ KeysGrow t.shared u.shared) → e.2.WellDrawn →
        KeysSound digest (u.step (keyAct digest) e) ∧
          KeysGrow t.shared (u.step (keyAct digest) e).shared := by
    rintro u e ⟨hsound, hsince⟩ he
    obtain ⟨hnext, hgrow⟩ := keysSound_step u e hsound he
    exact ⟨hnext, hsince.trans hgrow⟩
  exact exec_invariant_of_meets hstep ⟨h, .refl _⟩ (meets_of_forall_mem hdrawn)

omit [DecidableEq ι] in
theorem keysSound_start (digest : String → String) (now : ℕ) :
    KeysSound digest (Threads.start { now } .idle : Threads ι KeyHandler KeyShared) := by
  refine ⟨⟨?_, ?_, ?_, ?_, ?_, ?_⟩, fun _ => trivial⟩
  · intro key hkey
    cases hkey
  · intro row hrow
    exact absurd hrow (Table.not_mem_empty row)
  · intro key hkey
    cases hkey
  · intro row hrow
    exact absurd hrow (Table.not_mem_empty row)
  · intro clientKeyId hin
    cases hin
  · intro row hrow
    exact absurd hrow (Table.not_mem_empty row)

/-- **Client keys**: however the requests take turns, a text is let in exactly if
it presents a key that was issued, has not been disabled and has not expired; and
what has been issued or disabled stays so. -/
theorem clientKeys_exact {digest : String → String} {now : ℕ} {events later : List (ι × KeyAction)}
    (hdrawn : ∀ e ∈ events ++ later, e.2.WellDrawn) :
    KeysExact digest (keysRun digest now (events ++ later)).shared ∧
      (keysRun digest now events).shared.issued ⊆
        (keysRun digest now (events ++ later)).shared.issued ∧
      (keysRun digest now events).shared.disabled ⊆
        (keysRun digest now (events ++ later)).shared.disabled := by
  rw [List.forall_mem_append] at hdrawn
  have hfirst := (keysSound_exec (keysSound_start digest now) hdrawn.1).1
  obtain ⟨hlast, hgrow⟩ := keysSound_exec hfirst hdrawn.2
  unfold keysRun
  rw [exec_append]
  exact ⟨hlast.1.exact, hgrow.issued, hgrow.disabled⟩

end

end

section Sample

attribute [local instance] asciiPlatform

/-- A digest that keeps its argument in the clear. -/
def markedDigest (secret : String) : String := "sha256:" ++ secret

theorem sampleDraw_wellDrawn : ClientKeyDraw.WellDrawn ⟨"7f3a", "s3cret"⟩ :=
  ⟨by decide, by decide, by decide⟩

def renamedWhileDisabled : List (ℕ × KeyAction) :=
  [(0, .create ⟨"7f3a", "s3cret"⟩ " worker " ["leases:acquire", "leases:acquire"] none),
   (1, .update "7f3a" "renamed" ["leases:release"]),
   (2, .authenticate (some "mbx_7F3A.s3cret")),
   (0, .disable "7f3a"),
   (0, .commit),
   (1, .commit),
   (2, .commit)]

theorem clientKeys_exact_sample :
    KeysExact markedDigest (keysRun markedDigest 5 (renamedWhileDisabled ++ [])).shared ∧
      (keysRun markedDigest 5 renamedWhileDisabled).shared.issued ⊆
        (keysRun markedDigest 5 (renamedWhileDisabled ++ [])).shared.issued ∧
      (keysRun markedDigest 5 renamedWhileDisabled).shared.disabled ⊆
        (keysRun markedDigest 5 (renamedWhileDisabled ++ [])).shared.disabled :=
  clientKeys_exact (by
    simp [renamedWhileDisabled, KeyAction.WellDrawn, sampleDraw_wellDrawn])

/-- A rename that was loaded before the key was disabled does not enable it. -/
example : (keysRun markedDigest 5 renamedWhileDisabled).shared.keys.rows =
    [{ id := "7f3a", name := "renamed", secretDigest := "sha256:s3cret"
       scopes := ["leases:release"], enabled := false, lastUsedAt := some 5 }] := by
  decide +kernel

end Sample

end MailboxService
