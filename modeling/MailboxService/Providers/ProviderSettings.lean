import MailboxService.Foundation.Delimited
import MailboxService.Foundation.JsonTexts
import MailboxService.Foundation.OrderedDict
import MailboxService.Providers.ProviderForms
import MailboxService.PythonText

/-!
# The settings of provider instances

`provider_settings_service` for the providers other than SMSBower: the stored row
of an instance, what is read of it, and the update that the admin console makes.
One secret of a provider has a column of its own; the others are kept together in
an encrypted bag.
-/

namespace MailboxService

open Foundation

/-! ## What the service relies on -/

/-- AES-GCM: what is encrypted under a key is decrypted under that key and under no
other. An encryption is determined by its nonce. -/
class SealedText (Key : Type) where
  encrypt : Key → ℕ → String → String
  decrypt : Key → String → Option String
  decrypt_encrypt : ∀ key nonce text, decrypt key (encrypt key nonce text) = some text
  decrypt_other : ∀ key key' nonce text, key ≠ key' → decrypt key' (encrypt key nonce text) = none
  encrypt_ne_empty : ∀ key nonce text, encrypt key nonce text ≠ ""

/-- What Python makes of values: `repr` of a character, `float(value)` by its `repr`,
and `json.loads`, which reads a dictionary of texts back. -/
class PythonValues where
  isPrintable : Char → Bool
  float : Json → Except String String
  loads : String → Option Json
  loads_dumps : ∀ texts : List (String × String), (texts.map Prod.fst).Nodup →
    loads (.ofList (Json.dumps (Json.ofTexts texts))) = some (Json.ofTexts texts)

/-! ## Rows -/

/-- A row of `provider_instance_settings`. The timeout is kept by its `repr`. -/
structure ProviderInstanceSettings where
  providerType : String
  instanceId : String
  enabled : Bool := false
  apiBase : Option String := none
  apiKeyCiphertext : Option String := none
  secretsCiphertext : Option String := none
  domain : Option String := none
  requestTimeoutSeconds : String := "30.0"
  configJson : Json := .null

/-- `get` with what is falsy read as missing. -/
def shown (column : Option String) : Option String := column.filter (· ≠ "")

/-- `row.config_json if isinstance(row.config_json, dict) else {}`. -/
def ProviderInstanceSettings.config (row : ProviderInstanceSettings) : JsonObject :=
  row.configJson.dict?.getD []

/-- `float(row.request_timeout_seconds or 30.0)`. -/
def ProviderInstanceSettings.timeout (row : ProviderInstanceSettings) : String :=
  if (Json.float row.requestTimeoutSeconds).truthy then row.requestTimeoutSeconds else "30.0"

/-- `config[key] = value`. -/
def setConfig (key : String) (value : Json) (config : JsonObject) : JsonObject :=
  OrderedDict.setItems key value config

section

variable [PythonText] [PythonValues]

open Text

/-- `str(value)`. -/
def str (value : Json) : String := .ofList (value.text PythonValues.isPrintable)

/-- `str(value or "")`. -/
def strOrEmpty (value : Json) : String := if value.truthy then str value else ""

/-! ## Reading values -/

structure InstanceFields where
  values : OrderedDict String Json
  secretFlags : OrderedDict String Bool
  source : String
  enabled : Bool
  timeout : String

variable {Key : Type} [SealedText Key]

def openColumn (key? : Option Key) (column : Option String) : Option String := do
  SealedText.decrypt (← key?) (← shown column)

def secretBag (key? : Option Key) (row : ProviderInstanceSettings) : JsonObject :=
  ((openColumn key? row.secretsCiphertext).bind PythonValues.loads |>.bind Json.dict?).getD []

omit [PythonText] [PythonValues] in
def ProviderForm.defaults (form : ProviderForm) : List (String × Json) :=
  form.fields.filterMap fun field =>
    match field.secret, field.default with
    | true, _ => none
    | false, .null => none
    | false, value => some (field.key, value)

omit [PythonText] [PythonValues] in
def ProviderForm.configured (form : ProviderForm) (config : JsonObject) :
    List (String × Json) :=
  form.fields.filterMap fun field =>
    if field.secret then none else (config.lookup field.key).map (field.key, ·)

omit [PythonText] [PythonValues] in
/-- The column of the address is asked first. -/
def withApiBase (row : ProviderInstanceSettings) (values : OrderedDict String Json) :
    OrderedDict String Json :=
  match shown row.apiBase with
  | some apiBase => values.set "api_base" (.str apiBase)
  | none => values

omit [PythonText] [PythonValues] in
/-- The column of the domain is asked last. -/
def withDomain (row : ProviderInstanceSettings) (values : OrderedDict String Json) :
    OrderedDict String Json :=
  match shown row.domain, values.lookup "domain" with
  | some domain, none => values.set "domain" (.str domain)
  | _, _ => values

omit [PythonText] [PythonValues] in
def readValues (form : ProviderForm) (row : ProviderInstanceSettings) :
    OrderedDict String Json :=
  let values := (∅ : OrderedDict String Json).update form.defaults
  let values := values.update (form.configured row.config)
  let values := withDomain row (withApiBase row values)
  values.set "request_timeout_seconds" (.float row.timeout)

def readSecretFlags (key? : Option Key) (form : ProviderForm)
    (row : ProviderInstanceSettings) : OrderedDict String Bool :=
  let names := (form.fields.filter (·.secret)).map (·.key)
  let flags := (∅ : OrderedDict String Bool).update (names.map (·, false))
  let flags :=
    if (shown row.apiKeyCiphertext).isSome ∧ form.primarySecretKey ∈ names then
      flags.set form.primarySecretKey true
    else flags
  flags.update ((secretBag key? row).filterMap fun entry =>
    if entry.1 ∈ names ∧ strip (strOrEmpty entry.2) ≠ "" then some (entry.1, true) else none)

def readInstanceFields (key? : Option Key) (form : ProviderForm) :
    Option ProviderInstanceSettings → InstanceFields
  | none =>
      { values := (∅ : OrderedDict String Json).update form.defaults
        secretFlags := (∅ : OrderedDict String Bool).update
          (((form.fields.filter (·.secret)).map (·.key)).map (·, false))
        source := "default"
        enabled := false
        timeout := "30.0" }
  | some row =>
      { values := readValues form row
        secretFlags := readSecretFlags key? form row
        source := "database"
        enabled := row.enabled
        timeout := row.timeout }

/-! ## Reading secrets -/

/-- The secrets of a bag, trimmed, without those that are blank. -/
def bagSecrets (bag : JsonObject) : List (String × String) :=
  bag.filterMap fun entry =>
    let text := strip (strOrEmpty entry.2)
    if text = "" then none else some (entry.1, text)

/-- `_decrypt_secrets`. What cannot be decrypted is left out. -/
def decryptSecrets (key? : Option Key) (form : ProviderForm) :
    Option ProviderInstanceSettings → OrderedDict String String
  | none => ∅
  | some row =>
      let secrets : OrderedDict String String :=
        match openColumn key? row.apiKeyCiphertext with
        | some text => (∅ : OrderedDict String String).set form.primarySecretKey text
        | none => ∅
      secrets.update (bagSecrets (secretBag key? row))

structure OnDemandRuntimeConfig where
  providerType : String
  instanceId : String
  enabled : Bool
  values : OrderedDict String Json
  secrets : OrderedDict String String
  timeoutSeconds : String

def effectiveInstance (form : ProviderForm) (instanceId : Option String) : String :=
  strip ((shown instanceId).getD form.defaultInstanceId)

/-- `resolve_on_demand_runtime`, with the row that is stored for the instance. -/
def resolveOnDemandRuntime (key? : Option Key) (form : ProviderForm) (instanceId : String)
    (row : Option ProviderInstanceSettings) : OnDemandRuntimeConfig :=
  let fields := readInstanceFields key? form row
  let secrets := decryptSecrets key? form row
  let primary := form.primarySecretKey
  let secrets :=
    match secrets.lookup primary, openColumn key? (row.bind (·.apiKeyCiphertext)) with
    | none, some text => if primary = "" then secrets else secrets.set primary text
    | _, _ => secrets
  { providerType := form.providerType
    instanceId := instanceId
    enabled := fields.enabled
    values := fields.values
    secrets := secrets
    timeoutSeconds := fields.timeout }

/-! ## Updates -/

/-- The call of `update_provider_instance`. What is `None` in the call is empty. -/
structure SettingsUpdate where
  enabled : Option Bool := none
  values : OrderedDict String Json := ∅
  secrets : OrderedDict String String := ∅
  clearSecrets : List String := []

/-- The parts of a text between commas and line breaks. -/
def splitList (text : String) : List String :=
  ((Delimited.split [','] (text.toList.map fun c => if c = '\n' then ',' else c)).map
    fun part => strip (.ofList part)).filter (· ≠ "")

def normalizeFieldValue : FieldType → Json → Except String Json
  | .stringList, .arr items => .ok (.arr (((items.map fun item => strip (str item)).filter
      (· ≠ "")).map .str))
  | .stringList, value => .ok (.arr ((splitList (strOrEmpty value)).map .str))
  | .boolean, .bool b => .ok (.bool b)
  | .boolean, value => .ok (.bool (normalize (str value) ∈ ["1", "true", "yes", "on"]))
  | .number, .null => .ok .null
  | .number, .str "" => .ok .null
  | .number, value => (PythonValues.float value).map .float
  | _, .null => .ok .null
  | _, value => .ok (.str (strip (str value)))

/-- The configuration with one of the fields of the form as it was supplied. -/
def supplyField (values : OrderedDict String Json) (config : JsonObject)
    (field : ProviderFieldSchema) : Except String JsonObject :=
  match field.secret, values.lookup field.key with
  | false, some value => do
      let normalized ← normalizeFieldValue field.fieldType value
      return setConfig field.key normalized config
  | _, _ => .ok config

/-- The column of the timeout, which is written when it is supplied and not `None`. -/
def suppliedTimeout (values : OrderedDict String Json) (row : ProviderInstanceSettings) :
    Except String String :=
  match values.lookup "request_timeout_seconds" with
  | none => .ok row.requestTimeoutSeconds
  | some .null => .ok row.requestTimeoutSeconds
  | some value => PythonValues.float value

/-- The column of the address, in the same way. -/
def suppliedApiBase (values : OrderedDict String Json) (row : ProviderInstanceSettings) :
    Option String :=
  match values.lookup "api_base" with
  | none => row.apiBase
  | some .null => row.apiBase
  | some value => shown (some (strip (str value)))

/-- The column of the domain, for the forms that do not list several. -/
def suppliedDomain (form : ProviderForm) (values : OrderedDict String Json)
    (row : ProviderInstanceSettings) : Option String :=
  let listed := form.fields.any fun field => field.key = "domain" && field.fieldType = .stringList
  match values.lookup "domain" with
  | some value => if listed then row.domain else shown (some (strip (strOrEmpty value)))
  | none => row.domain

def supplyValues (form : ProviderForm) (values : OrderedDict String Json)
    (row : ProviderInstanceSettings) : Except String ProviderInstanceSettings := do
  if values.items = [] then return { row with configJson := .obj row.config }
  let config ← form.fields.foldlM (supplyField values) row.config
  let timeout ← suppliedTimeout values row
  return { row with
    requestTimeoutSeconds := timeout, apiBase := suppliedApiBase values row,
    domain := suppliedDomain form values row, configJson := .obj config }

/-- The secrets in the clear next to the row, while a call changes them. -/
structure OpenSecrets where
  secretMap : OrderedDict String String
  apiKeyCiphertext : Option String

omit [PythonText] [PythonValues] in
def OpenSecrets.clear (form : ProviderForm) (s : OpenSecrets) (name : String) : OpenSecrets where
  secretMap := s.secretMap.pop name
  apiKeyCiphertext := if name = form.primarySecretKey then none else s.apiKeyCiphertext

omit [PythonValues] in
def OpenSecrets.put (key : Key) (nonce : ℕ) (form : ProviderForm) (s : OpenSecrets)
    (secret : String × String) : OpenSecrets :=
  let text := strip secret.2
  if text = "" then s.clear form secret.1
  else
    { secretMap := s.secretMap.set secret.1 text
      apiKeyCiphertext :=
        if secret.1 = form.primarySecretKey then some (SealedText.encrypt key nonce text)
        else s.apiKeyCiphertext }

/-- `凭证加密密钥未配置，无法保存密钥`. -/
def cipherMissing : String := "凭证加密密钥未配置，无法保存密钥"

def sealSecrets (key? : Option Key) (nonce : ℕ) (form : ProviderForm)
    (row : ProviderInstanceSettings) (s : OpenSecrets) :
    Except String ProviderInstanceSettings := do
  let secondary := s.secretMap.restrict (· ≠ form.primarySecretKey)
  let secretsCiphertext ←
    match secondary.items, key? with
    | [], _ => pure none
    | _, none => .error cipherMissing
    | texts, some key =>
        pure (some (SealedText.encrypt key (nonce + 1)
          (.ofList (Json.dumps (Json.ofTexts texts)))))
  return { row with
    apiKeyCiphertext := s.apiKeyCiphertext, secretsCiphertext := secretsCiphertext }

def supplySecrets (key? : Option Key) (nonce : ℕ) (form : ProviderForm)
    (update : SettingsUpdate) (row : ProviderInstanceSettings) :
    Except String ProviderInstanceSettings := do
  let s : OpenSecrets := ⟨decryptSecrets key? form (some row), row.apiKeyCiphertext⟩
  let s := update.clearSecrets.foldl (OpenSecrets.clear form) s
  let s ←
    match update.secrets.items, key? with
    | [], _ => pure s
    | _, none => .error cipherMissing
    | secrets, some key => pure (secrets.foldl (OpenSecrets.put key nonce form) s)
  sealSecrets key? nonce form row s

/-- `update_provider_instance`, on the row that is stored for the instance. -/
def updateProviderInstance (key? : Option Key) (nonce : ℕ) (form : ProviderForm)
    (instanceId : String) (stored : Option ProviderInstanceSettings) (update : SettingsUpdate) :
    Except String ProviderInstanceSettings := do
  let row := stored.getD
    { providerType := form.providerType, instanceId := instanceId, configJson := .obj [] }
  let row := { row with enabled := update.enabled.getD row.enabled }
  let row ← supplyValues form update.values row
  supplySecrets key? nonce form update row

end

/-! ## Plain values -/

@[reducible] def markedText : SealedText Bool where
  encrypt key _ text := .ofList ((if key then '+' else '-') :: text.toList)
  decrypt key sealed :=
    match sealed.toList with
    | [] => none
    | mark :: text => if mark = (if key then '+' else '-') then some (.ofList text) else none
  decrypt_encrypt key _ text := by simp
  decrypt_other key key' _ text hkey := by
    cases key <;> cases key' <;> simp_all
  encrypt_ne_empty key _ text := by
    intro h
    have hlist := congrArg String.toList h
    simp at hlist

@[reducible] def textValues : PythonValues where
  isPrintable _ := true
  float
    | .float r => .ok r
    | _ => .error "could not convert"
  loads text := (Json.loadTexts text.toList).map Json.ofTexts
  loads_dumps texts _ := by
    rw [String.toList_ofList, Json.loadTexts_dumps]
    rfl

end MailboxService
