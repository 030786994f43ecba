import MailboxService.Ascii
import MailboxService.OperatorSessions
import MailboxService.Providers.ProviderSettings
import MailboxService.VerificationCode.OnDemandInbox

/-!
# Which instance a mailbox belongs to

`ondemand_facade.py`, between the callers that open and read mailboxes and the
adapters. A request and an allocation say which instance they are for, and so do the
rows that are kept of a mailbox. The service looks the settings up by the provider
alone.
-/

namespace MailboxService

open Foundation

/-! ## Requests -/

structure OnDemandProvisionRequest where
  providerType : String
  providerInstanceId : String
  preferredLocalPart : Option String := none

structure VerificationAllocationSnapshot where
  leaseId : String := ""
  mailboxId : String
  providerType : String
  providerInstanceId : Option String
  primaryEmail : String
  allocatedEmail : Option String
  accessContext : OrderedDict String String := ∅

inductive OnDemandFailure where
  | onDemandProvider (message : String)
  | keyError (message : String)
  | other (message : String)
  deriving DecidableEq, Repr

class OnDemandAdapters where
  provision : OnDemandRuntimeConfig → OnDemandProvisionRequest →
    Except OnDemandFailure OnDemandProvisionResult
  fetchEvidence : OnDemandRuntimeConfig → VerificationAllocationSnapshot → VerificationQuery →
    Except OnDemandFailure VerificationEvidence

/-! ## The service -/

/-- A computation that asks for rows of the settings, with the keys that it asks for. -/
abbrev SettingsReader (α : Type) := ExceptT OnDemandFailure (StateM (List (String × String))) α

def SettingsReader.check {α : Type} (r : Except OnDemandFailure α) : SettingsReader α :=
  ExceptT.mk (pure r)

/-- The rows of the settings are those that a session of the factory finds. -/
structure OnDemandProviderService (Key : Type) where
  credentialCipher : Key
  rows : String × String → Option ProviderInstanceSettings
  runtimeOverrides : OrderedDict String OnDemandRuntimeConfig := ∅

/-- `OnDemandProviderFacade`: an adapter, bound to one configuration. -/
structure OnDemandProviderFacade where
  runtime : OnDemandRuntimeConfig

/-- The keys of `ADAPTER_FACTORIES`. -/
def adapterFactories : List String :=
  ["cloudflare_temp_email", "ddg_mail", "cloudmail_gen", "tempmail_lol", "duckmail", "gptmail",
    "moemail", "inbucket", "yyds_mail"]

theorem adapterFactories_eq : adapterFactories = onDemandProviderTypes := by decide

def definitionOf (providerType : String) : Except OnDemandFailure ProviderForm :=
  (getProviderDefinition providerType).mapError OnDemandFailure.keyError

section

variable [PythonText] [PythonValues] {Key : Type} [SealedText Key]

open Text

def bindAdapter (runtime : OnDemandRuntimeConfig) :
    Except OnDemandFailure OnDemandProviderFacade :=
  if runtime.providerType ∈ adapterFactories then .ok ⟨runtime⟩
  else .error (.onDemandProvider ("unsupported on-demand provider: " ++ runtime.providerType))

/-- `value in (None, "", [])`. -/
def unset : Option Json → Bool
  | none => true
  | some .null => true
  | some (.str s) => s = ""
  | some (.arr items) => items.isEmpty
  | some _ => false

def requireField (providerType : String) (runtime : OnDemandRuntimeConfig)
    (field : ProviderFieldSchema) : Except OnDemandFailure Unit :=
  if !field.required then .ok ()
  else if field.secret then
    if strip ((runtime.secrets.lookup field.key).getD "") = "" then
      .error (.onDemandProvider (providerType ++ " missing required secret: " ++ field.key))
    else .ok ()
  else if unset (runtime.values.lookup field.key) then
    .error (.onDemandProvider (providerType ++ " missing required field: " ++ field.key))
  else .ok ()

/-- The facade on a configuration, which has to be enabled and complete. -/
def configuredFacade (providerType : String) (runtime : OnDemandRuntimeConfig) :
    Except OnDemandFailure OnDemandProviderFacade := do
  if !runtime.enabled then
    .error (.onDemandProvider (providerType ++ " is not enabled"))
  let form ← definitionOf providerType
  form.fields.forM (requireField providerType runtime)
  bindAdapter runtime

namespace OnDemandProviderService

variable (service : OnDemandProviderService Key)

omit [PythonText] [PythonValues] [SealedText Key] in
/-- `session.get(ProviderInstanceSettings, key)`. -/
def getSettings (key : String × String) :
    SettingsReader (Option ProviderInstanceSettings) := do
  modify (· ++ [key])
  return service.rows key

/-- `resolve_runtime`. The settings service normalises the instance once more. -/
def resolveRuntime (providerType : String) (instanceId : Option String := none) :
    SettingsReader OnDemandRuntimeConfig :=
  match service.runtimeOverrides.lookup providerType with
  | some runtime => return runtime
  | none => do
      let form ← SettingsReader.check (definitionOf providerType)
      let instanceId := effectiveInstance form (some (effectiveInstance form instanceId))
      let row ← service.getSettings (providerType, instanceId)
      return resolveOnDemandRuntime (some service.credentialCipher) form instanceId row

def requireConfiguredFacade (providerType : String) :
    SettingsReader OnDemandProviderFacade := do
  let runtime ← service.resolveRuntime providerType
  SettingsReader.check (configuredFacade providerType runtime)

variable [OnDemandAdapters]

def provision (request : OnDemandProvisionRequest) :
    SettingsReader OnDemandProvisionResult := do
  let facade ← service.requireConfiguredFacade request.providerType
  SettingsReader.check (OnDemandAdapters.provision facade.runtime request)

def fetchEvidence (allocation : VerificationAllocationSnapshot) (query : VerificationQuery) :
    SettingsReader VerificationEvidence := do
  let facade ← service.requireConfiguredFacade allocation.providerType
  SettingsReader.check (OnDemandAdapters.fetchEvidence facade.runtime allocation query)

end OnDemandProviderService

/-! ## The instance of a mailbox -/

omit [PythonValues] [SealedText Key] in
def settingsKey (form : ProviderForm) (instanceId : Option String) : String × String :=
  (form.providerType, effectiveInstance form (some (effectiveInstance form instanceId)))

namespace OnDemandProviderService

variable (service : OnDemandProviderService Key)

def instanceRuntime (form : ProviderForm) (instanceId : Option String) :
    OnDemandRuntimeConfig :=
  resolveOnDemandRuntime (some service.credentialCipher) form (settingsKey form instanceId).2
    (service.rows (settingsKey form instanceId))

/-- A call uses the settings of an instance: it asks for the row of the instance and
for no other, and goes on with what the row says. -/
def UsesInstance {α : Type} (form : ProviderForm) (instanceId : Option String)
    (act : OnDemandProviderFacade → Except OnDemandFailure α) (call : SettingsReader α) :
    Prop :=
  call.run.run [] =
    (configuredFacade form.providerType (service.instanceRuntime form instanceId) >>= act,
      [settingsKey form instanceId])

variable [OnDemandAdapters]

/-- **The routing of an instance**: a mailbox that is opened for the instance, and one
that is recorded under it, are served with the settings of the instance. -/
structure RoutesInstance (form : ProviderForm) (instanceId : String) : Prop where
  created : ∀ request : OnDemandProvisionRequest, request.providerType = form.providerType →
    request.providerInstanceId = instanceId →
      service.UsesInstance form (some instanceId)
        (fun facade => OnDemandAdapters.provision facade.runtime request)
        (service.provision request)
  read : ∀ (allocation : VerificationAllocationSnapshot) (query : VerificationQuery),
    allocation.providerType = form.providerType →
    allocation.providerInstanceId = some instanceId →
      service.UsesInstance form (some instanceId)
        (fun facade => OnDemandAdapters.fetchEvidence facade.runtime allocation query)
        (service.fetchEvidence allocation query)

variable {service} {form : ProviderForm}

omit [OnDemandAdapters] in
theorem run_resolveRuntime_override {providerType : String} {runtime : OnDemandRuntimeConfig}
    (h : service.runtimeOverrides.lookup providerType = some runtime)
    (instanceId : Option String) :
    (service.resolveRuntime providerType instanceId).run.run [] = (.ok runtime, []) := by
  unfold resolveRuntime
  rw [h]
  rfl

omit [OnDemandAdapters] in
theorem run_resolveRuntime (hform : form ∈ providerForms)
    (h : service.runtimeOverrides.lookup form.providerType = none) (instanceId : Option String) :
    (service.resolveRuntime form.providerType instanceId).run.run [] =
      (.ok (service.instanceRuntime form instanceId), [settingsKey form instanceId]) := by
  unfold resolveRuntime definitionOf
  rw [h, getProviderDefinition_of_mem hform]
  rfl

omit [PythonText] [PythonValues] [SealedText Key] [OnDemandAdapters] in
/-- What follows a call asks for no further row. -/
theorem run_bind_check {α β : Type} {call : SettingsReader α} {r : Except OnDemandFailure α}
    {keys : List (String × String)} (h : call.run.run [] = (r, keys))
    (f : α → Except OnDemandFailure β) :
    (call >>= fun a => SettingsReader.check (f a)).run.run [] = (r >>= f, keys) := by
  rw [ExceptT.run_bind, StateT.run_bind, h]
  cases r with
  | error e => rfl
  | ok a => rfl

omit [OnDemandAdapters] in
/-- What a facade is asked for is asked of the instance that a call has looked up. -/
theorem usesInstance_bind {α : Type} (hform : form ∈ providerForms)
    (h : service.runtimeOverrides.lookup form.providerType = none)
    (act : OnDemandProviderFacade → Except OnDemandFailure α) :
    service.UsesInstance form none act
      (service.requireConfiguredFacade form.providerType >>= fun facade =>
        SettingsReader.check (act facade)) := by
  have hruntime := run_resolveRuntime hform h none
  have hfacade := run_bind_check hruntime (configuredFacade form.providerType)
  exact run_bind_check hfacade act

/-- **Every mailbox is opened and read with the settings of the default instance.** -/
theorem provision_uses_default (hform : form ∈ providerForms)
    (h : service.runtimeOverrides.lookup form.providerType = none)
    {request : OnDemandProvisionRequest} (hrequest : request.providerType = form.providerType) :
    service.UsesInstance form none
      (fun facade => OnDemandAdapters.provision facade.runtime request)
      (service.provision request) := by
  unfold provision
  rw [hrequest]
  exact usesInstance_bind hform h _

theorem fetchEvidence_uses_default (hform : form ∈ providerForms)
    (h : service.runtimeOverrides.lookup form.providerType = none)
    {allocation : VerificationAllocationSnapshot}
    (hallocation : allocation.providerType = form.providerType) (query : VerificationQuery) :
    service.UsesInstance form none
      (fun facade => OnDemandAdapters.fetchEvidence facade.runtime allocation query)
      (service.fetchEvidence allocation query) := by
  unfold fetchEvidence
  rw [hallocation]
  exact usesInstance_bind hform h _

omit [OnDemandAdapters] in
theorem UsesInstance.eq {α : Type} {act act' : OnDemandProviderFacade → Except OnDemandFailure α}
    {call : SettingsReader α} {i j : Option String}
    (hi : service.UsesInstance form i act call) (hj : service.UsesInstance form j act' call) :
    settingsKey form i = settingsKey form j := by
  have hkeys := congrArg Prod.snd (hi.symm.trans hj)
  exact List.head_eq_of_cons_eq hkeys

omit [OnDemandAdapters] in
theorem UsesInstance.of_eq {α : Type} {act : OnDemandProviderFacade → Except OnDemandFailure α}
    {call : SettingsReader α} {i j : Option String} (h : settingsKey form i = settingsKey form j)
    (hi : service.UsesInstance form i act call) : service.UsesInstance form j act call := by
  unfold UsesInstance instanceRuntime at hi ⊢
  rw [← h]
  exact hi

/-- **When an instance is routed**: exactly if its provider has no override and it is
the default instance. -/
theorem routesInstance_iff (hform : form ∈ providerForms) (instanceId : String) :
    service.RoutesInstance form instanceId ↔
      service.runtimeOverrides.lookup form.providerType = none ∧
        settingsKey form (some instanceId) = settingsKey form none := by
  constructor
  · intro h
    have hcreated := h.created
      { providerType := form.providerType, providerInstanceId := instanceId } rfl rfl
    cases hoverride : service.runtimeOverrides.lookup form.providerType with
    | none => exact ⟨rfl, hcreated.eq (provision_uses_default hform hoverride rfl)⟩
    | some runtime =>
        -- an override is used without any row
        have hruntime := run_resolveRuntime_override hoverride none
        have hfacade := run_bind_check hruntime (configuredFacade form.providerType)
        have hcall := run_bind_check hfacade fun facade =>
          OnDemandAdapters.provision facade.runtime
            { providerType := form.providerType, providerInstanceId := instanceId }
        have hkeys := congrArg Prod.snd (hcreated.symm.trans hcall)
        cases hkeys
  · rintro ⟨hoverride, hkey⟩
    constructor
    · intro request hrequest _
      exact (provision_uses_default hform hoverride hrequest).of_eq hkey.symm
    · intro allocation query hallocation _
      exact (fetchEvidence_uses_default hform hoverride hallocation query).of_eq hkey.symm

end OnDemandProviderService

end

/-! ## Operator sessions -/

section

variable [Platform] [PythonValues] {Key : Type} [SealedText Key] [OnDemandAdapters]
  {service : OnDemandProviderService Key} {form : ProviderForm}

omit [PythonValues] [OnDemandAdapters] in
/-- What `create_session` asks for. -/
def operatorProvisionRequest (request : OperatorSessionRequest) (localPart : Option String) :
    OnDemandProvisionRequest where
  providerType := Text.normalize request.providerType
  providerInstanceId := operatorInstanceId request.providerInstanceId
  preferredLocalPart := Text.stripOrNone localPart

omit [PythonValues] [OnDemandAdapters] in
/-- The mailbox that `fetch_messages` reads for a session. -/
def operatorAllocation (lease : Lease) (resource : MailboxProviderResource)
    (accessContext : OrderedDict String String) : VerificationAllocationSnapshot where
  leaseId := lease.id
  mailboxId := ""
  providerType := lease.providerType
  providerInstanceId := lease.providerInstanceId
  primaryEmail := resource.primaryEmail
  allocatedEmail :=
    if missing lease.allocatedEmail then some resource.primaryEmail else lease.allocatedEmail
  accessContext := accessContext

/-- **A session is opened and read with the settings of the default instance**, whatever
instance its resource and its lease name. -/
theorem operatorSession_uses_default (hform : form ∈ providerForms)
    (hoverride : service.runtimeOverrides.lookup form.providerType = none)
    (request : OperatorSessionRequest)
    (hprovider : Text.normalize request.providerType = form.providerType) (now : ℕ)
    (result : OnDemandProvisionResult) (address : String) (localPart : Option String)
    (accessContext : OrderedDict String String) (query : VerificationQuery) :
    let instanceId := operatorInstanceId request.providerInstanceId
    let resource := operatorResource form.providerType request.resourceId instanceId now result
      address
    let lease := operatorLease request now form.providerType instanceId address
    let allocation := operatorAllocation lease resource accessContext
    resource.providerInstanceId = instanceId ∧ allocation.providerInstanceId = some instanceId ∧
      service.UsesInstance form none
        (fun facade => OnDemandAdapters.provision facade.runtime
          (operatorProvisionRequest request localPart))
        (service.provision (operatorProvisionRequest request localPart)) ∧
      service.UsesInstance form none
        (fun facade => OnDemandAdapters.fetchEvidence facade.runtime allocation query)
        (service.fetchEvidence allocation query) :=
  ⟨rfl, rfl, OnDemandProviderService.provision_uses_default hform hoverride hprovider,
    OnDemandProviderService.fetchEvidence_uses_default hform hoverride rfl query⟩

end

/-! ## Another instance -/

section Sample

@[reducible] def instanceAdapters : OnDemandAdapters where
  provision runtime _ := .ok
    { address := some ("box@" ++ runtime.instanceId ++ ".org"), externalResourceId := none
      instanceId := some runtime.instanceId, encryptedSecret := "" }
  fetchEvidence runtime _ _ := .ok { messages := [], readMethod := some runtime.instanceId }

attribute [local instance] asciiText markedText textValues instanceAdapters

def enabledRow (instanceId : String) : ProviderInstanceSettings where
  providerType := "ddg_mail"
  instanceId := instanceId
  enabled := true
  apiBase := some "https://ddg.org"
  apiKeyCiphertext := some (SealedText.encrypt true 0 "token")

def twoInstances : OnDemandProviderService Bool where
  credentialCipher := true
  rows key :=
    if key.1 = "ddg_mail" ∧ key.2 ∈ ["default", "eu"] then some (enabledRow key.2) else none

/-- A mailbox of the instance `eu` is opened with the settings of the default one. -/
theorem not_routesInstance_eu :
    ((twoInstances.provision { providerType := "ddg_mail", providerInstanceId := "eu" }).run.run
        []).1 =
      .ok { address := some "box@default.org", externalResourceId := none
            instanceId := some "default", encryptedSecret := "" } ∧
      ¬ twoInstances.RoutesInstance .ddgMail "eu" := by
  refine ⟨by decide +kernel, fun h => ?_⟩
  have hcreated := h.created
    { providerType := "ddg_mail", providerInstanceId := "eu" } rfl rfl
  have hopened := congrArg Prod.fst hcreated
  exact absurd hopened (by decide +kernel)

theorem routesInstance_default : twoInstances.RoutesInstance .ddgMail "default" :=
  (OnDemandProviderService.routesInstance_iff mem_providerForms_ddgMail "default").mpr
    ⟨rfl, by decide +kernel⟩

end Sample

end MailboxService
