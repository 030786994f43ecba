import MailboxService.Foundation.Json
import MailboxService.Providers.Catalog
import Mathlib.Data.List.Nodup

/-!
# Provider forms

The fields that an instance of each provider is configured with: what they are
called, what kind of value they take, whether it is a secret, and what it is
where nothing is stored. Their labels and help texts are not modelled.
-/

namespace MailboxService

open Foundation

inductive FieldType where
  | text
  | password
  | number
  | boolean
  | stringList
  deriving DecidableEq, Repr

structure ProviderFieldSchema where
  key : String
  fieldType : FieldType
  required : Bool := false
  secret : Bool := false
  default : Json := .null

def ProviderFieldSchema.needed (field : ProviderFieldSchema) : ProviderFieldSchema :=
  { field with required := true }

/-- The fields of a provider type, and the secret that has a column of its own. -/
structure ProviderForm where
  providerType : String
  fields : List ProviderFieldSchema := []
  defaultInstanceId : String := "default"
  primarySecretKey : String := "api_key"

namespace ProviderForm

/-! ## Fields -/

def secretField (key : String) : ProviderFieldSchema where
  key := key
  fieldType := .password
  secret := true

def textField (key : String) (default : Json := .null) : ProviderFieldSchema where
  key := key
  fieldType := .text
  default := default

def listField (key : String) : ProviderFieldSchema where
  key := key
  fieldType := .stringList

def boolField (key : String) (default : Bool) : ProviderFieldSchema where
  key := key
  fieldType := .boolean
  default := .bool default

def numberField (key : String) (default : Json := .null) : ProviderFieldSchema where
  key := key
  fieldType := .number
  default := default

def timeoutField : ProviderFieldSchema := numberField "request_timeout_seconds" (.int 30)

/-! ## Forms -/

def microsoft : ProviderForm where
  providerType := "microsoft"

def smsbowerGmail : ProviderForm where
  providerType := "smsbower_gmail"
  fields :=
    [textField "api_base" (.str "https://smsbower.page/api/mail"), (secretField "api_key").needed,
      textField "service" (.str "openai"), textField "domain" (.str "gmail.com"),
      numberField "max_price", timeoutField]

def cloudflareTempEmail : ProviderForm where
  providerType := "cloudflare_temp_email"
  primarySecretKey := "admin_password"
  fields :=
    [(textField "api_base").needed, (secretField "admin_password").needed,
      (listField "domain").needed, timeoutField]

def ddgMail : ProviderForm where
  providerType := "ddg_mail"
  primarySecretKey := "ddg_token"
  fields :=
    [(secretField "ddg_token").needed, (textField "api_base").needed, secretField "cf_inbox_jwt",
      secretField "admin_password", secretField "cf_api_key",
      textField "cf_auth_mode" (.str "none"), listField "cf_domain",
      textField "cf_create_path" (.str "/api/new_address"),
      textField "cf_messages_path" (.str "/api/mails"), timeoutField]

def cloudmailGen : ProviderForm where
  providerType := "cloudmail_gen"
  primarySecretKey := "admin_password"
  fields :=
    [(textField "api_base").needed, (textField "admin_email").needed,
      (secretField "admin_password").needed, (listField "domain").needed, listField "subdomain", textField "email_prefix", timeoutField]

def tempmailLol : ProviderForm where
  providerType := "tempmail_lol"
  fields := [secretField "api_key", listField "domain", timeoutField]

def duckmail : ProviderForm where
  providerType := "duckmail"
  fields :=
    [(secretField "api_key").needed, textField "default_domain" (.str "duckmail.sbs"), timeoutField]

def gptmail : ProviderForm where
  providerType := "gptmail"
  fields := [(secretField "api_key").needed, textField "default_domain", timeoutField]

def moemail : ProviderForm where
  providerType := "moemail"
  fields :=
    [(textField "api_base").needed, (secretField "api_key").needed, listField "domain",
      numberField "expiry_time" (.int 0), timeoutField]

def inbucket : ProviderForm where
  providerType := "inbucket"
  fields :=
    [(textField "api_base").needed, (listField "domain").needed,
      boolField "random_subdomain" true, timeoutField]

def yydsMail : ProviderForm where
  providerType := "yyds_mail"
  fields :=
    [textField "api_base" (.str "https://maliapi.215.im/v1"), (secretField "api_key").needed,
      listField "domain", textField "subdomain", boolField "wildcard" false, timeoutField]

end ProviderForm

/-- `PROVIDER_DEFINITIONS`. -/
def providerForms : List ProviderForm :=
  [.microsoft, .smsbowerGmail, .cloudflareTempEmail, .ddgMail, .cloudmailGen, .tempmailLol,
    .duckmail, .gptmail, .moemail, .inbucket, .yydsMail]

/-- `get_provider_definition(provider_type)`. -/
def getProviderDefinition (providerType : String) : Except String ProviderForm :=
  match providerForms.find? (·.providerType = providerType) with
  | some form => .ok form
  | none => .error ("unknown provider: " ++ providerType)

/-! ## What the forms have in common -/

theorem providerType_providerForms : providerForms.map (·.providerType) = allProviderTypes := by
  decide

theorem mem_providerForms_ddgMail : ProviderForm.ddgMail ∈ providerForms := by
  unfold providerForms
  simp

theorem getProviderDefinition_of_mem {form : ProviderForm} (h : form ∈ providerForms) :
    getProviderDefinition form.providerType = .ok form := by
  unfold providerForms at h
  simp only [List.mem_cons, List.not_mem_nil, or_false] at h
  rcases h with rfl | rfl | rfl | rfl | rfl | rfl | rfl | rfl | rfl | rfl | rfl
  all_goals rfl

theorem nodup_keys : ∀ form ∈ providerForms, (form.fields.map (·.key)).Nodup := by
  decide

theorem fieldType_of_column : ∀ form ∈ providerForms, ∀ field ∈ form.fields,
    (field.key = "api_base" → field.fieldType = .text) ∧
      (field.key = "request_timeout_seconds" → field.fieldType = .number) := by
  decide

end MailboxService
