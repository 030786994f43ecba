/-!
# Provider catalog

The supported mailbox providers with how they supply mailboxes.
-/

namespace MailboxService

inductive SupplyMode where
  | inventoryImport
  | inventoryReplenish
  | onDemand
  deriving DecidableEq, Repr

structure ProviderTypeDefinition where
  providerType : String
  supplyMode : SupplyMode
  requiresAcquireScope : Bool
  deriving DecidableEq, Repr

def defaultProviderType : String := "microsoft"

def providerDefinitions : List ProviderTypeDefinition :=
  [⟨"microsoft", .inventoryImport, false⟩,
   ⟨"smsbower_gmail", .inventoryReplenish, true⟩,
   ⟨"cloudflare_temp_email", .onDemand, true⟩,
   ⟨"ddg_mail", .onDemand, true⟩,
   ⟨"cloudmail_gen", .onDemand, true⟩,
   ⟨"tempmail_lol", .onDemand, true⟩,
   ⟨"duckmail", .onDemand, true⟩,
   ⟨"gptmail", .onDemand, true⟩,
   ⟨"moemail", .onDemand, true⟩,
   ⟨"inbucket", .onDemand, true⟩,
   ⟨"yyds_mail", .onDemand, true⟩]

def onDemandProviderTypes : List String :=
  (providerDefinitions.filter (·.supplyMode = .onDemand)).map (·.providerType)

def allProviderTypes : List String := providerDefinitions.map (·.providerType)

theorem mem_allProviderTypes : ∀ p ∈ onDemandProviderTypes, p ∈ allProviderTypes := by
  decide

theorem onDemand_ne_default : ∀ p ∈ onDemandProviderTypes, p ≠ defaultProviderType := by
  decide

theorem eq_of_not_onDemand : ∀ p ∈ allProviderTypes, p ∉ onDemandProviderTypes →
    p = defaultProviderType ∨ p = "smsbower_gmail" := by
  decide

end MailboxService
