import MailboxService.Ascii
import MailboxService.LeaseService.ProviderSelection

/-!
# Selecting as asked

What the fields of an acquire request ask for, how resolving the candidates
ends, and when the two agree: an acquired lease is of a type the caller asked
for, did not exclude and is authorised for, unless an `all` among the
exclusions made the schema drop them.
-/

namespace MailboxService

open Foundation

section

variable [Platform]

/-! ## Selecting as asked -/

/-- What the key may acquire of what the caller asks for. -/
def Wanted (principal : ClientPrincipal) (provider excludeProviders : ProviderField)
    (p : String) : Prop :=
  provider.Requests p ∧ ¬ excludeProviders.Excludes p ∧ principal.MayAcquire p

/-- The exclusions that reach the service: none next to an `all`. -/
def ProviderField.Drops (f : ProviderField) (p : String) : Prop := "all" ∉ f.tokens ∧ p ∈ f.tokens

def remainingTypes (provider excludeProviders : ProviderField) (types : List String) : Prop :=
  types.Nodup ∧ (∀ p ∈ types, p ∈ allProviderTypes) ∧
    ∀ p, p ∈ types ↔ provider.Requests p ∧ ¬ excludeProviders.Drops p

theorem remainingTypes_filter {quoted : String → String}
    {provider excludeProviders : ProviderField} {base : List String}
    (h : baseCandidates quoted (.ofNormalized (normalizeProviderTypeList provider)) =
      .ok base) :
    remainingTypes provider excludeProviders (base.filter fun p =>
      decide (p ∉ normalizeProviderInputList
        (.ofNormalized (normalizeProviderTypeList excludeProviders)))) := by
  obtain ⟨hnodup, hknown, hmem⟩ := baseCandidates_ok h
  refine ⟨hnodup.filter _, ?_, ?_⟩
  · intro p hp
    have hrequests := (hmem p).mp (List.mem_filter.mp hp).1
    unfold ProviderField.Requests at hrequests
    split at hrequests
    · exact hrequests
    · rename_i hopen
      exact hknown (not_or.mp hopen) p hrequests
  · intro p
    rw [List.mem_filter, decide_eq_true_eq, mem_normalizeProviderInputList, hmem]
    rfl

/-- The request is explicit exactly if the schema leaves names. -/
theorem explicit_iff {f : ProviderField} :
    f.Explicit ↔ ((normalizeProviderTypeList f).isSome &&
      decide (ProviderField.ofNormalized (normalizeProviderTypeList f) ≠ .omitted)) = true := by
  rcases hf : normalizeProviderTypeList f with _ | l
  · have hopen := normalizeProviderTypeList_none.mp hf
    refine iff_of_false (fun hexplicit => not_or.mpr hexplicit hopen) ?_
    simp
  · refine iff_of_true (normalizeProviderTypeList_some hf).1 ?_
    simp [ProviderField.ofNormalized]

/-- How resolving the candidates ends. -/
inductive Resolution (principal : ClientPrincipal) (provider excludeProviders : ProviderField) :
    Except LeaseError (List String) → Prop where
  | unknown (message : String)
      (h : (∃ x, excludeProviders.Drops x ∧ x ∉ allProviderTypes) ∨
        provider.Explicit ∧ ∃ p ∈ provider.tokens, p ∉ allProviderTypes) :
      Resolution principal provider excludeProviders (.error (.providerUnsupported message))
  | nothingLeft (message : String)
      (h : ∀ p, provider.Requests p → ¬ excludeProviders.Drops p → ¬ principal.MayAcquire p)
      (hexplicit : provider.Explicit → ∀ p, provider.Requests p → excludeProviders.Drops p) :
      Resolution principal provider excludeProviders (.error (.providerUnsupported message))
  | missingScope (p : String) (hexplicit : provider.Explicit) (hrequests : provider.Requests p)
      (hdrops : ¬ excludeProviders.Drops p) (hscope : ¬ principal.MayAcquire p)
      (hknown : ∀ p ∈ provider.tokens, p ∈ allProviderTypes)
      (hexcluded : ∀ x, excludeProviders.Drops x → x ∈ allProviderTypes) :
      Resolution principal provider excludeProviders
        (.error (.clientKeyScope ("Client Key 缺少权限：" ++ providerAcquireScope p)))
  | resolved (l : List String) (hnodup : l.Nodup)
      (hknown : provider.Explicit → ∀ p ∈ provider.tokens, p ∈ allProviderTypes)
      (hexplicit : provider.Explicit → ∀ p, provider.Requests p → ¬ excludeProviders.Drops p →
        principal.MayAcquire p)
      (hmem : ∀ p, p ∈ l ↔ provider.Requests p ∧ ¬ excludeProviders.Drops p ∧
        principal.MayAcquire p) :
      Resolution principal provider excludeProviders (.ok l)

/-- **Inversion lemma** for the candidates of a request. -/
theorem requestCandidates_resolution (quoted : String → String) (principal : ClientPrincipal)
    (provider excludeProviders : ProviderField) :
    Resolution principal provider excludeProviders
      (requestCandidates quoted principal provider excludeProviders) := by
  unfold requestCandidates resolveMailReadProviderCandidates
  simp only
  split
  · rename_i x hx
    -- unknown exclusions are refused before anything is resolved
    refine .unknown _ (Or.inl ⟨x, ?_, by simpa using List.find?_some hx⟩)
    exact mem_normalizeProviderInputList.mp (List.mem_of_find?_eq_some hx)
  rename_i hnone
  have hexcluded : ∀ x, excludeProviders.Drops x → x ∈ allProviderTypes := by
    intro x hx
    by_contra hunknown
    exact List.find?_eq_none.mp hnone x (mem_normalizeProviderInputList.mpr hx)
      (decide_eq_true hunknown)
  split
  · rename_i e hbase
    obtain ⟨message, rfl⟩ := baseCandidates_error hbase
    refine .unknown message (Or.inr ?_)
    by_contra hnot
    have hknown : provider.Explicit → ∀ p ∈ provider.tokens, p ∈ allProviderTypes := by
      intro hexplicit p hp
      by_contra hunknown
      exact hnot ⟨hexplicit, p, hp, hunknown⟩
    obtain ⟨base, hok⟩ := baseCandidates_of_known quoted hknown
    rw [hok] at hbase
    cases hbase
  rename_i base hbase
  have hremaining : remainingTypes provider excludeProviders _ := remainingTypes_filter hbase
  generalize base.filter _ = types at hremaining
  obtain ⟨hnodup, hcatalog, hmem⟩ := hremaining
  split
  · rename_i hnil
    have hall : ∀ p, provider.Requests p → excludeProviders.Drops p := by
      intro p hrequests
      by_contra hdrops
      have hp := (hmem p).mpr ⟨hrequests, hdrops⟩
      rw [hnil] at hp
      cases hp
    exact .nothingLeft _ (fun p hrequests hdrops => absurd (hall p hrequests) hdrops)
      fun _ => hall
  rename_i hnil
  have hhard : provider.Explicit ↔ _ := explicit_iff
  generalize ((normalizeProviderTypeList provider).isSome && decide
    (ProviderField.ofNormalized (normalizeProviderTypeList provider) ≠ .omitted)) = hard
    at hhard ⊢
  have hloop := authorizedCandidates_spec principal hard hcatalog
    (show ([] ++ types).Nodup from hnodup)
  split
  · rename_i e hloopError
    -- the loop stops at an explicit type that the key has no scope for
    rw [hloopError] at hloop
    obtain ⟨htrue, p, hp, hscope, rfl⟩ := hloop
    obtain ⟨hrequests, hdrops⟩ := (hmem p).mp hp
    have hexplicit := hhard.mpr htrue
    exact .missingScope p hexplicit hrequests hdrops hscope
      ((baseCandidates_ok hbase).2.1 hexplicit) hexcluded
  · rename_i hloopOk
    rw [hloopOk] at hloop
    obtain ⟨-, hall, hl⟩ := hloop
    have hnone : ∀ p ∈ types, ¬ principal.MayAcquire p := by
      intro p hp hmay
      have hin := (hl p).mpr (Or.inr ⟨hp, hmay⟩)
      cases hin
    have hleft : ∀ p, provider.Requests p → ¬ excludeProviders.Drops p →
        ¬ principal.MayAcquire p :=
      fun p hrequests hdrops => hnone p ((hmem p).mpr ⟨hrequests, hdrops⟩)
    obtain ⟨p, hp⟩ := List.exists_mem_of_ne_nil _ hnil
    -- an explicit type without a scope would have stopped the loop
    have hexplicit : ¬ provider.Explicit :=
      fun hexplicit => hnone p hp (hall (hhard.mp hexplicit) p hp)
    split
    · exact .nothingLeft _ hleft fun h => absurd h hexplicit
    · exact .nothingLeft _ hleft fun h => absurd h hexplicit
  · rename_i l _ hloopOk
    rw [hloopOk] at hloop
    obtain ⟨hl, hall, hmem'⟩ := hloop
    refine .resolved l hl (baseCandidates_ok hbase).2.1 ?_ ?_
    · intro hexplicit p hrequests hdrops
      exact hall (hhard.mp hexplicit) p ((hmem p).mpr ⟨hrequests, hdrops⟩)
    · intro p
      rw [hmem', or_iff_right List.not_mem_nil, hmem, and_assoc]

/-! ## The provider of a lease -/

/-- A single-provider attempt hands out a lease of that provider, as far as the
database can tell. -/
theorem acquireSingleProviderLease_provider {db : Database} {s s' : Session Database}
    {principal : ClientPrincipal} {now : ℕ} {decrypt : String → Except String String}
    {draws : Draws} {request : AcquireRequest} {providerType : String}
    {result : LeaseAcquireResult}
    (h : acquireSingleProviderLease principal now decrypt draws request providerType db s =
      (.ok result, s')) :
    ∃ q, result.providerType = some q ∧ sqlEq q providerType = true := by
  have hself : ∀ q, sqlEq q q = true := fun q => by simp [sqlEq]
  unfold acquireSingleProviderLease at h
  split at h
  · cases h
  split at h
  · cases h
  rw [Work.bind_eq_ok] at h
  obtain ⟨siteCode, s₁, -, h⟩ := h
  split at h
  · unfold acquireOnDemandLease at h
    simp only [Work.bind_eq_ok] at h
    obtain ⟨⟨provisioned, address⟩, s₂, -, _, s₃, -, _, s₄, -, h⟩ := h
    obtain ⟨hresult, -⟩ := Prod.mk.inj h
    cases hresult
    exact ⟨providerType, rfl, hself _⟩
  split at h
  · rename_i hsmsbower
    split at h
    · cases h
    · unfold acquireSmsbowerLease at h
      simp only [Work.bind_eq_ok] at h
      obtain ⟨picked, s₂, -, r, s₃, -, _, s₄, -, _, s₅, -, _, s₆, -, h⟩ := h
      obtain ⟨hresult, -⟩ := Prod.mk.inj h
      cases hresult
      exact ⟨"smsbower_gmail", rfl, by rw [hsmsbower]; exact hself _⟩
  · obtain ⟨m, a, hpick, hresult⟩ := acquireMailboxLease_result h
    have hselectable := (pickMailbox_ok hpick).2.1
    unfold Database.mailboxSelectable at hselectable
    simp only [Bool.and_eq_true] at hselectable
    exact ⟨m.providerType, (mailboxLeaseResult_ok hresult).2.2.2, hselectable.1.1.1.1.2⟩

theorem acquireLease_provider {db : Database} {s s' : Session Database}
    {principal : ClientPrincipal} {now : ℕ} {decrypt : String → Except String String}
    {draws : String → Draws} {request : AcquireRequest} {shuffled : List String}
    {result : LeaseAcquireResult} (hmode : request.mode = .mailRead)
    (h : acquireLease principal now decrypt draws request shuffled db s = (.ok result, s')) :
    ∃ p ∈ shuffled, ∃ q, result.providerType = some q ∧ sqlEq q p = true := by
  unfold acquireLease at h
  rw [if_pos hmode, Work.bind_eq_ok] at h
  obtain ⟨_, s₁, -, h⟩ := h
  obtain ⟨p, hp, s₂, -, hattempt⟩ := Work.tryEach_ok (fun _ _ _ _ _ _ _ _ => trivial) trivial h
  exact ⟨p, hp, acquireSingleProviderLease_provider hattempt⟩

/-! ## The selection as a caller sees it -/

/-- The selection does what the fields say: a computed list holds each wanted
type once, a named type without its scope is refused, and a lease is of a
wanted type. -/
structure SelectsAsAsked (quoted : String → String) (principal : ClientPrincipal)
    (provider excludeProviders : ProviderField) : Prop where
  listed : ∀ l, requestCandidates quoted principal provider excludeProviders = .ok l →
    l.Nodup ∧ ∀ p, p ∈ l ↔ Wanted principal provider excludeProviders p
  refused : provider.Explicit →
    ∀ p, provider.Requests p → ¬ excludeProviders.Excludes p → ¬ principal.MayAcquire p →
      ∃ q, requestCandidates quoted principal provider excludeProviders =
        .error (.clientKeyScope ("Client Key 缺少权限：" ++ providerAcquireScope q))
  leased : ∀ l shuffled, requestCandidates quoted principal provider excludeProviders = .ok l →
    shuffled.Perm l → ∀ now decrypt draws request committed s result s',
      request.mode = .mailRead →
      acquireLease principal now decrypt draws request shuffled committed s =
        (.ok result, s') →
      ∃ q, result.providerType = some q ∧ ¬ excludeProviders.Excludes q ∧
        ∃ p, Wanted principal provider excludeProviders p ∧ sqlEq q p = true

/-- No exclusion is lost: where `all` stands among the exclusions of a request
that is otherwise granted, they name nothing the caller would get. -/
def ExclusionsKept (principal : ClientPrincipal) (provider excludeProviders : ProviderField) :
    Prop :=
  "all" ∈ excludeProviders.tokens →
    (provider.Explicit → ∀ p ∈ provider.tokens, p ∈ allProviderTypes ∧ principal.MayAcquire p) →
    ∀ p, provider.Requests p → principal.MayAcquire p → ¬ excludeProviders.Excludes p

/-- Names outside the catalog are refused before scopes are looked at: a request that
names a type without its scope has none, but for exclusions next to an `all`. -/
def ScopesReached (principal : ClientPrincipal) (provider excludeProviders : ProviderField) :
    Prop :=
  provider.Explicit →
    (∃ p, provider.Requests p ∧ ¬ excludeProviders.Excludes p ∧ ¬ principal.MayAcquire p) →
    (∀ p ∈ provider.tokens, p ∈ allProviderTypes) ∧
      ("all" ∉ excludeProviders.tokens → ∀ p ∈ excludeProviders.tokens, p ∈ allProviderTypes)

theorem drops_iff_excludes {f : ProviderField} {p : String} (hall : "all" ∉ f.tokens)
    (hp : p ∈ allProviderTypes) : f.Drops p ↔ f.Excludes p := by
  unfold ProviderField.Drops ProviderField.Excludes
  rw [and_iff_right hall, and_iff_right hp]

/-- A requested type is in the catalog, once the named ones are. -/
theorem ProviderField.Requests.known {f : ProviderField} {p : String} (h : f.Requests p)
    (hknown : f.Explicit → ∀ p ∈ f.tokens, p ∈ allProviderTypes) : p ∈ allProviderTypes := by
  unfold ProviderField.Requests at h
  split at h
  · exact h
  · rename_i hopen
    exact hknown (not_or.mp hopen) p h

theorem listed_of_kept {quoted : String → String} {principal : ClientPrincipal}
    {provider excludeProviders : ProviderField} {l : List String}
    (hkept : ExclusionsKept principal provider excludeProviders)
    (h : requestCandidates quoted principal provider excludeProviders = .ok l) :
    l.Nodup ∧ ∀ p, p ∈ l ↔ Wanted principal provider excludeProviders p := by
  have hresolution := requestCandidates_resolution quoted principal provider excludeProviders
  rw [h] at hresolution
  cases hresolution with
  | resolved _ hnodup hknown hexplicit hmem =>
      refine ⟨hnodup, fun p => ?_⟩
      rw [hmem]
      refine and_congr_right fun hrequests => and_congr_left fun hmay => not_congr ?_
      have hp := hrequests.known hknown
      by_cases hall : "all" ∈ excludeProviders.tokens
      · -- the exclusions were dropped, so none of them may be wanted
        have hgranted : provider.Explicit → ∀ p ∈ provider.tokens,
            p ∈ allProviderTypes ∧ principal.MayAcquire p := by
          intro hex q hq
          have hrequest : provider.Requests q := by
            unfold ProviderField.Requests
            rwa [if_neg (not_or.mpr hex)]
          exact ⟨hknown hex q hq, hexplicit hex q hrequest fun hdrops => hdrops.1 hall⟩
        exact iff_of_false (fun hdrops => hdrops.1 hall) (hkept hall hgranted p hrequests hmay)
      · exact drops_iff_excludes hall hp

/-- A request that names a type which is neither excluded nor scoped is refused for a
scope exactly if its names are known. -/
theorem refused_iff {quoted : String → String} {principal : ClientPrincipal}
    {provider excludeProviders : ProviderField} (hexplicit : provider.Explicit) {p : String}
    (hrequests : provider.Requests p) (hexcluded : ¬ excludeProviders.Excludes p)
    (hscope : ¬ principal.MayAcquire p) :
    (∃ q, requestCandidates quoted principal provider excludeProviders =
        .error (.clientKeyScope ("Client Key 缺少权限：" ++ providerAcquireScope q))) ↔
      (∀ x ∈ provider.tokens, x ∈ allProviderTypes) ∧
        ("all" ∉ excludeProviders.tokens →
          ∀ x ∈ excludeProviders.tokens, x ∈ allProviderTypes) := by
  have hresolution := requestCandidates_resolution quoted principal provider excludeProviders
  generalize requestCandidates quoted principal provider excludeProviders = r at hresolution ⊢
  constructor
  · rintro ⟨q, hq⟩
    rw [hq] at hresolution
    generalize "Client Key 缺少权限：" ++ providerAcquireScope q = text at hresolution
    cases hresolution with
    | missingScope p _ _ _ _ hknown hdropped =>
        exact ⟨hknown, fun hall x hx => hdropped x ⟨hall, hx⟩⟩
  · rintro ⟨hprovider, hexclude⟩
    have hp := hrequests.known fun _ => hprovider
    have hdrops : ¬ excludeProviders.Drops p := fun hdrops => hexcluded ⟨hp, hdrops.2⟩
    cases hresolution with
    | unknown message h =>
        rcases h with ⟨x, hx, hunknown⟩ | ⟨-, x, hx, hunknown⟩
        · exact absurd (hexclude hx.1 x hx.2) hunknown
        · exact absurd (hprovider x hx) hunknown
    | nothingLeft message h hall => exact absurd (hall hexplicit p hrequests) hdrops
    | missingScope q => exact ⟨q, rfl⟩
    | resolved l hnodup hknown hall hmem =>
        exact absurd (hall hexplicit p hrequests hdrops) hscope

/-- **Provider selection**: the request does what its fields say exactly if no
exclusion is lost to an `all` next to it, and no unknown name comes before a missing
scope. The collation tells the types of the catalog apart. -/
theorem provider_selection_iff
    (hcatalog : ∀ p ∈ allProviderTypes, ∀ q ∈ allProviderTypes, sqlEq p q = true → p = q)
    (quoted : String → String) (principal : ClientPrincipal)
    (provider excludeProviders : ProviderField) :
    SelectsAsAsked quoted principal provider excludeProviders ↔
      ExclusionsKept principal provider excludeProviders ∧
        ScopesReached principal provider excludeProviders := by
  constructor
  · intro h
    refine ⟨?_, fun hexplicit ⟨p, hrequests, hexcluded, hscope⟩ =>
      (refused_iff hexplicit hrequests hexcluded hscope).mp
        (h.refused hexplicit p hrequests hexcluded hscope)⟩
    intro hall hgranted p hrequests hmay hexcluded
    have hresolution := requestCandidates_resolution quoted principal provider excludeProviders
    have hdrops : ¬ excludeProviders.Drops p := fun hdrops => hdrops.1 hall
    generalize hr : requestCandidates quoted principal provider excludeProviders = r
      at hresolution
    cases hresolution with
    | unknown message hunknown =>
        rcases hunknown with ⟨x, hx, -⟩ | ⟨hexplicit, x, hx, hunknown⟩
        · exact hx.1 hall
        · exact hunknown (hgranted hexplicit x hx).1
    | nothingLeft message hnone _ => exact hnone p hrequests hdrops hmay
    | missingScope q hexplicit hq _ hscope =>
        unfold ProviderField.Requests at hq
        rw [if_neg (not_or.mpr hexplicit)] at hq
        exact hscope (hgranted hexplicit q hq).2
    | resolved l _ _ _ hmem =>
        have hp := (hmem p).mpr ⟨hrequests, hdrops, hmay⟩
        exact (((h.listed l hr).2 p).mp hp).2.1 hexcluded
  · rintro ⟨hkept, hreached⟩
    refine ⟨fun l => listed_of_kept hkept, ?_, ?_⟩
    · intro hexplicit p hrequests hexcluded hscope
      exact (refused_iff hexplicit hrequests hexcluded hscope).mpr
        (hreached hexplicit ⟨p, hrequests, hexcluded, hscope⟩)
    · intro l shuffled hl hperm now decrypt draws request committed s result s' hmode hacquire
      obtain ⟨p, hp, q, hq, hqp⟩ := acquireLease_provider hmode hacquire
      have hwanted := ((listed_of_kept hkept hl).2 p).mp (hperm.mem_iff.mp hp)
      refine ⟨q, hq, ?_, p, hwanted, hqp⟩
      intro hexcluded
      have hknown : p ∈ allProviderTypes := by
        have hresolution :=
          requestCandidates_resolution quoted principal provider excludeProviders
        rw [hl] at hresolution
        cases hresolution with
        | resolved _ _ hknown _ _ => exact hwanted.1.known hknown
      -- the names of the catalog are told apart by the collation
      have heq := hcatalog q hexcluded.1 p hknown hqp
      rw [heq] at hexcluded
      exact hwanted.2.1 hexcluded

end

/-! ## An exclusion next to `all` -/

section Sample

attribute [local instance] asciiPlatform

def inventoryClient : ClientPrincipal where
  clientKeyId := "key"
  name := "client"
  scopes := ["mailboxes:acquire", "providers:smsbower_gmail:acquire"]

theorem provider_selection_sample :
    SelectsAsAsked id inventoryClient (.text "ALL")
      (.list [some "SMSBOWER_GMAIL", none, some "inbucket", some "smsbower_gmail "]) := by
  refine (provider_selection_iff ?_ _ _ _ _).mpr ⟨?_, ?_⟩
  · decide +kernel
  · intro hall
    exact absurd hall (by decide +kernel)
  · intro hexplicit
    exact absurd (by decide +kernel) hexplicit.2

/-- `exclude_providers: ["smsbower_gmail", "all"]` excludes nothing. -/
theorem excluded_type_is_candidate :
    requestCandidates id inventoryClient .omitted
        (.list [some "smsbower_gmail", some "all"]) =
      .ok ["microsoft", "smsbower_gmail"] ∧
    ¬ SelectsAsAsked id inventoryClient .omitted
      (.list [some "smsbower_gmail", some "all"]) := by
  have hcandidates : requestCandidates id inventoryClient .omitted
      (.list [some "smsbower_gmail", some "all"]) = .ok ["microsoft", "smsbower_gmail"] := by
    decide +kernel
  refine ⟨hcandidates, fun h => ?_⟩
  have hwanted := ((h.listed _ hcandidates).2 "smsbower_gmail").mp (by decide)
  exact hwanted.2.1 ⟨by decide, by decide +kernel⟩

end Sample

end MailboxService
