import MailboxService.LeaseService.Effects
import Mathlib.Data.List.Sort

/-!
# Provider selection

How the `provider` and `exclude_providers` fields of an acquire request become
the list of candidate providers: the request schema normalises each field, the
service normalises them again and subtracts the exclusions and the types the
key has no scope for.

The schema reads `all` in either field as "no restriction". For the field that
excludes, that drops the exclusions next to it.
-/

namespace MailboxService

open Foundation

/-! ## The fields -/

/-- A field as the request carries it: left out, a text, or a list of texts and
nulls. -/
inductive ProviderField where
  | omitted
  | text (value : String)
  | list (values : List (Option String))
  deriving DecidableEq, Repr

def ProviderField.values : ProviderField → List (Option String)
  | .omitted => []
  | .text value => [some value]
  | .list values => values

/-- A field as the schema leaves it. -/
def ProviderField.ofNormalized : Option (List String) → ProviderField
  | none => .omitted
  | some l => .list (l.map some)

def providerAcquireScope (providerType : String) : String :=
  "providers:" ++ providerType ++ ":acquire"

def ProviderTypeDefinition.lacksScope (definition : ProviderTypeDefinition)
    (principal : ClientPrincipal) : Bool :=
  definition.requiresAcquireScope &&
    decide (providerAcquireScope definition.providerType ∉ principal.scopes)

section

variable [Platform]

/-! ## The schema -/

/-- The loop of `_normalize_provider_type_list`. -/
def normalizeProviderTokens (items : List String) : List (Option String) →
    Option (List String)
  | [] => some items
  | none :: rest => normalizeProviderTokens items rest
  | some raw :: rest =>
      let token := Text.normalize raw
      if token = "" then normalizeProviderTokens items rest
      else if token = "all" then none
      else if token ∈ items then normalizeProviderTokens items rest
      else normalizeProviderTokens (items ++ [token]) rest

/-- `_normalize_provider_type_list`: `none` is "all". -/
def normalizeProviderTypeList (value : ProviderField) : Option (List String) :=
  match value with
  | .omitted => none
  | value =>
      match normalizeProviderTokens [] value.values with
      | some [] => none
      | items => items

/-! ## The service -/

/-- The loop of `_normalize_provider_input_list`. -/
def collectProviderInputs (normalized : List String) : List (Option String) → List String
  | [] => normalized
  | none :: rest => collectProviderInputs normalized rest
  | some raw :: rest =>
      let token := Text.normalize raw
      if token = "" ∨ token = "all" ∨ token ∈ normalized then
        collectProviderInputs normalized rest
      else collectProviderInputs (normalized ++ [token]) rest

def normalizeProviderInputList (value : ProviderField) : List String :=
  collectProviderInputs [] value.values

def isProviderTypeChar (c : Char) : Bool :=
  (decide ('a' ≤ c) && decide (c ≤ 'z')) || (decide ('0' ≤ c) && decide (c ≤ '9')) ||
    c = '_' || c = '-'

/-- `normalize_provider_type`; `quoted` is the literal that Python shows for a
text. -/
def normalizeProviderType (quoted : String → String) (providerType : String) :
    Except String String :=
  let text := Text.normalize providerType
  if text = "" then .error "provider_type is required"
  else if text.length > 64 then .error "provider_type exceeds 64 characters"
  else if !text.toList.all isProviderTypeChar then
    .error ("invalid provider_type: " ++ quoted providerType)
  else .ok text

/-- The catalog in its stable order: microsoft first, then alphabetical. -/
def catalogCandidates : List String :=
  allProviderTypes.insertionSort fun a b =>
    a = defaultProviderType ∨ (b ≠ defaultProviderType ∧ a ≤ b)

def namedCandidates (quoted : String → String) (candidates : List String) :
    List String → Except LeaseError (List String)
  | [] => .ok candidates
  | raw :: rest =>
      match normalizeProviderType quoted raw with
      | .error reason => .error (.providerUnsupported reason)
      | .ok normalized =>
          if normalized ∉ allProviderTypes then
            .error (.providerUnsupported ("不支持的 provider：" ++ normalized))
          else if normalized ∈ candidates then namedCandidates quoted candidates rest
          else namedCandidates quoted (candidates ++ [normalized]) rest

/-- The candidates before anything is subtracted. -/
def baseCandidates (quoted : String → String) (provider : ProviderField) :
    Except LeaseError (List String) :=
  if provider = .omitted ∨ provider = .list [] ∨ normalizeProviderInputList provider = [] then
    .ok catalogCandidates
  else namedCandidates quoted [] (normalizeProviderInputList provider)

/-- The loop over the types that are left: `hard` says that a missing scope is
an error. -/
def authorizedCandidates (principal : ClientPrincipal) (hard : Bool)
    (authorized : List String) : List String → Except LeaseError (List String)
  | [] => .ok authorized
  | providerType :: rest =>
      match providerDefinitions.find? (·.providerType = providerType) with
      | none => authorizedCandidates principal hard authorized rest
      | some definition =>
          if definition.lacksScope principal then
            if hard then
              .error (.clientKeyScope
                ("Client Key 缺少权限：" ++ providerAcquireScope providerType))
            else authorizedCandidates principal hard authorized rest
          else authorizedCandidates principal hard (authorized ++ [providerType]) rest

def resolveMailReadProviderCandidates (quoted : String → String) (principal : ClientPrincipal)
    (provider excludeProviders : ProviderField) (explicitProviderRequest : Bool) :
    Except LeaseError (List String) :=
  let excluded := normalizeProviderInputList excludeProviders
  match excluded.find? (· ∉ allProviderTypes) with
  | some excludedType =>
      .error (.providerUnsupported ("不支持的 exclude provider：" ++ excludedType))
  | none =>
      match baseCandidates quoted provider with
      | .error e => .error e
      | .ok base =>
          let filtered := base.filter (· ∉ excluded)
          let hard := explicitProviderRequest && decide (provider ≠ .omitted)
          if filtered = [] then .error (.providerUnsupported "排除后没有可用的邮箱类型")
          else
            match authorizedCandidates principal hard [] filtered with
            | .error e => .error e
            | .ok [] =>
                if hard then .error (.providerUnsupported "没有已授权的邮箱类型可领取")
                else .error (.providerUnsupported
                  "当前 Client Key 没有可用的邮箱类型（检查 providers:\x7btype\x7d:acquire 与 exclude_providers）")
            | .ok authorized => .ok authorized

/-- The candidates of a request: `acquire_mailbox_account` hands the normalised
fields to the service. -/
def requestCandidates (quoted : String → String) (principal : ClientPrincipal)
    (provider excludeProviders : ProviderField) : Except LeaseError (List String) :=
  let normalized := normalizeProviderTypeList provider
  resolveMailReadProviderCandidates quoted principal (.ofNormalized normalized)
    (.ofNormalized (normalizeProviderTypeList excludeProviders)) normalized.isSome

/-! ## What a caller asks for -/

def ProviderField.tokens (f : ProviderField) : List String :=
  f.values.filterMap fun raw => (raw.map Text.normalize).filter (· ≠ "")

/-- The caller names one or more types, and not `all`. -/
def ProviderField.Explicit (f : ProviderField) : Prop :=
  f.tokens ≠ [] ∧ "all" ∉ f.tokens

def ProviderField.Requests (f : ProviderField) (p : String) : Prop :=
  if f.tokens = [] ∨ "all" ∈ f.tokens then p ∈ allProviderTypes else p ∈ f.tokens

def ProviderField.Excludes (f : ProviderField) (p : String) : Prop :=
  p ∈ allProviderTypes ∧ p ∈ f.tokens

def ClientPrincipal.MayAcquire (principal : ClientPrincipal) (p : String) : Prop :=
  ∀ d ∈ providerDefinitions, d.providerType = p → d.lacksScope principal = false

theorem mem_tokens {f : ProviderField} {p : String} :
    p ∈ f.tokens ↔ p ≠ "" ∧ ∃ raw, some raw ∈ f.values ∧ Text.normalize raw = p := by
  unfold ProviderField.tokens
  simp only [List.mem_filterMap, Option.filter_eq_some_iff, Option.map_eq_some_iff,
    decide_eq_true_eq]
  constructor
  · rintro ⟨raw?, hmem, ⟨raw, rfl, hraw⟩, hne⟩
    exact ⟨hne, raw, hmem, hraw⟩
  · rintro ⟨hne, raw, hmem, hraw⟩
    exact ⟨some raw, hmem, ⟨raw, rfl, hraw⟩, hne⟩

theorem normalize_token {f : ProviderField} {p : String} (h : p ∈ f.tokens) :
    Text.normalize p = p := by
  obtain ⟨-, raw, -, rfl⟩ := mem_tokens.mp h
  exact Text.normalize_normalize raw

/-! ## What the normalisers keep -/

omit [Platform] in
theorem nodup_snoc {l : List String} {a : String} (h : l.Nodup) (ha : a ∉ l) :
    (l ++ [a]).Nodup := by
  rw [← List.concat_eq_append]
  exact h.concat ha

def Named (values : List (Option String)) (p : String) : Prop :=
  p ≠ "" ∧ ∃ raw, some raw ∈ values ∧ Text.normalize raw = p

theorem named_cons {raw : String} {rest : List (Option String)} {p : String} :
    Named (some raw :: rest) p ↔ (p ≠ "" ∧ Text.normalize raw = p) ∨ Named rest p := by
  unfold Named
  simp only [List.mem_cons, Option.some.injEq]
  constructor
  · rintro ⟨hne, q, rfl | hq, hraw⟩
    · exact Or.inl ⟨hne, hraw⟩
    · exact Or.inr ⟨hne, q, hq, hraw⟩
  · rintro (⟨hne, hraw⟩ | ⟨hne, q, hq, hraw⟩)
    · exact ⟨hne, raw, Or.inl rfl, hraw⟩
    · exact ⟨hne, q, Or.inr hq, hraw⟩

theorem named_none {rest : List (Option String)} {p : String} :
    Named (none :: rest) p ↔ Named rest p := by
  unfold Named
  simp only [List.mem_cons, reduceCtorEq, false_or]

/-- The schema's loop gives up exactly at an `all`. -/
theorem normalizeProviderTokens_none {values : List (Option String)} {items : List String} :
    normalizeProviderTokens items values = none ↔ Named values "all" := by
  induction values generalizing items with
  | nil => simp [normalizeProviderTokens, Named]
  | cons raw? rest ih =>
      cases raw? with
      | none => rw [normalizeProviderTokens, ih, named_none]
      | some raw =>
          rw [normalizeProviderTokens, named_cons]
          split_ifs with hempty hall hseen
          · rw [ih, hempty]
            simp
          · simp [hall]
          · rw [ih]
            simp [hall]
          · rw [ih]
            simp [hall]

theorem normalizeProviderTokens_some {values : List (Option String)} {items l : List String}
    (h : normalizeProviderTokens items values = some l) :
    (items.Nodup → l.Nodup) ∧ ∀ p, p ∈ l ↔ p ∈ items ∨ Named values p := by
  induction values generalizing items with
  | nil =>
      cases h
      exact ⟨id, by simp [Named]⟩
  | cons raw? rest ih =>
      cases raw? with
      | none =>
          rw [normalizeProviderTokens] at h
          simp only [named_none]
          exact ih h
      | some raw =>
          rw [normalizeProviderTokens] at h
          simp only [named_cons]
          split_ifs at h with hempty hall hseen
          · obtain ⟨hnodup, hmem⟩ := ih h
            refine ⟨hnodup, fun p => ?_⟩
            rw [hmem, hempty]
            simp [eq_comm]
          · obtain ⟨hnodup, hmem⟩ := ih h
            refine ⟨hnodup, fun p => ?_⟩
            rw [hmem]
            constructor
            · rintro (hp | hp)
              · exact Or.inl hp
              · exact Or.inr (Or.inr hp)
            · rintro (hp | ⟨-, rfl⟩ | hp)
              · exact Or.inl hp
              · exact Or.inl hseen
              · exact Or.inr hp
          · obtain ⟨hnodup, hmem⟩ := ih h
            constructor
            · intro hitems
              exact hnodup (nodup_snoc hitems hseen)
            · intro p
              rw [hmem, List.mem_append, List.mem_singleton]
              constructor
              · rintro ((hp | rfl) | hp)
                · exact Or.inl hp
                · exact Or.inr (Or.inl ⟨hempty, rfl⟩)
                · exact Or.inr (Or.inr hp)
              · rintro (hp | ⟨-, rfl⟩ | hp)
                · exact Or.inl (Or.inl hp)
                · exact Or.inl (Or.inr rfl)
                · exact Or.inr hp

/-- The service's loop keeps every name but `all` once. -/
theorem collectProviderInputs_spec {values : List (Option String)} {normalized : List String} :
    (normalized.Nodup → (collectProviderInputs normalized values).Nodup) ∧
      ∀ p, p ∈ collectProviderInputs normalized values ↔
        p ∈ normalized ∨ (Named values p ∧ p ≠ "all") := by
  induction values generalizing normalized with
  | nil => exact ⟨id, by simp [collectProviderInputs, Named]⟩
  | cons raw? rest ih =>
      cases raw? with
      | none =>
          rw [collectProviderInputs]
          simp only [named_none]
          exact ih
      | some raw =>
          rw [collectProviderInputs]
          simp only [named_cons]
          split_ifs with hskip
          · obtain ⟨hnodup, hmem⟩ := @ih normalized
            refine ⟨hnodup, fun p => ?_⟩
            rw [hmem]
            constructor
            · rintro (hp | ⟨hp, hne⟩)
              · exact Or.inl hp
              · exact Or.inr ⟨Or.inr hp, hne⟩
            · rintro (hp | ⟨⟨hp, rfl⟩ | hp, hne⟩)
              · exact Or.inl hp
              · rcases hskip with hskip | hskip | hskip
                · exact absurd hskip hp
                · exact absurd hskip hne
                · exact Or.inl hskip
              · exact Or.inr ⟨hp, hne⟩
          · simp only [not_or] at hskip
            obtain ⟨hempty, hall, hseen⟩ := hskip
            obtain ⟨hnodup, hmem⟩ := @ih (normalized ++ [Text.normalize raw])
            constructor
            · intro hitems
              exact hnodup (nodup_snoc hitems hseen)
            · intro p
              rw [hmem, List.mem_append, List.mem_singleton]
              constructor
              · rintro ((hp | rfl) | ⟨hp, hne⟩)
                · exact Or.inl hp
                · exact Or.inr ⟨Or.inl ⟨hempty, rfl⟩, hall⟩
                · exact Or.inr ⟨Or.inr hp, hne⟩
              · rintro (hp | ⟨⟨-, rfl⟩ | hp, hne⟩)
                · exact Or.inl (Or.inl hp)
                · exact Or.inl (Or.inr rfl)
                · exact Or.inr ⟨hp, hne⟩

theorem named_values {f : ProviderField} {p : String} : Named f.values p ↔ p ∈ f.tokens :=
  mem_tokens.symm

theorem normalizeProviderTypeList_eq (f : ProviderField) :
    normalizeProviderTypeList f =
      (normalizeProviderTokens [] f.values).filter (· ≠ []) := by
  cases f with
  | omitted => rfl
  | text value =>
      rcases h : normalizeProviderTokens [] (ProviderField.text value).values with _ | _ | _ <;>
        simp [normalizeProviderTypeList, h, Option.filter_some]
  | list values =>
      rcases h : normalizeProviderTokens [] (ProviderField.list values).values with _ | _ | _ <;>
        simp [normalizeProviderTypeList, h, Option.filter_some]

/-- The schema leaves a field open exactly if it names nothing, or `all`. -/
theorem normalizeProviderTypeList_none {f : ProviderField} :
    normalizeProviderTypeList f = none ↔ f.tokens = [] ∨ "all" ∈ f.tokens := by
  rw [normalizeProviderTypeList_eq, Option.filter_eq_none_iff]
  rcases htokens : normalizeProviderTokens [] f.values with _ | l
  · have hall : "all" ∈ f.tokens :=
      named_values.mp (normalizeProviderTokens_none.mp htokens)
    exact iff_of_true (by simp) (Or.inr hall)
  · have hall : "all" ∉ f.tokens := by
      intro hmem
      rw [normalizeProviderTokens_none.mpr (named_values.mpr hmem)] at htokens
      cases htokens
    have hmem : ∀ p, p ∈ l ↔ p ∈ f.tokens := by
      intro p
      rw [(normalizeProviderTokens_some htokens).2, named_values, or_iff_right List.not_mem_nil]
    have hempty : l = [] ↔ f.tokens = [] := by
      simp only [List.eq_nil_iff_forall_not_mem, hmem]
    simp [hall, hempty]

/-- Otherwise it leaves the names, each of them once. -/
theorem normalizeProviderTypeList_some {f : ProviderField} {l : List String}
    (h : normalizeProviderTypeList f = some l) :
    f.Explicit ∧ l.Nodup ∧ ∀ p, p ∈ l ↔ p ∈ f.tokens := by
  have hexplicit : f.Explicit := by
    have hsome : ¬ (f.tokens = [] ∨ "all" ∈ f.tokens) := by
      rw [← normalizeProviderTypeList_none, h]
      simp
    exact not_or.mp hsome
  rw [normalizeProviderTypeList_eq, Option.filter_eq_some_iff] at h
  obtain ⟨hnodup, hmem⟩ := normalizeProviderTokens_some h.1
  refine ⟨hexplicit, hnodup List.nodup_nil, fun p => ?_⟩
  rw [hmem, named_values, or_iff_right List.not_mem_nil]

/-- **The two normalisers composed**: the service finds the names of the field,
unless `all` is one of them. -/
theorem mem_normalizeProviderInputList {f : ProviderField} {p : String} :
    p ∈ normalizeProviderInputList (.ofNormalized (normalizeProviderTypeList f)) ↔
      "all" ∉ f.tokens ∧ p ∈ f.tokens := by
  unfold normalizeProviderInputList
  rcases hf : normalizeProviderTypeList f with _ | l
  · have hnone := normalizeProviderTypeList_none.mp hf
    simp only [ProviderField.ofNormalized, ProviderField.values, collectProviderInputs,
      List.not_mem_nil, false_iff, not_and]
    intro hall hp
    rcases hnone with hnil | hmem
    · rw [hnil] at hp
      cases hp
    · exact hall hmem
  · obtain ⟨⟨-, hall⟩, -, hmem⟩ := normalizeProviderTypeList_some hf
    rw [collectProviderInputs_spec.2, or_iff_right List.not_mem_nil]
    simp only [Named, ProviderField.ofNormalized, ProviderField.values, List.mem_map,
      Option.some.injEq, exists_eq_right]
    constructor
    · rintro ⟨⟨-, raw, hraw, rfl⟩, -⟩
      have htoken := (hmem raw).mp hraw
      rw [normalize_token htoken]
      exact ⟨hall, htoken⟩
    · rintro ⟨-, hp⟩
      refine ⟨⟨(mem_tokens.mp hp).1, p, (hmem p).mpr hp, normalize_token hp⟩, ?_⟩
      rintro rfl
      exact hall hp

/-! ## The candidates -/

omit [Platform] in
theorem mem_catalogCandidates {p : String} : p ∈ catalogCandidates ↔ p ∈ allProviderTypes := by
  unfold catalogCandidates
  exact List.mem_insertionSort _

omit [Platform] in
theorem catalogCandidates_nodup : catalogCandidates.Nodup := by
  unfold catalogCandidates
  rw [(List.perm_insertionSort _ _).nodup_iff]
  decide

theorem normalizeProviderType_ok {quoted : String → String} {p q : String}
    (h : normalizeProviderType quoted p = .ok q) : q = Text.normalize p := by
  unfold normalizeProviderType at h
  simp only at h
  split at h
  · cases h
  · split at h
    · cases h
    · split at h
      · cases h
      · exact (Except.ok.inj h).symm

theorem normalizeProviderType_catalog (quoted : String → String) {p : String}
    (hp : p ∈ allProviderTypes) (hnormal : Text.normalize p = p) :
    normalizeProviderType quoted p = .ok p := by
  have hvalid : ∀ p ∈ allProviderTypes, p ≠ "" ∧ ¬ p.length > 64 ∧
      p.toList.all isProviderTypeChar = true := by
    decide
  obtain ⟨hne, hlength, hchars⟩ := hvalid p hp
  unfold normalizeProviderType
  simp only [hnormal]
  rw [if_neg hne, if_neg hlength, hchars]
  rfl

theorem namedCandidates_ok {quoted : String → String} {names candidates base : List String}
    (hnormal : ∀ p ∈ names, Text.normalize p = p)
    (h : namedCandidates quoted candidates names = .ok base) :
    (candidates.Nodup → base.Nodup) ∧ (∀ p ∈ names, p ∈ allProviderTypes) ∧
      ∀ p, p ∈ base ↔ p ∈ candidates ∨ p ∈ names := by
  induction names generalizing candidates with
  | nil =>
      cases h
      exact ⟨id, by simp, by simp⟩
  | cons raw rest ih =>
      rw [namedCandidates] at h
      have hrest : ∀ p ∈ rest, Text.normalize p = p :=
        fun p hp => hnormal p (List.mem_cons_of_mem _ hp)
      rcases htype : normalizeProviderType quoted raw with reason | q
      · rw [htype] at h
        cases h
      · have hq : q = raw := by
          rw [normalizeProviderType_ok htype, hnormal raw List.mem_cons_self]
        subst hq
        simp only [htype] at h
        split_ifs at h with hknown hseen
        · obtain ⟨hnodup, hall, hmem⟩ := ih hrest h
          refine ⟨hnodup, ?_, ?_⟩
          · intro p hp
            rcases List.mem_cons.mp hp with rfl | hp
            · exact hknown
            · exact hall p hp
          · intro p
            rw [hmem, List.mem_cons]
            constructor
            · exact Or.imp_right Or.inr
            · rintro (hp | rfl | hp)
              · exact Or.inl hp
              · exact Or.inl hseen
              · exact Or.inr hp
        · obtain ⟨hnodup, hall, hmem⟩ := ih hrest h
          refine ⟨fun hc => hnodup (nodup_snoc hc hseen), ?_, ?_⟩
          · intro p hp
            rcases List.mem_cons.mp hp with rfl | hp
            · exact hknown
            · exact hall p hp
          · intro p
            rw [hmem, List.mem_append, List.mem_singleton, List.mem_cons, or_assoc]

theorem namedCandidates_of_known (quoted : String → String) {names candidates : List String}
    (hnormal : ∀ p ∈ names, Text.normalize p = p)
    (hknown : ∀ p ∈ names, p ∈ allProviderTypes) :
    ∃ base, namedCandidates quoted candidates names = .ok base := by
  induction names generalizing candidates with
  | nil => exact ⟨candidates, rfl⟩
  | cons raw rest ih =>
      have hraw : raw ∈ raw :: rest := List.mem_cons_self
      rw [namedCandidates,
        normalizeProviderType_catalog quoted (hknown raw hraw) (hnormal raw hraw)]
      simp only [hknown raw hraw, not_true_eq_false, if_false]
      split_ifs
      · exact ih (fun p hp => hnormal p (List.mem_cons_of_mem _ hp))
          fun p hp => hknown p (List.mem_cons_of_mem _ hp)
      · exact ih (fun p hp => hnormal p (List.mem_cons_of_mem _ hp))
          fun p hp => hknown p (List.mem_cons_of_mem _ hp)

theorem baseCandidates_ok {quoted : String → String} {f : ProviderField} {base : List String}
    (h : baseCandidates quoted (.ofNormalized (normalizeProviderTypeList f)) = .ok base) :
    base.Nodup ∧ (f.Explicit → ∀ p ∈ f.tokens, p ∈ allProviderTypes) ∧
      ∀ p, p ∈ base ↔ f.Requests p := by
  unfold baseCandidates at h
  rcases hf : normalizeProviderTypeList f with _ | l
  · have hopen := normalizeProviderTypeList_none.mp hf
    have hleft : ProviderField.ofNormalized none = .omitted := rfl
    rw [hf, if_pos (Or.inl hleft)] at h
    cases h
    refine ⟨catalogCandidates_nodup, fun hexplicit => absurd hopen (not_or.mpr hexplicit), ?_⟩
    intro p
    unfold ProviderField.Requests
    rw [if_pos hopen, mem_catalogCandidates]
  · obtain ⟨hexplicit, -, -⟩ := normalizeProviderTypeList_some hf
    have hmem : ∀ p, p ∈ normalizeProviderInputList
        (.ofNormalized (normalizeProviderTypeList f)) ↔ p ∈ f.tokens := by
      intro p
      rw [mem_normalizeProviderInputList, and_iff_right hexplicit.2]
    rw [if_neg] at h
    · obtain ⟨hnodup, hknown, hbase⟩ :=
        namedCandidates_ok (fun p hp => normalize_token ((hmem p).mp hp)) h
      refine ⟨hnodup List.nodup_nil, fun _ p hp => hknown p ((hmem p).mpr hp), ?_⟩
      intro p
      unfold ProviderField.Requests
      rw [if_neg (not_or.mpr hexplicit), hbase, or_iff_right List.not_mem_nil, hmem]
    · rw [hf] at hmem ⊢
      obtain ⟨p, hp⟩ := List.exists_mem_of_ne_nil _ hexplicit.1
      have hp' := (hmem p).mpr hp
      have hl : l ≠ [] := by
        rintro rfl
        cases hp'
      rintro (h | h | h)
      · cases h
      · simp [ProviderField.ofNormalized, hl] at h
      · rw [h] at hp'
        cases hp'

theorem baseCandidates_of_known (quoted : String → String) {f : ProviderField}
    (hknown : f.Explicit → ∀ p ∈ f.tokens, p ∈ allProviderTypes) :
    ∃ base, baseCandidates quoted (.ofNormalized (normalizeProviderTypeList f)) =
      .ok base := by
  unfold baseCandidates
  split
  · exact ⟨_, rfl⟩
  · rename_i hopen
    have hexplicit : f.Explicit := by
      rcases hf : normalizeProviderTypeList f with _ | l
      · rw [hf] at hopen
        exact absurd (Or.inl rfl) hopen
      · exact (normalizeProviderTypeList_some hf).1
    apply namedCandidates_of_known
    · intro p hp
      exact normalize_token (mem_normalizeProviderInputList.mp hp).2
    · intro p hp
      exact hknown hexplicit p (mem_normalizeProviderInputList.mp hp).2

theorem baseCandidates_error {quoted : String → String} {f : ProviderField} {e : LeaseError}
    (h : baseCandidates quoted f = .error e) : ∃ message, e = .providerUnsupported message := by
  have hnamed : ∀ names candidates, namedCandidates quoted candidates names = .error e →
      ∃ message, e = .providerUnsupported message := by
    intro names
    induction names with
    | nil =>
        intro candidates h
        cases h
    | cons raw rest ih =>
        intro candidates h
        rw [namedCandidates] at h
        split at h
        · exact ⟨_, (Except.error.inj h).symm⟩
        · split at h
          · exact ⟨_, (Except.error.inj h).symm⟩
          · split at h
            · exact ih _ h
            · exact ih _ h
  unfold baseCandidates at h
  split at h
  · cases h
  · exact hnamed _ _ h

omit [Platform] in
theorem mayAcquire_iff {principal : ClientPrincipal} {p : String}
    {definition : ProviderTypeDefinition}
    (h : providerDefinitions.find? (·.providerType = p) = some definition) :
    principal.MayAcquire p ↔ definition.lacksScope principal = false := by
  have hunique : ∀ d ∈ providerDefinitions, ∀ d' ∈ providerDefinitions,
      d.providerType = d'.providerType → d = d' := by
    decide
  have hmem := List.mem_of_find?_eq_some h
  have htype : definition.providerType = p := by simpa using List.find?_some h
  constructor
  · intro hmay
    exact hmay definition hmem htype
  · intro hscope d hd hdp
    rw [hunique d hd definition hmem (hdp.trans htype.symm)]
    exact hscope

omit [Platform] in
theorem exists_definition {p : String} (hp : p ∈ allProviderTypes) :
    ∃ definition, providerDefinitions.find? (·.providerType = p) = some definition := by
  rw [← Option.isSome_iff_exists, List.find?_isSome]
  obtain ⟨d, hd, rfl⟩ := List.mem_map.mp hp
  exact ⟨d, hd, by simp⟩

omit [Platform] in
/-- **Authorization loop**: it keeps the types the key may acquire, or stops at
one it may not. -/
theorem authorizedCandidates_spec (principal : ClientPrincipal) (hard : Bool)
    {types authorized : List String} (hknown : ∀ p ∈ types, p ∈ allProviderTypes)
    (hnodup : (authorized ++ types).Nodup) :
    match authorizedCandidates principal hard authorized types with
    | .ok l => l.Nodup ∧ (hard = true → ∀ p ∈ types, principal.MayAcquire p) ∧
        ∀ p, p ∈ l ↔ p ∈ authorized ∨ (p ∈ types ∧ principal.MayAcquire p)
    | .error e => hard = true ∧ ∃ p ∈ types, ¬ principal.MayAcquire p ∧
        e = .clientKeyScope ("Client Key 缺少权限：" ++ providerAcquireScope p) := by
  induction types generalizing authorized with
  | nil =>
      rw [authorizedCandidates]
      exact ⟨by simpa using hnodup, by simp, by simp⟩
  | cons p rest ih =>
      obtain ⟨definition, hfind⟩ := exists_definition (hknown p List.mem_cons_self)
      have hrest : ∀ q ∈ rest, q ∈ allProviderTypes :=
        fun q hq => hknown q (List.mem_cons_of_mem _ hq)
      have hmay : principal.MayAcquire p ↔ _ := mayAcquire_iff hfind
      rw [authorizedCandidates, hfind]
      simp only
      cases hscope : definition.lacksScope principal with
      | true =>
          have hnot : ¬ principal.MayAcquire p := by
            rw [hmay, hscope]
            simp
          cases hard with
          | true =>
              rw [if_pos rfl, if_pos rfl]
              -- a type that was named is refused
              exact ⟨rfl, p, List.mem_cons_self, hnot, rfl⟩
          | false =>
              rw [if_pos rfl, if_neg Bool.false_ne_true]
              -- a type that was not named is left out
              have hnodup' : (authorized ++ rest).Nodup :=
                hnodup.sublist (List.Sublist.append_left (List.sublist_cons_self p rest) _)
              have hgo := ih hrest hnodup'
              split at hgo
              · obtain ⟨hl, -, hmem⟩ := hgo
                refine ⟨hl, by simp, fun q => ?_⟩
                rw [hmem, List.mem_cons]
                constructor
                · rintro (hq | ⟨hq, hmayq⟩)
                  · exact Or.inl hq
                  · exact Or.inr ⟨Or.inr hq, hmayq⟩
                · rintro (hq | ⟨rfl | hq, hmayq⟩)
                  · exact Or.inl hq
                  · exact absurd hmayq hnot
                  · exact Or.inr ⟨hq, hmayq⟩
              · exact absurd hgo.1 Bool.false_ne_true
      | false =>
          have hyes : principal.MayAcquire p := hmay.mpr hscope
          rw [if_neg Bool.false_ne_true]
          have hnodup' : ((authorized ++ [p]) ++ rest).Nodup := by
            rwa [List.append_assoc]
          have hgo := ih hrest hnodup'
          split at hgo
          · obtain ⟨hl, hall, hmem⟩ := hgo
            refine ⟨hl, ?_, fun q => ?_⟩
            · intro hhard q hq
              rcases List.mem_cons.mp hq with rfl | hq
              · exact hyes
              · exact hall hhard q hq
            · rw [hmem, List.mem_append, List.mem_singleton, List.mem_cons]
              constructor
              · rintro ((hq | rfl) | ⟨hq, hmayq⟩)
                · exact Or.inl hq
                · exact Or.inr ⟨Or.inl rfl, hyes⟩
                · exact Or.inr ⟨Or.inr hq, hmayq⟩
              · rintro (hq | ⟨rfl | hq, hmayq⟩)
                · exact Or.inl (Or.inl hq)
                · exact Or.inl (Or.inr rfl)
                · exact Or.inr ⟨hq, hmayq⟩
          · obtain ⟨hhard, q, hq, hnot, he⟩ := hgo
            exact ⟨hhard, q, List.mem_cons_of_mem _ hq, hnot, he⟩

end

end MailboxService
