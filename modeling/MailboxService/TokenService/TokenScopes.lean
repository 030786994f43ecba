import MailboxService.TokenService.TokenRuns
import MailboxService.Foundation.Base64
import MailboxService.Foundation.Delimited
import MailboxService.Foundation.JsonReader
import MailboxService.Foundation.Utf8

/-!
# The scopes of an access token

`access_token_scopes.py`: the scopes that the payload of a JWT claims, read
without a look at its signature. A mailbox without a stored scope is served
from the cache by the scopes of its token, and the scope of an exchange that
answered none is theirs.

The scopes are exactly those of the tokens that carry an object of claims, and
a cached token is one for Graph exactly if one of its own scopes says so
(`accessTokenScopes_exact`).
-/

namespace MailboxService

open Foundation

section

variable [PythonText] [Json.Surrogates] (floatRepr : List Char → String)

/-! ## Reading a token -/

/-- `s.split()`. -/
def Text.words (s : String) : List String :=
  ((s.toList.splitOnP PythonText.isSpace).filter (· ≠ [])).map .ofList

omit [PythonText] in
def decodeJwtPayload (accessToken : String) : Option JsonObject :=
  let payloadSegment := (accessToken.toList.dropWhile (· ≠ '.')).tail.takeWhile (· ≠ '.')
  let padding := Base64.padding payloadSegment.length
  (Base64.decode (payloadSegment ++ padding)).bind fun payloadBytes =>
    (Utf8.decode? payloadBytes).bind fun text =>
      (Json.loads floatRepr text).bind Json.dict?

/-- `role_value.strip()` of a role that is a text. -/
def roleScope : Json → Option String
  | .str role => if Text.strip role = "" then none else some (Text.strip role)
  | _ => none

/-- `ordered_scopes`: the words of `scp`, and the roles. -/
def claimedScopes (payload : JsonObject) : List String :=
  (match payload.get "scp" with
    | .str scp => Text.words scp
    | _ => []) ++
    match payload.get "roles" with
    | .arr roles => roles.filterMap roleScope
    | _ => []

omit [PythonText] in
/-- `list(dict.fromkeys(ordered_scopes))`. -/
def uniqueScopes (scopes : List String) : List String :=
  ((∅ : OrderedDict String Unit).update (scopes.map fun scope => (scope, ()))).items.map Prod.fst

omit [PythonText] in
/-- `" ".join(scopes)`. -/
def joinScopes (scopes : List String) : String :=
  .ofList ([' '].intercalate (scopes.map String.toList))

/-- `extract_oauth_scopes_from_access_token`. -/
def extractOAuthScopes (accessToken : String) : Option String :=
  if accessToken.toList.count '.' < 2 then none
  else
    match decodeJwtPayload floatRepr accessToken with
    | none => none
    | some payload =>
        let unique := uniqueScopes (claimedScopes payload)
        if unique = [] then none else some (joinScopes unique)

/-! ## What a token carries -/

omit [PythonText] in
/-- A token with two dots, whose second part is an object of claims in Base64. -/
def Carries (accessToken : String) (claims : JsonObject) : Prop :=
  ∃ header payload rest text, accessToken.toList = header ++ '.' :: (payload ++ '.' :: rest) ∧
    '.' ∉ header ∧ '.' ∉ payload ∧
    Base64.decode (payload ++ Base64.padding payload.length) = some (Utf8.encode text) ∧
    Json.IsText floatRepr text (.obj claims)

variable {floatRepr}

omit [PythonText] [Json.Surrogates] in
theorem takeWhile_dot {payload : List Char} (h : '.' ∉ payload) (rest : List Char) :
    (payload ++ '.' :: rest).takeWhile (· ≠ '.') = payload ∧
      (payload ++ '.' :: rest).dropWhile (· ≠ '.') = '.' :: rest := by
  have hall : ∀ c ∈ payload, decide (c ≠ '.') = true := by
    intro c hc
    refine decide_eq_true ?_
    rintro rfl
    exact h hc
  rw [List.takeWhile_append_of_pos hall, List.dropWhile_append_of_pos hall]
  exact ⟨List.append_nil payload, rfl⟩

omit [PythonText] [Json.Surrogates] in
theorem exists_segments {l : List Char} (h : 2 ≤ l.count '.') :
    ∃ header payload rest, l = header ++ '.' :: (payload ++ '.' :: rest) ∧
      '.' ∉ header ∧ '.' ∉ payload := by
  obtain ⟨header, tail, rfl, hheader⟩ :=
    List.eq_append_cons_of_mem (List.count_pos_iff.mp (by omega : 0 < l.count '.'))
  rw [List.count_append, List.count_eq_zero_of_not_mem hheader, List.count_cons_self] at h
  obtain ⟨payload, rest, rfl, hpayload⟩ :=
    List.eq_append_cons_of_mem (List.count_pos_iff.mp (by omega : 0 < tail.count '.'))
  exact ⟨header, payload, rest, rfl, hheader, hpayload⟩

omit [PythonText] [Json.Surrogates] in
theorem dict?_eq_some {value : Json} {claims : JsonObject} :
    value.dict? = some claims ↔ value = .obj claims := by
  cases value with
  | obj fields =>
      show some fields = some claims ↔ _
      rw [Option.some.injEq, Json.obj.injEq]
  | null | bool _ | int _ | float _ | str _ | arr _ =>
      exact ⟨nofun, nofun⟩

omit [PythonText] in
theorem decodeJwtPayload_eq_some {accessToken : String} {claims : JsonObject} :
    ¬ accessToken.toList.count '.' < 2 ∧ decodeJwtPayload floatRepr accessToken = some claims ↔
      Carries floatRepr accessToken claims := by
  constructor
  · rintro ⟨hdots, hdecode⟩
    obtain ⟨header, payload, rest, htoken, hheader, hpayload⟩ :=
      exists_segments (Nat.not_lt.mp hdots)
    unfold decodeJwtPayload at hdecode
    rw [htoken, (takeWhile_dot hheader _).2, List.tail_cons,
      (takeWhile_dot hpayload _).1] at hdecode
    obtain ⟨bytes, hbytes, hdecode⟩ := Option.bind_eq_some_iff.mp hdecode
    obtain ⟨text, htext, hdecode⟩ := Option.bind_eq_some_iff.mp hdecode
    obtain ⟨value, hvalue, hclaims⟩ := Option.bind_eq_some_iff.mp hdecode
    obtain rfl := dict?_eq_some.mp hclaims
    refine ⟨header, payload, rest, text, htoken, hheader, hpayload, ?_,
      Json.loads_eq_some.mp hvalue⟩
    rw [hbytes, Utf8.decode?_eq_some.mp htext]
  · rintro ⟨header, payload, rest, text, htoken, hheader, hpayload, hbytes, htext⟩
    constructor
    · rw [htoken]
      simp only [List.count_append, List.count_cons_self]
      omega
    · unfold decodeJwtPayload
      rw [htoken, (takeWhile_dot hheader _).2, List.tail_cons, (takeWhile_dot hpayload _).1]
      simp only
      rw [hbytes, Option.bind_some, Utf8.decode?_eq_some.mpr rfl, Option.bind_some,
        Json.loads_eq_some.mpr htext]
      rfl

omit [PythonText] in
theorem Carries.unique {accessToken : String} {claims claims' : JsonObject}
    (h : Carries floatRepr accessToken claims) (h' : Carries floatRepr accessToken claims') :
    claims = claims' :=
  Option.some.inj ((decodeJwtPayload_eq_some.mpr h).2.symm.trans
    (decodeJwtPayload_eq_some.mpr h').2)

omit [PythonText] [Json.Surrogates] in
theorem mem_uniqueScopes {scope : String} {scopes : List String} :
    scope ∈ uniqueScopes scopes ↔ scope ∈ scopes := by
  have hkeys : (scopes.map fun scope => (scope, ())).map Prod.fst = scopes := by
    rw [List.map_map]
    exact List.map_id scopes
  unfold uniqueScopes
  rw [OrderedDict.mem_keys_update, hkeys]
  exact or_iff_left List.not_mem_nil

omit [PythonText] [Json.Surrogates] in
theorem uniqueScopes_eq_nil {scopes : List String} : uniqueScopes scopes = [] ↔ scopes = [] := by
  rw [List.eq_nil_iff_forall_not_mem, List.eq_nil_iff_forall_not_mem]
  exact forall_congr' fun scope => not_congr mem_uniqueScopes

omit [Json.Surrogates] in
theorem ne_empty_of_mem_claimedScopes {payload : JsonObject} {scope : String}
    (h : scope ∈ claimedScopes payload) : scope ≠ "" := by
  rcases List.mem_append.mp h with h | h
  · split at h
    · obtain ⟨word, hword, rfl⟩ := List.mem_map.mp h
      intro hempty
      rw [String.ofList_eq_empty_iff] at hempty
      rw [hempty] at hword
      exact of_decide_eq_true (List.mem_filter.mp hword).2 rfl
    · cases h
  · split at h
    · obtain ⟨role, -, hrole⟩ := List.mem_filterMap.mp h
      unfold roleScope at hrole
      split at hrole
      · split at hrole
        · cases hrole
        · rename_i hne
          rw [← Option.some.inj hrole]
          exact hne
      · cases hrole
    · cases h

omit [PythonText] [Json.Surrogates] in
theorem joinScopes_ne_empty {scopes : List String} (h : scopes ≠ [])
    (hne : ∀ scope ∈ scopes, scope ≠ "") : joinScopes scopes ≠ "" := by
  obtain ⟨scope, rest, rfl⟩ := List.exists_cons_of_ne_nil h
  have hscope : scope.toList ≠ [] := by
    rw [Ne, String.toList_eq_nil_iff]
    exact hne scope List.mem_cons_self
  unfold joinScopes
  rw [Ne, String.ofList_eq_empty_iff]
  cases rest with
  | nil =>
      rw [List.map_singleton, List.intercalate_singleton]
      exact hscope
  | cons next rest =>
      rw [List.map_cons, List.map_cons, List.intercalate_cons_cons, List.append_assoc]
      exact List.append_ne_nil_of_left_ne_nil hscope _

theorem Carries.extract {accessToken : String} {claims : JsonObject}
    (h : Carries floatRepr accessToken claims) :
    extractOAuthScopes floatRepr accessToken =
      if claimedScopes claims = [] then none
      else some (joinScopes (uniqueScopes (claimedScopes claims))) := by
  obtain ⟨hdots, hdecode⟩ := decodeJwtPayload_eq_some.mpr h
  unfold extractOAuthScopes
  rw [if_neg hdots, hdecode]
  simp only [uniqueScopes_eq_nil]

theorem extract_of_not_carries {accessToken : String}
    (h : ∀ claims, ¬ Carries floatRepr accessToken claims) :
    extractOAuthScopes floatRepr accessToken = none := by
  unfold extractOAuthScopes
  split
  · rfl
  · rename_i hdots
    cases hdecode : decodeJwtPayload floatRepr accessToken with
    | none => rfl
    | some claims => exact absurd (decodeJwtPayload_eq_some.mp ⟨hdots, hdecode⟩) (h claims)

theorem extractOAuthScopes_eq_some {accessToken scope : String} :
    extractOAuthScopes floatRepr accessToken = some scope ↔
      ∃ claims, Carries floatRepr accessToken claims ∧ claimedScopes claims ≠ [] ∧
        scope = joinScopes (uniqueScopes (claimedScopes claims)) := by
  constructor
  · intro h
    by_cases hcarries : ∃ claims, Carries floatRepr accessToken claims
    · obtain ⟨claims, hclaims⟩ := hcarries
      rw [hclaims.extract] at h
      split at h
      · cases h
      · rename_i hscopes
        exact ⟨claims, hclaims, hscopes, (Option.some.inj h).symm⟩
    · rw [extract_of_not_carries (not_exists.mp hcarries)] at h
      cases h
  · rintro ⟨claims, hclaims, hscopes, rfl⟩
    rw [hclaims.extract, if_neg hscopes]

omit [PythonText] in
theorem carries_issued {header text : List Char} {claims : JsonObject} (hheader : '.' ∉ header)
    (htext : Json.IsText floatRepr text (.obj claims)) (signature : List Char) :
    Carries floatRepr (.ofList (header ++ '.' ::
      (Base64.encodeUnpadded (Utf8.encode text) ++ '.' :: signature))) claims :=
  ⟨header, _, signature, text, String.toList_ofList, hheader,
    Base64.dot_not_mem_encodeUnpadded _, Base64.decode_repadded _, htext⟩

/-! ## Audiences -/

omit [PythonText] [Json.Surrogates] in
theorem flatMap_intercalate {fold : Char → List Char} (hspace : fold ' ' = [' '])
    (parts : List (List Char)) :
    ([' '].intercalate parts).flatMap fold =
      [' '].intercalate (parts.map fun part => part.flatMap fold) := by
  induction parts with
  | nil => rfl
  | cons part parts ih =>
      cases parts with
      | nil =>
          rw [List.map_singleton, List.intercalate_singleton, List.intercalate_singleton]
      | cons next parts =>
          rw [List.map_cons] at ih
          rw [List.intercalate_cons_cons, List.map_cons, List.map_cons,
            List.intercalate_cons_cons, List.flatMap_append, List.flatMap_append, ih,
            List.flatMap_singleton, hspace]

/-- One of the scopes that the token carries has one of the markers. -/
def TokenSettings.Names (settings : TokenSettings) (floatRepr : List Char → String)
    (markers : List String) (accessToken : String) : Prop :=
  ∃ claims, Carries floatRepr accessToken claims ∧
    ∃ scope ∈ claimedScopes claims, ∃ marker ∈ markers,
      marker.toList <:+: (settings.casefold scope).toList

variable {settings : TokenSettings} {fold : Char → List Char}

omit [PythonText] [Json.Surrogates] in
theorem casefold_joinScopes (hfold : ∀ s, settings.casefold s = .ofList (s.toList.flatMap fold))
    (hspace : fold ' ' = [' ']) (scopes : List String) :
    (settings.casefold (joinScopes scopes)).toList =
      [' '].intercalate (scopes.map fun scope => (settings.casefold scope).toList) := by
  unfold joinScopes
  rw [hfold, String.toList_ofList, String.toList_ofList, flatMap_intercalate hspace,
    List.map_map]
  refine congrArg _ (List.map_congr_left fun scope _ => ?_)
  rw [hfold, String.toList_ofList]
  rfl

theorem hints_extractOAuthScopes
    (hfold : ∀ s, settings.casefold s = .ofList (s.toList.flatMap fold))
    (hspace : fold ' ' = [' ']) {markers : List String}
    (hmarkers : ∀ marker ∈ markers, marker.toList ≠ [] ∧ ' ' ∉ marker.toList)
    (accessToken : String) :
    settings.hints markers (extractOAuthScopes floatRepr accessToken) = true ↔
      settings.Names floatRepr markers accessToken := by
  have hhints : ∀ scope, settings.hints markers scope = true ↔
      ∃ marker ∈ markers, marker.toList <:+: (settings.casefold (scope.getD "")).toList := by
    intro scope
    simp only [TokenSettings.hints, List.any_eq_true, decide_eq_true_eq]
  have hempty : (settings.casefold "").toList = [] := by
    rw [hfold, String.toList_ofList]
    rfl
  have hnothing : ¬ settings.hints markers none = true := by
    rw [hhints]
    rintro ⟨marker, hmarker, hpart⟩
    rw [Option.getD_none, hempty] at hpart
    exact (hmarkers marker hmarker).1 (List.eq_nil_of_infix_nil hpart)
  by_cases hcarries : ∃ claims, Carries floatRepr accessToken claims
  · obtain ⟨claims, hclaims⟩ := hcarries
    have hnames : settings.Names floatRepr markers accessToken ↔
        ∃ scope ∈ claimedScopes claims, ∃ marker ∈ markers,
          marker.toList <:+: (settings.casefold scope).toList := by
      constructor
      · rintro ⟨claims', hclaims', h⟩
        rw [hclaims.unique hclaims']
        exact h
      · exact fun h => ⟨claims, hclaims, h⟩
    rw [hnames, hclaims.extract]
    split
    · rename_i hscopes
      rw [hscopes]
      exact iff_of_false hnothing (by rintro ⟨scope, hscope, -⟩; cases hscope)
    · -- the scopes are joined by blanks, so a marker occurs in one of them
      rw [hhints, Option.getD_some, casefold_joinScopes hfold hspace]
      constructor
      · rintro ⟨marker, hmarker, hpart⟩
        obtain ⟨hne, hfree⟩ := hmarkers marker hmarker
        obtain ⟨part, hmem, hpart⟩ := (Delimited.infix_intercalate hfree hne _).mp hpart
        obtain ⟨scope, hscope, rfl⟩ := List.mem_map.mp hmem
        exact ⟨scope, mem_uniqueScopes.mp hscope, marker, hmarker, hpart⟩
      · rintro ⟨scope, hscope, marker, hmarker, hpart⟩
        obtain ⟨hne, hfree⟩ := hmarkers marker hmarker
        refine ⟨marker, hmarker, (Delimited.infix_intercalate hfree hne _).mpr ?_⟩
        exact ⟨_, List.mem_map_of_mem (mem_uniqueScopes.mpr hscope), hpart⟩
  · rw [extract_of_not_carries (not_exists.mp hcarries)]
    refine iff_of_false hnothing ?_
    rintro ⟨claims, hclaims, -⟩
    exact hcarries ⟨claims, hclaims⟩

omit [PythonText] [Json.Surrogates] in
theorem graphAudienceMarkers_plain :
    ∀ marker ∈ graphAudienceMarkers, marker.toList ≠ [] ∧ ' ' ∉ marker.toList := by
  decide

omit [PythonText] [Json.Surrogates] in
theorem outlookAudienceMarkers_plain :
    ∀ marker ∈ outlookAudienceMarkers, marker.toList ≠ [] ∧ ' ' ∉ marker.toList := by
  decide

/-- **Scopes of access tokens.** They are those of the claims of the tokens that carry some;
every issued token carries its own, whatever else it claims; and while a mailbox has no
stored scope, a usable cached token is handed out for a channel exactly if its own scopes
are for it. -/
theorem accessTokenScopes_exact
    (hfold : ∀ s, settings.casefold s = .ofList (s.toList.flatMap fold))
    (hspace : fold ' ' = [' '])
    (hextract : settings.extractScopes = extractOAuthScopes floatRepr) :
    (∀ accessToken scope, settings.extractScopes accessToken = some scope ↔
      ∃ claims, Carries floatRepr accessToken claims ∧ claimedScopes claims ≠ [] ∧
        scope = joinScopes (uniqueScopes (claimedScopes claims))) ∧
    (∀ accessToken, settings.extractScopes accessToken ≠ some "") ∧
    (∀ header text signature claims, '.' ∉ header → Json.IsText floatRepr text (.obj claims) →
      Carries floatRepr (.ofList (header ++ '.' ::
        (Base64.encodeUnpadded (Utf8.encode text) ++ '.' :: signature))) claims) ∧
    ∀ now m accessToken, settings.hasUsableCachedAccessToken now m = true →
      missing m.scope = true →
      settings.decrypt (m.accessTokenCiphertext.getD "") = .ok accessToken →
      (settings.cachedAccessToken now (some .graph) m = .ok (some accessToken) ↔
        settings.Names floatRepr graphAudienceMarkers accessToken) ∧
      (settings.cachedAccessToken now (some .imap) m = .ok (some accessToken) ↔
        (settings.Names floatRepr graphAudienceMarkers accessToken →
          settings.Names floatRepr outlookAudienceMarkers accessToken)) := by
  refine ⟨?_, ?_, ?_, ?_⟩
  · intro accessToken scope
    rw [hextract]
    exact extractOAuthScopes_eq_some
  · intro accessToken h
    rw [hextract] at h
    obtain ⟨claims, -, hscopes, hempty⟩ := extractOAuthScopes_eq_some.mp h
    refine joinScopes_ne_empty (mt uniqueScopes_eq_nil.mp hscopes) ?_ hempty.symm
    exact fun scope hscope => ne_empty_of_mem_claimedScopes (mem_uniqueScopes.mp hscope)
  · intro header text signature claims hheader htext
    exact carries_issued hheader htext signature
  · intro now m accessToken husable hscope htoken
    have hgraph : settings.hints graphAudienceMarkers
          (extractOAuthScopes floatRepr accessToken) = true ↔
        settings.Names floatRepr graphAudienceMarkers accessToken :=
      hints_extractOAuthScopes hfold hspace graphAudienceMarkers_plain accessToken
    have houtlook : settings.hints outlookAudienceMarkers
          (extractOAuthScopes floatRepr accessToken) = true ↔
        settings.Names floatRepr outlookAudienceMarkers accessToken :=
      hints_extractOAuthScopes hfold hspace outlookAudienceMarkers_plain accessToken
    have hcached : ∀ channel,
        settings.cachedAccessToken now (some channel) m = .ok (some accessToken) ↔
          settings.matchesChannel (extractOAuthScopes floatRepr accessToken) channel = true := by
      intro channel
      unfold TokenSettings.cachedAccessToken
      rw [if_pos husable, htoken, ← hextract]
      simp only [Except.map, orElseMissing, hscope, if_true, Option.all_some]
      split
      · rename_i hmatches
        exact iff_of_true rfl hmatches
      · rename_i hmatches
        exact iff_of_false nofun hmatches
    rw [hcached, hcached]
    constructor
    · exact hgraph
    · simp only [TokenSettings.matchesChannel, Bool.or_eq_true, Bool.not_eq_true', houtlook]
      rw [← hgraph]
      cases settings.hints graphAudienceMarkers (extractOAuthScopes floatRepr accessToken) with
      | false => simp
      | true => simp

end

section Sample

attribute [local instance] asciiPlatform

/-- Half of a surrogate pair is shown as the replacement character. -/
@[reducible] def replacementHalves : Json.Surrogates where
  half _ := '\uFFFD'

attribute [local instance] replacementHalves

/-- A numeral stands for itself. -/
def scopeSettings : TokenSettings :=
  { sampleTokenSettings with extractScopes := extractOAuthScopes String.ofList }

def sampleClaims : JsonObject := [("scp", .str "openid https://graph.microsoft.com/Mail.Read")]

def claimsText : List Char := Json.dumps (.obj sampleClaims)

theorem isText_claimsText : Json.IsText String.ofList claimsText (.obj sampleClaims) := by
  refine Json.loads_eq_some.mp (Json.loads_dumps (.obj (List.nodup_singleton _) ?_))
  intro field hfield
  rw [List.mem_singleton.mp hfield]
  exact .str _

def issuedToken : String :=
  .ofList (['h'] ++ '.' :: (Base64.encodeUnpadded (Utf8.encode claimsText) ++ '.' :: ['s']))

def issuedMailbox : Mailbox where
  id := "mailbox"
  primaryEmail := "a@x.org"
  accessTokenCiphertext := some (scopeSettings.encrypt 64 issuedToken)
  accessTokenExpiresAt := some 3600000000
  accessTokenSourceVersion := some 1

theorem accessTokenScopes_exact_sample :
    scopeSettings.cachedAccessToken 0 (some .graph) issuedMailbox = .ok (some issuedToken) := by
  obtain ⟨-, -, hissued, hcached⟩ := @accessTokenScopes_exact _ _ String.ofList scopeSettings
    (fun c => [c]) (fun s => by rw [List.flatMap_singleton', String.ofList_toList]; rfl) rfl rfl
  have hcarries := hissued ['h'] claimsText ['s'] _ (by decide) isText_claimsText
  have hdecrypt : scopeSettings.decrypt (issuedMailbox.accessTokenCiphertext.getD "") =
      .ok issuedToken := by
    show Except.ok (String.ofList ((String.ofList (Char.ofNat 64 :: issuedToken.toList)).toList.drop
      1)) = _
    rw [String.toList_ofList, List.drop_one, List.tail_cons, String.ofList_toList]
  have hstored : missing issuedMailbox.accessTokenCiphertext = false := by
    show decide (String.ofList (Char.ofNat 64 :: issuedToken.toList) = "") = false
    rw [decide_eq_false_iff_not, String.ofList_eq_empty_iff]
    exact List.cons_ne_nil _ _
  have husable : scopeSettings.hasUsableCachedAccessToken 0 issuedMailbox = true := by
    unfold TokenSettings.hasUsableCachedAccessToken
    rw [hstored]
    decide +kernel
  refine ((hcached 0 issuedMailbox issuedToken husable rfl hdecrypt).1).mpr ?_
  have hscopes : claimedScopes sampleClaims =
      ["openid", "https://graph.microsoft.com/Mail.Read"] := by
    decide +kernel
  refine ⟨_, hcarries, "https://graph.microsoft.com/Mail.Read", ?_, "graph.microsoft.com", ?_,
    "https://".toList, "/Mail.Read".toList, ?_⟩
  · rw [hscopes]
    decide
  · decide
  · decide +kernel

end Sample

end MailboxService
