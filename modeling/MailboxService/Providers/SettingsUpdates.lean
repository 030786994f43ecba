import MailboxService.Ascii
import MailboxService.Foundation.Checks
import MailboxService.Providers.ProviderSettings

/-!
# What an update of settings touches

An update decrypts the whole bag of secrets, edits it and writes it back. What it
cannot decrypt it takes for empty: then the secrets that the call does not name are
lost. Its values are read back as they were supplied, but for two fields with
columns of their own.
-/

namespace MailboxService

open Foundation

section

variable [PythonText] [PythonValues] {Key : Type} [SealedText Key]

open Text

/-! ## What a call names -/

namespace SettingsUpdate

def Names (update : SettingsUpdate) (name : String) : Prop :=
  update.secrets.lookup name ≠ none ∨ name ∈ update.clearSecrets

omit [PythonValues] in
def Sets (update : SettingsUpdate) (name text : String) : Prop :=
  ∃ plaintext, update.secrets.lookup name = some plaintext ∧ strip plaintext = text ∧ text ≠ ""

end SettingsUpdate

def storedSecret (key : Key) (form : ProviderForm) (row : ProviderInstanceSettings)
    (name : String) : Option String :=
  (decryptSecrets (some key) form (some row)).lookup name

def bagSecret (key : Key) (row : ProviderInstanceSettings) (name : String) : Option String :=
  (bagSecrets (secretBag (some key) row)).reverse.lookup name

/-- **An update touches only what it names**: the other secrets are still stored, under
the keys they were stored under, and the values of the other fields are the same. A
secret that is set is resolved to its new text, one that is cleared is gone under every
key, and a value that is supplied is read back as it is normalized. -/
structure TouchesOnlyNamed (key? : Option Key) (form : ProviderForm)
    (row row' : ProviderInstanceSettings) (update : SettingsUpdate) : Prop where
  kept : ∀ (key : Key) name text, ¬ update.Names name →
    storedSecret key form row name = some text → storedSecret key form row' name = some text
  set : ∀ name text, update.Sets name text →
    (resolveOnDemandRuntime key? form row'.instanceId (some row')).secrets.lookup name = some text
  cleared : ∀ (key : Key) name, name ∈ update.clearSecrets → (∀ text, ¬ update.Sets name text) →
    storedSecret key form row' name = none
  supplied : ∀ field ∈ form.fields, field.secret = false → ∀ value,
    update.values.lookup field.key = some value →
      ∃ normalized, normalizeFieldValue field.fieldType value = .ok normalized ∧
        (resolveOnDemandRuntime key? form row'.instanceId (some row')).values.lookup field.key =
          some normalized
  others : ∀ field ∈ form.fields, field.secret = false →
    update.values.lookup field.key = none →
      (resolveOnDemandRuntime key? form row'.instanceId (some row')).values.lookup field.key =
        (resolveOnDemandRuntime key? form row.instanceId (some row)).values.lookup field.key

/-- A secret of the bag that the call does not name is one that the service can
decrypt, and that has no column of its own with another text. -/
def KeepsBag (key? : Option Key) (form : ProviderForm) (row : ProviderInstanceSettings)
    (update : SettingsUpdate) : Prop :=
  ∀ (key : Key) name text, ¬ update.Names name → bagSecret key row name = some text →
    if name = form.primarySecretKey then openColumn (some key) row.apiKeyCiphertext = some text
    else key? = some key

omit [PythonText] in
/-- A value for one of the two fields with columns of their own is read back. -/
def ReadsBack (row : ProviderInstanceSettings) (field : ProviderFieldSchema)
    (value : Json) : Prop :=
  (field.key = "api_base" → value = .null → shown row.apiBase = none) ∧
    (field.key = "request_timeout_seconds" → value ≠ .null ∧ value ≠ .str "" ∧
      ∀ r, PythonValues.float value = .ok r → (Json.float r).truthy = true)

/-! ## Secrets -/

variable {key? : Option Key} {form : ProviderForm} {row row' : ProviderInstanceSettings}
  {update : SettingsUpdate}

theorem storedSecret_eq (key : Key) (form : ProviderForm) (row : ProviderInstanceSettings)
    (name : String) :
    storedSecret key form row name =
      (bagSecret key row name).or
        (if name = form.primarySecretKey then openColumn (some key) row.apiKeyCiphertext
          else none) := by
  unfold storedSecret decryptSecrets bagSecret
  dsimp only
  rw [OrderedDict.lookup_update]
  congr 1
  cases openColumn (some key) row.apiKeyCiphertext with
  | none =>
      rw [ite_self]
      rfl
  | some text =>
      dsimp only
      rw [OrderedDict.lookup_set]
      rfl

theorem resolve_secrets (key : Key) (form : ProviderForm) (instanceId : String)
    (row : ProviderInstanceSettings) (name : String) :
    (resolveOnDemandRuntime (some key) form instanceId (some row)).secrets.lookup name =
      storedSecret key form row name := by
  unfold resolveOnDemandRuntime
  dsimp only
  split
  · rename_i text hmissing hopen
    -- a primary secret that can be decrypted is not missing
    have hopen' : openColumn (some key) row.apiKeyCiphertext = some text := hopen
    have hstored : storedSecret key form row form.primarySecretKey = none := hmissing
    rw [storedSecret_eq, if_pos rfl, hopen'] at hstored
    cases hbag : bagSecret key row form.primarySecretKey with
    | none =>
        rw [hbag] at hstored
        cases hstored
    | some text' =>
        rw [hbag] at hstored
        cases hstored
  · rfl

/-- The secrets in the clear are texts that a bag would keep as they are. -/
def OpenSecrets.Clean (form : ProviderForm) (s : OpenSecrets) : Prop :=
  ∀ name text, name ≠ form.primarySecretKey → s.secretMap.lookup name = some text →
    text ≠ "" ∧ strip text = text

theorem mem_bagSecrets {bag : JsonObject} {name text : String}
    (h : (name, text) ∈ bagSecrets bag) : text ≠ "" ∧ strip text = text := by
  unfold bagSecrets at h
  obtain ⟨entry, -, hentry⟩ := List.mem_filterMap.mp h
  dsimp only at hentry
  split at hentry
  · cases hentry
  · rename_i hshown
    cases hentry
    exact ⟨hshown, Text.strip_of_trimmed (Text.trimmed_strip _)⟩

theorem clean_decryptSecrets (key? : Option Key) (form : ProviderForm)
    (row : ProviderInstanceSettings) :
    OpenSecrets.Clean form ⟨decryptSecrets key? form (some row), row.apiKeyCiphertext⟩ := by
  intro name text hname hlookup
  have hlookup : (decryptSecrets key? form (some row)).lookup name = some text := hlookup
  unfold decryptSecrets at hlookup
  dsimp only at hlookup
  rw [OrderedDict.lookup_update] at hlookup
  cases hbag : (bagSecrets (secretBag key? row)).reverse.lookup name with
  | some text' =>
      rw [hbag] at hlookup
      cases hlookup
      have hmem := OrderedDict.mem_of_lookup hbag
      exact mem_bagSecrets (List.mem_reverse.mp hmem)
  | none =>
      rw [hbag, Option.none_or] at hlookup
      split at hlookup
      · rw [OrderedDict.lookup_set, if_neg hname] at hlookup
        cases hlookup
      · cases hlookup

/-! ## Clearing and setting -/

section

variable {s : OpenSecrets} {name : String}

omit [PythonText] [PythonValues] in
theorem lookup_clear (cleared : String) : (s.clear form cleared).secretMap.lookup name =
    if name = cleared then none else s.secretMap.lookup name :=
  OrderedDict.lookup_pop _ _ _

omit [PythonValues] in
theorem clean_clear (h : s.Clean form) (cleared : String) : (s.clear form cleared).Clean form := by
  intro name text hname hlookup
  rw [lookup_clear] at hlookup
  by_cases hcleared : name = cleared
  · rw [if_pos hcleared] at hlookup
    cases hlookup
  · rw [if_neg hcleared] at hlookup
    exact h name text hname hlookup

/-- What is left of the secrets when some of them have been cleared. -/
structure ClearsAll (form : ProviderForm) (names : List String) (s s' : OpenSecrets) : Prop where
  clean : s.Clean form → s'.Clean form
  lookup : ∀ name, s'.secretMap.lookup name =
    if name ∈ names then none else s.secretMap.lookup name
  column : s'.apiKeyCiphertext =
    if form.primarySecretKey ∈ names then none else s.apiKeyCiphertext

omit [PythonValues] in
theorem clearsAll_foldl (form : ProviderForm) (names : List String) (s : OpenSecrets) :
    ClearsAll form names s (names.foldl (OpenSecrets.clear form) s) := by
  induction names generalizing s with
  | nil => exact ⟨id, fun _ => rfl, rfl⟩
  | cons cleared rest ih =>
      obtain ⟨hclean, hlookup, hcolumn⟩ := ih (s.clear form cleared)
      refine ⟨fun h => hclean (clean_clear h cleared), ?_, ?_⟩
      · intro name
        rw [List.foldl_cons, hlookup, lookup_clear]
        by_cases hrest : name ∈ rest
        · rw [if_pos hrest, if_pos (List.mem_cons_of_mem _ hrest)]
        · rw [if_neg hrest]
          by_cases hname : name = cleared
          · rw [if_pos hname, if_pos (List.mem_cons.mpr (Or.inl hname))]
          · rw [if_neg hname, if_neg fun hmem => (List.mem_cons.mp hmem).elim hname hrest]
      · rw [List.foldl_cons, hcolumn]
        show (if _ then none else if cleared = _ then none else _) = _
        by_cases hrest : form.primarySecretKey ∈ rest
        · rw [if_pos hrest, if_pos (List.mem_cons_of_mem _ hrest)]
        · rw [if_neg hrest]
          by_cases hname : cleared = form.primarySecretKey
          · rw [if_pos hname, if_pos (List.mem_cons.mpr (Or.inl hname.symm))]
          · rw [if_neg hname,
              if_neg fun hmem => (List.mem_cons.mp hmem).elim (Ne.symm hname) hrest]

/-- What a text for a secret makes of it. -/
def putText (plaintext : String) : Option String :=
  if strip plaintext = "" then none else some (strip plaintext)

omit [PythonValues] in
theorem lookup_put (key : Key) (nonce : ℕ) (secret : String × String) :
    (s.put key nonce form secret).secretMap.lookup name =
      if name = secret.1 then putText secret.2 else s.secretMap.lookup name := by
  unfold OpenSecrets.put putText
  dsimp only
  by_cases hblank : strip secret.2 = ""
  · rw [if_pos hblank, if_pos hblank]
    exact lookup_clear secret.1
  · rw [if_neg hblank, if_neg hblank]
    exact OrderedDict.lookup_set _ _ _ _

omit [PythonValues] in
theorem column_put (key : Key) (nonce : ℕ) (secret : String × String) :
    (s.put key nonce form secret).apiKeyCiphertext =
      if secret.1 = form.primarySecretKey then
        (putText secret.2).map (SealedText.encrypt key nonce)
      else s.apiKeyCiphertext := by
  unfold OpenSecrets.put putText
  dsimp only
  by_cases hblank : strip secret.2 = ""
  · rw [if_pos hblank, if_pos hblank]
    rfl
  · rw [if_neg hblank, if_neg hblank]
    rfl

omit [PythonValues] in
theorem clean_put (h : s.Clean form) (key : Key) (nonce : ℕ) (secret : String × String) :
    (s.put key nonce form secret).Clean form := by
  intro name text hname hlookup
  rw [lookup_put] at hlookup
  by_cases hset : name = secret.1
  · rw [if_pos hset] at hlookup
    unfold putText at hlookup
    by_cases hblank : strip secret.2 = ""
    · rw [if_pos hblank] at hlookup
      cases hlookup
    · rw [if_neg hblank] at hlookup
      cases hlookup
      exact ⟨hblank, Text.strip_of_trimmed (Text.trimmed_strip _)⟩
  · rw [if_neg hset] at hlookup
    exact h name text hname hlookup

/-- What the secrets are when some of them have been set. -/
structure PutsAll (key : Key) (nonce : ℕ) (form : ProviderForm) (secrets : List (String × String))
    (s s' : OpenSecrets) : Prop where
  clean : s.Clean form → s'.Clean form
  lookup : ∀ name, s'.secretMap.lookup name =
    match secrets.lookup name with
    | some plaintext => putText plaintext
    | none => s.secretMap.lookup name
  column : s'.apiKeyCiphertext =
    match secrets.lookup form.primarySecretKey with
    | some plaintext => (putText plaintext).map (SealedText.encrypt key nonce)
    | none => s.apiKeyCiphertext

omit [PythonValues] in
theorem putsAll_foldl (form : ProviderForm) (key : Key) (nonce : ℕ) {secrets : List (String × String)}
    (hnodup : (secrets.map Prod.fst).Nodup) (s : OpenSecrets) :
    PutsAll key nonce form secrets s (secrets.foldl (OpenSecrets.put key nonce form) s) := by
  induction secrets generalizing s with
  | nil => exact ⟨id, fun _ => rfl, rfl⟩
  | cons secret rest ih =>
      obtain ⟨hnew, hrest⟩ := List.nodup_cons.mp hnodup
      obtain ⟨hclean, hlookup, hcolumn⟩ := ih hrest (s.put key nonce form secret)
      -- no entry behind the first is for its key
      have hfresh : rest.lookup secret.1 = none := by
        cases hfound : rest.lookup secret.1 with
        | none => rfl
        | some plaintext =>
            have hmem := OrderedDict.mem_of_lookup hfound
            exact absurd (List.mem_map_of_mem (f := Prod.fst) hmem) hnew
      refine ⟨fun h => hclean (clean_put h key nonce secret), ?_, ?_⟩
      · intro name
        rw [List.foldl_cons, hlookup, OrderedDict.lookup_cons, lookup_put]
        by_cases hname : name = secret.1
        · rw [if_pos hname, if_pos hname, hname, hfresh]
        · rw [if_neg hname, if_neg hname]
      · rw [List.foldl_cons, hcolumn, OrderedDict.lookup_cons, column_put]
        by_cases hname : form.primarySecretKey = secret.1
        · rw [if_pos hname, if_pos hname.symm, hname, hfresh]
        · rw [if_neg hname, if_neg (Ne.symm hname)]

end

/-! ## The bag that is written -/

omit [PythonText] [PythonValues] in
def textEntries (texts : List (String × String)) : JsonObject :=
  texts.map fun entry => (entry.1, Json.str entry.2)

omit [PythonText] in
theorem strOrEmpty_str (text : String) : strOrEmpty (.str text) = text := by
  unfold strOrEmpty str
  by_cases h : text = ""
  · subst h
    rfl
  · have htruthy : (Json.str text).truthy = true := by
      simp [Json.truthy, h]
    rw [if_pos htruthy]
    exact String.ofList_toList

/-- Texts that are clean are read back as they are. -/
theorem bagSecrets_textEntries {texts : List (String × String)}
    (hclean : ∀ entry ∈ texts, entry.2 ≠ "" ∧ strip entry.2 = entry.2) :
    bagSecrets (textEntries texts) = texts := by
  unfold bagSecrets textEntries
  rw [List.filterMap_map]
  induction texts with
  | nil => rfl
  | cons entry rest ih =>
      obtain ⟨hshown, htrimmed⟩ := hclean entry (List.mem_cons_self ..)
      have hrest := ih fun entry' hmem => hclean entry' (List.mem_cons_of_mem _ hmem)
      rw [List.filterMap_cons, hrest]
      simp only [Function.comp_apply, strOrEmpty_str, htrimmed, if_neg hshown]

omit [PythonText] [PythonValues] in
theorem openColumn_encrypt (key key' : Key) (nonce : ℕ) (text : String) :
    openColumn (some key') (some (SealedText.encrypt key nonce text)) =
      SealedText.decrypt key' (SealedText.encrypt key nonce text) := by
  have hshown : SealedText.encrypt key nonce text ≠ "" := SealedText.encrypt_ne_empty key nonce text
  unfold openColumn shown
  rw [Option.filter_some, if_pos (decide_eq_true hshown)]
  rfl

/-- What the service finds under its key in a bag that it has written. -/
theorem bagSecret_sealed (key : Key) (nonce : ℕ) {secondary : OrderedDict String String}
    (hclean : ∀ entry ∈ secondary.items, entry.2 ≠ "" ∧ strip entry.2 = entry.2)
    (hbag : row.secretsCiphertext = some (SealedText.encrypt key nonce
      (.ofList (Json.dumps (Json.ofTexts secondary.items))))) (name : String) :
    bagSecret key row name = secondary.lookup name := by
  have hopen : openColumn (some key) row.secretsCiphertext =
      some (.ofList (Json.dumps (Json.ofTexts secondary.items))) := by
    rw [hbag, openColumn_encrypt]
    exact SealedText.decrypt_encrypt ..
  have hread : secretBag (some key) row = textEntries secondary.items := by
    unfold secretBag
    rw [hopen, Option.bind_some, PythonValues.loads_dumps _ secondary.nodup]
    rfl
  unfold bagSecret
  rw [hread, bagSecrets_textEntries hclean]
  exact secondary.lookup_reverse name

/-- A bag that was written under another key is empty for the service. -/
theorem bagSecret_otherKey {key key' : Key} (hkey : key ≠ key') (nonce : ℕ) {text : String}
    (hbag : row.secretsCiphertext = some (SealedText.encrypt key nonce text)) (name : String) :
    bagSecret key' row name = none := by
  have hopen : openColumn (some key') row.secretsCiphertext = none := by
    rw [hbag, openColumn_encrypt]
    exact SealedText.decrypt_other _ _ _ _ hkey
  unfold bagSecret secretBag
  rw [hopen]
  rfl

theorem bagSecret_noBag (hbag : row.secretsCiphertext = none) (key : Key) (name : String) :
    bagSecret key row name = none := by
  unfold bagSecret secretBag
  rw [hbag]
  rfl

/-- A secret when a call has been carried out. -/
def secretAfter (key? : Option Key) (form : ProviderForm) (update : SettingsUpdate)
    (row : ProviderInstanceSettings) (name : String) : Option String :=
  match update.secrets.lookup name with
  | some plaintext => putText plaintext
  | none =>
      if name ∈ update.clearSecrets then none
      else (decryptSecrets key? form (some row)).lookup name

/-- The secrets in the clear when a call has been carried out on them. -/
structure Supplied (key? : Option Key) (nonce : ℕ) (form : ProviderForm)
    (update : SettingsUpdate) (row : ProviderInstanceSettings) (s : OpenSecrets) : Prop where
  clean : s.Clean form
  lookup : ∀ name, s.secretMap.lookup name = secretAfter key? form update row name
  keyed : ∀ name, update.secrets.lookup name ≠ none → ∃ key, key? = some key
  column : ∀ key plaintext, key? = some key →
    update.secrets.lookup form.primarySecretKey = some plaintext →
      s.apiKeyCiphertext = (putText plaintext).map (SealedText.encrypt key nonce)
  sameColumn : update.secrets.lookup form.primarySecretKey = none →
    s.apiKeyCiphertext =
      if form.primarySecretKey ∈ update.clearSecrets then none else row.apiKeyCiphertext

def clearedSecrets (key? : Option Key) (form : ProviderForm) (update : SettingsUpdate)
    (row : ProviderInstanceSettings) : OpenSecrets :=
  update.clearSecrets.foldl (OpenSecrets.clear form)
    ⟨decryptSecrets key? form (some row), row.apiKeyCiphertext⟩

theorem supplied_cleared (nonce : ℕ) (hnone : update.secrets.items = []) :
    Supplied key? nonce form update row (clearedSecrets key? form update row) := by
  have hlookup : ∀ name, update.secrets.lookup name = none := by
    intro name
    unfold OrderedDict.lookup
    rw [hnone]
    rfl
  have hcleared := clearsAll_foldl form update.clearSecrets
    ⟨decryptSecrets key? form (some row), row.apiKeyCiphertext⟩
  refine ⟨hcleared.clean (clean_decryptSecrets key? form row), ?_, ?_, ?_, ?_⟩
  · intro name
    unfold secretAfter
    rw [hlookup]
    exact hcleared.lookup name
  · intro name hnamed
    exact absurd (hlookup name) hnamed
  · intro key plaintext _ hfound
    rw [hlookup] at hfound
    cases hfound
  · intro _
    exact hcleared.column

theorem supplied_put (key : Key) (nonce : ℕ) :
    Supplied (some key) nonce form update row
      (update.secrets.items.foldl (OpenSecrets.put key nonce form)
        (clearedSecrets (some key) form update row)) := by
  have hcleared := clearsAll_foldl form update.clearSecrets
    ⟨decryptSecrets (some key) form (some row), row.apiKeyCiphertext⟩
  have hput := putsAll_foldl form key nonce update.secrets.nodup
    (clearedSecrets (some key) form update row)
  refine ⟨hput.clean (hcleared.clean (clean_decryptSecrets _ form row)), ?_, ?_, ?_, ?_⟩
  · intro name
    rw [hput.lookup]
    unfold secretAfter OrderedDict.lookup
    cases update.secrets.items.lookup name with
    | some plaintext => rfl
    | none => exact hcleared.lookup name
  · intro name _
    exact ⟨key, rfl⟩
  · intro key' plaintext hkey hfound
    cases hkey
    rw [hput.column]
    have hfound : update.secrets.items.lookup form.primarySecretKey = some plaintext := hfound
    rw [hfound]
  · intro hother
    rw [hput.column]
    have hother : update.secrets.items.lookup form.primarySecretKey = none := hother
    rw [hother]
    exact hcleared.column

/-- A call that is carried out writes the secrets in the clear to a new bag. -/
theorem supplySecrets_ok {nonce : ℕ}
    (h : supplySecrets key? nonce form update row = .ok row') :
    ∃ s, Supplied key? nonce form update row s ∧
      ∃ ciphertext,
        row' = { row with
          apiKeyCiphertext := s.apiKeyCiphertext, secretsCiphertext := ciphertext } ∧
        (((s.secretMap.restrict (· ≠ form.primarySecretKey)).items = [] ∧ ciphertext = none) ∨
          ∃ key, key? = some key ∧
            ciphertext = some (SealedText.encrypt key (nonce + 1) (.ofList (Json.dumps
              (Json.ofTexts (s.secretMap.restrict (· ≠ form.primarySecretKey)).items))))) := by
  -- what is done to the secrets in the clear
  have hsteps : ∃ s, Supplied key? nonce form update row s ∧
      sealSecrets key? nonce form row s = .ok row' := by
    cases hitems : update.secrets.items with
    | nil =>
        refine ⟨clearedSecrets key? form update row, supplied_cleared nonce hitems, ?_⟩
        unfold supplySecrets at h
        rw [hitems] at h
        exact h
    | cons secret rest =>
        cases key? with
        | none =>
            unfold supplySecrets at h
            rw [hitems] at h
            cases h
        | some key =>
            refine ⟨_, supplied_put key nonce, ?_⟩
            unfold supplySecrets at h
            rw [hitems] at h ⊢
            exact h
  obtain ⟨s, hs, hsealed⟩ := hsteps
  refine ⟨s, hs, ?_⟩
  unfold sealSecrets at hsealed
  dsimp only at hsealed
  cases hitems : (s.secretMap.restrict (· ≠ form.primarySecretKey)).items with
  | nil =>
      rw [hitems] at hsealed
      cases hsealed
      exact ⟨none, rfl, Or.inl ⟨rfl, rfl⟩⟩
  | cons entry rest =>
      rw [hitems] at hsealed
      cases key? with
      | none => cases hsealed
      | some key =>
          cases hsealed
          exact ⟨_, rfl, Or.inr ⟨key, rfl, rfl⟩⟩

/-- The secrets of a row that a call has been written to. -/
structure Resealed (key? : Option Key) (nonce : ℕ) (form : ProviderForm)
    (update : SettingsUpdate) (row row' : ProviderInstanceSettings) : Prop where
  keyed : ∀ name, update.secrets.lookup name ≠ none → ∃ key, key? = some key
  bag : ∀ key name, key? = some key → name ≠ form.primarySecretKey →
    bagSecret key row' name = secretAfter key? form update row name
  noBag : ∀ key name, key? ≠ some key ∨ name = form.primarySecretKey →
    bagSecret key row' name = none
  column : ∀ key plaintext, key? = some key →
    update.secrets.lookup form.primarySecretKey = some plaintext →
      row'.apiKeyCiphertext = (putText plaintext).map (SealedText.encrypt key nonce)
  sameColumn : update.secrets.lookup form.primarySecretKey = none →
    row'.apiKeyCiphertext =
      if form.primarySecretKey ∈ update.clearSecrets then none else row.apiKeyCiphertext

theorem resealed {nonce : ℕ} (h : supplySecrets key? nonce form update row = .ok row') :
    Resealed key? nonce form update row row' := by
  obtain ⟨s, hs, ciphertext, hrow, hbag⟩ := supplySecrets_ok h
  have hcolumn : row'.apiKeyCiphertext = s.apiKeyCiphertext := by rw [hrow]
  have hsecrets : row'.secretsCiphertext = ciphertext := by rw [hrow]
  have hlookup : ∀ name, (s.secretMap.restrict (· ≠ form.primarySecretKey)).lookup name =
      if name ≠ form.primarySecretKey then secretAfter key? form update row name else none := by
    intro name
    rw [OrderedDict.lookup_restrict, hs.lookup]
    simp only [decide_eq_true_eq]
  have hclean : ∀ entry ∈ (s.secretMap.restrict (· ≠ form.primarySecretKey)).items,
      entry.2 ≠ "" ∧ strip entry.2 = entry.2 := by
    intro entry hmem
    obtain ⟨hmem, hname⟩ := OrderedDict.mem_restrict.mp hmem
    exact hs.clean entry.1 entry.2 (of_decide_eq_true hname)
      (OrderedDict.lookup_eq_some.mpr hmem)
  refine ⟨hs.keyed, ?_, ?_, ?_, ?_⟩
  · intro key name hkey hname
    rcases hbag with ⟨hempty, hnone⟩ | ⟨key', hkey', hsome⟩
    · -- nothing is left to be written
      rw [bagSecret_noBag (hsecrets.trans hnone)]
      have hfound := hlookup name
      unfold OrderedDict.lookup at hfound
      rw [hempty, if_pos hname] at hfound
      exact hfound
    · rw [hkey] at hkey'
      cases hkey'
      rw [bagSecret_sealed key (nonce + 1) hclean (hsecrets.trans hsome), hlookup, if_pos hname]
  · intro key name hother
    rcases hbag with ⟨-, hnone⟩ | ⟨key', hkey', hsome⟩
    · exact bagSecret_noBag (hsecrets.trans hnone) key name
    · by_cases hkey : key' = key
      · subst hkey
        have hprimary := hother.resolve_left fun hne => hne hkey'
        rw [bagSecret_sealed key' (nonce + 1) hclean (hsecrets.trans hsome), hlookup,
          if_neg fun hne => hne hprimary]
      · exact bagSecret_otherKey hkey (nonce + 1) (hsecrets.trans hsome) name
  · intro key plaintext hkey hfound
    rw [hcolumn]
    exact hs.column key plaintext hkey hfound
  · intro hother
    rw [hcolumn]
    exact hs.sameColumn hother

/-! ## The secrets of a call -/

/-- What is stored does not change while its two columns stay. -/
theorem decryptSecrets_congr (hcolumn : row'.apiKeyCiphertext = row.apiKeyCiphertext)
    (hbag : row'.secretsCiphertext = row.secretsCiphertext) (key? : Option Key) :
    decryptSecrets key? form (some row') = decryptSecrets key? form (some row) := by
  unfold decryptSecrets secretBag
  dsimp only
  rw [hcolumn, hbag]

/-- The secrets that a call does not name are kept if and only if those of the bag can
be decrypted. -/
theorem Resealed.kept_iff {nonce : ℕ} (h : Resealed key? nonce form update row row') :
    (∀ (key : Key) name text, ¬ update.Names name →
      storedSecret key form row name = some text → storedSecret key form row' name = some text) ↔
    KeepsBag key? form row update := by
  have hsame : ∀ name, ¬ update.Names name → name = form.primarySecretKey →
      row'.apiKeyCiphertext = row.apiKeyCiphertext := by
    intro name hnamed hname
    subst hname
    rw [h.sameColumn (by_contra fun hset => hnamed (Or.inl hset)),
      if_neg fun hcleared => hnamed (Or.inr hcleared)]
  constructor
  · intro hkept key name text hnamed hbag
    have hstored : storedSecret key form row name = some text := by
      rw [storedSecret_eq, hbag]
      rfl
    have hafter := hkept key name text hnamed hstored
    rw [storedSecret_eq] at hafter
    -- the primary secret leaves the bag for its column, the others need the bag
    by_cases hname : name = form.primarySecretKey
    · rw [if_pos hname]
      rw [h.noBag key name (Or.inr hname), if_pos hname, hsame name hnamed hname] at hafter
      exact hafter
    · rw [if_neg hname]
      by_contra hkey
      rw [h.noBag key name (Or.inl hkey), if_neg hname] at hafter
      cases hafter
  · intro hkeeps key name text hnamed hstored
    rw [storedSecret_eq] at hstored ⊢
    by_cases hname : name = form.primarySecretKey
    · rw [h.noBag key name (Or.inr hname), if_pos hname, hsame name hnamed hname]
      rw [if_pos hname] at hstored
      cases hbag : bagSecret key row name with
      | none =>
          rw [hbag] at hstored
          exact hstored
      | some text' =>
          rw [hbag] at hstored
          cases hstored
          have hopen := hkeeps key name text hnamed hbag
          rw [if_pos hname] at hopen
          exact hopen
    · rw [if_neg hname, Option.or_none] at hstored
      have hkey := hkeeps key name text hnamed hstored
      rw [if_neg hname] at hkey
      rw [h.bag key name hkey hname]
      have hset : update.secrets.lookup name = none :=
        by_contra fun hset => hnamed (Or.inl hset)
      have hcleared : name ∉ update.clearSecrets := fun hmem => hnamed (Or.inr hmem)
      have hdecrypted : storedSecret key form row name = some text := by
        rw [storedSecret_eq, hstored]
        rfl
      unfold secretAfter
      rw [hset, if_neg hcleared, hkey, ← storedSecret, hdecrypted]
      rfl

omit [PythonValues] in
theorem putText_of_sets {name text : String} (h : update.Sets name text) :
    ∃ plaintext, update.secrets.lookup name = some plaintext ∧ putText plaintext = some text := by
  obtain ⟨plaintext, hlookup, htext, hshown⟩ := h
  refine ⟨plaintext, hlookup, ?_⟩
  unfold putText
  rw [htext, if_neg hshown]

omit [PythonValues] in
theorem putText_of_not_sets {name plaintext : String}
    (hlookup : update.secrets.lookup name = some plaintext)
    (h : ∀ text, ¬ update.Sets name text) : putText plaintext = none := by
  unfold putText
  by_cases hblank : strip plaintext = ""
  · exact if_pos hblank
  · exact absurd ⟨plaintext, hlookup, rfl, hblank⟩ (h (strip plaintext))

theorem Resealed.set {nonce : ℕ} (h : Resealed key? nonce form update row row')
    (instanceId : String) {name text : String} (hset : update.Sets name text) :
    (resolveOnDemandRuntime key? form instanceId (some row')).secrets.lookup name = some text := by
  obtain ⟨plaintext, hlookup, hput⟩ := putText_of_sets hset
  obtain ⟨key, rfl⟩ := h.keyed name (by rw [hlookup]; exact Option.some_ne_none _)
  rw [resolve_secrets, storedSecret_eq]
  by_cases hname : name = form.primarySecretKey
  · subst hname
    rw [h.noBag key _ (Or.inr rfl), if_pos rfl, h.column key plaintext rfl hlookup, hput,
      Option.none_or]
    show openColumn (some key) (some (SealedText.encrypt key nonce text)) = _
    rw [openColumn_encrypt]
    exact SealedText.decrypt_encrypt ..
  · have hafter : secretAfter (some key) form update row name = some text := by
      unfold secretAfter
      rw [hlookup]
      exact hput
    rw [h.bag key name rfl hname, hafter]
    rfl

theorem Resealed.cleared {nonce : ℕ} (h : Resealed key? nonce form update row row')
    (key : Key) {name : String} (hcleared : name ∈ update.clearSecrets)
    (hset : ∀ text, ¬ update.Sets name text) : storedSecret key form row' name = none := by
  rw [storedSecret_eq]
  by_cases hname : name = form.primarySecretKey
  · subst hname
    rw [h.noBag key _ (Or.inr rfl), if_pos rfl, Option.none_or]
    have hcolumn : row'.apiKeyCiphertext = none := by
      cases hlookup : update.secrets.lookup form.primarySecretKey with
      | none => rw [h.sameColumn hlookup, if_pos hcleared]
      | some plaintext =>
          obtain ⟨key', hkey'⟩ := h.keyed _ (by rw [hlookup]; exact Option.some_ne_none _)
          rw [h.column key' plaintext hkey' hlookup, putText_of_not_sets hlookup hset]
          rfl
    rw [hcolumn]
    rfl
  · rw [if_neg hname, Option.or_none]
    by_cases hkey : key? = some key
    · rw [h.bag key name hkey hname]
      unfold secretAfter
      cases hlookup : update.secrets.lookup name with
      | none => exact if_pos hcleared
      | some plaintext => exact putText_of_not_sets hlookup hset
    · exact h.noBag key name (Or.inl hkey)

/-! ## Values -/

section

variable {values : OrderedDict String Json}

omit [PythonText] [PythonValues] in
theorem lookup_configured (config : JsonObject) {field : ProviderFieldSchema}
    (hmem : field ∈ form.fields) (hsecret : field.secret = false) :
    (form.configured config).reverse.lookup field.key = config.lookup field.key := by
  have hvalue : ∀ value, (form.configured config).reverse.lookup field.key = some value →
      config.lookup field.key = some value := by
    intro value hfound
    have hentry := List.mem_reverse.mp (OrderedDict.mem_of_lookup hfound)
    unfold ProviderForm.configured at hentry
    obtain ⟨field', -, heq⟩ := List.mem_filterMap.mp hentry
    by_cases hsecret' : field'.secret = true
    · rw [if_pos hsecret'] at heq
      cases heq
    · rw [if_neg hsecret'] at heq
      obtain ⟨value', hlookup, hpair⟩ := Option.map_eq_some_iff.mp heq
      obtain ⟨hkey, hvalue⟩ := Prod.mk.inj hpair
      rw [← hkey, hlookup, hvalue]
  cases hfound : (form.configured config).reverse.lookup field.key with
  | some value => exact (hvalue value hfound).symm
  | none =>
      cases hlookup : config.lookup field.key with
      | none => rfl
      | some value =>
          -- a configured field has an entry
          have hentry : (field.key, value) ∈ form.configured config := by
            unfold ProviderForm.configured
            refine List.mem_filterMap.mpr ⟨field, hmem, ?_⟩
            rw [if_neg (by rw [hsecret]; exact Bool.false_ne_true), hlookup]
            rfl
          have hnone := List.lookup_eq_none_iff.mp hfound _ (List.mem_reverse.mpr hentry)
          rw [bne_self_eq_false] at hnone
          cases hnone

/-- The value of a field before the columns are looked at. -/
def configuredValue (form : ProviderForm) (row : ProviderInstanceSettings) (key : String) :
    Option Json :=
  (row.config.lookup key).or (form.defaults.reverse.lookup key)

omit [PythonText] [PythonValues] in
theorem lookup_withApiBase (row : ProviderInstanceSettings) (read : OrderedDict String Json)
    (key : String) : (withApiBase row read).lookup key =
      if key = "api_base" then ((shown row.apiBase).map Json.str).or (read.lookup key)
      else read.lookup key := by
  unfold withApiBase
  cases shown row.apiBase with
  | none => exact (ite_self _).symm
  | some apiBase => exact OrderedDict.lookup_set _ _ _ _

omit [PythonText] [PythonValues] in
theorem lookup_withDomain (row : ProviderInstanceSettings) (read : OrderedDict String Json)
    (key : String) : (withDomain row read).lookup key =
      if key = "domain" then (read.lookup key).or ((shown row.domain).map Json.str)
      else read.lookup key := by
  unfold withDomain
  cases hshown : shown row.domain with
  | none => exact (by rw [Option.map_none, Option.or_none, ite_self])
  | some domain =>
      cases hread : read.lookup "domain" with
      | none =>
          dsimp only
          rw [OrderedDict.lookup_set]
          by_cases hkey : key = "domain"
          · rw [if_pos hkey, if_pos hkey, hkey, hread]
            rfl
          · rw [if_neg hkey, if_neg hkey]
      | some value =>
          dsimp only
          by_cases hkey : key = "domain"
          · rw [if_pos hkey, hkey, hread]
            rfl
          · rw [if_neg hkey]

omit [PythonText] [PythonValues] in
theorem lookup_readValues {field : ProviderFieldSchema} (hmem : field ∈ form.fields)
    (hsecret : field.secret = false) (row : ProviderInstanceSettings) :
    (readValues form row).lookup field.key =
      if field.key = "request_timeout_seconds" then some (.float row.timeout)
      else if field.key = "api_base" then
        ((shown row.apiBase).map Json.str).or (configuredValue form row field.key)
      else if field.key = "domain" then
        (configuredValue form row field.key).or ((shown row.domain).map Json.str)
      else configuredValue form row field.key := by
  have hvalue : (((∅ : OrderedDict String Json).update form.defaults).update
      (form.configured row.config)).lookup field.key = configuredValue form row field.key := by
    rw [OrderedDict.lookup_update, OrderedDict.lookup_update, lookup_configured _ hmem hsecret]
    exact congrArg _ (Option.or_none)
  unfold readValues
  dsimp only
  rw [OrderedDict.lookup_set]
  by_cases htimeout : field.key = "request_timeout_seconds"
  · rw [if_pos htimeout, if_pos htimeout]
  rw [if_neg htimeout, if_neg htimeout, lookup_withDomain, lookup_withApiBase, hvalue]
  by_cases hbase : field.key = "api_base"
  · have hdomain : field.key ≠ "domain" := by
      rw [hbase]
      decide
    rw [if_neg hdomain, if_pos hbase, if_pos hbase]
  · rw [if_neg hbase, if_neg hbase]

/-- What a call makes of the columns of a row. -/
structure ValuesSupplied (form : ProviderForm) (values : OrderedDict String Json)
    (row row' : ProviderInstanceSettings) : Prop where
  config : ∀ field ∈ form.fields, field.secret = false → ∀ value,
    values.lookup field.key = some value →
      ∃ normalized, normalizeFieldValue field.fieldType value = .ok normalized ∧
        row'.config.lookup field.key = some normalized
  sameConfig : ∀ key, values.lookup key = none → row'.config.lookup key = row.config.lookup key
  timeout : ∀ value, value ≠ .null → values.lookup "request_timeout_seconds" = some value →
    PythonValues.float value = .ok row'.requestTimeoutSeconds
  apiBase : ∀ value, value ≠ .null → values.lookup "api_base" = some value →
    row'.apiBase = shown (some (strip (str value)))
  sameTimeout : (values.lookup "request_timeout_seconds").getD .null = .null →
    row'.requestTimeoutSeconds = row.requestTimeoutSeconds
  sameApiBase : (values.lookup "api_base").getD .null = .null → row'.apiBase = row.apiBase
  sameDomain : values.lookup "domain" = none → row'.domain = row.domain
  secrets : row'.apiKeyCiphertext = row.apiKeyCiphertext ∧
    row'.secretsCiphertext = row.secretsCiphertext

theorem supplyField_ok {config config' : JsonObject} {field : ProviderFieldSchema}
    {value : Json} (hsecret : field.secret = false)
    (hlookup : values.lookup field.key = some value)
    (h : supplyField values config field = .ok config') :
    ∃ normalized, normalizeFieldValue field.fieldType value = .ok normalized ∧
      config' = setConfig field.key normalized config := by
  unfold supplyField at h
  rw [hsecret, hlookup] at h
  obtain ⟨normalized, hnormalized, hset⟩ := Checks.bind_eq_ok.mp h
  cases hset
  exact ⟨normalized, hnormalized, rfl⟩

theorem supplyField_other {config config' : JsonObject} {field : ProviderFieldSchema}
    {key : String} (hkey : values.lookup key = none ∨ key ≠ field.key)
    (h : supplyField values config field = .ok config') :
    config'.lookup key = config.lookup key := by
  cases hsecret : field.secret with
  | true =>
      unfold supplyField at h
      rw [hsecret] at h
      cases h
      rfl
  | false =>
      cases hlookup : values.lookup field.key with
      | none =>
          unfold supplyField at h
          rw [hsecret, hlookup] at h
          cases h
          rfl
      | some value =>
          obtain ⟨normalized, -, hset⟩ := supplyField_ok hsecret hlookup h
          have hne : key ≠ field.key := by
            rcases hkey with hnone | hne
            · intro heq
              rw [heq, hlookup] at hnone
              cases hnone
            · exact hne
          rw [hset]
          exact (OrderedDict.lookup_setItems _ _ _ _).trans (if_neg hne)

theorem supplyFields_ok {fields : List ProviderFieldSchema} {config config' : JsonObject}
    (hnodup : (fields.map (·.key)).Nodup)
    (h : fields.foldlM (supplyField values) config = .ok config') :
    (∀ field ∈ fields, field.secret = false → ∀ value,
      values.lookup field.key = some value →
        ∃ normalized, normalizeFieldValue field.fieldType value = .ok normalized ∧
          config'.lookup field.key = some normalized) ∧
    ∀ key, (values.lookup key = none ∨ key ∉ fields.map (·.key)) →
      config'.lookup key = config.lookup key := by
  induction fields generalizing config with
  | nil =>
      cases h
      exact ⟨fun field hmem => absurd hmem List.not_mem_nil, fun _ _ => rfl⟩
  | cons field rest ih =>
      obtain ⟨hnew, hrest⟩ := List.nodup_cons.mp hnodup
      rw [List.foldlM_cons] at h
      obtain ⟨config₁, hstep, htail⟩ := Checks.bind_eq_ok.mp h
      obtain ⟨hsupplied, hothers⟩ := ih hrest htail
      refine ⟨?_, ?_⟩
      · intro field' hmem hsecret value hlookup
        rcases List.mem_cons.mp hmem with heq | htail
        · subst heq
          obtain ⟨normalized, hnormalized, hset⟩ := supplyField_ok hsecret hlookup hstep
          refine ⟨normalized, hnormalized, ?_⟩
          rw [hothers _ (Or.inr hnew), hset]
          exact (OrderedDict.lookup_setItems _ _ _ _).trans (if_pos rfl)
        · exact hsupplied field' htail hsecret value hlookup
      · intro key hkey
        have hrest : values.lookup key = none ∨ key ∉ rest.map (·.key) :=
          hkey.imp_right fun hmem htail => hmem (List.mem_cons_of_mem _ htail)
        rw [hothers key hrest]
        apply supplyField_other _ hstep
        exact hkey.imp_right fun hmem heq => hmem (List.mem_cons.mpr (Or.inl heq))

theorem supplyValues_ok (hform : form ∈ providerForms)
    (h : supplyValues form values row = .ok row') : ValuesSupplied form values row row' := by
  by_cases hempty : values.items = []
  · have hlookup : ∀ key, values.lookup key = none := by
      intro key
      unfold OrderedDict.lookup
      rw [hempty]
      rfl
    unfold supplyValues at h
    rw [if_pos hempty] at h
    cases h
    refine ⟨?_, fun _ _ => rfl, ?_, ?_, fun _ => rfl, fun _ => rfl, fun _ => rfl, rfl, rfl⟩
    · intro field _ _ value hfound
      rw [hlookup] at hfound
      cases hfound
    · intro value _ hfound
      rw [hlookup] at hfound
      cases hfound
    · intro value _ hfound
      rw [hlookup] at hfound
      cases hfound
  · unfold supplyValues at h
    rw [if_neg hempty] at h
    obtain ⟨config, hconfig, h⟩ := Checks.bind_eq_ok.mp h
    -- the fields of the form go to the configuration, the three others to their columns
    obtain ⟨hsupplied, hothers⟩ := supplyFields_ok (nodup_keys form hform) hconfig
    obtain ⟨timeout, htimeout, h⟩ := Checks.bind_eq_ok.mp h
    cases h
    refine ⟨hsupplied, fun key hkey => hothers key (Or.inl hkey), ?_, ?_, ?_, ?_, ?_, rfl, rfl⟩
    · intro value hnull hfound
      unfold suppliedTimeout at htimeout
      rw [hfound] at htimeout
      cases value with
      | null => exact absurd rfl hnull
      | _ => exact htimeout
    · intro value hnull hfound
      show suppliedApiBase values row = _
      unfold suppliedApiBase
      rw [hfound]
      cases value with
      | null => exact absurd rfl hnull
      | _ => rfl
    · intro hnull
      unfold suppliedTimeout at htimeout
      cases hfound : values.lookup "request_timeout_seconds" with
      | none =>
          rw [hfound] at htimeout
          exact (Except.ok.inj htimeout).symm
      | some value =>
          rw [hfound] at hnull htimeout
          have hvalue : value = .null := hnull
          subst hvalue
          exact (Except.ok.inj htimeout).symm
    · intro hnull
      show suppliedApiBase values row = _
      unfold suppliedApiBase
      cases hfound : values.lookup "api_base" with
      | none => rfl
      | some value =>
          rw [hfound] at hnull
          have hvalue : value = .null := hnull
          subst hvalue
          rfl
    · intro hnone
      show suppliedDomain form values row = _
      unfold suppliedDomain
      rw [hnone]

/-! ## What is read back -/

theorem normalize_number {value : Json} (hnull : value ≠ .null) (hblank : value ≠ .str "") :
    normalizeFieldValue .number value = (PythonValues.float value).map .float := by
  cases value with
  | null => exact absurd rfl hnull
  | str s =>
      have hs : s ≠ "" := fun heq => hblank (heq ▸ rfl)
      unfold normalizeFieldValue
      split
      · rename_i heq
        cases heq
      all_goals simp_all
  | _ => rfl

theorem normalize_text {value : Json} (hnull : value ≠ .null) :
    normalizeFieldValue .text value = .ok (.str (strip (str value))) := by
  cases value with
  | null => exact absurd rfl hnull
  | _ => rfl

omit [PythonText] [PythonValues] in
theorem timeout_eq_iff (row : ProviderInstanceSettings) :
    row.timeout = row.requestTimeoutSeconds ↔
      (Json.float row.requestTimeoutSeconds).truthy = true := by
  unfold ProviderInstanceSettings.timeout
  by_cases h : (Json.float row.requestTimeoutSeconds).truthy = true
  · rw [if_pos h]
    exact ⟨fun _ => h, fun _ => rfl⟩
  · rw [if_neg h]
    refine ⟨fun heq => ?_, fun htrue => absurd htrue h⟩
    rw [← heq]
    rfl

theorem readsBack_iff (hform : form ∈ providerForms)
    (h : ValuesSupplied form values row row') {field : ProviderFieldSchema}
    (hmem : field ∈ form.fields) (hsecret : field.secret = false) {value : Json}
    (hlookup : values.lookup field.key = some value) :
    (∃ normalized, normalizeFieldValue field.fieldType value = .ok normalized ∧
      (readValues form row').lookup field.key = some normalized) ↔
    ReadsBack row field value := by
  obtain ⟨htext, hnumber⟩ := fieldType_of_column form hform field hmem
  obtain ⟨normalized, hnormalized, hconfig⟩ := h.config field hmem hsecret value hlookup
  have hvalue : configuredValue form row' field.key = some normalized := by
    unfold configuredValue
    rw [hconfig]
    rfl
  rw [lookup_readValues hmem hsecret, hvalue]
  unfold ReadsBack
  by_cases htimeout : field.key = "request_timeout_seconds"
  · have hbase : field.key ≠ "api_base" := by
      rw [htimeout]
      decide
    rw [if_pos htimeout]
    rw [hnumber htimeout]
    by_cases hnull : value = .null
    · subst hnull
      constructor
      · rintro ⟨_, hnull, hread⟩
        cases hnull
        cases hread
      · rintro ⟨-, hsupplied⟩
        exact absurd rfl (hsupplied htimeout).1
    by_cases hblank : value = .str ""
    · subst hblank
      constructor
      · rintro ⟨_, hnull, hread⟩
        cases hnull
        cases hread
      · rintro ⟨-, hsupplied⟩
        exact absurd rfl (hsupplied htimeout).2.1
    -- the column holds the number that was supplied
    have hcolumn := h.timeout value hnull (htimeout ▸ hlookup)
    rw [normalize_number hnull hblank, hcolumn]
    constructor
    · rintro ⟨_, hnumber, hread⟩
      cases hnumber
      have htimes := Json.float.inj (Option.some.inj hread)
      refine ⟨fun heq => absurd heq hbase, fun _ => ⟨hnull, hblank, ?_⟩⟩
      intro r hr
      cases hr
      exact (timeout_eq_iff row').mp htimes
    · rintro ⟨-, hsupplied⟩
      have htruthy := (hsupplied htimeout).2.2 _ rfl
      refine ⟨_, rfl, ?_⟩
      rw [(timeout_eq_iff row').mpr htruthy]
  · rw [if_neg htimeout]
    by_cases hbase : field.key = "api_base"
    · rw [if_pos hbase]
      rw [htext hbase] at hnormalized ⊢
      refine Iff.trans ?_ (and_iff_left fun heq => absurd heq htimeout).symm
      by_cases hnull : value = .null
      · subst hnull
        cases hnormalized
        have hcolumn : row'.apiBase = row.apiBase := by
          apply h.sameApiBase
          rw [← hbase, hlookup]
          rfl
        rw [hcolumn]
        constructor
        · rintro ⟨_, hnull, hread⟩ - -
          cases hnull
          cases hshown : shown row.apiBase with
          | none => rfl
          | some apiBase =>
              rw [hshown] at hread
              cases hread
        · intro hnone
          refine ⟨.null, rfl, ?_⟩
          rw [hnone hbase rfl]
          rfl
      · refine ⟨fun _ _ heq => absurd heq hnull, fun _ => ⟨normalized, hnormalized, ?_⟩⟩
        rw [normalize_text hnull] at hnormalized
        cases hnormalized
        rw [h.apiBase value hnull (hbase ▸ hlookup)]
        -- a blank address is left to the configuration, where it is blank
        by_cases hblank : strip (str value) = ""
        · rw [hblank]
          rfl
        · have hshown : shown (shown (some (strip (str value)))) = some (strip (str value)) := by
            unfold shown
            simp [hblank]
          rw [hshown]
          rfl
    · rw [if_neg hbase]
      refine ⟨fun _ => ⟨fun heq => absurd heq hbase, fun heq => absurd heq htimeout⟩, fun _ => ?_⟩
      refine ⟨normalized, hnormalized, ?_⟩
      by_cases hdomain : field.key = "domain"
      · rw [if_pos hdomain]
        rfl
      · exact if_neg hdomain

theorem readValues_others (h : ValuesSupplied form values row row')
    {field : ProviderFieldSchema} (hmem : field ∈ form.fields) (hsecret : field.secret = false)
    (hlookup : values.lookup field.key = none) :
    (readValues form row').lookup field.key = (readValues form row).lookup field.key := by
  have hconfig : configuredValue form row' field.key = configuredValue form row field.key := by
    unfold configuredValue
    rw [h.sameConfig _ hlookup]
  rw [lookup_readValues hmem hsecret, lookup_readValues hmem hsecret, hconfig]
  by_cases htimeout : field.key = "request_timeout_seconds"
  · have hcolumn : row'.requestTimeoutSeconds = row.requestTimeoutSeconds := by
      apply h.sameTimeout
      rw [← htimeout, hlookup]
      rfl
    rw [if_pos htimeout, if_pos htimeout]
    unfold ProviderInstanceSettings.timeout
    rw [hcolumn]
  rw [if_neg htimeout, if_neg htimeout]
  by_cases hbase : field.key = "api_base"
  · have hcolumn : row'.apiBase = row.apiBase := by
      apply h.sameApiBase
      rw [← hbase, hlookup]
      rfl
    rw [if_pos hbase, if_pos hbase, hcolumn]
  rw [if_neg hbase, if_neg hbase]
  by_cases hdomain : field.key = "domain"
  · rw [h.sameDomain (hdomain ▸ hlookup)]
  · rw [if_neg hdomain, if_neg hdomain]

end

/-! ## The whole call -/

/-- **When a call touches only what it names**: exactly if the secrets of the bag that
it does not name can be decrypted, and the values that it supplies for the two fields
with columns of their own are not among those that the columns hide. -/
theorem touchesOnlyNamed_iff {nonce : ℕ} {instanceId : String} (hform : form ∈ providerForms)
    (h : updateProviderInstance key? nonce form instanceId (some row) update = .ok row') :
    TouchesOnlyNamed key? form row row' update ↔
      KeepsBag key? form row update ∧
        ∀ field ∈ form.fields, field.secret = false → ∀ value,
          update.values.lookup field.key = some value → ReadsBack row field value := by
  obtain ⟨supplied, hvalues, hsecrets⟩ := Checks.bind_eq_ok.mp h
  have hv := supplyValues_ok hform hvalues
  have hs := resealed hsecrets
  have hcolumn : supplied.apiKeyCiphertext = row.apiKeyCiphertext := hv.secrets.1
  have hbag : supplied.secretsCiphertext = row.secretsCiphertext := hv.secrets.2
  -- the values do not depend on the columns of the secrets, and the other way round
  have hread : readValues form row' = readValues form supplied := by
    obtain ⟨s, -, ciphertext, hrow, -⟩ := supplySecrets_ok hsecrets
    rw [hrow]
    rfl
  have hstored : ∀ (key : Key) name,
      storedSecret key form supplied name = storedSecret key form row name := by
    intro key name
    unfold storedSecret
    rw [decryptSecrets_congr hcolumn hbag]
  have hkeeps : KeepsBag key? form supplied update ↔ KeepsBag key? form row update := by
    unfold KeepsBag bagSecret secretBag
    rw [hcolumn, hbag]
  have hkept := hs.kept_iff.trans hkeeps
  simp only [hstored] at hkept
  constructor
  · intro htouches
    refine ⟨hkept.mp htouches.kept, ?_⟩
    intro field hmem hsecret value hlookup
    have hsupplied := htouches.supplied field hmem hsecret value hlookup
    apply (readsBack_iff hform hv hmem hsecret hlookup).mp
    rw [← hread]
    exact hsupplied
  · rintro ⟨hbags, hreads⟩
    refine ⟨hkept.mpr hbags, ?_, ?_, ?_, ?_⟩
    · intro name text hset
      exact hs.set row'.instanceId hset
    · intro key name hcleared hset
      exact hs.cleared key hcleared hset
    · intro field hmem hsecret value hlookup
      have hback := hreads field hmem hsecret value hlookup
      obtain ⟨normalized, hnormalized, hfound⟩ :=
        (readsBack_iff hform hv hmem hsecret hlookup).mpr hback
      exact ⟨normalized, hnormalized, by rw [← hread] at hfound; exact hfound⟩
    · intro field hmem hsecret hlookup
      have hother := readValues_others hv hmem hsecret hlookup
      rw [← hread] at hother
      exact hother

end

/-! ## A bag that is lost -/

section Sample

attribute [local instance] asciiText markedText textValues

def sealedRow : ProviderInstanceSettings where
  providerType := "ddg_mail"
  instanceId := "default"
  secretsCiphertext := some (SealedText.encrypt true 0
    (.ofList (Json.dumps (Json.ofTexts [("cf_api_key", "k")]))))

theorem secretBag_sealedRow (key : Bool) :
    secretBag (some key) sealedRow = if key then [("cf_api_key", .str "k")] else [] := by
  cases key with
  | false => rfl
  | true => rfl

/-- The instance is enabled, and its address is supplied. -/
def enabling : SettingsUpdate where
  enabled := some true
  values := (∅ : OrderedDict String Json).set "api_base" (.str " https://a ")

/-- With the key of the bag at hand, nothing else is touched. -/
theorem touchesOnlyNamed_enabling :
    ∃ row', updateProviderInstance (some true) 0 .ddgMail "default" (some sealedRow) enabling =
        .ok row' ∧
      TouchesOnlyNamed (some true) .ddgMail sealedRow row' enabling := by
  refine ⟨_, rfl, (touchesOnlyNamed_iff mem_providerForms_ddgMail rfl).mpr ⟨?_, ?_⟩⟩
  · intro key name text _ hbag
    unfold bagSecret at hbag
    rw [secretBag_sealedRow] at hbag
    cases key with
    | false => cases hbag
    | true =>
        rw [if_neg]
        rintro rfl
        cases hbag
  · intro field hmem hsecret value hlookup
    have hentry := OrderedDict.mem_of_lookup hlookup
    obtain ⟨hkey, hvalue⟩ := Prod.mk.inj (List.mem_singleton.mp hentry)
    refine ⟨fun _ hnull => ?_, fun htimeout => ?_⟩
    · rw [hvalue] at hnull
      cases hnull
    · rw [hkey] at htimeout
      exact absurd htimeout (by decide)

/-- **Enabling an instance loses its secrets** when no key is configured. -/
theorem enabling_loses_secret :
    ∃ row', updateProviderInstance (none : Option Bool) 0 .ddgMail "default" (some sealedRow)
        { enabled := some true } = .ok row' ∧
      ¬ TouchesOnlyNamed (none : Option Bool) .ddgMail sealedRow row' { enabled := some true } := by
  refine ⟨_, rfl, ?_⟩
  intro h
  have hnamed : ¬ SettingsUpdate.Names { enabled := some true } "cf_api_key" := by
    rintro (hset | hcleared)
    · exact hset rfl
    · cases hcleared
  have hkept := h.kept true "cf_api_key" "k" hnamed (by decide +kernel)
  exact absurd hkept (by decide +kernel)

end Sample

end MailboxService
