import MailboxService.Foundation.JsonText
import MailboxService.Foundation.Stretches
import MailboxService.VerificationCode.Extraction

/-!
# The codes of SMSBower

`extract_smsbower_code` goes through the keys that a code may stand under, and
reads the serialised object where none of them has a code. The texts that it
searches are listed in the order of the search, next to the code that the values
of the keys name.
-/

namespace MailboxService

open Foundation Text

def smsbowerPendingMarkers : List String :=
  ["code has not been received", "try again later", "no code", "wait_code", "waiting", "pending"]

def smsbowerCodeKeys : List String :=
  ["code", "otp", "verification_code", "sms", "text", "message"]

section

variable [PythonText] [CodeText] (isPrintable : Char → Bool)

/-! ## The transport -/

/-- `re.search(r"(?<!\d)(\d{6})(?!\d)", text)`. -/
def searchSixDigits (text : List Char) : Option (List Char) := isolated CodeText.isDecimal 6 text

mutual

def extractSmsbowerCode : Json → Option (List Char)
  | .null => none
  | .obj fields =>
      (smsbowerCodeKeys.findSome? fun key => extractSmsbowerField fields key).or
        (searchSixDigits (Json.obj fields).dumps)
  | payload => searchSixDigits (payload.text isPrintable)

/-- `extract_smsbower_code(payload.get(key))`. -/
def extractSmsbowerField : List (String × Json) → String → Option (List Char)
  | [], _ => none
  | (name, value) :: rest, key =>
      if name = key then extractSmsbowerCode value else extractSmsbowerField rest key

end

omit [CodeText] in
def smsbowerResponseIsPending (payload : Json) : Bool :=
  let text := match payload with
    | .str s => s
    | payload => .ofList payload.dumps
  smsbowerPendingMarkers.any (occursIn · (lower text))

/-- `SmsBowerMailTransport.get_code`, of what the client makes of the request. -/
def SmsBowerMailTransport.getCode (response : Except String Json) :
    Except String (Option String × Bool) := do
  let payload ← response
  if smsbowerResponseIsPending payload then return (none, true)
  return ((extractSmsbowerCode isPrintable payload).map .ofList, false)

/-! ## The code that is named -/

omit [PythonText] [CodeText] in
def sixAsciiDigits (text : List Char) : Option (List Char) :=
  (stretches Char.isDigit text).find? fun digits => digits.length == 6

mutual

/-- The code that the values of the keys name, searched in the order of the keys. -/
def namedCode : Json → Option (List Char)
  | .null => none
  | .obj fields => smsbowerCodeKeys.findSome? fun key => namedCodeOf fields key
  | value => sixAsciiDigits (value.text isPrintable)

def namedCodeOf : List (String × Json) → String → Option (List Char)
  | [], _ => none
  | (name, value) :: rest, key => if name = key then namedCode value else namedCodeOf rest key

end

/-! ## The texts that are searched -/

/-- A text that is searched: the value of one of the keys, or an object as it is
serialised. -/
structure SearchedText where
  isValue : Bool
  text : List Char

def SearchedText.found (t : SearchedText) : Option (List Char) := searchSixDigits t.text

omit [PythonText] [CodeText] in
def SearchedText.named (t : SearchedText) : Option (List Char) :=
  if t.isValue then sixAsciiDigits t.text else none

mutual

/-- The texts of a payload in the order of the search. -/
def searchedTexts : Json → List SearchedText
  | .null => []
  | .obj fields =>
      (smsbowerCodeKeys.flatMap fun key => searchedTextsOf fields key) ++
        [⟨false, (Json.obj fields).dumps⟩]
  | value => [⟨true, value.text isPrintable⟩]

def searchedTextsOf : List (String × Json) → String → List SearchedText
  | [], _ => []
  | (name, value) :: rest, key =>
      if name = key then searchedTexts value else searchedTextsOf rest key

end

omit [PythonText] [CodeText] in
theorem findSome?_flatMap {α β γ : Type} (f : α → List β) (g : β → Option γ) (l : List α) :
    (l.flatMap f).findSome? g = l.findSome? fun a => (f a).findSome? g := by
  induction l with
  | nil => rfl
  | cons a rest ih =>
      rw [List.flatMap_cons, List.findSome?_append, List.findSome?_cons, ih]
      cases (f a).findSome? g <;> rfl

mutual

theorem extractSmsbowerCode_eq :
    ∀ payload, extractSmsbowerCode isPrintable payload =
      (searchedTexts isPrintable payload).findSome? SearchedText.found
  | .null => rfl
  | .obj fields => by
      rw [extractSmsbowerCode, searchedTexts, List.findSome?_append, findSome?_flatMap]
      congr 1
      · congr 1
        funext key
        exact extractSmsbowerField_eq fields key
      · rw [List.findSome?_singleton]
        rfl
  | .bool _ | .int _ | .float _ | .str _ | .arr _ => List.findSome?_singleton.symm

theorem extractSmsbowerField_eq :
    ∀ fields key, extractSmsbowerField isPrintable fields key =
      (searchedTextsOf isPrintable fields key).findSome? SearchedText.found
  | [], _ => rfl
  | (name, value) :: rest, key => by
      rw [extractSmsbowerField, searchedTextsOf]
      split
      · exact extractSmsbowerCode_eq value
      · exact extractSmsbowerField_eq rest key

end

section

omit [PythonText] [CodeText]

mutual

theorem namedCode_eq :
    ∀ payload, namedCode isPrintable payload =
      (searchedTexts isPrintable payload).findSome? SearchedText.named
  | .null => rfl
  | .obj fields => by
      rw [namedCode, searchedTexts, List.findSome?_append, findSome?_flatMap,
        List.findSome?_singleton]
      -- a serialised object names no code
      show _ = Option.or _ none
      rw [Option.or_none]
      congr 1
      funext key
      exact namedCodeOf_eq fields key
  | .bool _ | .int _ | .float _ | .str _ | .arr _ => List.findSome?_singleton.symm

theorem namedCodeOf_eq :
    ∀ fields key, namedCodeOf isPrintable fields key =
      (searchedTextsOf isPrintable fields key).findSome? SearchedText.named
  | [], _ => rfl
  | (name, value) :: rest, key => by
      rw [namedCodeOf, searchedTextsOf]
      split
      · exact namedCode_eq value
      · exact namedCodeOf_eq rest key

end

end

/-! ## Where the search finds the named code -/

omit [PythonText] [CodeText] in
theorem isDigit_lt {c : Char} (h : c.isDigit = true) : c.toNat < 128 := by
  unfold Char.isDigit at h
  simp only [ge_iff_le, Bool.and_eq_true, decide_eq_true_eq, UInt32.le_iff_toNat_le] at h
  have hupper : c.toNat ≤ 57 := h.2
  omega

theorem sixAsciiDigits_ne_none {text code : List Char} (h : searchSixDigits text = some code)
    (hascii : ∀ c ∈ code, c.isDigit = true) : sixAsciiDigits text ≠ none := by
  unfold searchSixDigits at h
  rw [isolated_eq_find? (by decide)] at h
  have hmem : code ∈ stretches Char.isDigit text := by
    refine mem_stretches_of_subclass ?_ (List.mem_of_find?_eq_some h) hascii
    intro c hc
    rw [CodeText.isDecimal_ascii c (isDigit_lt hc)]
    exact hc
  intro hnone
  have hlength := List.find?_some h
  exact absurd hlength (List.find?_eq_none.mp hnone code hmem)

/-- **The search finds what is named.** It passes the texts without a run of six
digits. At the first one with such a run, it is a value whose run both read
alike; or a value in which only ASCII digits make up a run of six, or a
serialised object, and the next text that has a run repeats the code. -/
inductive FindsNamed : List SearchedText → Prop where
  | nothing : FindsNamed []
  | pass {t : SearchedText} {rest : List SearchedText} (hfound : t.found = none)
      (hnamed : t.named = none) (hrest : FindsNamed rest) : FindsNamed (t :: rest)
  | alike {t : SearchedText} {rest : List SearchedText} {code : List Char}
      (hfound : t.found = some code) (hnamed : t.named = some code) : FindsNamed (t :: rest)
  | repeated {t : SearchedText} {rest : List SearchedText} {code : List Char}
      (hfound : t.found = none) (hnamed : t.named = some code)
      (hrest : rest.findSome? SearchedText.found = some code) : FindsNamed (t :: rest)
  | serialised {t : SearchedText} {rest : List SearchedText} {code : List Char}
      (hobject : t.isValue = false) (hfound : t.found = some code)
      (hrest : rest.findSome? SearchedText.named = some code) : FindsNamed (t :: rest)

omit [PythonText] [CodeText] in
theorem isDigit_of_sixAsciiDigits {text code : List Char} (h : sixAsciiDigits text = some code) :
    ∀ c ∈ code, c.isDigit = true :=
  all_of_mem_stretches (List.mem_of_find?_eq_some h)

omit [PythonText] [CodeText] in
theorem isDigit_of_named {texts : List SearchedText} {code : List Char}
    (h : texts.findSome? SearchedText.named = some code) : ∀ c ∈ code, c.isDigit = true := by
  obtain ⟨t, -, ht⟩ := List.exists_of_findSome?_eq_some h
  unfold SearchedText.named at ht
  split at ht
  · exact isDigit_of_sixAsciiDigits ht
  · cases ht

theorem named_ne_none {t : SearchedText} {code : List Char} (hvalue : t.isValue = true)
    (hfound : t.found = some code) (hascii : ∀ c ∈ code, c.isDigit = true) : t.named ≠ none := by
  unfold SearchedText.named
  rw [if_pos hvalue]
  exact sixAsciiDigits_ne_none hfound hascii

theorem findsNamed_iff (texts : List SearchedText) :
    texts.findSome? SearchedText.found = texts.findSome? SearchedText.named ↔
      FindsNamed texts := by
  induction texts with
  | nil => exact iff_of_true rfl .nothing
  | cons t rest ih =>
      rw [List.findSome?_cons, List.findSome?_cons]
      constructor
      · intro h
        cases hfound : t.found with
        | none =>
            cases hnamed : t.named with
            | none =>
                rw [hfound, hnamed] at h
                exact .pass hfound hnamed (ih.mp h)
            | some code =>
                rw [hfound, hnamed] at h
                exact .repeated hfound hnamed h
        | some code =>
            cases hnamed : t.named with
            | none =>
                rw [hfound, hnamed] at h
                have hrest : rest.findSome? SearchedText.named = some code := h.symm
                refine .serialised ?_ hfound hrest
                by_contra hvalue
                exact named_ne_none (by simpa using hvalue) hfound (isDigit_of_named hrest) hnamed
            | some code' =>
                rw [hfound, hnamed] at h
                have hcode : code = code' := Option.some.inj h
                exact .alike hfound (hcode ▸ hnamed)
      · intro h
        cases h with
        | pass hfound hnamed hrest =>
            rw [hfound, hnamed]
            exact ih.mpr hrest
        | alike hfound hnamed => rw [hfound, hnamed]
        | repeated hfound hnamed hrest =>
            rw [hfound, hnamed]
            exact hrest
        | serialised hobject hfound hrest =>
            have hnamed : t.named = none := by
              unfold SearchedText.named
              rw [hobject, if_neg Bool.false_ne_true]
            rw [hfound, hnamed]
            exact hrest.symm

/-- **`get_code` returns the code that is named**, or none where none is named,
exactly if the search finds the named one. -/
theorem getCode_named_iff {fields : JsonObject}
    (h : smsbowerResponseIsPending (.obj fields) = false) :
    SmsBowerMailTransport.getCode isPrintable (.ok (.obj fields)) =
        .ok ((namedCode isPrintable (.obj fields)).map .ofList, false) ↔
      FindsNamed (searchedTexts isPrintable (.obj fields)) := by
  have hcode : SmsBowerMailTransport.getCode isPrintable (.ok (.obj fields)) =
      .ok ((extractSmsbowerCode isPrintable (.obj fields)).map .ofList, false) := by
    unfold SmsBowerMailTransport.getCode
    simp only [bind, Except.bind, h, Bool.false_eq_true, if_false]
    rfl
  have hinj : Function.Injective (Option.map String.ofList) :=
    Option.map_injective fun _ _ => String.ofList_injective
  rw [hcode, Except.ok.injEq, Prod.mk.injEq, hinj.eq_iff, extractSmsbowerCode_eq, namedCode_eq,
    findsNamed_iff]
  exact and_iff_left rfl

end

/-! ## An activation id -/

section Sample

attribute [local instance] asciiText asciiCodeText

def codeResponse (code : Json) : JsonObject :=
  [("status", .str "ok"), ("id", .str "123456"), ("code", code)]

/-- A code is found before the activation id is looked at. -/
theorem getCode_named_sample :
    SmsBowerMailTransport.getCode (fun _ => true) (.ok (.obj (codeResponse (.str "654321")))) =
      .ok ((namedCode (fun _ => true) (.obj (codeResponse (.str "654321")))).map .ofList, false) :=
  (getCode_named_iff (fun _ => true) (by decide +kernel)).mpr
    (.alike (show _ = some "654321".toList by decide +kernel) (by decide +kernel))

/-- **The activation id is taken for a code** when there is none. -/
theorem activation_id_taken_for_code :
    smsbowerResponseIsPending (.obj (codeResponse .null)) = false ∧
      namedCode (fun _ => true) (.obj (codeResponse .null)) = none ∧
      SmsBowerMailTransport.getCode (fun _ => true) (.ok (.obj (codeResponse .null))) =
        .ok (some "123456", false) := by
  decide +kernel

end Sample

end MailboxService
