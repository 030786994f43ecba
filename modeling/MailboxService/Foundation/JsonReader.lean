import MailboxService.Foundation.JsonText
import MailboxService.Foundation.OrderedDict
import Mathlib.Tactic.SplitIfs

/-!
# Reading JSON

`json.loads`: a scanner that reads a value off the front of a text, and the
grammar of the texts that it takes. A float is kept by its `repr`, and which
`repr` the number of a numeral has is a parameter. So is the character that
stands for half of a surrogate pair: an escape may name a half alone, which a
`str` can hold and a `Char` cannot. How deep values may nest is not limited.

The scanner takes exactly the texts of the grammar (`loads_eq_some`), and what
`json.dumps` writes of a value is one of them (`loads_dumps`).
-/

namespace MailboxService.Foundation.Json

/-! ## White space -/

def isSpace (c : Char) : Bool := c = ' ' || c = '\t' || c = '\n' || c = '\r'

def skipSpace (text : List Char) : List Char := text.dropWhile isSpace

def Blank (text : List Char) : Prop := ∀ c ∈ text, isSpace c = true

theorem blank_nil : Blank [] := nofun

theorem blank_singleton {c : Char} (h : isSpace c = true) : Blank [c] := by
  intro d hd
  rw [List.mem_singleton.mp hd]
  exact h

theorem skipSpace_blank {space text : List Char} (h : Blank space) :
    skipSpace (space ++ text) = skipSpace text := by
  induction space with
  | nil => rfl
  | cons c space ih =>
      have hspace := ih fun d hd => h d (List.mem_cons_of_mem _ hd)
      rw [List.cons_append]
      unfold skipSpace at hspace ⊢
      rw [List.dropWhile_cons_of_pos (h c List.mem_cons_self), hspace]

theorem skipSpace_of_head {c : Char} (h : isSpace c = false) (rest : List Char) :
    skipSpace (c :: rest) = c :: rest := by
  unfold skipSpace
  rw [List.dropWhile_cons_of_neg (by rw [h]; exact Bool.false_ne_true)]

theorem exists_blank (text : List Char) :
    ∃ space, Blank space ∧ text = space ++ skipSpace text := by
  refine ⟨text.takeWhile isSpace, ?_, List.takeWhile_append_dropWhile.symm⟩
  intro c hc
  exact List.all_eq_true.mp List.all_takeWhile c hc

theorem blank_of_skipSpace_nil {text : List Char} (h : skipSpace text = []) : Blank text := by
  obtain ⟨space, hspace, htext⟩ := exists_blank text
  rw [h, List.append_nil] at htext
  rw [htext]
  exact hspace

theorem skipSpace_nil_of_blank {text : List Char} (h : Blank text) : skipSpace text = [] := by
  rw [← List.append_nil text, skipSpace_blank h]
  rfl

/-! ## Strings -/

/-- The characters that stand for the halves of surrogate pairs. -/
class Surrogates where
  half : ℕ → Char

def hexDigit? (c : Char) : Option ℕ :=
  if '0' ≤ c ∧ c ≤ '9' then some (c.toNat - 48)
  else if 'a' ≤ c ∧ c ≤ 'f' then some (c.toNat - 87)
  else if 'A' ≤ c ∧ c ≤ 'F' then some (c.toNat - 55)
  else none

def codeUnit? (a b c d : Char) : Option ℕ :=
  match hexDigit? a, hexDigit? b, hexDigit? c, hexDigit? d with
  | some a, some b, some c, some d => some (((a * 16 + b) * 16 + c) * 16 + d)
  | _, _, _, _ => none

def isHighSurrogate (n : ℕ) : Bool := decide (0xD800 ≤ n ∧ n ≤ 0xDBFF)

def isLowSurrogate (n : ℕ) : Bool := decide (0xDC00 ≤ n ∧ n ≤ 0xDFFF)

def joinSurrogates (high low : ℕ) : Char :=
  .ofNat (0x10000 + (high - 0xD800) * 0x400 + (low - 0xDC00))

/-- What a character behind a backslash stands for. -/
def escape? (c : Char) : Option Char :=
  if c = '"' ∨ c = '\\' ∨ c = '/' then some c
  else if c = 'b' then some '\x08'
  else if c = 'f' then some '\x0c'
  else if c = 'n' then some '\n'
  else if c = 'r' then some '\r'
  else if c = 't' then some '\t'
  else none

def readUnit : List Char → Option (ℕ × List Char)
  | '\\' :: 'u' :: a :: b :: c :: d :: rest => (codeUnit? a b c d).map fun unit => (unit, rest)
  | _ => none

section

variable [Surrogates]

def readChar (text : List Char) : Option (Char × List Char) :=
  match readUnit text with
  | some (unit, rest) =>
      if isHighSurrogate unit then
        match readUnit rest with
        | some (low, next) =>
            -- what is no second half is left for the next character
            if isLowSurrogate low then some (joinSurrogates unit low, next)
            else some (Surrogates.half unit, rest)
        | none => some (Surrogates.half unit, rest)
      else if isLowSurrogate unit then some (Surrogates.half unit, rest)
      else some (.ofNat unit, rest)
  | none =>
      match text with
      | '\\' :: c :: rest => (escape? c).map fun c => (c, rest)
      | c :: rest => if c.toNat < 32 ∨ c = '\\' then none else some (c, rest)
      | [] => none

/-- A string behind its opening quote. The first argument bounds its length. -/
def readString : ℕ → List Char → Option (List Char × List Char)
  | 0, _ => none
  | bound + 1, text =>
      match text with
      | '"' :: rest => some ([], rest)
      | text =>
          match readChar text with
          | none => none
          | some (c, rest) => (readString bound rest).map fun read => (c :: read.1, read.2)

def unitText (a b c d : Char) : List Char := ['\\', 'u', a, b, c, d]

/-- A text does not begin with the second half of a pair. -/
def NoLowSurrogate (text : List Char) : Prop :=
  ∀ low rest, readUnit text = some (low, rest) → isLowSurrogate low = false

/-- The ways to spell a character in front of a text. -/
inductive Spells (next : List Char) : List Char → Char → Prop
  | plain {c : Char} (hc : 32 ≤ c.toNat) (hquote : c ≠ '"') (hescape : c ≠ '\\') :
      Spells next [c] c
  | escape {e c : Char} (h : escape? e = some c) : Spells next ['\\', e] c
  | unit {a b c d : Char} {n : ℕ} (h : codeUnit? a b c d = some n)
      (hhigh : isHighSurrogate n = false) (hlow : isLowSurrogate n = false) :
      Spells next (unitText a b c d) (.ofNat n)
  | pair {a b c d a' b' c' d' : Char} {high low : ℕ} (h : codeUnit? a b c d = some high)
      (h' : codeUnit? a' b' c' d' = some low) (hhigh : isHighSurrogate high = true)
      (hlow : isLowSurrogate low = true) :
      Spells next (unitText a b c d ++ unitText a' b' c' d') (joinSurrogates high low)
  | high {a b c d : Char} {n : ℕ} (h : codeUnit? a b c d = some n)
      (hhigh : isHighSurrogate n = true) (hnext : NoLowSurrogate next) :
      Spells next (unitText a b c d) (Surrogates.half n)
  | low {a b c d : Char} {n : ℕ} (h : codeUnit? a b c d = some n)
      (hlow : isLowSurrogate n = true) : Spells next (unitText a b c d) (Surrogates.half n)

inductive SpellsAll : List Char → List Char → Prop
  | nil : SpellsAll [] []
  | cons {piece text chars : List Char} {c : Char} (hpiece : Spells text piece c)
      (htext : SpellsAll text chars) : SpellsAll (piece ++ text) (c :: chars)

end

theorem readUnit_unitText {a b c d : Char} {n : ℕ} (h : codeUnit? a b c d = some n)
    (rest : List Char) : readUnit (unitText a b c d ++ rest) = some (n, rest) := by
  show (codeUnit? a b c d).map _ = _
  rw [h]
  rfl

theorem readUnit_eq_some {text rest : List Char} {n : ℕ} (h : readUnit text = some (n, rest)) :
    ∃ a b c d, codeUnit? a b c d = some n ∧ text = unitText a b c d ++ rest := by
  unfold readUnit at h
  split at h
  · rename_i a b c d rest'
    obtain ⟨unit, hunit, heq⟩ := Option.map_eq_some_iff.mp h
    cases heq
    exact ⟨a, b, c, d, hunit, rfl⟩
  · cases h

theorem readUnit_of_head {c : Char} (h : c ≠ '\\') (rest : List Char) :
    readUnit (c :: rest) = none := by
  unfold readUnit
  split
  · rename_i heq
    cases heq
    exact absurd rfl h
  · rfl

theorem quote_not_mem_unitText {a b c d : Char} {n : ℕ} (h : codeUnit? a b c d = some n) :
    '"' ∉ unitText a b c d := by
  have hquote : hexDigit? '"' = none := by decide
  intro hmem
  unfold codeUnit? at h
  split at h
  · rename_i ha hb hc hd
    simp only [unitText, List.mem_cons, List.not_mem_nil, or_false] at hmem
    rcases hmem with hbad | hbad | rfl | rfl | rfl | rfl
    · revert hbad
      decide
    · revert hbad
      decide
    · rw [hquote] at ha
      cases ha
    · rw [hquote] at hb
      cases hb
    · rw [hquote] at hc
      cases hc
    · rw [hquote] at hd
      cases hd
  · cases h

/-- The quote behind a text is no part of an escape at its front. -/
theorem noLowSurrogate_quote {text : List Char} (rest : List Char) :
    NoLowSurrogate (text ++ '"' :: rest) ↔ NoLowSurrogate text := by
  constructor
  · intro h low next hread
    obtain ⟨a, b, c, d, hcode, rfl⟩ := readUnit_eq_some hread
    refine h low (next ++ '"' :: rest) ?_
    rw [List.append_assoc, readUnit_unitText hcode]
  · intro h low next hread
    obtain ⟨a, b, c, d, hcode, htext⟩ := readUnit_eq_some hread
    have hread : ∀ behind, text = unitText a b c d ++ behind → isLowSurrogate low = false := by
      rintro behind rfl
      exact h low behind (readUnit_unitText hcode behind)
    rcases List.append_eq_append_iff.mp htext with ⟨behind, hunit, hnext⟩ | ⟨behind, htext, -⟩
    · cases behind with
      | nil => exact hread [] (by rw [List.append_nil, hunit, List.append_nil])
      | cons q behind =>
          obtain ⟨rfl, -⟩ := List.cons.inj hnext
          refine absurd ?_ (quote_not_mem_unitText hcode)
          rw [hunit]
          exact List.mem_append_right _ List.mem_cons_self
    · exact hread behind htext

theorem not_isHighSurrogate_of_isLowSurrogate {n : ℕ} (h : isLowSurrogate n = true) :
    isHighSurrogate n = false := by
  have hlow := of_decide_eq_true h
  exact decide_eq_false (by omega)

section

variable [Surrogates]

/-- A spelling is one in front of any other text that continues no pair either. -/
theorem Spells.follow {next next' piece : List Char} {c : Char} (h : Spells next piece c)
    (hnext : NoLowSurrogate next → NoLowSurrogate next') : Spells next' piece c := by
  cases h with
  | plain hc hquote hescape => exact .plain hc hquote hescape
  | escape h => exact .escape h
  | unit h hhigh hlow => exact .unit h hhigh hlow
  | pair h h' hhigh hlow => exact .pair h h' hhigh hlow
  | high h hhigh hfree => exact .high h hhigh (hnext hfree)
  | low h hlow => exact .low h hlow

theorem Spells.read {rest piece : List Char} {c : Char} (h : Spells rest piece c) :
    readChar (piece ++ rest) = some (c, rest) := by
  cases h with
  | plain hc hquote hescape =>
      unfold readChar
      rw [List.singleton_append, readUnit_of_head hescape]
      simp only
      split
      · rename_i heq
        cases heq
        exact absurd rfl hescape
      · rename_i heq
        cases heq
        exact if_neg fun h => h.elim (fun h => absurd hc h.not_ge) hescape
      · rename_i heq
        cases heq
  | @escape e c h =>
      have hunit : readUnit ('\\' :: e :: rest) = none := by
        unfold readUnit
        split
        · rename_i heq
          cases heq
          cases h
        · rfl
      have hread : readChar ('\\' :: e :: rest) = (escape? e).map fun c => (c, rest) := by
        rw [readChar, hunit]
      exact hread.trans (by rw [h]; rfl)
  | unit h hhigh hlow =>
      unfold readChar
      rw [readUnit_unitText h]
      simp only
      rw [hhigh, hlow]
      rfl
  | pair h h' hhigh hlow =>
      unfold readChar
      rw [List.append_assoc, readUnit_unitText h]
      simp only
      rw [if_pos hhigh, readUnit_unitText h']
      simp only
      rw [if_pos hlow]
  | high h hhigh hnext =>
      unfold readChar
      rw [readUnit_unitText h]
      simp only
      rw [if_pos hhigh]
      split
      · rename_i hunit
        rw [hnext _ _ hunit]
        rfl
      · rfl
  | low h hlow =>
      unfold readChar
      rw [readUnit_unitText h]
      simp only
      rw [not_isHighSurrogate_of_isLowSurrogate hlow, hlow]
      rfl

theorem readChar_eq_some {text rest : List Char} {c : Char} (h : readChar text = some (c, rest))
    (hquote : text.head? ≠ some '"') : ∃ piece, Spells rest piece c ∧ text = piece ++ rest := by
  unfold readChar at h
  split at h
  · rename_i unit rest' hunit
    obtain ⟨a, b, c, d, hcode, rfl⟩ := readUnit_eq_some hunit
    split at h
    · rename_i hhigh
      split at h
      · rename_i low next hunit'
        obtain ⟨a', b', c', d', hcode', rfl⟩ := readUnit_eq_some hunit'
        split at h
        · rename_i hlow
          rw [Option.some.injEq, Prod.mk.injEq] at h
          obtain ⟨rfl, rfl⟩ := h
          exact ⟨_, .pair hcode hcode' hhigh hlow, (List.append_assoc _ _ _).symm⟩
        · rename_i hlow
          rw [Option.some.injEq, Prod.mk.injEq] at h
          obtain ⟨rfl, rfl⟩ := h
          refine ⟨_, .high hcode hhigh ?_, rfl⟩
          intro low' next' hread
          rw [hunit'] at hread
          cases hread
          exact eq_false_of_ne_true hlow
      · rename_i hunit'
        rw [Option.some.injEq, Prod.mk.injEq] at h
        obtain ⟨rfl, rfl⟩ := h
        refine ⟨_, .high hcode hhigh ?_, rfl⟩
        intro low next hread
        rw [hunit'] at hread
        cases hread
    · rename_i hhigh
      split at h
      · rename_i hlow
        rw [Option.some.injEq, Prod.mk.injEq] at h
        obtain ⟨rfl, rfl⟩ := h
        exact ⟨_, .low hcode hlow, rfl⟩
      · rename_i hlow
        rw [Option.some.injEq, Prod.mk.injEq] at h
        obtain ⟨rfl, rfl⟩ := h
        exact ⟨_, .unit hcode (eq_false_of_ne_true hhigh) (eq_false_of_ne_true hlow), rfl⟩
  · split at h
    · rename_i e rest'
      obtain ⟨c', hescape, heq⟩ := Option.map_eq_some_iff.mp h
      cases heq
      exact ⟨_, .escape hescape, rfl⟩
    · rename_i c' rest' _ _
      split at h
      · cases h
      · rename_i hc
        cases h
        rw [not_or] at hc
        refine ⟨[c], .plain (not_lt.mp hc.1) ?_ hc.2, rfl⟩
        rintro rfl
        exact hquote rfl
    · cases h

theorem Spells.head {next piece : List Char} {c : Char} (h : Spells next piece c) :
    ∃ d rest, piece = d :: rest ∧ d ≠ '"' := by
  cases h with
  | plain hc hquote hescape => exact ⟨_, _, rfl, hquote⟩
  | escape h => exact ⟨_, _, rfl, by decide⟩
  | unit h hhigh hlow => exact ⟨_, _, rfl, by decide⟩
  | pair h h' hhigh hlow => exact ⟨_, _, rfl, by decide⟩
  | high h hhigh hnext => exact ⟨_, _, rfl, by decide⟩
  | low h hlow => exact ⟨_, _, rfl, by decide⟩

theorem SpellsAll.read {body chars : List Char} (h : SpellsAll body chars) {bound : ℕ}
    (hbound : body.length < bound) (rest : List Char) :
    readString bound (body ++ '"' :: rest) = some (chars, rest) := by
  induction h generalizing bound with
  | nil =>
      obtain ⟨bound, rfl⟩ := Nat.exists_eq_add_one.mpr hbound
      rfl
  | @cons piece text chars c hpiece htext ih =>
      obtain ⟨bound, rfl⟩ := Nat.exists_eq_add_one.mpr (Nat.zero_lt_of_lt hbound)
      have hread := (hpiece.follow (noLowSurrogate_quote rest).mpr).read
      obtain ⟨d, tail, rfl, hd⟩ := hpiece.head
      have hlength : text.length < bound := by
        rw [List.length_append, List.length_cons] at hbound
        omega
      rw [List.append_assoc, List.cons_append]
      rw [List.cons_append] at hread
      rw [readString]
      · rw [hread]
        simp only
        rw [ih hlength]
        rfl
      · intro rest' heq
        cases heq
        exact hd rfl

theorem readString_eq_some {bound : ℕ} {text chars rest : List Char}
    (h : readString bound text = some (chars, rest)) :
    ∃ body, SpellsAll body chars ∧ text = body ++ '"' :: rest := by
  induction bound generalizing text chars rest with
  | zero => cases h
  | succ bound ih =>
      rw [readString.eq_def] at h
      simp only at h
      split at h
      · cases h
        exact ⟨[], .nil, rfl⟩
      · rename_i hquote
        split at h
        · cases h
        · rename_i c rest' hc
          obtain ⟨⟨chars', rest''⟩, hread, heq⟩ := Option.map_eq_some_iff.mp h
          cases heq
          obtain ⟨body, hbody, rfl⟩ := ih hread
          have hhead : text.head? ≠ some '"' := by
            intro hhead
            obtain ⟨tail, rfl⟩ := List.head?_eq_some_iff.mp hhead
            exact hquote tail rfl
          obtain ⟨piece, hpiece, rfl⟩ := readChar_eq_some hc hhead
          refine ⟨piece ++ body, .cons ?_ hbody, (List.append_assoc _ _ _).symm⟩
          exact hpiece.follow (noLowSurrogate_quote _).mp

end

/-! ## Numbers and names -/

def isDigit (c : Char) : Bool := decide ('0' ≤ c ∧ c ≤ '9')

def isNumeralChar (c : Char) : Bool :=
  isDigit c || c = '-' || c = '+' || c = '.' || c = 'e' || c = 'E'

def isWhole (digits : List Char) : Bool :=
  !digits.isEmpty && (digits.head? ≠ some '0' || digits.length = 1)

/-- What follows the digits behind the point, if there is one. -/
def skipFraction : List Char → Option (List Char)
  | '.' :: rest => if (rest.takeWhile isDigit).isEmpty then none else some (rest.dropWhile isDigit)
  | rest => some rest

def isExponent : List Char → Bool
  | [] => true
  | e :: rest =>
      let digits := if rest.head? = some '+' ∨ rest.head? = some '-' then rest.tail else rest
      (e = 'e' || e = 'E') && !digits.isEmpty && digits.all isDigit

/-- An integer has at most this many digits. -/
def maxDigits : ℕ := 4300

section

variable [Surrogates] (floatRepr : List Char → String)

/-- The number of a numeral: a float with a point or an exponent. -/
def numeral? (token : List Char) : Option Json :=
  let negative := decide (token.head? = some '-')
  let unsigned := if negative then token.tail else token
  let whole := unsigned.takeWhile isDigit
  let rest := unsigned.dropWhile isDigit
  if isWhole whole && (skipFraction rest).any isExponent then
    if rest.isEmpty then
      if maxDigits < whole.length then none
      else some (.int (if negative then -(digitsValue whole : ℤ) else digitsValue whole))
    else some (.float (floatRepr token))
  else none

def readNumeral (text : List Char) : Option (Json × List Char) :=
  (numeral? floatRepr (text.takeWhile isNumeralChar)).map fun value =>
    (value, text.dropWhile isNumeralChar)

def names : List (List Char × Json) :=
  [("null".toList, .null), ("true".toList, .bool true), ("false".toList, .bool false),
    ("NaN".toList, .float "nan"), ("Infinity".toList, .float "inf"),
    ("-Infinity".toList, .float "-inf")]

def readName (text : List Char) : Option (Json × List Char) :=
  (names.find? fun name => name.1.isPrefixOf text).map fun name =>
    (name.2, text.drop name.1.length)

/-! ## Values -/

/-- Of several entries for a key, the last counts. -/
def object (fields : List (String × Json)) : JsonObject :=
  ((∅ : OrderedDict String Json).update fields).items

/-- An entry of an object, given how to read its value. -/
def readField (readValue : List Char → Option (Json × List Char)) :
    List Char → Option ((String × Json) × List Char)
  | '"' :: rest =>
      match readString rest.length rest with
      | some (key, rest) =>
          match skipSpace rest with
          | ':' :: rest =>
              (readValue (skipSpace rest)).map fun read => ((.ofList key, read.1), read.2)
          | _ => none
      | none => none
  | _ => none

mutual

/-- A value. The first argument bounds the number of calls. -/
def readValue : ℕ → List Char → Option (Json × List Char)
  | 0, _ => none
  | bound + 1, text =>
      match text with
      | '"' :: rest =>
          (readString rest.length rest).map fun read => (.str (.ofList read.1), read.2)
      | '[' :: rest =>
          match skipSpace rest with
          | ']' :: rest => some (.arr [], rest)
          | rest => (readItems bound rest).map fun read => (.arr read.1, read.2)
      | '\x7b' :: rest =>
          match skipSpace rest with
          | '\x7d' :: rest => some (.obj [], rest)
          | rest => (readFields bound rest).map fun read => (.obj (object read.1), read.2)
      | text => (readNumeral floatRepr text).or (readName text)

/-- The items of an array up to its closing bracket. -/
def readItems : ℕ → List Char → Option (List Json × List Char)
  | 0, _ => none
  | bound + 1, text =>
      match readValue bound text with
      | none => none
      | some (value, rest) =>
          match skipSpace rest with
          | ']' :: rest => some ([value], rest)
          | ',' :: rest =>
              (readItems bound (skipSpace rest)).map fun read => (value :: read.1, read.2)
          | _ => none

/-- The entries of an object up to its closing brace. -/
def readFields : ℕ → List Char → Option (List (String × Json) × List Char)
  | 0, _ => none
  | bound + 1, text =>
      match readField (readValue bound) text with
      | none => none
      | some (field, rest) =>
          match skipSpace rest with
          | '\x7d' :: rest => some ([field], rest)
          | ',' :: rest =>
              (readFields bound (skipSpace rest)).map fun read => (field :: read.1, read.2)
          | _ => none

end

/-- `json.loads(text)`. -/
def loads (text : List Char) : Option Json :=
  match readValue floatRepr (2 * text.length) (skipSpace text) with
  | some (value, rest) => if (skipSpace rest).isEmpty then some value else none
  | none => none

/-! ## The grammar -/

inductive Part where
  | value (value : Json)
  | items (items : List Json)
  | field (field : String × Json)
  | fields (fields : List (String × Json))

inductive Writes : List Char → Part → Prop
  | str {body chars : List Char} (h : SpellsAll body chars) :
      Writes ('"' :: body ++ ['"']) (.value (.str (.ofList chars)))
  | name {name : List Char} {value : Json} (h : (name, value) ∈ names) :
      Writes name (.value value)
  | numeral {token : List Char} {value : Json} (hchars : token.all isNumeralChar = true)
      (h : numeral? floatRepr token = some value) : Writes token (.value value)
  | noItems {space : List Char} (hspace : Blank space) :
      Writes ('[' :: space ++ [']']) (.value (.arr []))
  | arr {space body : List Char} {items : List Json} (hspace : Blank space)
      (hbody : Writes body (.items items)) :
      Writes ('[' :: space ++ body ++ [']']) (.value (.arr items))
  | noFields {space : List Char} (hspace : Blank space) :
      Writes ('\x7b' :: space ++ ['\x7d']) (.value (.obj []))
  | obj {space body : List Char} {fields : List (String × Json)} (hspace : Blank space)
      (hbody : Writes body (.fields fields)) :
      Writes ('\x7b' :: space ++ body ++ ['\x7d']) (.value (.obj (object fields)))
  | lastItem {text space : List Char} {value : Json} (htext : Writes text (.value value))
      (hspace : Blank space) : Writes (text ++ space) (.items [value])
  | moreItems {text before after rest : List Char} {value : Json} {items : List Json}
      (htext : Writes text (.value value)) (hbefore : Blank before) (hafter : Blank after)
      (hrest : Writes rest (.items items)) :
      Writes (text ++ before ++ ',' :: after ++ rest) (.items (value :: items))
  | field {key chars before after text : List Char} {value : Json} (hkey : SpellsAll key chars)
      (hbefore : Blank before) (hafter : Blank after) (htext : Writes text (.value value)) :
      Writes ('"' :: key ++ '"' :: before ++ ':' :: after ++ text) (.field (.ofList chars, value))
  | lastField {text space : List Char} {field : String × Json} (htext : Writes text (.field field))
      (hspace : Blank space) : Writes (text ++ space) (.fields [field])
  | moreFields {text before after rest : List Char} {field : String × Json}
      {fields : List (String × Json)} (htext : Writes text (.field field))
      (hbefore : Blank before) (hafter : Blank after) (hrest : Writes rest (.fields fields)) :
      Writes (text ++ before ++ ',' :: after ++ rest) (.fields (field :: fields))

variable {floatRepr}

/-! ## What the scanner takes -/

def Stops (rest : List Char) : Prop := ∀ c ∈ rest.head?, isNumeralChar c = false

omit [Surrogates] in
theorem not_numeralChar {c d : Char} (h : isNumeralChar c = true) (hd : isNumeralChar d = false) :
    c ≠ d := by
  rintro rfl
  rw [h] at hd
  cases hd

omit [Surrogates] in
theorem isNumeralChar_of_isSpace {c : Char} (h : isSpace c = true) : isNumeralChar c = false := by
  unfold isSpace at h
  simp only [Bool.or_eq_true, decide_eq_true_eq] at h
  rcases h with ((rfl | rfl) | rfl) | rfl
  · rfl
  · rfl
  · rfl
  · rfl

omit [Surrogates] in
theorem stops_blank {space rest : List Char} (h : Blank space) (hrest : Stops rest) :
    Stops (space ++ rest) := by
  cases space with
  | nil => exact hrest
  | cons c space =>
      rintro d hd
      cases hd
      exact isNumeralChar_of_isSpace (h _ List.mem_cons_self)

omit [Surrogates] in
theorem stops_cons {c : Char} (h : isNumeralChar c = false) (rest : List Char) :
    Stops (c :: rest) := by
  rintro d hd
  cases hd
  exact h

omit [Surrogates] in
theorem readNumeral_append {token rest : List Char} {value : Json}
    (hchars : token.all isNumeralChar = true) (h : numeral? floatRepr token = some value)
    (hrest : Stops rest) : readNumeral floatRepr (token ++ rest) = some (value, rest) := by
  have hall := List.all_eq_true.mp hchars
  have hstop : rest.takeWhile isNumeralChar = [] ∧ rest.dropWhile isNumeralChar = rest := by
    cases rest with
    | nil => exact ⟨rfl, rfl⟩
    | cons c rest =>
        have hc : ¬ isNumeralChar c = true := by
          rw [hrest c rfl]
          exact Bool.false_ne_true
        exact ⟨List.takeWhile_cons_of_neg hc, List.dropWhile_cons_of_neg hc⟩
  unfold readNumeral
  rw [List.takeWhile_append_of_pos hall, List.dropWhile_append_of_pos hall, hstop.1, hstop.2,
    List.append_nil, h]
  rfl

theorem readNumeral_eq_some {text rest : List Char} {value : Json}
    (h : readNumeral floatRepr text = some (value, rest)) :
    ∃ token, Writes floatRepr token (.value value) ∧ text = token ++ rest := by
  obtain ⟨found, hvalue, heq⟩ := Option.map_eq_some_iff.mp h
  cases heq
  exact ⟨_, .numeral List.all_takeWhile hvalue, List.takeWhile_append_dropWhile.symm⟩

theorem readName_eq_some {text rest : List Char} {value : Json}
    (h : readName text = some (value, rest)) :
    ∃ name, Writes floatRepr name (.value value) ∧ text = name ++ rest := by
  obtain ⟨⟨name, found⟩, hname, heq⟩ := Option.map_eq_some_iff.mp h
  cases heq
  have hfound := List.find?_some hname
  obtain ⟨rest, rfl⟩ := List.isPrefixOf_iff_prefix.mp hfound
  refine ⟨name, .name (List.mem_of_find?_eq_some hname), ?_⟩
  exact congrArg (name ++ ·) (List.drop_left).symm

structure Opens (text : List Char) : Prop where
  ne_nil : text ≠ []
  notSpace : ∀ c ∈ text.head?, isSpace c = false
  notClosing : ∀ c ∈ text.head?, c ≠ ']' ∧ c ≠ '\x7d'

omit [Surrogates] in
theorem opens_cons {c : Char} (hspace : isSpace c = false) (hbracket : c ≠ ']')
    (hbrace : c ≠ '\x7d') (rest : List Char) : Opens (c :: rest) where
  ne_nil := List.cons_ne_nil _ _
  notSpace d hd := by
    cases hd
    exact hspace
  notClosing d hd := by
    cases hd
    exact ⟨hbracket, hbrace⟩

omit [Surrogates] in
theorem Opens.append {text : List Char} (h : Opens text) (rest : List Char) :
    Opens (text ++ rest) := by
  obtain ⟨c, tail, rfl⟩ := List.exists_cons_of_ne_nil h.ne_nil
  exact opens_cons (h.notSpace c rfl) (h.notClosing c rfl).1 (h.notClosing c rfl).2 _

omit [Surrogates] in
/-- White space in front of a part is skipped. -/
theorem Opens.skip {text : List Char} (h : Opens text) {space : List Char} (hspace : Blank space) :
    skipSpace (space ++ text) = text := by
  obtain ⟨c, tail, rfl⟩ := List.exists_cons_of_ne_nil h.ne_nil
  rw [skipSpace_blank hspace, skipSpace_of_head (h.notSpace c rfl)]

theorem Writes.opens {text : List Char} {part : Part} (h : Writes floatRepr text part) :
    Opens text := by
  induction h with
  | str h => exact opens_cons rfl (by decide) (by decide) _
  | @name name value h =>
      simp only [names, List.mem_cons, Prod.mk.injEq, List.not_mem_nil, or_false] at h
      rcases h with ⟨rfl, -⟩ | ⟨rfl, -⟩ | ⟨rfl, -⟩ | ⟨rfl, -⟩ | ⟨rfl, -⟩ | ⟨rfl, -⟩
      all_goals exact opens_cons rfl (by decide) (by decide) _
  | @numeral token value hchars h =>
      cases token with
      | nil => cases h
      | cons c token =>
          have hc : isNumeralChar c = true := List.all_eq_true.mp hchars c List.mem_cons_self
          refine opens_cons ?_ (not_numeralChar hc rfl) (not_numeralChar hc rfl) _
          by_contra hspace
          rw [isNumeralChar_of_isSpace (eq_true_of_ne_false hspace)] at hc
          cases hc
  | noItems hspace => exact opens_cons rfl (by decide) (by decide) _
  | arr hspace hbody => exact opens_cons rfl (by decide) (by decide) _
  | noFields hspace => exact opens_cons rfl (by decide) (by decide) _
  | obj hspace hbody => exact opens_cons rfl (by decide) (by decide) _
  | lastItem htext hspace ih => exact ih.append _
  | moreItems htext hbefore hafter hrest ih => exact (ih.append _).append _ |>.append _
  | field hkey hbefore hafter htext => exact opens_cons rfl (by decide) (by decide) _
  | lastField htext hspace ih => exact ih.append _
  | moreFields htext hbefore hafter hrest ih => exact (ih.append _).append _ |>.append _

/-- A part of a text is read, whatever comes behind it. -/
def IsRead (floatRepr : List Char → String) (text : List Char) : Part → Prop
  | .value value => ∀ bound rest, 2 * text.length ≤ bound → Stops rest →
      readValue floatRepr bound (text ++ rest) = some (value, rest)
  | .items items => ∀ bound rest, 2 * text.length < bound →
      readItems floatRepr bound (text ++ ']' :: rest) = some (items, rest)
  | .field field => ∀ bound rest, 2 * text.length ≤ bound → Stops rest →
      readField (readValue floatRepr bound) (text ++ rest) = some (field, rest)
  | .fields fields => ∀ bound rest, 2 * text.length < bound →
      readFields floatRepr bound (text ++ '\x7d' :: rest) = some (fields, rest)

/-- A value that is no string, no array and no object. -/
theorem readValue_simple {c : Char} (hquote : c ≠ '"') (hbracket : c ≠ '[') (hbrace : c ≠ '\x7b')
    (bound : ℕ) (rest : List Char) :
    readValue floatRepr (bound + 1) (c :: rest) =
      (readNumeral floatRepr (c :: rest)).or (readName (c :: rest)) := by
  rw [readValue]
  · rintro rest' heq
    cases heq
    exact hquote rfl
  · rintro rest' heq
    cases heq
    exact hbracket rfl
  · rintro rest' heq
    cases heq
    exact hbrace rfl

theorem readValue_name {name : List Char} {value : Json} (h : (name, value) ∈ names) (bound : ℕ)
    (rest : List Char) : readValue floatRepr (bound + 1) (name ++ rest) = some (value, rest) := by
  simp only [names, List.mem_cons, Prod.mk.injEq, List.not_mem_nil, or_false] at h
  rcases h with ⟨rfl, rfl⟩ | ⟨rfl, rfl⟩ | ⟨rfl, rfl⟩ | ⟨rfl, rfl⟩ | ⟨rfl, rfl⟩ | ⟨rfl, rfl⟩
  all_goals
    refine (readValue_simple (by decide) (by decide) (by decide) _ _).trans ?_
    rfl

theorem readValue_numeral {token rest : List Char} {value : Json} (bound : ℕ)
    (hchars : token.all isNumeralChar = true) (h : numeral? floatRepr token = some value)
    (hrest : Stops rest) :
    readValue floatRepr (bound + 1) (token ++ rest) = some (value, rest) := by
  have hread := readNumeral_append hchars h hrest
  cases token with
  | nil => cases h
  | cons c token =>
      have hc : isNumeralChar c = true := List.all_eq_true.mp hchars c List.mem_cons_self
      rw [List.cons_append] at hread ⊢
      rw [readValue_simple (not_numeralChar hc rfl) (not_numeralChar hc rfl)
        (not_numeralChar hc rfl), hread]
      rfl

theorem readValue_str {body chars : List Char} (h : SpellsAll body chars) (bound : ℕ)
    (rest : List Char) :
    readValue floatRepr (bound + 1) ('"' :: (body ++ '"' :: rest)) =
      some (.str (.ofList chars), rest) := by
  rw [readValue, h.read (by rw [List.length_append, List.length_cons]; omega)]
  rfl

theorem readValue_arr {text items : List Char} (hskip : skipSpace text = items)
    (hopens : Opens items) (bound : ℕ) :
    readValue floatRepr (bound + 1) ('[' :: text) =
      (readItems floatRepr bound items).map fun read => (.arr read.1, read.2) := by
  rw [readValue, hskip]
  split
  · exact absurd rfl (hopens.notClosing _ rfl).1
  · rfl

theorem readValue_obj {text fields : List Char} (hskip : skipSpace text = fields)
    (hopens : Opens fields) (bound : ℕ) :
    readValue floatRepr (bound + 1) ('\x7b' :: text) =
      (readFields floatRepr bound fields).map fun read => (.obj (object read.1), read.2) := by
  rw [readValue, hskip]
  split
  · exact absurd rfl (hopens.notClosing _ rfl).2
  · rfl

/-- **Completeness**: what the grammar writes is read. -/
theorem Writes.read {text : List Char} {part : Part} (h : Writes floatRepr text part) :
    IsRead floatRepr text part := by
  induction h with
  | @str body chars h =>
      intro bound rest hbound _
      rw [List.length_append, List.length_cons] at hbound
      obtain ⟨bound, rfl⟩ := Nat.exists_eq_add_one.mpr (by omega : 0 < bound)
      rw [List.append_assoc, List.cons_append]
      exact readValue_str h bound rest
  | name h =>
      intro bound rest hbound _
      have hlength := List.length_pos_of_ne_nil (@Writes.name _ floatRepr _ _ h).opens.ne_nil
      obtain ⟨bound, rfl⟩ := Nat.exists_eq_add_one.mpr (by omega : 0 < bound)
      exact readValue_name h bound rest
  | numeral hchars h =>
      intro bound rest hbound hrest
      have hlength := List.length_pos_of_ne_nil (Writes.numeral hchars h).opens.ne_nil
      obtain ⟨bound, rfl⟩ := Nat.exists_eq_add_one.mpr (by omega : 0 < bound)
      exact readValue_numeral bound hchars h hrest
  | @noItems space hspace =>
      intro bound rest hbound _
      rw [List.length_append, List.length_cons] at hbound
      obtain ⟨bound, rfl⟩ := Nat.exists_eq_add_one.mpr (by omega : 0 < bound)
      rw [List.append_assoc, List.cons_append, readValue, skipSpace_blank hspace]
      rfl
  | @arr space body items hspace hbody ih =>
      intro bound rest hbound _
      rw [List.length_append, List.length_append, List.length_cons] at hbound
      obtain ⟨bound, rfl⟩ := Nat.exists_eq_add_one.mpr (by omega : 0 < bound)
      have hopens := hbody.opens.append (']' :: rest)
      have hread := @readValue_arr _ floatRepr _ _ (hopens.skip hspace) hopens bound
      rw [ih bound rest (by omega)] at hread
      rw [List.append_assoc, List.append_assoc]
      exact hread
  | @noFields space hspace =>
      intro bound rest hbound _
      rw [List.length_append, List.length_cons] at hbound
      obtain ⟨bound, rfl⟩ := Nat.exists_eq_add_one.mpr (by omega : 0 < bound)
      rw [List.append_assoc, List.cons_append, readValue, skipSpace_blank hspace]
      rfl
  | @obj space body fields hspace hbody ih =>
      intro bound rest hbound _
      rw [List.length_append, List.length_append, List.length_cons] at hbound
      obtain ⟨bound, rfl⟩ := Nat.exists_eq_add_one.mpr (by omega : 0 < bound)
      have hopens := hbody.opens.append ('\x7d' :: rest)
      have hread := @readValue_obj _ floatRepr _ _ (hopens.skip hspace) hopens bound
      rw [ih bound rest (by omega)] at hread
      rw [List.append_assoc, List.append_assoc]
      exact hread
  | @lastItem text space value htext hspace ih =>
      intro bound rest hbound
      rw [List.length_append] at hbound
      obtain ⟨bound, rfl⟩ := Nat.exists_eq_add_one.mpr (by omega : 0 < bound)
      have hread := ih bound (space ++ ']' :: rest) (by omega)
        (stops_blank hspace (stops_cons rfl _))
      rw [List.append_assoc, readItems, hread]
      simp only
      rw [skipSpace_blank hspace]
      rfl
  | @moreItems text before after tail value items htext hbefore hafter hrest ih ihrest =>
      -- the comma ends the item, and the rest begins behind the white space after it
      intro bound rest hbound
      rw [List.length_append, List.length_append, List.length_append, List.length_cons] at hbound
      obtain ⟨bound, rfl⟩ := Nat.exists_eq_add_one.mpr (by omega : 0 < bound)
      have hread := ih bound (before ++ ',' :: (after ++ (tail ++ ']' :: rest))) (by omega)
        (stops_blank hbefore (stops_cons rfl _))
      have htail := ihrest bound rest (by omega)
      rw [List.append_assoc, List.append_assoc, List.append_assoc, List.cons_append, readItems,
        hread]
      simp only
      rw [skipSpace_blank hbefore, skipSpace_of_head rfl]
      simp only
      rw [(hrest.opens.append _).skip hafter, htail]
      rfl
  | @field key chars before after text value hkey hbefore hafter htext ih =>
      -- a key is read to its closing quote, whatever the bound of the value
      intro bound rest hbound hrest
      simp only [List.length_append, List.length_cons] at hbound
      have hread := ih bound rest (by omega) hrest
      have hlength : key.length <
          (key ++ '"' :: (before ++ ':' :: (after ++ (text ++ rest)))).length := by
        rw [List.length_append, List.length_cons]
        omega
      have hstring := hkey.read hlength (before ++ ':' :: (after ++ (text ++ rest)))
      have hshape : '"' :: key ++ '"' :: before ++ ':' :: after ++ text ++ rest =
          '"' :: (key ++ '"' :: (before ++ ':' :: (after ++ (text ++ rest)))) := by
        simp only [List.append_assoc, List.cons_append]
      rw [hshape, readField, hstring]
      simp only
      rw [skipSpace_blank hbefore, skipSpace_of_head rfl]
      simp only
      rw [(htext.opens.append _).skip hafter, hread]
      rfl
  | @lastField text space field htext hspace ih =>
      intro bound rest hbound
      rw [List.length_append] at hbound
      obtain ⟨bound, rfl⟩ := Nat.exists_eq_add_one.mpr (by omega : 0 < bound)
      have hread := ih bound (space ++ '\x7d' :: rest) (by omega)
        (stops_blank hspace (stops_cons rfl _))
      rw [List.append_assoc, readFields, hread]
      simp only
      rw [skipSpace_blank hspace]
      rfl
  | @moreFields text before after tail field fields htext hbefore hafter hrest ih ihrest =>
      intro bound rest hbound
      rw [List.length_append, List.length_append, List.length_append, List.length_cons] at hbound
      obtain ⟨bound, rfl⟩ := Nat.exists_eq_add_one.mpr (by omega : 0 < bound)
      have hread := ih bound (before ++ ',' :: (after ++ (tail ++ '\x7d' :: rest))) (by omega)
        (stops_blank hbefore (stops_cons rfl _))
      have htail := ihrest bound rest (by omega)
      rw [List.append_assoc, List.append_assoc, List.append_assoc, List.cons_append, readFields,
        hread]
      simp only
      rw [skipSpace_blank hbefore, skipSpace_of_head rfl]
      simp only
      rw [(hrest.opens.append _).skip hafter, htail]
      rfl

theorem readField_eq_some {readValue : List Char → Option (Json × List Char)}
    (hvalue : ∀ {text value rest}, readValue text = some (value, rest) →
      ∃ body, Writes floatRepr body (.value value) ∧ text = body ++ rest)
    {text rest : List Char} {field : String × Json}
    (h : readField readValue text = some (field, rest)) :
    ∃ body, Writes floatRepr body (.field field) ∧ text = body ++ rest := by
  unfold readField at h
  split at h
  · rename_i rest'
    split at h
    · rename_i key rest₁ hkey
      obtain ⟨spelt, hspelt, rfl⟩ := readString_eq_some hkey
      obtain ⟨before, hbefore, hskip⟩ := exists_blank rest₁
      split at h
      · rename_i rest₂ hcolon
        obtain ⟨⟨value, rest₃⟩, hread, heq⟩ := Option.map_eq_some_iff.mp h
        cases heq
        obtain ⟨body, hbody, hrest₂⟩ := hvalue hread
        obtain ⟨after, hafter, hskip'⟩ := exists_blank rest₂
        refine ⟨_, .field hspelt hbefore hafter hbody, ?_⟩
        rw [hskip, hcolon, hskip', hrest₂]
        simp only [List.append_assoc, List.cons_append]
      · cases h
    · cases h
  · cases h

/-- **Soundness**: what is read is written by the grammar. -/
theorem read_sound (bound : ℕ) :
    (∀ {text value rest}, readValue floatRepr bound text = some (value, rest) →
      ∃ body, Writes floatRepr body (.value value) ∧ text = body ++ rest) ∧
    (∀ {text items rest}, readItems floatRepr bound text = some (items, rest) →
      ∃ body, Writes floatRepr body (.items items) ∧ text = body ++ ']' :: rest) ∧
    ∀ {text fields rest}, readFields floatRepr bound text = some (fields, rest) →
      ∃ body, Writes floatRepr body (.fields fields) ∧ text = body ++ '\x7d' :: rest := by
  induction bound with
  | zero => exact ⟨nofun, nofun, nofun⟩
  | succ bound ih =>
      obtain ⟨ihvalue, ihitems, ihfields⟩ := ih
      refine ⟨?_, ?_, ?_⟩
      · intro text value rest h
        rw [readValue.eq_def] at h
        simp only at h
        split at h
        · rename_i rest'
          obtain ⟨⟨chars, rest₁⟩, hread, heq⟩ := Option.map_eq_some_iff.mp h
          cases heq
          obtain ⟨body, hbody, rfl⟩ := readString_eq_some hread
          exact ⟨_, .str hbody, by simp only [List.append_assoc, List.cons_append, List.nil_append]⟩
        · rename_i rest'
          obtain ⟨space, hspace, hskip⟩ := exists_blank rest'
          -- an empty array, or items up to the bracket
          split at h
          · rename_i rest₁ hclosing
            cases h
            refine ⟨_, .noItems hspace, ?_⟩
            rw [hskip, hclosing]
            simp only [List.append_assoc, List.cons_append, List.nil_append]
          · obtain ⟨⟨items, rest₁⟩, hread, heq⟩ := Option.map_eq_some_iff.mp h
            cases heq
            obtain ⟨body, hbody, hitems⟩ := ihitems hread
            refine ⟨_, .arr hspace hbody, ?_⟩
            rw [hskip, hitems]
            simp only [List.append_assoc, List.cons_append, List.nil_append]
        · rename_i rest'
          obtain ⟨space, hspace, hskip⟩ := exists_blank rest'
          -- an empty object, or entries up to the brace
          split at h
          · rename_i rest₁ hclosing
            cases h
            refine ⟨_, .noFields hspace, ?_⟩
            rw [hskip, hclosing]
            simp only [List.append_assoc, List.cons_append, List.nil_append]
          · obtain ⟨⟨fields, rest₁⟩, hread, heq⟩ := Option.map_eq_some_iff.mp h
            cases heq
            obtain ⟨body, hbody, hfields⟩ := ihfields hread
            refine ⟨_, .obj hspace hbody, ?_⟩
            rw [hskip, hfields]
            simp only [List.append_assoc, List.cons_append, List.nil_append]
        · rcases Option.or_eq_some_iff.mp h with h | ⟨-, h⟩
          · exact readNumeral_eq_some h
          · exact readName_eq_some h
      · intro text items rest h
        rw [readItems] at h
        split at h
        · cases h
        · rename_i value rest₁ hread
          obtain ⟨body, hbody, rfl⟩ := ihvalue hread
          obtain ⟨before, hbefore, hskip⟩ := exists_blank rest₁
          split at h
          · rename_i rest₂ hclosing
            cases h
            refine ⟨_, .lastItem hbody hbefore, ?_⟩
            rw [hskip, hclosing, List.append_assoc]
          · rename_i rest₂ hcomma
            obtain ⟨⟨items, rest₃⟩, hmore, heq⟩ := Option.map_eq_some_iff.mp h
            cases heq
            obtain ⟨tail, htail, hitems⟩ := ihitems hmore
            obtain ⟨after, hafter, hskip'⟩ := exists_blank rest₂
            refine ⟨_, .moreItems hbody hbefore hafter htail, ?_⟩
            rw [hskip, hcomma, hskip', hitems]
            simp only [List.append_assoc, List.cons_append]
          · cases h
      · intro text fields rest h
        rw [readFields] at h
        split at h
        · cases h
        · rename_i field rest₁ hread
          obtain ⟨body, hbody, rfl⟩ := readField_eq_some ihvalue hread
          obtain ⟨before, hbefore, hskip⟩ := exists_blank rest₁
          split at h
          · rename_i rest₂ hclosing
            cases h
            refine ⟨_, .lastField hbody hbefore, ?_⟩
            rw [hskip, hclosing, List.append_assoc]
          · rename_i rest₂ hcomma
            obtain ⟨⟨fields, rest₃⟩, hmore, heq⟩ := Option.map_eq_some_iff.mp h
            cases heq
            obtain ⟨tail, htail, hfields⟩ := ihfields hmore
            obtain ⟨after, hafter, hskip'⟩ := exists_blank rest₂
            refine ⟨_, .moreFields hbody hbefore hafter htail, ?_⟩
            rw [hskip, hcomma, hskip', hfields]
            simp only [List.append_assoc, List.cons_append]
          · cases h

def IsText (floatRepr : List Char → String) (text : List Char) (value : Json) : Prop :=
  ∃ before body after, Blank before ∧ Blank after ∧ Writes floatRepr body (.value value) ∧
    text = before ++ body ++ after

/-- **What is loaded**: a value of exactly the texts that the grammar writes for it. -/
theorem loads_eq_some {text : List Char} {value : Json} :
    loads floatRepr text = some value ↔ IsText floatRepr text value := by
  constructor
  · intro h
    unfold loads at h
    split at h
    · rename_i found rest hread
      split at h
      · rename_i hrest
        cases h
        obtain ⟨before, hbefore, hskip⟩ := exists_blank text
        obtain ⟨body, hbody, htext⟩ := (read_sound _).1 hread
        refine ⟨before, body, rest, hbefore, ?_, hbody, ?_⟩
        · exact blank_of_skipSpace_nil (List.isEmpty_iff.mp hrest)
        · rw [hskip, htext, List.append_assoc]
      · cases h
    · cases h
  · rintro ⟨before, body, after, hbefore, hafter, hbody, rfl⟩
    have hstops : Stops after := by
      rw [← List.append_nil after]
      exact stops_blank hafter nofun
    have hread := hbody.read (2 * (before ++ body ++ after).length) after
      (by simp only [List.length_append]; omega) hstops
    unfold loads
    rw [List.append_assoc, (hbody.opens.append after).skip hbefore, ← List.append_assoc, hread]
    simp only
    rw [skipSpace_nil_of_blank hafter]
    rfl

theorem IsText.unique {text : List Char} {v w : Json} (hv : IsText floatRepr text v)
    (hw : IsText floatRepr text w) : v = w :=
  Option.some.inj ((loads_eq_some.mpr hv).symm.trans (loads_eq_some.mpr hw))

end

/-! ## What is written -/

theorem readUnit_hexDigits : ∀ n < 32, readUnit ('\\' :: 'u' :: hexDigits 4 n) = some (n, []) := by
  decide

section

variable [Surrogates]

theorem spells_dumpChar (next : List Char) (c : Char) : Spells next (dumpChar c) c := by
  unfold dumpChar
  split_ifs with hmark hnewline hreturn htab hfeed hback hsmall
  · rcases hmark with rfl | rfl
    · exact .escape rfl
    · exact .escape rfl
  · rw [hnewline]
    exact .escape rfl
  · rw [hreturn]
    exact .escape rfl
  · rw [htab]
    exact .escape rfl
  · rw [hfeed]
    exact .escape rfl
  · rw [hback]
    exact .escape rfl
  · obtain ⟨a, b, c', d, hcode, htext⟩ := readUnit_eq_some (readUnit_hexDigits c.toNat hsmall)
    rw [htext, List.append_nil]
    have hhigh : isHighSurrogate c.toNat = false := decide_eq_false (by omega)
    have hlow : isLowSurrogate c.toNat = false := decide_eq_false (by omega)
    have hspells : Spells next (unitText a b c' d) (.ofNat c.toNat) := .unit hcode hhigh hlow
    rw [Char.ofNat_toNat] at hspells
    exact hspells
  · rw [not_or] at hmark
    exact .plain (Nat.not_lt.mp hsmall) hmark.1 hmark.2

theorem spellsAll_dumpChar (text : List Char) : SpellsAll (text.flatMap dumpChar) text := by
  induction text with
  | nil => exact .nil
  | cons c text ih => exact .cons (spells_dumpChar _ c) ih

end

section

variable [Surrogates] {floatRepr : List Char → String}

theorem writes_dumpText (s : String) : Writes floatRepr (dumpText s) (.value (.str s)) := by
  have hwrites := @Writes.str _ floatRepr _ _ (spellsAll_dumpChar s.toList)
  rw [String.ofList_toList] at hwrites
  exact hwrites

/-- Values whose numbers are read as they are written, and whose keys are distinct. -/
inductive Readable (floatRepr : List Char → String) : Json → Prop
  | null : Readable floatRepr .null
  | bool (b : Bool) : Readable floatRepr (.bool b)
  | int {n : ℤ} (h : Writes floatRepr (toString n).toList (.value (.int n))) :
      Readable floatRepr (.int n)
  | float {r : String} (h : Writes floatRepr (dumpFloat r) (.value (.float r))) :
      Readable floatRepr (.float r)
  | str (s : String) : Readable floatRepr (.str s)
  | arr {items : List Json} (h : ∀ value ∈ items, Readable floatRepr value) :
      Readable floatRepr (.arr items)
  | obj {fields : JsonObject} (hkeys : (fields.map Prod.fst).Nodup)
      (h : ∀ field ∈ fields, Readable floatRepr field.2) : Readable floatRepr (.obj fields)

theorem writes_items {value : Json} {items : List Json}
    (h : ∀ v ∈ value :: items, Writes floatRepr (dumps v) (.value v)) :
    Writes floatRepr (", ".toList.intercalate (dumpItems (value :: items)))
      (.items (value :: items)) := by
  induction items generalizing value with
  | nil =>
      have hlast := Writes.lastItem (h value List.mem_cons_self) blank_nil
      rw [List.append_nil] at hlast
      rw [dumpItems, dumpItems, List.intercalate_singleton]
      exact hlast
  | cons next items ih =>
      have hspace : Blank [' '] := blank_singleton rfl
      have hmore := Writes.moreItems (h value List.mem_cons_self) blank_nil hspace
        (ih fun v hv => h v (List.mem_cons_of_mem _ hv))
      rw [List.append_nil] at hmore
      rw [dumpItems, dumpItems, List.intercalate_cons_cons]
      rw [dumpItems] at hmore
      have hshape : ", ".toList = [',', ' '] := rfl
      rw [hshape, List.append_assoc]
      rw [hshape, List.append_assoc] at hmore
      exact hmore

theorem writes_field {field : String × Json}
    (h : Writes floatRepr (dumps field.2) (.value field.2)) :
    Writes floatRepr (dumpText field.1 ++ ": ".toList ++ dumps field.2) (.field field) := by
  have hspace : Blank [' '] := blank_singleton rfl
  have hfield := Writes.field (spellsAll_dumpChar field.1.toList) blank_nil hspace h
  rw [String.ofList_toList] at hfield
  have hshape : dumpText field.1 ++ ": ".toList ++ dumps field.2 =
      '"' :: field.1.toList.flatMap dumpChar ++ '"' :: [] ++ ':' :: [' '] ++ dumps field.2 := by
    simp [dumpText]
  rw [hshape]
  exact hfield

theorem writes_fields {field : String × Json} {fields : List (String × Json)}
    (h : ∀ f ∈ field :: fields, Writes floatRepr (dumps f.2) (.value f.2)) :
    Writes floatRepr (", ".toList.intercalate (dumpFields (field :: fields)))
      (.fields (field :: fields)) := by
  induction fields generalizing field with
  | nil =>
      have hlast := Writes.lastField (writes_field (h field List.mem_cons_self)) blank_nil
      rw [List.append_nil] at hlast
      rw [dumpFields, dumpFields, List.intercalate_singleton]
      exact hlast
  | cons next fields ih =>
      have hspace : Blank [' '] := blank_singleton rfl
      have hmore := Writes.moreFields (writes_field (h field List.mem_cons_self)) blank_nil hspace
        (ih fun f hf => h f (List.mem_cons_of_mem _ hf))
      rw [List.append_nil] at hmore
      rw [dumpFields, dumpFields, List.intercalate_cons_cons]
      rw [dumpFields] at hmore
      have hshape : ", ".toList = [',', ' '] := rfl
      rw [hshape, List.append_assoc]
      rw [hshape, List.append_assoc] at hmore
      exact hmore

omit [Surrogates] in
/-- An object with distinct keys is what its entries make. -/
theorem object_of_nodup {fields : JsonObject} (h : (fields.map Prod.fst).Nodup) :
    object fields = fields :=
  OrderedDict.items_update_of_nodup h

theorem Readable.writes {value : Json} (h : Readable floatRepr value) :
    Writes floatRepr (dumps value) (.value value) := by
  induction h with
  | null =>
      rw [dumps]
      exact .name List.mem_cons_self
  | bool b =>
      cases b with
      | true =>
          rw [dumps, if_pos rfl]
          exact .name (List.mem_cons_of_mem _ List.mem_cons_self)
      | false =>
          rw [dumps, if_neg Bool.false_ne_true]
          exact .name (List.mem_cons_of_mem _ (List.mem_cons_of_mem _ List.mem_cons_self))
  | int h => exact h
  | float h => exact h
  | str s => exact writes_dumpText s
  | @arr items h ih =>
      cases items with
      | nil => exact .noItems blank_nil
      | cons value items => exact .arr blank_nil (writes_items ih)
  | @obj fields hkeys h ih =>
      cases fields with
      | nil => exact .noFields blank_nil
      | cons field fields =>
          have hobj := Writes.obj blank_nil (writes_fields ih)
          rw [object_of_nodup hkeys] at hobj
          exact hobj

/-- **Round trip**: what is written is read back. -/
theorem loads_dumps {value : Json} (h : Readable floatRepr value) :
    loads floatRepr (dumps value) = some value :=
  loads_eq_some.mpr ⟨[], _, [], blank_nil, blank_nil, h.writes, (List.append_nil _).symm⟩

end

end MailboxService.Foundation.Json
