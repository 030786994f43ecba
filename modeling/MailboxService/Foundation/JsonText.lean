import MailboxService.Foundation.Json
import Mathlib.Algebra.Field.Rat

/-!
# The text of a JSON value

`json.dumps(value, ensure_ascii=False)` and `str(value)`, character by
character. Which of the characters beyond ASCII `repr` shows as they are is a
parameter.
-/

namespace MailboxService.Foundation

/-- `n` in hexadecimal digits, of a given number of places. -/
def hexDigits : ℕ → ℕ → List Char
  | 0, _ => []
  | places + 1, n =>
      hexDigits places (n / 16) ++
        [Char.ofNat (if n % 16 < 10 then 48 + n % 16 else 87 + n % 16)]

namespace Json

/-! ## As JSON -/

/-- A character of a text that `json.dumps` writes. -/
def dumpChar (c : Char) : List Char :=
  if c = '"' ∨ c = '\\' then ['\\', c]
  else if c = '\n' then ['\\', 'n']
  else if c = '\r' then ['\\', 'r']
  else if c = '\t' then ['\\', 't']
  else if c = '\x0c' then ['\\', 'f']
  else if c = '\x08' then ['\\', 'b']
  else if c.toNat < 32 then '\\' :: 'u' :: hexDigits 4 c.toNat
  else [c]

def dumpText (s : String) : List Char := '"' :: s.toList.flatMap dumpChar ++ ['"']

/-- A float is written as its `repr`, unless it is not a number. -/
def dumpFloat (r : String) : List Char :=
  if r = "nan" then "NaN".toList
  else if r = "inf" then "Infinity".toList
  else if r = "-inf" then "-Infinity".toList
  else r.toList

mutual

/-- `json.dumps(value, ensure_ascii=False)`. -/
def dumps : Json → List Char
  | .null => "null".toList
  | .bool b => if b then "true".toList else "false".toList
  | .int n => (toString n).toList
  | .float r => dumpFloat r
  | .str s => dumpText s
  | .arr items => '[' :: ", ".toList.intercalate (dumpItems items) ++ [']']
  | .obj fields => '\x7b' :: ", ".toList.intercalate (dumpFields fields) ++ ['\x7d']

def dumpItems : List Json → List (List Char)
  | [] => []
  | value :: rest => dumps value :: dumpItems rest

def dumpFields : List (String × Json) → List (List Char)
  | [] => []
  | (key, value) :: rest => (dumpText key ++ ": ".toList ++ dumps value) :: dumpFields rest

end

/-! ## As Python writes it -/

section

variable (isPrintable : Char → Bool)

/-- A character of a text that `repr` writes between quotes. -/
def reprChar (quote c : Char) : List Char :=
  if c = quote ∨ c = '\\' then ['\\', c]
  else if c = '\n' then ['\\', 'n']
  else if c = '\r' then ['\\', 'r']
  else if c = '\t' then ['\\', 't']
  else if 32 ≤ c.toNat ∧ c.toNat < 127 ∨ 127 < c.toNat ∧ isPrintable c = true then [c]
  else if c.toNat < 256 then '\\' :: 'x' :: hexDigits 2 c.toNat
  else if c.toNat < 65536 then '\\' :: 'u' :: hexDigits 4 c.toNat
  else '\\' :: 'U' :: hexDigits 8 c.toNat

/-- `repr(s)`. -/
def reprText (s : String) : List Char :=
  let quote := if s.toList.contains '\x27' && !s.toList.contains '"' then '"' else '\x27'
  quote :: s.toList.flatMap (reprChar isPrintable quote) ++ [quote]

mutual

/-- `repr(value)`. -/
def pyRepr : Json → List Char
  | .null => "None".toList
  | .bool b => if b then "True".toList else "False".toList
  | .int n => (toString n).toList
  | .float r => r.toList
  | .str s => reprText isPrintable s
  | .arr items => '[' :: ", ".toList.intercalate (reprItems items) ++ [']']
  | .obj fields => '\x7b' :: ", ".toList.intercalate (reprFields fields) ++ ['\x7d']

def reprItems : List Json → List (List Char)
  | [] => []
  | value :: rest => pyRepr value :: reprItems rest

def reprFields : List (String × Json) → List (List Char)
  | [] => []
  | (key, value) :: rest =>
      (reprText isPrintable key ++ ": ".toList ++ pyRepr value) :: reprFields rest

end

/-- `str(value)`. -/
def text : Json → List Char
  | .str s => s.toList
  | value => pyRepr isPrintable value

end

/-- A text in a list is quoted, and an object is not what `json.dumps` writes. -/
example : text (fun _ => true) (.arr [.str "a\n", .obj [("k", .null)], .bool true]) =
    "['a\\n', \x7b'k': None\x7d, True]".toList := by
  decide

/-! ## The numbers that floats are -/

def digitsValue (digits : List Char) : ℕ :=
  digits.foldl (fun n c => 10 * n + (c.toNat - '0'.toNat)) 0

def exponentValue : List Char → ℤ
  | '-' :: digits => -digitsValue digits
  | '+' :: digits => digitsValue digits
  | digits => digitsValue digits

/-- `whole.fraction` times a power of ten, behind an `e`. -/
def decimalValue (text : List Char) : ℚ :=
  let mantissa := text.takeWhile (· ≠ 'e')
  let exponent := text.drop (mantissa.length + 1)
  let whole := mantissa.takeWhile (· ≠ '.')
  let fraction := mantissa.drop (whole.length + 1)
  (digitsValue (whole ++ fraction) : ℚ) * 10 ^ (exponentValue exponent - fraction.length)

/-- The number that the `repr` of a float stands for, if it is one. -/
def floatValue (repr : String) : Option ℚ :=
  match repr.toList with
  | 'n' :: _ => none
  | 'i' :: _ => none
  | '-' :: 'i' :: _ => none
  | '-' :: text => some (-decimalValue text)
  | text => some (decimalValue text)

example : floatValue "-1.5e-07" = some (-3 / 20000000) := by
  decide +kernel

end Json

end MailboxService.Foundation
