import MailboxService.Foundation.Regex
import MailboxService.VerificationCode.CodeMatchers

/-!
# The text of a mail body

`mail_body_sanitize`: what is left of a body before a code is looked for in it.
Lines of headers, the line breaks of quoted-printable text, markup and runs of
white space go.
-/

namespace MailboxService

open Foundation

namespace MailBody

/-! ## Patterns -/

/-- `=\r?\n`. -/
def softBreak : Regex :=
  .seq (.char (· = '=')) (.seq (.many (.char (· = '\r')) 0 (some 1)) (.char (· = '\n')))

/-- `\r?\n\r?\n`. -/
def blankLine : Regex :=
  .seq (.many (.char (· = '\r')) 0 (some 1)) (.seq (.char (· = '\n'))
    (.seq (.many (.char (· = '\r')) 0 (some 1)) (.char (· = '\n'))))

/-- `<[^>]+>`. -/
def htmlTag : Regex :=
  .seq (.char (· = '<')) (.seq (.many (.char (· ≠ '>')) 1 none) (.char (· = '>')))

def headerNames : List String :=
  ["received", "return-path", "arc-", "dkim-", "authentication-results", "mime-version",
    "content-type", "message-id", "from:", "to:", "subject:", "date:"]

def oneOf : List String → Regex
  | [] => .char fun _ => false
  | [text] => .literal ignoringCase text
  | text :: texts => .alt (.literal ignoringCase text) (oneOf texts)

/-- `(?im)^(received|...|date:)\b`. -/
def headerLine : Regex := .seq .atLine (.seq (.group (oneOf headerNames)) .boundary)

section

variable [PythonText]

/-- `\s+`. -/
def whitespace : Regex := .many (.char PythonText.isSpace) 1 none

def sameLower (c d : Char) : Bool :=
  (PythonText.lowerChar c).head? = (PythonText.lowerChar d).head?

/-- `(?is)<(script|style).*?>.*?</\1>`. -/
def scriptStyle : Regex :=
  let anyText := Regex.few (.char fun _ => true)
  .seq (.char (· = '<')) (.seq (.group (oneOf ["script", "style"])) (.seq anyText
    (.seq (.char (· = '>')) (.seq anyText (.seq (.literal ignoringCase "</")
      (.seq (.again sameLower) (.char (· = '>'))))))))

/-! ## Texts -/

variable [CodeText]

open Text

/-- `text.replace(old, new)`. -/
def replace (old new text : String) : String :=
  (Regex.literal (· == ·) old).substitute CodeText.isWord new text

def htmlToVisibleText (html : String) : String :=
  if html = "" then ""
  else
    let text := scriptStyle.substitute CodeText.isWord " " html
    let text := htmlTag.substitute CodeText.isWord " " text
    let text := whitespace.substitute CodeText.isWord " " text
    strip text

/-- The part behind the first blank line, unless it is blank as well. -/
def afterHeaders (raw : String) : String :=
  match blankLine.search CodeText.isWord raw with
  | none => raw
  | some (_, found) =>
      let body := String.ofList found.rest
      if strip body ≠ "" then body else raw

def sanitizeMailText (text : String) : String :=
  if text = "" then ""
  else
    let raw := if (headerLine.search CodeText.isWord text).isSome then afterHeaders text else text
    let raw := softBreak.substitute CodeText.isWord "" raw
    let raw := replace "=20" " " (replace "=3D" "=" raw)
    let lowerRaw := lower raw
    let raw :=
      if occursIn "<html" lowerRaw || occursIn "<body" lowerRaw || occursIn "<div" lowerRaw then
        htmlToVisibleText raw
      else strip (whitespace.substitute CodeText.isWord " " raw)
    strip raw

end

end MailBody

end MailboxService
