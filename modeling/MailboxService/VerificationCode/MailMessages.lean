import MailboxService.Foundation.Json
import MailboxService.PythonText
import Mathlib.Data.Finset.Dedup

/-!
# Normalized mails

`mail_message_normalize`: what the service makes of a message as a provider's
API describes it. Providers name their fields differently; each field of the
result is read from the first of several keys that has something to say.

The recipients of a message are those of its own fields, and always the address
the mailbox was allocated, whether the message names it or not.
-/

namespace MailboxService

open Foundation

/-- The helpers that read the text and the time of a mail: `str` of a list or
a dictionary, the text of a page, the sanitizer, and the time stamps, whose
parsing may raise. -/
class MailText where
  repr : Json → String
  htmlToVisibleText : String → String
  sanitizeMailText : String → String
  parseReceivedAt : Json → Except String (Option ℤ)

structure NormalizedMailMessage where
  messageId : Option String
  fromAddress : Option String
  fromDisplay : Option String
  subject : Option String
  text : String
  html : String
  receivedAt : Option ℤ
  raw : JsonObject

/-- One message that a verification code may be taken from. -/
structure InboxMessageEvidence where
  fromAddress : Option String
  subject : Option String
  bodyText : Option String
  receivedAt : Option ℤ
  recipientAddresses : Finset String
  deriving DecidableEq

/-- `s or None`. -/
def orNone (s : String) : Option String := if s = "" then none else some s

section

variable [PythonText] [MailText]

open Text

/-! ## Texts -/

omit [PythonText] in
/-- `str(value)`. -/
def pyStr : Json → String
  | .null => "None"
  | .bool b => if b then "True" else "False"
  | .int n => toString n
  | .float r => r
  | .str s => s
  | container => MailText.repr container

omit [PythonText] in
/-- `"\n".join(str(part) for part in value)` of a list, `str(value)` of the rest. -/
def joinedText : Json → String
  | .arr parts => "\n".intercalate (parts.map pyStr)
  | value => pyStr value

omit [PythonText] in
def firstString (raw : JsonObject) (keys : List String) : String :=
  let missing : Json → Bool
    | .null => true
    | .str s => s = ""
    | _ => false
  match (keys.map raw.get).find? (!missing ·) with
  | none => ""
  | some value => joinedText value

def senderFields (raw : JsonObject) : String × String :=
  match raw.pick ["from", "fromAddr", "from_address", "sender", "mail_from", "sendEmail"]
      (.str "") with
  | .obj sender =>
      let address := strip (pyStr (JsonObject.pick sender ["address", "email"] (.str "")))
      let name := strip (pyStr (JsonObject.pick sender ["name"] (.str "")))
      let display :=
        if name ≠ "" ∧ address ≠ "" then strip (name ++ " <" ++ address ++ ">")
        else if address ≠ "" then address
        else name
      (address, display)
  | sender =>
      let text := strip (pyStr sender)
      (text, text)

omit [PythonText] in
/-- The page and the text of a message. The page stands in for a text that is
missing, or that the sanitizer leaves empty. -/
def bodyFields (raw : JsonObject) : String × String :=
  let text := firstString raw
    ["text", "textBody", "body_text", "text_content", "intro", "preview", "content", "body"]
  let html := joinedText (raw.pick ["html", "htmlBody", "body_html", "html_content"] (.str ""))
  let text := if text = "" ∧ html ≠ "" then MailText.htmlToVisibleText html else text
  let text := MailText.sanitizeMailText text
  if html = "" then (html, text)
  else
    let cleanedHtmlText := MailText.sanitizeMailText (MailText.htmlToVisibleText html)
    if cleanedHtmlText ≠ "" ∧ (text = "" ∨ cleanedHtmlText.length > text.length) then
      if text = "" then (html, cleanedHtmlText) else (html, text)
    else (html, text)

def normalizeRawMessage (raw : JsonObject) : Except String NormalizedMailMessage := do
  let (fromAddress, fromDisplay) := senderFields raw
  let (html, text) := bodyFields raw
  let receivedAt ← MailText.parseReceivedAt
    (raw.pick ["createdAt", "created_at", "receivedAt", "date", "time", "timestamp"]
      (raw.get "createTime"))
  return {
    messageId := orNone (firstString raw ["id", "messageId", "@id", "msgid"])
    fromAddress := orNone fromAddress
    fromDisplay := orNone fromDisplay
    subject := orNone (firstString raw ["subject", "title"])
    text := text
    html := html
    receivedAt := receivedAt
    raw := raw }

/-! ## Recipients -/

omit [MailText] in
def textRecipient (s : String) : List String :=
  if strip s = "" then [] else [normalize s]

def entryRecipient : Json → List String
  | .str s => textRecipient s
  | .obj entry =>
      let email := JsonObject.pick entry ["address"] (JsonObject.get entry "email")
      if email.truthy then [normalize (pyStr email)] else []
  | _ => []

def fieldRecipients : Json → List String
  | .str s => textRecipient s
  | .arr entries => entries.flatMap entryRecipient
  | _ => []

def ownRecipients (raw : JsonObject) : List String :=
  ["to", "toEmail", "mailTo", "recipient", "recipients"].flatMap fun key =>
    fieldRecipients (raw.get key)

def collectRecipientAddresses (raw : JsonObject) (defaultRecipient : String) :
    Finset String :=
  (textRecipient defaultRecipient ++ ownRecipients raw).toFinset

/-- **The allocated address is a recipient of every message.** -/
theorem mem_collectRecipientAddresses {raw : JsonObject} {a : String} (h : strip a ≠ "") :
    normalize a ∈ collectRecipientAddresses raw a := by
  unfold collectRecipientAddresses textRecipient
  rw [if_neg h, List.mem_toFinset]
  exact List.mem_append_left _ (List.mem_singleton_self _)

/-! ## Evidence -/

def toInboxEvidence (normalized : NormalizedMailMessage) (defaultRecipient : String)
    (raw : JsonObject) : InboxMessageEvidence where
  fromAddress := normalized.fromAddress
  subject := normalized.subject
  bodyText := orNone normalized.text
  receivedAt := normalized.receivedAt
  recipientAddresses := collectRecipientAddresses raw defaultRecipient

def messageDictToEvidence (item : JsonObject) (address : String) :
    Except String InboxMessageEvidence := do
  let normalized ← normalizeRawMessage item
  return toInboxEvidence normalized address item

theorem messageDictToEvidence_recipient {item : JsonObject} {a : String}
    {e : InboxMessageEvidence} (hne : strip a ≠ "") (h : messageDictToEvidence item a = .ok e) :
    normalize a ∈ e.recipientAddresses := by
  unfold messageDictToEvidence at h
  cases hnormalized : normalizeRawMessage item with
  | error message =>
      rw [hnormalized] at h
      cases h
  | ok normalized =>
      rw [hnormalized] at h
      cases h
      exact mem_collectRecipientAddresses hne

end

end MailboxService
