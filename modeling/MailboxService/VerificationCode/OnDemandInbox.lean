import MailboxService.VerificationCode.MailMessages
import Mathlib.Data.List.Infix

/-!
# On-demand inboxes

`fetch_evidence` of the on-demand adapters: how each of them reads the messages
that its provider's API lists, and `_filter_messages`, which picks those that a
query asks for. Where the list stands in the payload differs from adapter to
adapter; the model starts at the list. Two adapters look the messages up one by
one, so a message comes with the answer to its lookup.
-/

namespace MailboxService

open Foundation

namespace Text

/-- `needle in text`. -/
def occursIn (needle text : String) : Bool := needle.toList <:+: text.toList

/-- `text.replace(pattern, "")` on characters; the first argument counts those of
an occurrence that are still to be skipped. -/
def eraseAll (pattern : List Char) : ℕ → List Char → List Char
  | _, [] => []
  | skip + 1, _ :: rest => eraseAll pattern skip rest
  | 0, c :: rest =>
      if pattern.isPrefixOf (c :: rest) then eraseAll pattern (pattern.length - 1) rest
      else c :: eraseAll pattern 0 rest

end Text

/-! ## Queries -/

structure VerificationQuery where
  fromAddress : Option String := none
  subjectContains : Option String := none
  bodyContains : Option String := none
  recipient : Option String := none
  newerThan : Option ℤ := none
  maxMessages : ℕ := 20
  deriving DecidableEq, Repr

section

variable [PythonText]

open Text

/-- A filter on a text, which an empty filter is not. -/
def passesFilter (wanted : Option String) (value : Option String) : Bool :=
  match wanted.bind orNone with
  | none => true
  | some wanted => occursIn (lower wanted) (lower (value.getD ""))

namespace VerificationQuery

def passesRecipient (query : VerificationQuery) (message : InboxMessageEvidence) : Bool :=
  match query.recipient.bind orNone with
  | none => true
  | some recipient =>
      lower recipient ∈ message.recipientAddresses ||
        occursIn (lower recipient) (lower (message.bodyText.getD ""))

def passesAge (query : VerificationQuery) (message : InboxMessageEvidence) : Bool :=
  match query.newerThan, message.receivedAt with
  | some newerThan, some receivedAt => !(receivedAt < newerThan)
  | _, _ => true

/-- The filters of a query, in the order in which a message is tried. -/
def admits (query : VerificationQuery) (message : InboxMessageEvidence) : Bool :=
  passesFilter query.fromAddress message.fromAddress &&
    passesFilter query.subjectContains message.subject &&
    passesFilter query.bodyContains message.bodyText &&
    query.passesRecipient message && query.passesAge message

/-- The filters of a query apart from the one on recipients. -/
def admitsContent (query : VerificationQuery) (message : InboxMessageEvidence) : Bool :=
  passesFilter query.fromAddress message.fromAddress &&
    passesFilter query.subjectContains message.subject &&
    passesFilter query.bodyContains message.bodyText && query.passesAge message

/-- A message that names the wanted recipient is judged by the other filters. -/
theorem admits_of_recipient {query : VerificationQuery} {message : InboxMessageEvidence}
    {a : String} (hquery : query.recipient = some a)
    (h : lower a ∈ message.recipientAddresses) :
    query.admits message = query.admitsContent message := by
  have hpasses : query.passesRecipient message = true := by
    unfold passesRecipient
    rw [hquery, Option.bind_some]
    unfold orNone
    split
    · rfl
    · rename_i wanted hwanted
      split at hwanted
      · cases hwanted
      · cases hwanted
        simp [h]
  unfold admits admitsContent
  rw [hpasses, Bool.and_true]

end VerificationQuery

/-- The loop of `_filter_messages`: it stops as soon as it has enough. -/
def filterMessagesLoop (query : VerificationQuery) (results : List InboxMessageEvidence) :
    List InboxMessageEvidence → List InboxMessageEvidence
  | [] => results
  | message :: rest =>
      if !query.admits message then filterMessagesLoop query results rest
      else
        let results := results ++ [message]
        if results.length ≥ max query.maxMessages 1 then results
        else filterMessagesLoop query results rest

def filterMessages (messages : List InboxMessageEvidence) (query : VerificationQuery) :
    List InboxMessageEvidence :=
  filterMessagesLoop query [] messages

theorem filterMessagesLoop_eq (query : VerificationQuery) (results messages : List _)
    (hroom : results.length < max query.maxMessages 1) :
    filterMessagesLoop query results messages =
      results ++ (messages.filter query.admits).take (max query.maxMessages 1 - results.length) := by
  induction messages generalizing results with
  | nil => simp [filterMessagesLoop]
  | cons message rest ih =>
      unfold filterMessagesLoop
      cases hadmits : query.admits message with
      | false =>
          simp only [Bool.not_false, if_true, List.filter_cons, hadmits, Bool.false_eq_true,
            if_false]
          exact ih results hroom
      | true =>
          obtain ⟨room, hleft⟩ : ∃ room, max query.maxMessages 1 - results.length = room + 1 :=
            ⟨max query.maxMessages 1 - results.length - 1, by omega⟩
          simp only [Bool.not_true, Bool.false_eq_true, if_false, List.filter_cons, hadmits,
            if_true, hleft, List.take_succ_cons]
          split
          · rename_i hfull
            rw [List.length_append, List.length_singleton] at hfull
            have hroom0 : room = 0 := by omega
            rw [hroom0, List.take_zero]
          · rename_i hfree
            rw [List.length_append, List.length_singleton] at hfree
            have hnext : max query.maxMessages 1 - (results ++ [message]).length = room := by
              rw [List.length_append, List.length_singleton]
              omega
            rw [ih (results ++ [message]) (by rw [List.length_append, List.length_singleton]; omega),
              hnext, List.append_assoc, List.singleton_append]

/-- **The first messages that pass, in the order of the list.** -/
theorem filterMessages_eq (messages : List InboxMessageEvidence) (query : VerificationQuery) :
    filterMessages messages query =
      (messages.filter query.admits).take (max query.maxMessages 1) := by
  unfold filterMessages
  rw [filterMessagesLoop_eq query [] messages (by simp), List.nil_append, List.length_nil,
    Nat.sub_zero]

/-! ## Adapters -/

/-- What `fetch_evidence` returns. -/
structure VerificationEvidence where
  messages : List InboxMessageEvidence
  directCode : Option String := none
  readMethod : Option String := none
  deriving DecidableEq

/-- How the lookup of the detail of a message ends. It may fail with what the adapters
catch, a `ProviderHttpError`, or raise what they do not, as for an id that makes no
URL. -/
inductive DetailLookup where
  | answered (detail : Json)
  | failed
  | raised (message : String)

def DetailLookup.answer? : DetailLookup → Option Json
  | .answered detail => some detail
  | _ => none

/-- A message of a listing, and what a lookup of its detail comes to. -/
structure ListedMessage where
  item : Json
  detail : DetailLookup := .failed

/-- The detail of a message, or what the listing says where the lookup fails. -/
def ListedMessage.lookup (message : ListedMessage) : Except String Json :=
  match message.detail with
  | .answered detail => .ok detail
  | .failed => .ok message.item
  | .raised error => .error error

variable [MailText]

/-- What a message says, if nothing was raised before. -/
def readMessage (address : String) (raw : Except String JsonObject) :
    Except String InboxMessageEvidence := do
  messageDictToEvidence (← raw) address

/-- The messages read one after the other; one that raises ends the fetch. -/
def readMessages (address : String) :
    List (Except String JsonObject) → Except String (List InboxMessageEvidence)
  | [] => .ok []
  | raw :: rest => do
      let evidence ← readMessage address raw
      let others ← readMessages address rest
      return evidence :: others

/-- A fetch by an adapter that takes each message from what `source` picks. -/
def fetchWith (source : ListedMessage → Option (Except String JsonObject))
    (readMethod address : String)
    (query : VerificationQuery) (inbox : List ListedMessage) :
    Except String VerificationEvidence := do
  let messages ← readMessages address (inbox.filterMap source)
  return { messages := filterMessages messages query, readMethod := some readMethod }

omit [PythonText] [MailText] in
/-- A message is what the listing says it is. -/
def listedSource (message : ListedMessage) : Option (Except String JsonObject) :=
  message.item.dict?.map .ok

omit [PythonText] [MailText] in
/-- A detail that is no dictionary is skipped. -/
def detailSource : Except String Json → Option (Except String JsonObject)
  | .ok detail => detail.dict?.map .ok
  | .error message => some (.error message)

def CloudflareTempEmailAdapter.fetchEvidence :=
  fetchWith listedSource "cloudflare_temp_email"

def TempMailLolAdapter.fetchEvidence := fetchWith listedSource "tempmail_lol"

def GptMailAdapter.fetchEvidence := fetchWith listedSource "gptmail"

def MoeMailAdapter.fetchEvidence := fetchWith listedSource "moemail"

def YydsMailAdapter.fetchEvidence := fetchWith listedSource "yyds_mail"

def CloudMailGenAdapter.fetchEvidence := fetchWith listedSource "cloudmail_gen"

def DdgMailAdapter.fetchEvidence := fetchWith listedSource "ddg_mail"

omit [PythonText] in
/-- A message is what the lookup of its id says, or what the listing says where
the lookup fails. -/
def DuckMailAdapter.source (message : ListedMessage) : Option (Except String JsonObject) := do
  let item ← message.item.dict?
  let messageId := eraseAll "/messages/".toList 0
    (pyStr (JsonObject.pick item ["id", "@id"] (.str ""))).toList
  detailSource (if messageId = [] then .ok message.item else message.lookup)

def DuckMailAdapter.fetchEvidence := fetchWith DuckMailAdapter.source "duckmail"

omit [PythonText] [MailText] in
/-- The fields that are taken over from a message and its lookup. Those that
name recipients are not. -/
def InbucketAdapter.normalized (item detail : JsonObject) : JsonObject :=
  let body := (JsonObject.get detail "body").dict?.getD []
  let either (key : String) : Json :=
    JsonObject.pick detail [key] (JsonObject.get item key)
  [("subject", either "subject"), ("from", either "from"),
    ("text", JsonObject.get body "text"), ("html", JsonObject.get body "html"),
    ("date", either "date")]

def InbucketAdapter.source (message : ListedMessage) : Option (Except String JsonObject) := do
  let item ← message.item.dict?
  let messageId := strip (pyStr (JsonObject.pick item ["id"] (.str "")))
  let detail ← detailSource (if messageId = "" then .ok message.item else message.lookup)
  return detail.map (InbucketAdapter.normalized item)

/-- The listing is cut off before anything is read of it. -/
def InbucketAdapter.fetchEvidence (address : String) (query : VerificationQuery)
    (inbox : List ListedMessage) : Except String VerificationEvidence :=
  let items := inbox.filter fun message => message.item.dict?.isSome
  fetchWith InbucketAdapter.source "inbucket" address query
    (items.take (max query.maxMessages 1))

/-- The adapters of `ADAPTER_FACTORIES`. -/
inductive OnDemandAdapter where
  | cloudflareTempEmail
  | ddgMail
  | cloudmailGen
  | tempmailLol
  | duckmail
  | gptmail
  | moemail
  | inbucket
  | yydsMail
  deriving DecidableEq, Repr

namespace OnDemandAdapter

def all : List OnDemandAdapter :=
  [.cloudflareTempEmail, .ddgMail, .cloudmailGen, .tempmailLol, .duckmail, .gptmail, .moemail,
    .inbucket, .yydsMail]

def providerType : OnDemandAdapter → String
  | .cloudflareTempEmail => "cloudflare_temp_email"
  | .ddgMail => "ddg_mail"
  | .cloudmailGen => "cloudmail_gen"
  | .tempmailLol => "tempmail_lol"
  | .duckmail => "duckmail"
  | .gptmail => "gptmail"
  | .moemail => "moemail"
  | .inbucket => "inbucket"
  | .yydsMail => "yyds_mail"

def ofProviderType (providerType : String) : Option OnDemandAdapter :=
  all.find? (·.providerType = providerType)

omit [PythonText] [MailText] in
theorem ofProviderType_providerType (adapter : OnDemandAdapter) :
    ofProviderType adapter.providerType = some adapter := by
  cases adapter <;> decide

/-- `fetch_evidence` for a mailbox with the given address. -/
def fetchEvidence (adapter : OnDemandAdapter) :
    String → VerificationQuery → List ListedMessage → Except String VerificationEvidence :=
  match adapter with
  | .cloudflareTempEmail => CloudflareTempEmailAdapter.fetchEvidence
  | .ddgMail => DdgMailAdapter.fetchEvidence
  | .cloudmailGen => CloudMailGenAdapter.fetchEvidence
  | .tempmailLol => TempMailLolAdapter.fetchEvidence
  | .duckmail => DuckMailAdapter.fetchEvidence
  | .gptmail => GptMailAdapter.fetchEvidence
  | .moemail => MoeMailAdapter.fetchEvidence
  | .inbucket => InbucketAdapter.fetchEvidence
  | .yydsMail => YydsMailAdapter.fetchEvidence

/-- What the adapter takes a message from, if it does not skip it. -/
def source (adapter : OnDemandAdapter) : ListedMessage → Option (Except String JsonObject) :=
  match adapter with
  | .duckmail => DuckMailAdapter.source
  | .inbucket => InbucketAdapter.source
  | _ => listedSource

omit [PythonText] [MailText] in
def window (adapter : OnDemandAdapter) (query : VerificationQuery)
    (inbox : List ListedMessage) : List ListedMessage :=
  match adapter with
  | .inbucket =>
      (inbox.filter fun message => message.item.dict?.isSome).take (max query.maxMessages 1)
  | _ => inbox

/-- **The adapters differ in what they take a message from, and in how much of
the listing they read.** -/
theorem fetchEvidence_eq (adapter : OnDemandAdapter) (address : String)
    (query : VerificationQuery) (inbox : List ListedMessage) :
    adapter.fetchEvidence address query inbox =
      fetchWith adapter.source adapter.providerType address query
        (adapter.window query inbox) := by
  cases adapter <;> rfl

theorem source_eq_none {adapter : OnDemandAdapter} {message : ListedMessage}
    (h : message.item.dict? = none) : adapter.source message = none := by
  unfold source
  split
  · unfold DuckMailAdapter.source
    rw [h]
    rfl
  · unfold InbucketAdapter.source
    rw [h]
    rfl
  · unfold listedSource
    rw [h]
    rfl

end OnDemandAdapter

end

end MailboxService
