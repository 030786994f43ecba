import MailboxService.Foundation.Checks
import MailboxService.Foundation.JsonText
import MailboxService.VerificationCode.MailSanitizer
import MailboxService.VerificationCode.NewestCode
import Mathlib.Algebra.Order.Field.Rat
import Mathlib.Data.Rat.Floor

/-!
# The times of messages

`parse_received_at`, and what it means for the other messages of a listing. The
adapters read the messages of a listing one after the other, so that the whole
listing is lost with the first whose time raises. The parser catches a text that
is no date. It catches neither a number that is out of the range of `datetime`
nor a date that leaves it on the way to UTC.
-/

namespace MailboxService

open Foundation

/-! ## Dates -/

/-- The exceptions that the parsers of the standard library raise. -/
inductive ExceptionKind where
  | typeError
  | valueError
  | indexError
  | overflowError
  deriving DecidableEq, Repr

structure PyException where
  kind : ExceptionKind
  message : String
  deriving DecidableEq, Repr

/-- Seconds since 1970 in the years from 1 to 9999, which a `datetime` can have. -/
def InDateRange (seconds : ℚ) : Prop := -62135596800 ≤ seconds ∧ seconds < 253402300800

instance (seconds : ℚ) : Decidable (InDateRange seconds) :=
  inferInstanceAs (Decidable (_ ∧ _))

/-- A `datetime`: the microseconds since 1970 that its fields show, and its
offset from UTC, if it has one. -/
structure Datetime where
  wall : ℤ
  utcoffset : Option ℤ
  inRange : InDateRange (wall / 1000000)

/-- The microseconds since 1970 in UTC, where a `datetime` without an offset is in
UTC. -/
def Datetime.utc (d : Datetime) : ℤ := d.wall - d.utcoffset.getD 0

/-- The `datetime` is in range in UTC as well. -/
def Datetime.InUtcRange (d : Datetime) : Prop := InDateRange (d.utc / 1000000)

instance (d : Datetime) : Decidable d.InUtcRange := inferInstanceAs (Decidable (InDateRange _))

/-- `parsed.replace(tzinfo=timezone.utc)` without an offset, and otherwise
`parsed.astimezone(timezone.utc)`. -/
def Datetime.toUtc (d : Datetime) : Except String ℤ :=
  if d.InUtcRange then .ok d.utc else .error "date value out of range"

theorem Datetime.toUtc_ok_iff (d : Datetime) : (∃ t, d.toUtc = .ok t) ↔ d.InUtcRange := by
  unfold toUtc
  split
  · rename_i h
    exact ⟨fun _ => h, fun _ => ⟨_, rfl⟩⟩
  · rename_i h
    exact ⟨nofun, fun hutc => absurd hutc h⟩

/-- What the standard library makes of times: the two parsers of dates, the
microseconds that `fromtimestamp` rounds a float to, and what it says of one that
is out of range. The last field is what `repr` asks of a character. -/
class TimeText where
  fromisoformat : String → Except PyException Datetime
  parsedateToDatetime : String → Except PyException Datetime
  microseconds : ℚ → ℤ
  timestampError : Json → String
  isPrintable : Char → Bool

/-! ## Numbers -/

/-- A value that `isinstance(value, (int, float))` holds of, as the number it is.
A float may be none. -/
def number? : Json → Option (Option ℚ)
  | .bool b => some (some (if b then 1 else 0))
  | .int n => some (some n)
  | .float r => some (Json.floatValue r)
  | _ => none

/-- Large numbers are milliseconds. -/
def timestampSeconds (timestamp : ℚ) : ℚ :=
  if timestamp > 1000000000000 then timestamp / 1000 else timestamp

/-- The number is a time that a `datetime` can have. The limits are floats, so that
no number is rounded across them. -/
def InTimestampRange : Option ℚ → Prop
  | none => False
  | some timestamp => InDateRange (timestampSeconds timestamp)

instance : ∀ timestamp, Decidable (InTimestampRange timestamp)
  | none => inferInstanceAs (Decidable False)
  | some _ => inferInstanceAs (Decidable (InDateRange _))

section

variable [PythonText] [CodeText] [TimeText]

open Text

/-! ## `parse_received_at` -/

omit [PythonText] [CodeText] in
/-- `datetime.fromtimestamp(timestamp, tz=timezone.utc)`. -/
def fromTimestamp (value : Json) : Option ℚ → Except String ℤ
  | none => .error (TimeText.timestampError value)
  | some timestamp =>
      if InDateRange (timestampSeconds timestamp) then
        .ok (TimeText.microseconds (timestampSeconds timestamp))
      else .error (TimeText.timestampError value)

/-- A text that ends in `Z`, with the offset of UTC instead. -/
def withUtcOffset (text : String) : String :=
  if text.toList.getLast? = some 'Z' then .ofList (text.toList.dropLast ++ "+00:00".toList)
  else text

omit [PythonText] [CodeText] in
/-- The two parsers, one after the other, behind what each of them is caught at. -/
def parseDate (text : String) : Except String (Option ℤ) :=
  match TimeText.fromisoformat text with
  | .ok parsed => parsed.toUtc.map some
  | .error e =>
      if e.kind = .valueError then
        match TimeText.parsedateToDatetime text with
        | .ok parsed => parsed.toUtc.map some
        | .error e =>
            if e.kind = .typeError ∨ e.kind = .valueError ∨ e.kind = .indexError then .ok none
            else .error e.message
      else .error e.message

def parseReceivedAt (value : Json) : Except String (Option ℤ) :=
  match value, number? value with
  | .null, _ => .ok none
  | value, some timestamp => (fromTimestamp value timestamp).map some
  | value, none =>
      let text := strip (.ofList (value.text TimeText.isPrintable))
      if text = "" then .ok none
      else parseDate (withUtcOffset text)

/-! ## Times that can be read -/

/-- The text is no date, or one that is in range in UTC. -/
def ReadableDate (text : String) : Prop :=
  match TimeText.fromisoformat text with
  | .ok parsed => parsed.InUtcRange
  | .error e => e.kind = .valueError ∧
      match TimeText.parsedateToDatetime text with
      | .ok parsed => parsed.InUtcRange
      | .error e => e.kind ≠ .overflowError

/-- The value is no time, or one that is in range. -/
def ReadableTime (value : Json) : Prop :=
  match value, number? value with
  | .null, _ => True
  | _, some timestamp => InTimestampRange timestamp
  | value, none =>
      let text := strip (.ofList (value.text TimeText.isPrintable))
      text = "" ∨ ReadableDate (withUtcOffset text)

omit [PythonText] [CodeText] in
theorem fromTimestamp_ok_iff (value : Json) (timestamp : Option ℚ) :
    (∃ t, fromTimestamp value timestamp = .ok t) ↔ InTimestampRange timestamp := by
  cases timestamp with
  | none => exact ⟨nofun, nofun⟩
  | some timestamp =>
      unfold fromTimestamp
      dsimp only
      by_cases h : InDateRange (timestampSeconds timestamp)
      · rw [if_pos h]
        exact ⟨fun _ => h, fun _ => ⟨_, rfl⟩⟩
      · rw [if_neg h]
        exact ⟨nofun, fun hrange => absurd hrange h⟩

omit [PythonText] [CodeText] in
theorem parseDate_ok_iff (text : String) :
    (∃ t, parseDate text = .ok t) ↔ ReadableDate text := by
  unfold parseDate ReadableDate
  cases TimeText.fromisoformat text with
  | ok parsed => exact (Checks.exists_map_ok some).trans parsed.toUtc_ok_iff
  | error e =>
      dsimp only
      by_cases he : e.kind = .valueError
      · rw [if_pos he]
        cases TimeText.parsedateToDatetime text with
        | ok parsed =>
            have hutc := (Checks.exists_map_ok some).trans parsed.toUtc_ok_iff
            exact hutc.trans ⟨fun h => ⟨he, h⟩, fun h => h.2⟩
        | error e' =>
            dsimp only
            cases hkind : e'.kind with
            | typeError => exact ⟨fun _ => ⟨he, nofun⟩, fun _ => ⟨none, rfl⟩⟩
            | valueError => exact ⟨fun _ => ⟨he, nofun⟩, fun _ => ⟨none, rfl⟩⟩
            | indexError => exact ⟨fun _ => ⟨he, nofun⟩, fun _ => ⟨none, rfl⟩⟩
            | overflowError => exact ⟨nofun, fun h => absurd rfl h.2⟩
      · rw [if_neg he]
        exact ⟨nofun, fun h => absurd h.1 he⟩

omit [CodeText] in
/-- **A time is parsed exactly if it can be read.** -/
theorem parseReceivedAt_ok_iff (value : Json) :
    (∃ t, parseReceivedAt value = .ok t) ↔ ReadableTime value := by
  unfold parseReceivedAt ReadableTime
  split
  · exact ⟨fun _ => trivial, fun _ => ⟨none, rfl⟩⟩
  · exact (Checks.exists_map_ok some).trans (fromTimestamp_ok_iff _ _)
  · dsimp only
    split
    · rename_i hempty
      exact ⟨fun _ => Or.inl hempty, fun _ => ⟨none, rfl⟩⟩
    · rename_i hshown
      rw [parseDate_ok_iff]
      exact ⟨Or.inr, fun h => h.resolve_left hshown⟩

/-! ## Evidence -/

/-- The helpers of a message as the service has them. -/
@[reducible] def mailText : MailText where
  repr value := .ofList (value.pyRepr TimeText.isPrintable)
  htmlToVisibleText := MailBody.htmlToVisibleText
  sanitizeMailText := MailBody.sanitizeMailText
  parseReceivedAt := parseReceivedAt

attribute [local instance] mailText

def receivedField (raw : JsonObject) : Json :=
  raw.pick ["createdAt", "created_at", "receivedAt", "date", "time", "timestamp"]
    (raw.get "createTime")

theorem messageDictToEvidence_ok_iff (raw : JsonObject) (address : String) :
    (∃ e, messageDictToEvidence raw address = .ok e) ↔ ReadableTime (receivedField raw) := by
  rw [← parseReceivedAt_ok_iff]
  unfold messageDictToEvidence normalizeRawMessage
  show (∃ e, ((parseReceivedAt (receivedField raw) >>= _) >>= _) = Except.ok e) ↔ _
  cases parseReceivedAt (receivedField raw) with
  | error message => exact ⟨nofun, nofun⟩
  | ok t => exact ⟨fun _ => ⟨t, rfl⟩, fun _ => ⟨_, rfl⟩⟩

/-- Nothing was raised before a message is read, and its time can be read. -/
def Readable (raw : Except String JsonObject) : Prop :=
  ∃ item, raw = .ok item ∧ ReadableTime (receivedField item)

theorem readMessage_ok_iff (raw : Except String JsonObject) (address : String) :
    (∃ e, readMessage address raw = .ok e) ↔ Readable raw := by
  cases raw with
  | error message =>
      constructor
      · rintro ⟨e, h⟩
        cases h
      · rintro ⟨item, h, -⟩
        cases h
  | ok item =>
      refine (messageDictToEvidence_ok_iff item address).trans ⟨fun h => ⟨item, rfl, h⟩, ?_⟩
      rintro ⟨item', h, hreadable⟩
      cases h
      exact hreadable

theorem readMessages_ok_iff (address : String) (raws : List (Except String JsonObject)) :
    (∃ evidence, readMessages address raws = .ok evidence) ↔ ∀ raw ∈ raws, Readable raw := by
  induction raws with
  | nil =>
      refine ⟨fun _ raw hraw => ?_, fun _ => ⟨[], rfl⟩⟩
      cases hraw
  | cons raw rest ih =>
      rw [List.forall_mem_cons, ← ih, ← readMessage_ok_iff raw address, readMessages]
      constructor
      · rintro ⟨evidence, h⟩
        cases hfirst : readMessage address raw with
        | error message =>
            rw [hfirst] at h
            cases h
        | ok first =>
            cases hothers : readMessages address rest with
            | error message =>
                rw [hfirst, hothers] at h
                cases h
            | ok others => exact ⟨⟨first, rfl⟩, ⟨others, rfl⟩⟩
      · rintro ⟨⟨first, hfirst⟩, ⟨others, hothers⟩⟩
        rw [hfirst, hothers]
        exact ⟨_, rfl⟩

theorem readMessages_append {address : String} {raws raws' : List (Except String JsonObject)}
    {evidence evidence' : List InboxMessageEvidence}
    (h : readMessages address raws = .ok evidence)
    (h' : readMessages address raws' = .ok evidence') :
    readMessages address (raws ++ raws') = .ok (evidence ++ evidence') := by
  induction raws generalizing evidence with
  | nil =>
      cases h
      exact h'
  | cons raw rest ih =>
      rw [readMessages] at h
      rw [List.cons_append, readMessages]
      cases hfirst : readMessage address raw with
      | error message =>
          rw [hfirst] at h
          cases h
      | ok first =>
          cases hothers : readMessages address rest with
          | error message =>
              rw [hfirst, hothers] at h
              cases h
          | ok others =>
              rw [hfirst, hothers] at h
              cases h
              rw [ih hothers]
              rfl

/-! ## Listings -/

/-- The evidence that an adapter builds of a listing. -/
def OnDemandAdapter.buildEvidence (adapter : OnDemandAdapter) (address : String)
    (inbox : List ListedMessage) : Except String (List InboxMessageEvidence) :=
  readMessages address (inbox.filterMap adapter.source)

/-- A message hides nothing: the evidence of the listing and the fetch do not
raise, and the evidence of the other messages is what it is without it. -/
def HidesNothing (adapter : OnDemandAdapter) (address : String)
    (earlier later : List ListedMessage) (extra : ListedMessage) : Prop :=
  (∀ query, ∃ evidence,
      adapter.fetchEvidence address query (earlier ++ extra :: later) = .ok evidence) ∧
    ∃ before own behind,
      adapter.buildEvidence address (earlier ++ extra :: later) =
          .ok (before ++ own ++ behind) ∧
        adapter.buildEvidence address [extra] = .ok own ∧
        adapter.buildEvidence address earlier = .ok before ∧
        adapter.buildEvidence address later = .ok behind ∧
        adapter.buildEvidence address (earlier ++ later) = .ok (before ++ behind)

/-- The lookup of a message raises nothing that the adapter does not catch, and its time
can be read, as the adapter takes it. -/
def OnDemandAdapter.Reads (adapter : OnDemandAdapter) (message : ListedMessage) : Prop :=
  ∀ raw, adapter.source message = some raw → Readable raw

theorem buildEvidence_ok_iff (adapter : OnDemandAdapter) (address : String)
    (inbox : List ListedMessage) :
    (∃ evidence, adapter.buildEvidence address inbox = .ok evidence) ↔
      ∀ message ∈ inbox, adapter.Reads message := by
  unfold OnDemandAdapter.buildEvidence OnDemandAdapter.Reads
  rw [readMessages_ok_iff]
  constructor
  · intro h message hmessage raw hraw
    exact h raw (List.mem_filterMap.mpr ⟨message, hmessage, hraw⟩)
  · intro h raw hraw
    obtain ⟨message, hmessage, hsource⟩ := List.mem_filterMap.mp hraw
    exact h message hmessage raw hsource

theorem buildEvidence_append {adapter : OnDemandAdapter} {address : String}
    {inbox inbox' : List ListedMessage} {evidence evidence' : List InboxMessageEvidence}
    (h : adapter.buildEvidence address inbox = .ok evidence)
    (h' : adapter.buildEvidence address inbox' = .ok evidence') :
    adapter.buildEvidence address (inbox ++ inbox') = .ok (evidence ++ evidence') := by
  unfold OnDemandAdapter.buildEvidence at h h' ⊢
  rw [List.filterMap_append]
  exact readMessages_append h h'

theorem fetchEvidence_ok {adapter : OnDemandAdapter} {inbox : List ListedMessage}
    (h : ∀ message ∈ inbox, adapter.Reads message) (address : String)
    (query : VerificationQuery) :
    ∃ evidence, adapter.fetchEvidence address query inbox = .ok evidence := by
  have hwindow : ∀ message ∈ adapter.window query inbox, adapter.Reads message :=
    fun message hmessage => h message (mem_of_mem_window hmessage)
  obtain ⟨messages, hmessages⟩ := (buildEvidence_ok_iff adapter address _).mpr hwindow
  have hread : readMessages address
      ((adapter.window query inbox).filterMap adapter.source) = .ok messages := hmessages
  rw [OnDemandAdapter.fetchEvidence_eq]
  unfold fetchWith
  rw [hread]
  exact ⟨_, rfl⟩

theorem reads_of_hidesNothing {adapter : OnDemandAdapter} {address : String}
    {earlier later : List ListedMessage} {extra : ListedMessage}
    (h : HidesNothing adapter address earlier later extra) :
    ∀ message ∈ earlier ++ extra :: later, adapter.Reads message := by
  obtain ⟨-, before, own, behind, hbuilt, -⟩ := h
  exact (buildEvidence_ok_iff adapter address _).mp ⟨_, hbuilt⟩

end

/-! ## A time in milliseconds -/

section Sample

attribute [local instance] asciiText asciiCodeText

@[reducible] def numericTimes : TimeText where
  fromisoformat text := .error ⟨.valueError, "Invalid isoformat string: " ++ text⟩
  parsedateToDatetime text := .error ⟨.valueError, "Invalid date value or format " ++ text⟩
  microseconds seconds := ⌊seconds * 1000000⌋
  timestampError _ := "year is out of range"
  isPrintable _ := true

attribute [local instance] numericTimes mailText

def messageAt (time : ℤ) : ListedMessage where
  item := .obj [("to", .str "a@x.org"), ("text", .str "482913"), ("timestamp", .int time)]

theorem reads_messageAt {time : ℤ} :
    OnDemandAdapter.cloudflareTempEmail.Reads (messageAt time) ↔
      ReadableTime (receivedField [("to", .str "a@x.org"), ("text", .str "482913"),
        ("timestamp", .int time)]) :=
  ⟨fun h => by
      obtain ⟨item, hitem, hreadable⟩ := h _ rfl
      cases hitem
      exact hreadable,
    fun h raw hraw => by
      cases hraw
      exact ⟨_, rfl, h⟩⟩

end Sample

end MailboxService
