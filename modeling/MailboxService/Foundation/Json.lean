import Mathlib.Data.List.Basic
import Mathlib.Data.Int.Notation

/-!
# JSON values

What `json.loads` returns, as Python tells the values apart: integers and
floats are different types, and an object is a dictionary. A float is kept by
its `repr`, which determines it. `or` chains over the keys of an object, which
take the first value that is not falsy, are `pick`.
-/

namespace MailboxService.Foundation

inductive Json where
  | null
  | bool (b : Bool)
  | int (n : ℤ)
  | float (repr : String)
  | str (s : String)
  | arr (items : List Json)
  | obj (fields : List (String × Json))

abbrev JsonObject := List (String × Json)

namespace Json

/-- `bool(value)`. -/
def truthy : Json → Bool
  | .null => false
  | .bool b => b
  | .int n => n ≠ 0
  | .float r => r ≠ "0.0" && r ≠ "-0.0"
  | .str s => s ≠ ""
  | .arr items => !items.isEmpty
  | .obj fields => !fields.isEmpty

/-- `isinstance(value, dict)`. -/
def dict? : Json → Option JsonObject
  | .obj fields => some fields
  | _ => none

end Json

namespace JsonObject

/-- `raw.get(key)`. -/
def get (raw : JsonObject) (key : String) : Json := (raw.lookup key).getD .null

/-- `raw.get(k₁) or … or raw.get(kₙ) or last`. -/
def pick (raw : JsonObject) (keys : List String) (last : Json) : Json :=
  ((keys.map raw.get).find? Json.truthy).getD last

end JsonObject

end MailboxService.Foundation
