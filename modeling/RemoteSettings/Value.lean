import RemoteSettings.Json.Printer

/-!
# Setting values

The value of a setting is a truth value, a number, a text or a list of texts; any other JSON is kept
as it is.

## Main definitions

* `Value` — the values.
* `Value.ofJson`, `Value.toJson` — the wire format, which is plain JSON.
* `Value.equals` — equality, in which numbers compare by value.
-/

namespace RemoteSettings

/-- The value of a setting. -/
inductive Value
  | bool (flag : Bool)
  | number (n : Number)
  | text (s : String)
  | list (items : List String)
  /-- JSON that is none of the above. -/
  | other (j : Json)
  deriving Inhabited

namespace Value

/-- The texts of a list of JSON values, if all of them are strings. -/
def texts? : List Json → Option (List String)
  | [] => some []
  | .string s :: rest => (texts? rest).map (s :: ·)
  | _ :: _ => none

/-- Sorts JSON into the kinds of values. -/
def ofJson : Json → Value
  | .bool flag => .bool flag
  | .number n => .number n
  | .string s => .text s
  | .array items =>
    match texts? items with
    | some ss => .list ss
    | none => .other (.array items)
  | j => .other j

/-- The JSON of a value. -/
def toJson : Value → Json
  | .bool flag => .bool flag
  | .number n => .number n
  | .text s => .string s
  | .list items => .array (items.map .string)
  | .other j => j

/-- The value of a setting that none was given for. -/
def absent : Value := .other .null

/-- A whole number as a value. -/
def ofWhole (n : Whole) : Value := .number (.whole n)

/-- The text of a text value. -/
def text? : Value → Option String
  | .text s => some s
  | _ => none

/-- The flag of a truth value. -/
def bool? : Value → Option Bool
  | .bool flag => some flag
  | _ => none

/-- Equality of values: numbers by value, everything else by content. -/
def equals : Value → Value → Bool
  | .bool a, .bool b => a == b
  | .number a, .number b => a.equals b
  | .text a, .text b => a == b
  | .list a, .list b => a == b
  | .other a, .other b => a.equals b
  | _, _ => false

instance : BEq Value := ⟨equals⟩

end Value

end RemoteSettings
