import RemoteSettings.Json.Basic
import RemoteSettings.Duration.Words
import RemoteSettings.Text.Quoted

/-!
# Records in JSON

A record is written as an object of its fields in any order, or as an array of its fields in
declared order.  Reading starts from a blank record and sets the fields that are given; the first
field with an unfit value is complained about, then a required field that is missing.

## Main definitions

* `Shape` — what is said about a value that does not fit.
* `Complaint` — why a value is not the record asked for.
* `Record` — how a type of record is read.
* `Record.decode` — reads a record.
-/

namespace RemoteSettings

/-- What is said about a value that does not fit. -/
inductive Shape
  | null
  | bool (b : Bool)
  | number (n : Number)
  | string (s : String)
  | array
  | object
  deriving DecidableEq

/-- The shape of a value. -/
def Json.shape : Json → Shape
  | .null => .null
  | .bool b => .bool b
  | .number n => .number n
  | .string s => .string s
  | .array _ => .array
  | .object _ => .object

/-- The words for a shape. -/
def Shape.words : Shape → String
  | .null => "null"
  | .bool true => "boolean `true`"
  | .bool false => "boolean `false`"
  | .number (.whole n) => "integer `" ++ String.ofList (Number.whole n).text ++ "`"
  | .number (.real x) => "floating point `" ++ String.ofList x.text ++ "`"
  | .string s => "string " ++ Quoted.display s
  | .array => "sequence"
  | .object => "map"

/-- Why a JSON value is not the record asked for. -/
inductive Complaint
  | missingField (name : String)
  | unknownField (name : String) (known : List String)
  | wrongType (found : Shape) (expected : String)
  | unknownVariant (name : String) (known : List String)
  | tooFewItems (length : Nat) (record : String) (fields : Nat)
  | tooManyItems (length : Nat)
  | notOneKey
  | badDuration (problem : Duration.Problem)
  deriving DecidableEq

/-- A choice of names, as a complaint lists it. -/
def oneOf (names : List String) : String :=
  match names.map fun name => "`" ++ name ++ "`" with
  | [a, b] => a ++ " or " ++ b
  | quoted => "one of " ++ ", ".intercalate quoted

/-- The words of a complaint. -/
def Complaint.message : Complaint → String
  | .missingField name => "missing field `" ++ name ++ "`"
  | .unknownField name known => "unknown field `" ++ name ++ "`, expected " ++ oneOf known
  | .wrongType found expected => "invalid type: " ++ found.words ++ ", expected " ++ expected
  | .unknownVariant name known => "unknown variant `" ++ name ++ "`, expected " ++ oneOf known
  | .tooFewItems length record fields =>
    "invalid length " ++ toString length ++ ", expected struct " ++ record ++ " with "
      ++ toString fields ++ (if fields = 1 then " element" else " elements")
  | .tooManyItems length =>
    "invalid length " ++ toString length ++ ", expected fewer elements in array"
  | .notOneKey => "invalid value: map, expected map with a single key"
  | .badDuration problem => problem.message

namespace Decode

/-- Reads a text. -/
def text : Json → Except Complaint String
  | .string s => .ok s
  | j => .error (.wrongType j.shape "a string")

/-- Reads a list, given how an item is read; the first unfit item is complained about. -/
def list {α : Type} (item : Json → Except Complaint α) : Json → Except Complaint (List α)
  | .array items => items.mapM item
  | j => .error (.wrongType j.shape "a sequence")

/-- Reads something that may be null. -/
def nullable {α : Type} (read : Json → Except Complaint α) : Json → Except Complaint (Option α)
  | .null => .ok none
  | j => some <$> read j

end Decode

/-- How a type of record is read. -/
structure Record (α : Type) where
  /-- The name used in complaints. -/
  name : String
  /-- The fields in declared order. -/
  fields : List String
  /-- The fields that must be given; they are declared first. -/
  required : List String := []
  /-- Whether a field of another name is complained about. -/
  strict : Bool := false
  /-- The record that nothing has been read into. -/
  blank : α
  /-- Reads the value of a declared field into a record. -/
  set : α → String → Json → Except Complaint α

namespace Record

variable {α : Type}

/-- Reads a member of an object into a record. -/
def setMember (r : Record α) (value : α) (member : String × Json) : Except Complaint α :=
  if r.fields.contains member.1 then r.set value member.1 member.2
  else if r.strict then .error (.unknownField member.1 r.fields)
  else .ok value

/-- Reads members in their order into the blank record. -/
def setAll (r : Record α) (members : List (String × Json)) : Except Complaint α :=
  members.foldlM r.setMember r.blank

/-- A required field that no member gives. -/
def missing? (r : Record α) (members : List (String × Json)) : Option String :=
  r.required.find? fun name => !members.any fun m => m.1 == name

/-- Reads a record from an object or an array. -/
def decode (r : Record α) : Json → Except Complaint α
  | .object members => do
    let value ← r.setAll members
    match r.missing? members with
    | some name => .error (.missingField name)
    | none => .ok value
  | .array items => do
    let value ← r.setAll (r.fields.zip items)
    if items.length < r.required.length then
      .error (.tooFewItems items.length r.name r.fields.length)
    else if r.fields.length < items.length then .error (.tooManyItems items.length)
    else .ok value
  | j => .error (.wrongType j.shape ("struct " ++ r.name))

/-- Reads a record as `decode` does, passing over items behind the last field. -/
def decodeLoosely (r : Record α) : Json → Except Complaint α
  | .array items => r.decode (.array (items.take r.fields.length))
  | j => r.decode j

end Record

end RemoteSettings
