import RemoteSettings.Keyed
import RemoteSettings.Number.Basic

/-!
# JSON values

## Main definitions

* `Json` — the values; an object has its fields in the order of their first appearance.
* `Json.equals` — equality, in which the order of an object's fields does not count.
-/

namespace RemoteSettings

/-- A JSON value. -/
inductive Json
  | null
  | bool (b : Bool)
  | number (n : Number)
  | string (s : String)
  | array (items : List Json)
  | object (fields : List (String × Json))
  deriving Inhabited

namespace Json

/-- A field of an object. -/
def get? (key : String) : Json → Option Json
  | .object fields => Keyed.get? key fields
  | _ => none

/-- The text of a string value. -/
def string? : Json → Option String
  | .string s => some s
  | _ => none

/-- Whether a value is an object. -/
def isObject : Json → Bool
  | .object _ => true
  | _ => false

mutual

/-- Equality of values.  Numbers must agree in form and value, objects in their fields in any
order. -/
def equals : Json → Json → Bool
  | .null, .null => true
  | .bool a, .bool b => a == b
  | .number a, .number b => a.sameAs b
  | .string a, .string b => a == b
  | .array a, .array b => equalsAll a b
  | .object a, .object b => a.length == b.length && fieldsWithin a b
  | _, _ => false

/-- Equality item by item. -/
def equalsAll : List Json → List Json → Bool
  | [], [] => true
  | a :: as, b :: bs => equals a b && equalsAll as bs
  | _, _ => false

/-- Whether every field of the first list is found with an equal value in the second. -/
def fieldsWithin : List (String × Json) → List (String × Json) → Bool
  | [], _ => true
  | (k, v) :: rest, b =>
    (match Keyed.get? k b with
      | some w => equals v w
      | none => false) && fieldsWithin rest b

end

/-- Equality of what may be absent. -/
def equalOptional {α : Type} (eq : α → α → Bool) : Option α → Option α → Bool
  | none, none => true
  | some a, some b => eq a b
  | _, _ => false

/-- A field that is written only when it is there. -/
def optionalField {α : Type} (name : String) (write : α → Json) :
    Option α → List (String × Json)
  | none => []
  | some a => [(name, write a)]

end Json

end RemoteSettings
