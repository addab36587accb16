import RemoteSettings.Json.Basic

/-!
# JSON text

Values are written compactly: no blanks, fields in their order, and only those characters escaped
that a JSON string cannot hold.

## Main definitions

* `Json.quote` — a string in quotation marks.
* `Json.print` — the characters of a value.
* `Json.text` — the same as a string.
-/

namespace RemoteSettings.Json

/-- A digit in base sixteen, in lower case. -/
def hexDigit (n : Nat) : Char := Nat.digitChar n

/-- A character as it stands inside a JSON string. -/
def escape (c : Char) : List Char :=
  match c with
  | '"' => ['\\', '"']
  | '\\' => ['\\', '\\']
  | '\x08' => ['\\', 'b']
  | '\x0c' => ['\\', 'f']
  | '\n' => ['\\', 'n']
  | '\r' => ['\\', 'r']
  | '\t' => ['\\', 't']
  | c =>
    if c.toNat < 0x20 then ['\\', 'u', '0', '0', hexDigit (c.toNat / 16), hexDigit (c.toNat % 16)]
    else [c]

/-- A string between quotation marks. -/
def quote (s : String) : List Char := '"' :: s.toList.flatMap escape ++ ['"']

mutual

/-- The compact text of a value. -/
def print : Json → List Char
  | .null => ['n', 'u', 'l', 'l']
  | .bool true => ['t', 'r', 'u', 'e']
  | .bool false => ['f', 'a', 'l', 's', 'e']
  | .number n => n.text
  | .string s => quote s
  | .array items => '[' :: printItems items ++ [']']
  | .object fields => '{' :: printFields fields ++ ['}']

/-- The items of an array, separated by commas. -/
def printItems : List Json → List Char
  | [] => []
  | item :: rest => print item ++ printItemsAfter rest

/-- The items that follow the first. -/
def printItemsAfter : List Json → List Char
  | [] => []
  | item :: rest => ',' :: print item ++ printItemsAfter rest

/-- The fields of an object, separated by commas. -/
def printFields : List (String × Json) → List Char
  | [] => []
  | (key, value) :: rest => quote key ++ ':' :: print value ++ printFieldsAfter rest

/-- The fields that follow the first. -/
def printFieldsAfter : List (String × Json) → List Char
  | [] => []
  | (key, value) :: rest => ',' :: quote key ++ ':' :: print value ++ printFieldsAfter rest

end

/-- The compact text of a value. -/
def text (j : Json) : String := String.ofList j.print

end RemoteSettings.Json
