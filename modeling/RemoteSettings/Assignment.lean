import RemoteSettings.Json.Reader
import RemoteSettings.Update

/-!
# Values and assignments on the command line

## Main definitions

* `Value.parse` — a value as typed: JSON if it is JSON, else the text itself.
* `Assignment.parse` — an update as typed: an id, an equals sign and a value.
-/

namespace RemoteSettings

/-- A value as typed: JSON if it is JSON, else the text itself. -/
def Value.parse (raw : String) : Value :=
  match Json.parse? raw with
  | some j => .ofJson j
  | none => .text raw

namespace Assignment

/-- The characters before and after the first equals sign. -/
def split : List Char → Option (List Char × List Char)
  | [] => none
  | '=' :: rest => some ([], rest)
  | c :: rest => (split rest).map fun (id, raw) => (c :: id, raw)

/-- An update as typed; `none` without an equals sign, or without an id before it. -/
def parse (raw : String) : Option Update :=
  match split raw.toList with
  | some (c :: id, value) => some ⟨String.ofList (c :: id), .parse (String.ofList value)⟩
  | _ => none

end Assignment

end RemoteSettings
