import RemoteSettings.Json.Decode

/-!
# Configuration of the log

## Main definitions

* `LogFormat`, `Logging` — what is logged, and how.
* `Logging.directive` — what is logged once the command line has asked for more.
-/

namespace RemoteSettings

/-- How log lines are written. -/
inductive LogFormat
  | text
  | json
  deriving DecidableEq, Repr, Inhabited

namespace LogFormat

/-- The name of a format. -/
def name : LogFormat → String
  | .text => "text"
  | .json => "json"

/-- The format with a given name. -/
def ofName (name : String) : Except Complaint LogFormat :=
  if name = "text" then .ok .text
  else if name = "json" then .ok .json
  else .error (.unknownVariant name ["text", "json"])

/-- Reads a format: its name, or an object with its name as the only key and null as the value. -/
def decode : Json → Except Complaint LogFormat
  | .string name => ofName name
  | .object [(name, content)] => do
    let format ← ofName name
    match content with
    | .null => .ok format
    | j => .error (.wrongType j.shape "unit")
  | .object _ => .error .notOneKey
  | j => .error (.wrongType j.shape "string or map")

/-- The field whose name comes first. -/
def first? : List (String × Json) → Option (String × Json)
  | [] => none
  | field :: rest =>
    match first? rest with
    | some other => if other.1 < field.1 then some other else some field
    | none => some field

/-- Reads a format as `decode` does, except that of several keys the first in order counts. -/
def decodeLoosely : Json → Except Complaint LogFormat
  | .object fields => decode (.object (first? fields).toList)
  | j => decode j

end LogFormat

/-- What is logged, and how. -/
structure Logging where
  /-- A directive such as `info` or `store=debug,warn`. -/
  level : String := "warn"
  format : LogFormat := .text
  deriving DecidableEq, Inhabited

namespace Logging

/-- How the configuration of the log is read, given how a format is. -/
def recordWith (format : Json → Except Complaint LogFormat) : Record Logging where
  name := "LoggingConfig"
  fields := ["level", "format"]
  strict := true
  blank := {}
  set c
    | "level", j => do return { c with level := ← Decode.text j }
    | "format", j => do return { c with format := ← format j }
    | _, _ => return c

/-- Reads the configuration of the log. -/
def decode (j : Json) : Except Complaint Logging := (recordWith LogFormat.decode).decode j

/-- Reads the configuration of the log as `decode` does, passing over what is too much. -/
def decodeLoosely (j : Json) : Except Complaint Logging :=
  (recordWith LogFormat.decodeLoosely).decodeLoosely j

/-- Writes the configuration of the log. -/
def toJson (c : Logging) : Json :=
  .object [("level", .string c.level), ("format", .string c.format.name)]

/-- The directive in force: the configured one, or a more talkative one if the command line asks
for it. -/
def directive (c : Logging) : Nat → String
  | 0 => c.level
  | 1 => "info"
  | 2 => "debug"
  | _ => "trace"

end Logging

end RemoteSettings
