import RemoteSettings.Json.Skim
import RemoteSettings.Request

/-!
# What the body of a reply says

A reply of success carries JSON, or nothing.  Any other reply may carry a rejection, which is read
from the text directly: a field must not be given twice, and fields that a rejection does not have
are passed over.

## Main definitions

* `Rejection.ofBody?` — the rejection that a body is.
* `Reply.ofBody` — what a reply with a given status and body says.
-/

namespace RemoteSettings

namespace Rejection

/-- What has been read of a rejection. -/
structure Draft where
  code : Option String := none
  message : Option String := none
  data : Option Json := none

/-- The rejection that a draft makes; null is no data. -/
def Draft.finish (d : Draft) : Rejection :=
  ⟨d.code.getD "", d.message.getD "", d.data.bind fun | .null => none | j => some j⟩

/-- How deep the data of a rejection may nest. -/
def dataDepth : Nat := Json.maxDepth - 1

/-- Reads a string that must come next. -/
def textNext (s : List Symbol) : Option (String × List Symbol) :=
  match Reader.skipBlanks s with
  | .char '"' :: rest => (Reader.string rest).toOption
  | _ => none

/-- Reads any value that comes next. -/
def dataNext (s : List Symbol) : Option (Json × List Symbol) :=
  (Reader.value (2 * s.length + 1) dataDepth s).toOption

/-- Reads the value of a field into a draft that does not have it yet; a field of another name is
passed over. -/
def Draft.field (d : Draft) (name : String) (s : List Symbol) : Option (Draft × List Symbol) :=
  match name with
  | "code" => if d.code.isSome then none else do
      let (text, rest) ← textNext s
      some ({ d with code := some text }, rest)
  | "message" => if d.message.isSome then none else do
      let (text, rest) ← textNext s
      some ({ d with message := some text }, rest)
  | "data" => if d.data.isSome then none else do
      let (data, rest) ← dataNext s
      some ({ d with data := some data }, rest)
  | _ => do
    let rest ← Skim.value (2 * s.length + 1) s
    some (d, rest)

/-- Reads the members of an object into a draft, up to its end; the first key's quotation mark has
been read. -/
def members : Nat → Draft → List Symbol → Option (Draft × List Symbol)
  | 0, _, _ => none
  | fuel + 1, d, s => do
    let (name, rest) ← (Reader.string s).toOption
    let rest ← Skim.colon rest
    let (d, rest) ← d.field name rest
    match Reader.skipBlanks rest with
    | .char '}' :: rest => some (d, rest)
    | .char ',' :: rest =>
      match Reader.skipBlanks rest with
      | .char '"' :: rest => members fuel d rest
      | _ => none
    | _ => none

/-- Reads the items of an array into the fields of given names, up to the array's end; fields at the
end may be missing. -/
def items : List String → Draft → List Symbol → Option (Draft × List Symbol)
  | [], _, _ => none
  | name :: names, d, s => do
    let (d, rest) ← d.field name s
    match Reader.skipBlanks rest with
    | .char ']' :: rest => some (d, rest)
    | .char ',' :: rest => items names d rest
    | _ => none

/-- Reads a rejection. -/
def read (s : List Symbol) : Option (Draft × List Symbol) :=
  match Reader.skipBlanks s with
  | .char '{' :: rest =>
    match Reader.skipBlanks rest with
    | .char '}' :: rest => some ({}, rest)
    | .char '"' :: rest => members rest.length {} rest
    | _ => none
  | .char '[' :: rest =>
    match Reader.skipBlanks rest with
    | .char ']' :: rest => some ({}, rest)
    | rest => items record.fields {} rest
  | _ => none

/-- The rejection that a body is, if it is one. -/
def ofBody? (s : List Symbol) : Option Rejection := do
  let (d, rest) ← read s
  if (Reader.skipBlanks rest).isEmpty then some d.finish else none

end Rejection

namespace Reply

/-- Whether a status means success. -/
def isSuccess (status : Nat) : Bool := 200 ≤ status && status < 300

/-- Whether a byte is white space. -/
def isSpace (b : UInt8) : Bool := b == 0x20 || b == 0x9 || b == 0xA || b == 0xC || b == 0xD

/-- The bytes of a body that a failure keeps. -/
def previewLimit : Nat := 512

/-- The beginning of a body as text. -/
def preview (body : List UInt8) : String :=
  String.ofList (Symbol.lossy (Symbol.ofBytes (body.take previewLimit)))

/-- What a reply of success says; white space stands for null. -/
def ofAccepted (body : List UInt8) : Reply :=
  if body.all isSpace then .ok .null
  else (Json.read (Symbol.ofBytes body)).mapError fun e => .decode e.message

/-- Why a reply is none of success: the rejection that it carries, if that has a code, or else the
status and the beginning of the body. -/
def refusal (status : Nat) (body : List UInt8) : Failure :=
  match (Rejection.ofBody? (Symbol.ofBytes body)).filter (·.code != "") with
  | some r => .rejected (some status) r
  | none => .http status (preview body)

/-- What a reply with a given status and body says. -/
def ofBody (status : Nat) (body : List UInt8) : Reply :=
  if isSuccess status then ofAccepted body else .error (refusal status body)

end Reply

end RemoteSettings
