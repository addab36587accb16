import RemoteSettings.Http.Client
import RemoteSettings.Number.Spelling

/-!
# Messages on the wire

A message is sent as lines of text with a body behind an empty line, and the connection is closed
after the reply.  The reply's body is as long as its header says, comes in chunks, or ends with the
connection.

## Main definitions

* `Target.host`, `Target.port` — where the connection goes.
* `Message.bytes` — what is sent.
* `Delivery.ofBytes` — what has come back when the connection is closed.
-/

namespace RemoteSettings

namespace Target

/-- The authority without the part up to the last at sign. -/
def hostAndPort (t : Target) : List Char :=
  (t.authority.toList.reverse.takeWhile (· != '@')).reverse

/-- The host, without the brackets of a numeric one. -/
def host (t : Target) : String :=
  match t.hostAndPort with
  | '[' :: rest => String.ofList (rest.takeWhile (· != ']'))
  | s => String.ofList (s.takeWhile (· != ':'))

/-- The port, which has a default. -/
def port (t : Target) : Nat :=
  let digits := (t.hostAndPort.reverse.takeWhile Char.isDigit).reverse
  match t.hostAndPort.reverse.dropWhile Char.isDigit with
  | ':' :: _ => (Spelling.natural? 10 digits).getD 80
  | _ => 80

end Target

/-! ### Sending -/

/-- A header line. -/
def headerLine (name value : String) : String := name ++ ": " ++ value ++ "\r\n"

/-- The lines of a message, up to the empty one. -/
def Message.head (m : Message) (host : String) : String :=
  m.method.name ++ " " ++ m.target ++ " HTTP/1.1\r\n"
    ++ headerLine "accept" m.accept
    ++ headerLine "user-agent" m.userAgent
    ++ (m.contentType.map (headerLine "content-type")).getD ""
    ++ headerLine "host" host
    ++ headerLine "connection" "close"
    ++ (if m.method = .get then "" else headerLine "content-length" (toString m.body.utf8ByteSize))
    ++ "\r\n"

/-- What is sent. -/
def Message.bytes (m : Message) (host : String) : ByteArray := (m.head host ++ m.body).toUTF8

/-! ### Receiving -/

namespace Delivery

/-- The character of a byte. -/
def charOf (b : UInt8) : Char := Char.ofNat b.toNat

/-- The first line of some bytes and what follows it; `none` if no line ends. -/
def line? : List UInt8 → Option (List Char × List UInt8)
  | [] => none
  | b :: rest =>
    if b == 10 then some ([], rest)
    else (line? rest).map fun (cs, rest) => (if b == 13 then cs else charOf b :: cs, rest)

/-- The lines up to an empty one, and what follows that. -/
def lines? : Nat → List UInt8 → Option (List (List Char) × List UInt8)
  | 0, _ => none
  | fuel + 1, s => do
    let (first, rest) ← line? s
    if first.isEmpty then some ([], rest)
    else do
      let (more, rest) ← lines? fuel rest
      some (first :: more, rest)

/-- A header's name in lower case and its value. -/
def header (s : List Char) : List Char × List Char :=
  ((s.takeWhile (· != ':')).map Char.toLower, Blank.trim ((s.dropWhile (· != ':')).drop 1))

/-- The value of a header. -/
def header? (name : String) (headers : List (List Char × List Char)) : Option (List Char) :=
  headers.lookup name.toList

/-- The status in the first line of a reply. -/
def status? (s : List Char) : Option Nat :=
  let rest := (s.dropWhile (· != ' ')).drop 1
  Spelling.natural? 10 (rest.takeWhile Char.isDigit)

/-- The bytes of chunks up to the last one, which is empty. -/
def chunks? : Nat → List UInt8 → Option (List UInt8)
  | 0, _ => none
  | fuel + 1, s => do
    let (first, rest) ← line? s
    let length ← Spelling.natural? 16 (first.takeWhile fun c => (Digits.value? 16 c).isSome)
    if length = 0 then some []
    else if rest.length < length then none
    else do
      let (_, after) ← line? (rest.drop length)
      let more ← chunks? fuel after
      some (rest.take length ++ more)

/-- Whether a status goes without a body. -/
def isBodiless (status : Nat) : Bool := status == 204 || status == 304

/-- The body behind the headers of a reply, if it is complete. -/
def body? (status : Nat) (headers : List (List Char × List Char)) (s : List UInt8) :
    Option (List UInt8) :=
  if isBodiless status then some []
  else if (header? "transfer-encoding" headers).isSome then chunks? (s.length + 1) s
  else
    match (header? "content-length" headers).map (Spelling.natural? 10) with
    | some (some length) => if s.length < length then none else some (s.take length)
    | some none => none
    | none => some s

/-- What has come back when the connection is closed.  Replies that only announce another one are
passed over. -/
def ofBytes : Nat → List UInt8 → Delivery
  | 0, _ => .dropped
  | fuel + 1, s =>
    match lines? (s.length + 1) s with
    | some (first :: headers, rest) =>
      match status? first with
      | some status =>
        if status < 200 then ofBytes fuel rest
        else
          match body? status (headers.map header) rest with
          | some body => .answered status body
          | none => .brokenOff
      | none => .dropped
    | _ => .dropped

end Delivery

end RemoteSettings
