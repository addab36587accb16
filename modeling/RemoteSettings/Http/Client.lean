import RemoteSettings.Config.Basic
import RemoteSettings.Http.Body
import RemoteSettings.Http.Target
import RemoteSettings.Json.Printer

/-!
# Talking to the service

A request becomes a message, the network delivers it or does not, and what comes back is read as
the reply.

## Main definitions

* `Message` — what the service receives.
* `Delivery`, `Network` — what becomes of a message.
* `Client` — who sends, where to, and how long an answer is waited for.
* `Client.prepare` — the message for a request, or why there can be none.
* `Client.request` — the reply to a request.
-/

namespace RemoteSettings

/-- The media type of everything that is sent and asked for. -/
def mediaType : String := "application/json"

/-- What the service receives. -/
structure Message where
  method : Method
  /-- The path and the query. -/
  target : String
  accept : String := mediaType
  userAgent : String
  contentType : Option String := none
  body : String := ""
  deriving DecidableEq, Inhabited

/-- What becomes of a message. -/
inductive Delivery
  /-- Nobody takes it. -/
  | refused
  /-- It is taken, and no reply comes. -/
  | dropped
  /-- The reply breaks off. -/
  | brokenOff
  /-- No reply has come when the time is up. -/
  | late
  | answered (status : Nat) (body : List UInt8)
  deriving DecidableEq, Inhabited

/-- How messages are delivered to an authority under a scheme. -/
abbrev Network := Target → Message → Delivery

/-- The network that takes no message. -/
def Network.down : Network := fun _ _ => .refused

/-- Who sends, where to, and how long an answer is waited for. -/
structure Client where
  /-- The address of the service without slashes at its end. -/
  origin : String
  userAgent : String
  timeout : Duration
  deriving Inhabited

namespace Client

/-- The client that a configuration describes, unless the configuration cannot work. -/
def ofConfig (c : Config) : Except Failure Client := do
  c.validate.mapError Config.Problem.toFailure
  return ⟨Endpoints.dropSlashes c.baseUrl, c.userAgent, c.timeout⟩

/-- Whether a character may stand in a header. -/
def isHeaderChar (c : Char) : Bool := c == '\t' || (0x20 ≤ c.toNat && c.toNat ≠ 0x7F)

/-- Why no message can be made of a request. -/
inductive Problem
  | badTarget (problem : Target.Problem)
  | badHeader
  | notAbsolute
  | unsupported
  deriving DecidableEq, Repr

/-- The words for a problem. -/
def Problem.message : Problem → String
  | .badTarget problem => "invalid request: " ++ problem.message
  | .badHeader => "invalid request: failed to parse header value"
  | .notAbsolute => "client error (UserAbsoluteUriRequired)"
  | .unsupported => "client error (Connect)"

/-- The message for a request and where it goes, or why there can be none. -/
def prepare (c : Client) (r : Request) : Except Problem (Target × Message) := do
  let target ← (Target.parse (c.origin ++ r.path)).mapError .badTarget
  if !c.userAgent.toList.all isHeaderChar then .error .badHeader
  else if !target.isAbsolute then .error .notAbsolute
  else if !target.isSupported then .error .unsupported
  else
    .ok (target,
      { method := r.method, target := target.line, userAgent := c.userAgent,
        contentType := r.data.map fun _ => mediaType, body := (r.data.map Json.text).getD "" })

/-- The reply that comes of a delivery. -/
def receive (c : Client) : Delivery → Reply
  | .refused => .error (.transport "client error (Connect)")
  | .dropped => .error (.transport "client error (SendRequest)")
  | .brokenOff =>
    .error (.transport "failed to read response body: error reading a body from connection")
  | .late => .error (.timeout c.timeout)
  | .answered status body => Reply.ofBody status body

/-- The reply to a request. -/
def request (c : Client) (network : Network) (r : Request) : Reply :=
  match c.prepare r with
  | .error p => .error (.transport p.message)
  | .ok (target, message) => c.receive (network target message)

/-- The transport that asks the service at once. -/
def transport (c : Client) (network : Network) : Transport :=
  fun _ r => some (c.request network r)

end Client

end RemoteSettings
