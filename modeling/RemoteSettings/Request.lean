import RemoteSettings.Failure

/-!
# Requests to the service

## Main definitions

* `Method`, `Request` — what is asked of the service.
* `Reply` — the JSON that the service answers with, or why there is none.
* `Transport` — how requests are answered: at once, or some time later.
* `Transport.later` — the transport that answers nothing at once.
* `Route`, `Transport.scripted` — a service whose answers are given beforehand.
-/

namespace RemoteSettings

/-- What is to be done with a resource. -/
inductive Method
  | get
  | put
  | post
  deriving DecidableEq, Repr, Inhabited

/-- The name of a method. -/
def Method.name : Method → String
  | .get => "GET"
  | .put => "PUT"
  | .post => "POST"

/-- What is asked of the service. -/
structure Request where
  method : Method
  path : String
  data : Option Json := none
  deriving Inhabited

namespace Request

/-- Asks for a resource. -/
def get (path : String) : Request := ⟨.get, path, none⟩

/-- Sets a resource. -/
def put (path : String) (data : Json) : Request := ⟨.put, path, some data⟩

/-- Sends something to a resource. -/
def post (path : String) (data : Json) : Request := ⟨.post, path, some data⟩

end Request

/-- The JSON that the service answers with, or why there is none. -/
abbrev Reply := Except Failure Json

/-- How a request is answered after the requests sent before it; `none` if it is answered later. -/
abbrev Transport := List Request → Request → Option Reply

/-- Nothing is answered at once. -/
def Transport.later : Transport := fun _ _ => none

/-- The answers to the requests for a resource. -/
structure Route where
  method : String
  path : String
  /-- The answer to each request in turn; the last one is repeated. -/
  replies : List Reply

namespace Route

/-- Whether a route answers a request. -/
def answers (r : Route) (request : Request) : Bool :=
  r.method == request.method.name && r.path == request.path

/-- The answer to the request before which `n` others came. -/
def reply? (r : Route) (n : Nat) : Option Reply := r.replies[n]?.or r.replies.getLast?

end Route

/-- The failure of a request that no route answers. -/
def Request.noRoute (r : Request) : Failure :=
  .http 404 ("no route for " ++ r.method.name ++ " " ++ r.path)

/-- Each request is answered at once by the first route for its resource. -/
def Transport.scripted (routes : List Route) : Transport := fun earlier request =>
  let route := routes.find? (·.answers request)
  let uses := (earlier.filter fun r => r.method == request.method && r.path == request.path).length
  some (((route.bind (·.reply? uses))).getD (.error request.noRoute))

end RemoteSettings
