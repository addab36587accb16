import RemoteSettings.Config.Basic
import RemoteSettings.Store.Turn

/-!
# Using the store

What can be done to the store from outside, between the turns of its tasks.

## Main definitions

* `Store.ofConfig` — the store of a configuration.
* `Store.trigger` — resolves a key in the background, if it has not been begun.
* `Store.invalidate`, `Store.invalidateAll` — forget what has been resolved.
* `Store.respond`, `Store.cancel` — the reply to a request, the end of a task.
* `Store.perform` — a call from its beginning to its end.
-/

namespace RemoteSettings.Store

/-- The store of a configuration. -/
def ofConfig (c : Config) : Store := fresh c.storeName c.endpoints

/-- Whether the resolution of a key counts as begun. -/
def hasStarted (s : Store) (key : ResolverKey) : Bool := s.resolutions.has key

/-- Whether the resolution of a key counts as ended. -/
def hasFinished (s : Store) (key : ResolverKey) : Bool :=
  ((s.resolutions.get? key).bind fun c => s.cells[c]?).any (·.outcome.isSome)

/-- Forgets the resolution of a key. -/
def invalidate (s : Store) (key : ResolverKey) : Store :=
  { s with resolutions := s.resolutions.erase key }

/-- Forgets all resolutions. -/
def invalidateAll (s : Store) : Store := { s with resolutions := [] }

/-- Resolves a key in the background, if it has not been begun and tasks can be begun. -/
def trigger (s : Store) (canSpawn : Bool) (key : ResolverKey) : Store :=
  if s.hasStarted key || !canSpawn then s
  else ((s.cellOf key).2.spawn (.background key) true).2

/-- Gives the reply to a request; says whether it was awaited. -/
def respond (s : Store) (number : Nat) (reply : Reply) : Bool × Store :=
  match s.awaited.get? number with
  | some n =>
    (true,
      { s with
        awaited := s.awaited.erase number
        replies := s.replies.put number reply }.wake n)
  | none => (false, s)

/-- Cancels a task; says whether it was still at work. -/
def cancel (s : Store) (n : Nat) : Bool × Store :=
  match s.tasks[n]? with
  | some t =>
    if t.phase.isDone then (false, s)
    else (true, (s.modifyTask n fun t => { t with doomed := true }).wake n)
  | none => (false, s)

/-- The answer that a task has given. -/
def answerOf? (s : Store) (n : Nat) : Option (Except Failure Answer) :=
  s.log.findSome? fun e =>
    match e.what with
    | .done k answer => if k = n then some answer else none
    | _ => none

/-- A call from its beginning to its end, if every request is answered at once. -/
def perform (tr : Transport) (s : Store) (call : Call) : Option (Except Failure Answer) × Store :=
  let (n, s) := s.spawn call false
  let s := s.settle tr
  (s.answerOf? n, s)

end RemoteSettings.Store
