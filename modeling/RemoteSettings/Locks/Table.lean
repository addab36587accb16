import RemoteSettings.Keyed
import RemoteSettings.Scope

/-!
# Locks on scopes

A lock covers a scope of a store.  Exclusive locks keep every overlapping lock of the store out;
shared locks keep only exclusive ones out.  A request that cannot be granted waits with a *ticket*.
Whenever a lock is released, the waiting requests are scanned in the order in which they came, and
each that no longer conflicts is granted: its lock is active from then on, and is sent to the
waiter, who collects it or abandons the ticket.

## Main definitions

* `Lock`, `LockTable` — granted locks, waiting requests and locks on their way.
* `LockTable.acquire`, `LockTable.collect`, `LockTable.release`, `LockTable.abandon` — what parties
  can do.
* `LockTable.scan` — the scan for requests that can be granted.
-/

namespace RemoteSettings

/-- Whether a lock admits others. -/
inductive LockMode
  | shared
  | exclusive
  deriving DecidableEq, Repr, Inhabited

namespace LockMode

/-- The name of a mode. -/
def name : LockMode → String
  | .shared => "shared"
  | .exclusive => "exclusive"

end LockMode

/-- A granted lock; its number is never given again. -/
structure Lock where
  id : Nat
  store : String
  scope : Scope
  mode : LockMode
  deriving DecidableEq, Inhabited

/-- A request that waits. -/
structure Waiter where
  ticket : Nat
  store : String
  scope : Scope
  mode : LockMode
  deriving DecidableEq, Inhabited

/-- The locks of all stores. -/
structure LockTable where
  nextId : Nat := 0
  nextTicket : Nat := 0
  /-- The granted locks, those on their way included. -/
  active : List Lock := []
  /-- The waiting requests in the order in which they came. -/
  waiting : List Waiter := []
  /-- The locks that have been granted to waiters but not collected, by ticket. -/
  sent : Keyed Nat Lock := []
  deriving Inhabited

namespace LockTable

/-- Whether a lock with given properties would meet an active lock that it does not admit. -/
def conflicts (t : LockTable) (store : String) (scope : Scope) (mode : LockMode) : Bool :=
  t.active.any fun l =>
    l.store == store && (mode == .exclusive || l.mode == .exclusive) && l.scope.overlaps scope

/-- Makes a lock active. -/
def grant (t : LockTable) (store : String) (scope : Scope) (mode : LockMode) : Lock × LockTable :=
  let lock : Lock := ⟨t.nextId, store, scope, mode⟩
  (lock, { t with nextId := t.nextId + 1, active := t.active ++ [lock] })

/-- Ends the lock of a number. -/
def remove (t : LockTable) (id : Nat) : LockTable :=
  { t with active := t.active.filter (·.id != id) }

/-- Scans requests in their order: each is granted and sent, or waits on.  A waiter may vanish just
when its lock is sent; then the lock ends at once.  Also gives the tickets that were served. -/
def scan (vanishing : Nat → Bool) : List Waiter → LockTable → LockTable × List Nat
  | [], t => (t, [])
  | w :: rest, t =>
    if t.conflicts w.store w.scope w.mode then
      scan vanishing rest { t with waiting := t.waiting ++ [w] }
    else
      let (lock, t) := t.grant w.store w.scope w.mode
      if vanishing w.ticket then scan vanishing rest (t.remove lock.id)
      else
        let (t, served) := scan vanishing rest { t with sent := t.sent ++ [(w.ticket, lock)] }
        (t, w.ticket :: served)

/-- Scans all waiting requests. -/
def drain (vanishing : Nat → Bool) (t : LockTable) : LockTable × List Nat :=
  -- Requests that have to wait on are put back in their order.
  scan vanishing t.waiting { t with waiting := [] }

/-- Asks for a lock: it is granted at once, or the request waits with a ticket. -/
def acquire (t : LockTable) (store : String) (scope : Scope) (mode : LockMode) :
    (Lock ⊕ Nat) × LockTable :=
  if t.conflicts store scope mode then
    (.inr t.nextTicket,
      { t with
        nextTicket := t.nextTicket + 1
        waiting := t.waiting ++ [⟨t.nextTicket, store, scope, mode⟩] })
  else
    let (lock, t) := t.grant store scope mode
    (.inl lock, t)

/-- Takes the lock that was sent to a ticket, if there is one. -/
def collect (t : LockTable) (ticket : Nat) : Option Lock × LockTable :=
  (t.sent.get? ticket, { t with sent := t.sent.erase ticket })

/-- Ends the lock of a number, and scans while some waiters vanish.  An unknown number is
ignored. -/
def releaseWhile (vanishing : Nat → Bool) (t : LockTable) (id : Nat) : LockTable × List Nat :=
  if t.active.any (·.id == id) then (t.remove id).drain vanishing else (t, [])

/-- Ends the lock of a number; also gives the tickets that are served now. -/
def release (t : LockTable) (id : Nat) : LockTable × List Nat :=
  t.releaseWhile (fun _ => false) id

/-- Gives up a ticket while some waiters vanish.  If a lock has been sent to it, the lock is
released. -/
def abandonWhile (vanishing : Nat → Bool) (t : LockTable) (ticket : Nat) : LockTable × List Nat :=
  match t.sent.get? ticket with
  | some lock => releaseWhile vanishing { t with sent := t.sent.erase ticket } lock.id
  | none => ({ t with waiting := t.waiting.filter (·.ticket != ticket) }, [])

/-- Gives up a ticket; also gives the tickets that are served now. -/
def abandon (t : LockTable) (ticket : Nat) : LockTable × List Nat :=
  t.abandonWhile (fun _ => false) ticket

end LockTable

end RemoteSettings
