import RemoteSettings.State.Memo
import RemoteSettings.Store.Call

/-!
# The store

The store holds the state, the locks, what has been resolved, and the tasks that work on calls.
Tasks take turns: whoever starts or can go on joins the end of a line.

## Main definitions

* `Cell` — the resolution of a key, shared by all who wait for it.
* `Phase`, `Task` — how far the work on a call has come.
* `Event` — what can be seen from outside, in order.
* `Deed` — what tasks do with remote operations, in order.
* `Attempt` — what tasks do with cells, in order.
* `Act` — what the store does that its surroundings can see, in order.
* `Store` — all of it.
* `Store.dispatch` — applies an action to the state.
-/

namespace RemoteSettings

/-- The resolution of a key. -/
structure Cell where
  /-- How it ended, once it has. -/
  outcome : Option (Except Failure Unit) := none
  /-- The task whose turn it is to resolve the key. -/
  driver : Option Nat := none
  /-- The tasks that wait, in order. -/
  waiters : List Nat := []
  deriving Inhabited

/-- What a remote operation is run for. -/
inductive Goal
  /-- To resolve the key of a cell, and then go on. -/
  | resolve (cell : Nat) (wanted : Followup)
  | save

/-- How far the work on a call has come. -/
inductive Phase
  | ready (call : Call)
  | joining (cell : Nat) (wanted : Followup)
  | locking (ticket : Nat) (op : Remote) (goal : Goal)
  | requesting (number : Nat) (op : Remote) (lock : Option Lock) (goal : Goal)
  | done
  deriving Inhabited

/-- Whether the work has ended. -/
def Phase.isDone : Phase → Bool
  | done => true
  | _ => false

/-- The work on a call. -/
structure Task where
  phase : Phase
  /-- Whether the task has been cancelled but its turn to end has not come. -/
  doomed : Bool := false
  /-- Whether nobody is told when it ends. -/
  quiet : Bool := false
  deriving Inhabited

/-- What happens. -/
inductive Happening
  | acquired (lock : Lock)
  | released (lock : Lock)
  | requested (number : Nat) (request : Request)
  | done (task : Nat) (answer : Except Failure Answer)

/-- What happens, and the saving flags that are up then. -/
structure Event where
  what : Happening
  saving : List Flag

/-- What a task does with a remote operation: it sends the request, and then it commits the reply or
is dropped. -/
inductive Deed
  | sent (task : Nat) (op : Remote)
  | committed (task : Nat) (op : Remote) (reply : Reply)
  | dropped (task : Nat) (op : Remote)

/-- What a task does with a cell: it runs the resolver of a key, until the run has ended or the task
is dropped; or it is told how a run has ended. -/
inductive Attempt
  | begun (task cell : Nat) (key : ResolverKey)
  | ended (task cell : Nat) (outcome : Except Failure Unit)
  | dropped (task cell : Nat)
  | told (task cell : Nat) (outcome : Except Failure Unit)

/-- What the store does that its surroundings can see. -/
inductive Act
  /-- It asks for a lock. -/
  | asked (store : String) (scope : Scope) (mode : LockMode)
  | happened (what : Happening)
  /-- It applies an action to the state. -/
  | dispatched (action : Action)

/-- The flags that are up: those of groups, then those of settings. -/
def State.flags (s : State) : List Flag :=
  ((s.savingGroups.value.filter (·.2)).map fun g => (g.1, none))
    ++ s.savingSettings.value.flatMap fun g =>
      (g.2.value.filter (·.2)).map fun f => (g.1, some f.1)

/-- The store. -/
structure Store where
  /-- The name under which locks are taken. -/
  name : String
  endpoints : Endpoints
  state : State := .empty
  memo : Memo := {}
  /-- The moment at which something was last built. -/
  clock : Nat := 0
  /-- How often subscribers have been told of a change. -/
  changes : Nat := 0
  locks : LockTable := {}
  /-- The cells of the keys that count as begun. -/
  resolutions : Keyed ResolverKey Nat := []
  /-- All cells by number. -/
  cells : List Cell := []
  /-- All tasks by number. -/
  tasks : List Task := []
  /-- The tasks whose turn will come, in order. -/
  line : List Nat := []
  /-- All requests by number. -/
  requests : List Request := []
  /-- The requests that wait for a reply, and the tasks that wait with them. -/
  awaited : Keyed Nat Nat := []
  /-- The replies that have come but have not been looked at. -/
  replies : Keyed Nat Reply := []
  log : List Event := []
  /-- What tasks have done with remote operations. -/
  deeds : List Deed := []
  /-- What the surroundings have seen. -/
  acts : List Act := []
  /-- What tasks have done with cells. -/
  attempts : List Attempt := []

namespace Store

/-- A store that has done nothing. -/
def fresh (name : String) (endpoints : Endpoints) : Store := { name, endpoints }

/-- Notes that something happens. -/
def note (s : Store) (what : Happening) : Store :=
  { s with log := s.log ++ [⟨what, s.state.flags⟩], acts := s.acts ++ [.happened what] }

/-- Notes that a lock is asked for. -/
def ask (s : Store) (scope : Scope) (mode : LockMode) : Store :=
  { s with acts := s.acts ++ [.asked s.name scope mode] }

/-- Notes what a task does with a remote operation. -/
def did (s : Store) (d : Deed) : Store := { s with deeds := s.deeds ++ [d] }

/-- Notes what a task does with a cell. -/
def tried (s : Store) (a : Attempt) : Store := { s with attempts := s.attempts ++ [a] }

/-- Applies an action.  Subscribers are told only if a branch of the state was rebuilt. -/
def dispatch (s : Store) (a : Action) : Store :=
  let now := s.clock + 1
  -- Time passes whether or not anything is rebuilt, so versions are never given twice.
  let next := s.state.reduce now a
  let acts := s.acts ++ [.dispatched a]
  if next.sameAs s.state then { s with clock := now, acts }
  else { s with clock := now, state := next, changes := s.changes + 1, acts }

/-- Applies actions in their order. -/
def dispatchAll (s : Store) (as : List Action) : Store := as.foldl dispatch s

/-! ### Reads -/

/-- The settings of a group, with their edits if they count. -/
def readSettings (s : Store) (group : String) (withEdits : Bool) : GroupSettings × Store :=
  let (r, memo) := s.memo.readSettings (s.clock + 1) s.state group withEdits
  (r, { s with memo, clock := s.clock + 1 })

/-- A setting, with its edit if it counts. -/
def readSetting (s : Store) (group id : String) (withEdits : Bool) :
    Option (Versioned Setting) × Store :=
  let (r, memo) := s.memo.readSetting (s.clock + 1) s.state group id withEdits
  (r, { s with memo, clock := s.clock + 1 })

/-- The ids of the settings with edits. -/
def readEditedIds (s : Store) (group : String) : Versioned (List String) × Store :=
  let (r, memo) := s.memo.readEditedIds (s.clock + 1) s.state group
  (r, { s with memo, clock := s.clock + 1 })

/-! ### Tasks and cells -/

/-- Puts a task at the end of the line, unless it stands there already. -/
def wake (s : Store) (n : Nat) : Store :=
  if s.line.contains n then s else { s with line := s.line ++ [n] }

/-- Wakes tasks in their order. -/
def wakeAll (s : Store) (ns : List Nat) : Store := ns.foldl wake s

/-- Changes a task. -/
def modifyTask (s : Store) (n : Nat) (f : Task → Task) : Store :=
  { s with tasks := s.tasks.modify n f }

/-- Says how far a task has come. -/
def setPhase (s : Store) (n : Nat) (phase : Phase) : Store :=
  s.modifyTask n fun t => { t with phase }

/-- Changes a cell. -/
def modifyCell (s : Store) (c : Nat) (f : Cell → Cell) : Store :=
  { s with cells := s.cells.modify c f }

/-- Begins to work on a call; gives the number of the task. -/
def spawn (s : Store) (call : Call) (quiet : Bool) : Nat × Store :=
  let n := s.tasks.length
  let task : Task := { phase := .ready call, quiet }
  (n, { s with tasks := s.tasks ++ [task] }.wake n)

/-- The cell of a key, which is made if the key does not count as begun. -/
def cellOf (s : Store) (key : ResolverKey) : Nat × Store :=
  match s.resolutions.get? key with
  | some c => (c, s)
  | none =>
    let c := s.cells.length
    (c, { s with cells := s.cells ++ [{}], resolutions := s.resolutions.put key c })

/-- Whether a task waits with a ticket for a lock. -/
def holdsTicket (ticket : Nat) (t : Task) : Bool :=
  match t.phase with
  | .locking k _ _ => k == ticket
  | _ => false

/-- Takes over a table of locks, and wakes the tasks that were served. -/
def serve (s : Store) (result : LockTable × List Nat) : Store :=
  { s with locks := result.1 }.wakeAll
    (result.2.filterMap fun ticket => s.tasks.findIdx? (holdsTicket ticket))

/-- Releases a lock that a task has got hold of. -/
def releaseLock (s : Store) (lock : Lock) : Store :=
  (s.note (.released lock)).serve (s.locks.release lock.id)

/-- Raises or lowers the flag of an operation, if it has one. -/
def setFlag (s : Store) (op : Remote) (up : Bool) : Store :=
  match op.flag? with
  | some (group, id) => s.dispatch (.setSaving group id up)
  | none => s

end Store

end RemoteSettings
