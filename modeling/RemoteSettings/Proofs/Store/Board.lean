import Mathlib.Logic.Relation
import RemoteSettings.Proofs.Store.Frame

/-!
# What the store's tasks do about locks and requests

Seen from far enough away, a task asks for a lock, gets it, sends its request, commits the reply or
is dropped, gives the lock back and ends.  A *board* shows just that: the table of locks, how far
each task has come, and what has been sent, committed and dropped.

A turn goes through several steps before it says how far its task has come.  Until then the board is
shown with the task put where it really stands.

## Main definitions

* `Stage` — how far a task has come with its operation.
* `Board`, `Store.board` — the board of a store.
* `Board.Step`, `Board.Steps` — what a single task does, and what tasks do one after another.

## Main results

* `Steps.induction` — what holds at first and is preserved by each step is preserved by all.
-/

namespace RemoteSettings

/-- How far a task has come with its operation. -/
inductive Stage
  /-- The operation has not been begun. -/
  | idle
  | queued (ticket : Nat) (op : Remote)
  /-- The lock, if one is needed, has been got hold of; nothing has been sent. -/
  | holding (op : Remote) (lock : Option Lock)
  | awaiting (op : Remote) (lock : Option Lock)
  /-- The reply has been committed, or the operation has been dropped. -/
  | closing (lock : Option Lock)
  | over

/-- The lock that a task has in hand. -/
def Stage.lock? : Stage → Option Lock
  | holding _ lock => lock
  | awaiting _ lock => lock
  | closing lock => lock
  | _ => none

/-- How far a task in a phase has come. -/
def Phase.stage : Phase → Stage
  | ready _ => .idle
  | joining _ _ => .idle
  | locking ticket op _ => .queued ticket op
  | requesting _ op lock _ => .awaiting op lock
  | done => .over

/-- What a store shows of its locks and operations. -/
structure Board where
  /-- The name under which locks are taken. -/
  name : String
  endpoints : Endpoints
  locks : LockTable
  /-- How far each task has come, by number. -/
  stages : List Stage
  requests : List Request
  deeds : List Deed

/-- The board of a store. -/
def Store.board (s : Store) : Board where
  name := s.name
  endpoints := s.endpoints
  locks := s.locks
  stages := s.tasks.map (·.phase.stage)
  requests := s.requests
  deeds := s.deeds

namespace Board

variable {b : Board} {n : Nat}

/-- Says how far a task has come. -/
def put (b : Board) (n : Nat) (st : Stage) : Board := { b with stages := b.stages.set n st }

/-- Notes what a task does. -/
def did (b : Board) (d : Deed) : Board := { b with deeds := b.deeds ++ [d] }

/-- Puts the request of an operation on its way. -/
def sendOff (b : Board) (n : Nat) (op : Remote) : Board :=
  { b with requests := b.requests ++ [op.request b.endpoints] }.did (.sent n op)

/-- Releases the lock that a task has in hand, if it has one. -/
def letGo (b : Board) : Option Lock → Board
  | some lock => { b with locks := (b.locks.release lock.id).1 }
  | none => b

/-- What a task does. -/
inductive Step (b : Board) : Board → Prop
  | spawn : Step b { b with stages := b.stages ++ [.idle] }
  /-- An operation without a lock goes ahead. -/
  | skip {n : Nat} {op : Remote} (idle : b.stages[n]? = some .idle) (free : op.lock? = none) :
      Step b (b.put n (.holding op none))
  | grant {n : Nat} {op : Remote} {scope : Scope} {mode : LockMode} {lock : Lock} {t : LockTable}
      (idle : b.stages[n]? = some .idle) (needs : op.lock? = some (scope, mode))
      (acquired : b.locks.acquire b.name scope mode = (.inl lock, t)) :
      Step b ({ b with locks := t }.put n (.holding op (some lock)))
  | queue {n : Nat} {op : Remote} {scope : Scope} {mode : LockMode} {ticket : Nat} {t : LockTable}
      (idle : b.stages[n]? = some .idle) (needs : op.lock? = some (scope, mode))
      (acquired : b.locks.acquire b.name scope mode = (.inr ticket, t)) :
      Step b ({ b with locks := t }.put n (.queued ticket op))
  | collect {n ticket : Nat} {op : Remote} {lock : Lock}
      (queued : b.stages[n]? = some (.queued ticket op))
      (sent : b.locks.sent.get? ticket = some lock) :
      Step b ({ b with locks := (b.locks.collect ticket).2 }.put n (.holding op (some lock)))
  | abandon {n ticket : Nat} {op : Remote} (queued : b.stages[n]? = some (.queued ticket op)) :
      Step b ({ b with locks := (b.locks.abandon ticket).1 }.put n .over)
  | send {n : Nat} {op : Remote} {lock : Option Lock}
      (holding : b.stages[n]? = some (.holding op lock)) :
      Step b ((b.sendOff n op).put n (.awaiting op lock))
  | commit {n : Nat} {op : Remote} {lock : Option Lock} (reply : Reply)
      (awaiting : b.stages[n]? = some (.awaiting op lock)) :
      Step b ((b.did (.committed n op reply)).put n (.closing lock))
  | drop {n : Nat} {op : Remote} {lock : Option Lock}
      (awaiting : b.stages[n]? = some (.awaiting op lock)) :
      Step b ((b.did (.dropped n op)).put n (.closing lock))
  | release {n : Nat} {lock : Option Lock} (closing : b.stages[n]? = some (.closing lock)) :
      Step b ((b.letGo lock).put n (.closing none))
  | finish {n : Nat} {st : Stage} (stage : b.stages[n]? = some st)
      (settled : st = .idle ∨ st = .closing none) :
      Step b (b.put n .over)

/-- What tasks do one after another. -/
abbrev Steps : Board → Board → Prop := Relation.ReflTransGen Step

theorem Step.one {b b' : Board} (h : b.Step b') : b.Steps b' := Relation.ReflTransGen.single h

/-- What each step preserves is preserved by all. -/
theorem Steps.induction {P : Board → Prop} (step : ∀ b b', Step b b' → P b → P b') {b b' : Board}
    (hsteps : b.Steps b') (h : P b) : P b' := by
  induction hsteps with
  | refl => exact h
  | tail _ hstep ih => exact step _ _ hstep ih

@[simp] theorem put_put (st st' : Stage) : (b.put n st).put n st' = b.put n st' := by
  simp [put]

theorem stage_put (h : n < b.stages.length) (st : Stage) :
    (b.put n st).stages[n]? = some st := by
  simp [put, h]

/-- To put a task where it stands changes nothing. -/
theorem put_self {st : Stage} (h : b.stages[n]? = some st) : b.put n st = b := by
  obtain ⟨hlt, hst⟩ := List.getElem?_eq_some_iff.mp h
  rw [put, ← hst, List.set_getElem_self]

theorem lt_of_stage {st : Stage} (h : b.stages[n]? = some st) : n < b.stages.length :=
  (List.getElem?_eq_some_iff.mp h).1

theorem put_sendOff (st : Stage) (op : Remote) :
    (b.put n st).sendOff n op = (b.sendOff n op).put n st := rfl

theorem put_did (st : Stage) (d : Deed) : (b.put n st).did d = (b.did d).put n st := rfl

theorem put_letGo (st : Stage) (lock : Option Lock) :
    (b.put n st).letGo lock = (b.letGo lock).put n st := by
  cases lock <;> rfl

@[simp] theorem letGo_none (b : Board) : b.letGo none = b := rfl

@[simp] theorem stages_did (d : Deed) : (b.did d).stages = b.stages := rfl

@[simp] theorem stages_letGo (lock : Option Lock) : (b.letGo lock).stages = b.stages := by
  cases lock <;> rfl

/-- A task that has committed its reply gives its lock back and ends. -/
theorem steps_close (h : n < b.stages.length) (lock : Option Lock) :
    (b.put n (.closing lock)).Steps ((b.letGo lock).put n .over) := by
  -- Both steps say where the task stands, and only the last word counts.
  have hrelease := Step.release (stage_put h (.closing lock))
  have hclosed : n < (b.letGo lock).stages.length := by simpa using h
  have hfinish := Step.finish (stage_put hclosed (.closing none)) (Or.inr rfl)
  rw [put_letGo, put_put] at hrelease
  rw [put_put] at hfinish
  exact hrelease.one.tail hfinish

end Board

namespace Store

variable {s : Store} {n : Nat} {tr : Transport}

/-! ### What does not show on the board -/

@[simp] theorem board_note (s : Store) (what : Happening) : (s.note what).board = s.board := rfl

@[simp] theorem board_tried (s : Store) (a : Attempt) : (s.tried a).board = s.board := rfl

@[simp] theorem board_did (s : Store) (d : Deed) : (s.did d).board = s.board.did d := rfl

@[simp] theorem board_dispatch (s : Store) (a : Action) : (s.dispatch a).board = s.board := by
  rw [dispatch_eq]
  rfl

@[simp] theorem board_dispatchAll (s : Store) (as : List Action) :
    (s.dispatchAll as).board = s.board := by
  rw [dispatchAll_eq]
  rfl

@[simp] theorem board_wake (s : Store) (n : Nat) : (s.wake n).board = s.board := by
  rw [wake_eq]
  rfl

@[simp] theorem board_setPhase (s : Store) (n : Nat) (phase : Phase) :
    (s.setPhase n phase).board = s.board.put n phase.stage := by
  -- All but the stage of the task is as it was, and so it is if there is no such task.
  have hstages := map_setPhase Phase.stage s n phase
  simp only [setPhase, modifyTask, board, Board.put] at hstages ⊢
  rw [hstages]

@[simp] theorem board_modifyCell (s : Store) (c : Nat) (f : Cell → Cell) :
    (s.modifyCell c f).board = s.board := rfl

@[simp] theorem board_cellOf (s : Store) (key : ResolverKey) :
    (s.cellOf key).2.board = s.board := by
  rw [cellOf_eq]
  rfl

@[simp] theorem board_setFlag (s : Store) (op : Remote) (up : Bool) :
    (s.setFlag op up).board = s.board := by
  rw [setFlag_eq_dispatchAll, board_dispatchAll]

theorem board_serve (s : Store) (result : LockTable × List Nat) :
    (s.serve result).board = { s.board with locks := result.1 } := by
  rw [serve_eq]
  rfl

theorem board_releaseLock (s : Store) (lock : Lock) :
    (s.releaseLock lock).board = s.board.letGo (some lock) := by
  rw [releaseLock_eq]
  rfl

end Store

end RemoteSettings
