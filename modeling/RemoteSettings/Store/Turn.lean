import RemoteSettings.Store.Basic

/-!
# Turns of the tasks

When its turn comes, a task goes on until it has to wait: for another task to resolve its key, for
a lock, or for a reply.  A cancelled task gives up what it holds instead: first its flag falls, then
its lock is released, then another task may resolve the key.

## Main definitions

* `Store.begin`, `Store.join`, `Store.startRemote`, `Store.locked`, `Store.complete` — the parts of
  a turn, each leading to the next.
* `Store.drop` — the end of a cancelled task.
* `Store.turn` — a turn.
* `Store.settle` — turns until the line is empty.
-/

namespace RemoteSettings.Store

/-- Ends a task. -/
def finish (s : Store) (n : Nat) (answer : Except Failure Answer) : Store :=
  let quiet := (s.tasks[n]?.map (·.quiet)).getD true
  let s := s.setPhase n .done
  if quiet then s else s.note (.done n answer)

/-- Goes on once a key is resolved. -/
def follow (s : Store) (n : Nat) (outcome : Except Failure Unit) : Followup → Store
  | wanted =>
    match outcome, wanted with
    | .error f, _ => s.finish n (.error f)
    | .ok (), .groups => s.finish n (.ok (.groups s.state.groups.value))
    | .ok (), .settings group withEdits =>
      let (r, s) := s.readSettings group withEdits
      s.finish n (.ok (.settings r.value))
    | .ok (), .setting group id withEdits =>
      let (r, s) := s.readSetting group id withEdits
      s.finish n (.ok (.setting (r.map (·.value))))
    | .ok (), .value group id withEdits =>
      s.finish n (.ok (.value (s.state.value? group id withEdits)))
    | .ok (), .edit group id value => (s.dispatch (.edit group id value)).finish n (.ok .nothing)
    | .ok (), .editAll group updates =>
      (s.dispatch (.editAll group updates)).finish n (.ok .nothing)
    | .ok (), .nothing _ => s.finish n (.ok .nothing)

/-- Tells a task how the run for its cell has ended, and goes on. -/
def tell (s : Store) (n cell : Nat) (outcome : Except Failure Unit) (wanted : Followup) : Store :=
  (s.tried (.told n cell outcome)).follow n outcome wanted

/-- Records how the resolution of a cell ended, and wakes those who wait for it. -/
def resolve (s : Store) (cell : Nat) (outcome : Except Failure Unit) : Store :=
  let waiters := (s.cells[cell]?.map (·.waiters)).getD []
  (s.modifyCell cell fun _ => ⟨some outcome, none, []⟩).wakeAll waiters

/-- The answer of a save. -/
def savedAnswer : Remote → List Setting → Answer
  | .saveBatch _ _, settings => .saved settings
  | _, settings => .setting settings.head?

/-- Commits the reply to a request, gives up flag and lock, and goes on. -/
def complete (s : Store) (n : Nat) (op : Remote) (lock : Option Lock) (goal : Goal)
    (reply : Reply) : Store :=
  let (actions, result) := op.commit reply
  -- What is committed is committed while the lock is held.
  let s := ((s.dispatchAll actions).did (.committed n op reply)).setFlag op false
  let s := match lock with
    | some lock => s.releaseLock lock
    | none => s
  match goal with
  | .resolve cell wanted =>
    let outcome := result.map fun _ => ()
    ((s.resolve cell outcome).tried (.ended n cell outcome)).tell n cell outcome wanted
  | .save => s.finish n (result.map (savedAnswer op))

/-- Puts the request of an operation on its way. -/
def sendOff (s : Store) (n : Nat) (op : Remote) : Store :=
  let request := op.request s.endpoints
  let number := s.requests.length
  ({ s with requests := s.requests ++ [request] }.note (.requested number request)).did (.sent n op)

/-- Waits for the reply to a request. -/
def await (s : Store) (n number : Nat) (op : Remote) (lock : Option Lock) (goal : Goal) : Store :=
  { s with awaited := s.awaited.put number n }.setPhase n (.requesting number op lock goal)

/-- Sends the request of an operation whose lock, if it needs one, is held. -/
def send (tr : Transport) (s : Store) (n : Nat) (op : Remote) (lock : Option Lock) (goal : Goal) :
    Store :=
  match tr s.requests (op.request s.endpoints) with
  | some reply => (s.sendOff n op).complete n op lock goal reply
  | none => (s.sendOff n op).await n s.requests.length op lock goal

/-- Goes on with an operation whose lock has been got hold of. -/
def locked (tr : Transport) (s : Store) (n : Nat) (op : Remote) (lock : Lock) (goal : Goal) :
    Store :=
  ((s.note (.acquired lock)).setFlag op true).send tr n op (some lock) goal

/-- Begins an operation. -/
def startRemote (tr : Transport) (s : Store) (n : Nat) (op : Remote) (goal : Goal) : Store :=
  match op.lock? with
  | none => s.send tr n op none goal
  | some (scope, mode) =>
    match s.locks.acquire s.name scope mode with
    | (.inl lock, locks) => ({ s with locks }.ask scope mode).locked tr n op lock goal
    | (.inr ticket, locks) => ({ s with locks }.ask scope mode).setPhase n (.locking ticket op goal)

/-- Waits for a cell, or resolves its key if nobody does. -/
def join (tr : Transport) (s : Store) (n : Nat) (cell : Nat) (wanted : Followup) : Store :=
  match s.cells[cell]? with
  | none => s
  | some c =>
    match c.outcome with
    | some outcome => s.tell n cell outcome wanted
    | none =>
      -- The task that resolves the key may have been cancelled; then whoever comes next does it.
      if c.driver = none ∨ c.driver = some n then
        ((s.modifyCell cell fun c => { c with driver := some n }).tried
          (.begun n cell wanted.key)).startRemote tr n wanted.key.remote (.resolve cell wanted)
      else
        (s.modifyCell cell fun c =>
          if c.waiters.contains n then c else { c with waiters := c.waiters ++ [n] }).setPhase n
          (.joining cell wanted)

/-- Resolves the key of what is wanted, and goes on. -/
def want (tr : Transport) (s : Store) (n : Nat) (wanted : Followup) : Store :=
  let (cell, s) := s.cellOf wanted.key
  s.join tr n cell wanted

/-- Begins to work on a call. -/
def begin (tr : Transport) (s : Store) (n : Nat) : Call → Store
  | .resolveGroups => s.want tr n .groups
  | .resolveSettings group withEdits => s.want tr n (.settings group withEdits)
  | .resolveSetting group id withEdits => s.want tr n (.setting group id withEdits)
  | .resolveValue group id withEdits => s.want tr n (.value group id withEdits)
  | .editSetting group id value => s.want tr n (.edit group id value)
  | .editSettings group updates =>
    match updates.validate with
    | .ok () => s.want tr n (.editAll group updates.toList)
    | .error problem => s.finish n (.error problem.toFailure)
  | .saveSetting group id value => s.startRemote tr n (.saveSetting group id value) .save
  | .saveSettings group updates => s.startRemote tr n (.saveBatch group updates.toList) .save
  | .saveEditedSetting group id =>
    let (ids, s) := s.readEditedIds group
    match s.state.value? group id true with
    | some value =>
      if ids.value.contains id then s.startRemote tr n (.saveSetting group id value) .save
      else s.finish n (.ok (.setting none))
    | none => s.finish n (.ok (.setting none))
  | .saveEditedSettings group =>
    let (ids, s) := s.readEditedIds group
    let updates := ids.value.filterMap fun id =>
      (s.state.value? group id true).map fun value => ⟨id, value⟩
    if updates.isEmpty then s.finish n (.ok (.saved []))
    else s.startRemote tr n (.saveBatch group updates) .save
  | .background key => s.want tr n (.nothing key)
  | .refuse failure => s.finish n (.error failure)

/-- Lets the first who waits for a cell resolve its key. -/
def passOn (s : Store) (cell : Nat) : Store :=
  match (s.cells[cell]?.map (·.waiters)).getD [] with
  | [] => s.modifyCell cell fun c => { c with driver := none }
  | w :: rest => (s.modifyCell cell fun c => { c with driver := some w, waiters := rest }).wake w

/-- Gives up what a task has been working for. -/
def dropGoal (s : Store) (n : Nat) : Goal → Store
  | .resolve cell _ => (s.tried (.dropped n cell)).passOn cell
  | .save => s

/-- Waits no longer for the reply to a request. -/
def forget (s : Store) (number : Nat) : Store :=
  { s with awaited := s.awaited.erase number, replies := s.replies.erase number }

/-- Ends a cancelled task. -/
def drop (s : Store) (n : Nat) (phase : Phase) : Store :=
  let s := s.setPhase n .done
  match phase with
  | .ready _ => s
  | .done => s
  | .joining cell _ =>
    let s := s.modifyCell cell fun c => { c with waiters := c.waiters.filter (· != n) }
    if (s.cells[cell]?.bind (·.driver)) = some n then s.passOn cell else s
  | .locking ticket _ goal => (s.serve (s.locks.abandon ticket)).dropGoal n goal
  | .requesting number op lock goal =>
    -- Here too the flag falls while the lock is held.
    let s := ((s.forget number).did (.dropped n op)).setFlag op false
    let s := match lock with
      | some lock => s.releaseLock lock
      | none => s
    s.dropGoal n goal

/-- A turn of a task. -/
def turn (tr : Transport) (s : Store) (n : Nat) : Store :=
  match s.tasks[n]? with
  | none => s
  | some t =>
    if t.doomed then s.drop n t.phase
    else
      match t.phase with
      | .ready call => s.begin tr n call
      | .joining cell wanted => s.join tr n cell wanted
      | .locking ticket op goal =>
        match s.locks.collect ticket with
        | (some lock, locks) => { s with locks }.locked tr n op lock goal
        -- The lock has not been sent yet.
        | (none, _) => s
      | .requesting number op lock goal =>
        match s.replies.get? number with
        | some reply =>
          { s with replies := s.replies.erase number }.complete n op lock goal reply
        | none => s
      | .done => s

/-- At most so many turns. -/
def run (tr : Transport) : Nat → Store → Store
  | 0, s => s
  | fuel + 1, s =>
    match s.line with
    | [] => s
    | n :: rest => run tr fuel ({ s with line := rest }.turn tr n)

/-- Turns until the line is empty: a task is woken at most once in each phase. -/
def settle (tr : Transport) (s : Store) : Store := s.run tr (s.line.length + 8 * s.tasks.length)

end RemoteSettings.Store
