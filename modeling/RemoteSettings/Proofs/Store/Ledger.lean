import RemoteSettings.Proofs.Store.Frame

/-!
# What the store's tasks say and do

A *ledger* shows how far each task has come, what the surroundings have seen of the store, and what
tasks have done with remote operations.  A turn adds to what has been seen and done, and says how
far its task has come; it does not touch the other tasks.

## Main definitions

* `Ledger`, `Store.ledger` — the ledger of a store.
* `Ledger.add`, `Ledger.put` — what is added to it, and how far a task has come.
* `Remote.asking`, `Remote.opening`, `Remote.committing`, `Remote.closing` — what is seen of an
  operation.
* `Phase.parting` — what is seen of a task that is dropped.
* `Act.IsAfterword` — a caller's own last words.

## Main results

* `ledger_complete`, `ledger_drop` — what an operation adds that is completed or dropped.
-/

namespace RemoteSettings

/-- What a store shows of its tasks. -/
structure Ledger where
  /-- The name under which locks are taken. -/
  name : String
  endpoints : Endpoints
  /-- How far each task has come, by number. -/
  phases : List Phase
  acts : List Act
  deeds : List Deed

/-- The ledger of a store. -/
def Store.ledger (s : Store) : Ledger where
  name := s.name
  endpoints := s.endpoints
  phases := s.tasks.map (·.phase)
  acts := s.acts
  deeds := s.deeds

namespace Ledger

variable {l : Ledger} {n : Nat}

/-- Adds what is seen and what is done. -/
def add (l : Ledger) (acts : List Act) (deeds : List Deed) : Ledger :=
  { l with acts := l.acts ++ acts, deeds := l.deeds ++ deeds }

/-- Says how far a task has come. -/
def put (l : Ledger) (n : Nat) (phase : Phase) : Ledger :=
  { l with phases := l.phases.set n phase }

@[simp] theorem add_nil (l : Ledger) : l.add [] [] = l := by simp [add]

@[simp] theorem add_add (as bs : List Act) (ds es : List Deed) :
    (l.add as ds).add bs es = l.add (as ++ bs) (ds ++ es) := by
  simp [add, List.append_assoc]

@[simp] theorem put_add (p : Phase) (as : List Act) (ds : List Deed) :
    (l.put n p).add as ds = (l.add as ds).put n p := rfl

/-- To put a task where it stands changes nothing. -/
theorem put_self {p : Phase} (h : l.phases[n]? = some p) : l.put n p = l := by
  obtain ⟨hlt, hp⟩ := List.getElem?_eq_some_iff.mp h
  rw [put, ← hp, List.set_getElem_self]

end Ledger

/-! ### What is seen of an operation -/

/-- A lock is got hold of, if there is one. -/
def acquiring (lock : Option Lock) : List Act := lock.toList.map fun l => .happened (.acquired l)

/-- A lock is released, if there is one. -/
def releasing (lock : Option Lock) : List Act := lock.toList.map fun l => .happened (.released l)

namespace Remote

/-- The flag of an operation is raised or lowered, if it has one. -/
def flagging (op : Remote) (up : Bool) : List Act :=
  op.flag?.toList.map fun f => .dispatched (.setSaving f.1 f.2 up)

/-- An operation asks for its lock, if it needs one. -/
def asking (op : Remote) (name : String) : List Act :=
  op.lock?.toList.map fun l => .asked name l.1 l.2

/-- An operation gets its lock, raises its flag and sends its request. -/
def opening (op : Remote) (name : String) (e : Endpoints) (lock : Option Lock) (number : Nat) :
    List Act :=
  op.asking name ++ acquiring lock ++ op.flagging true
    ++ [.happened (.requested number (op.request e))]

/-- The actions to which a reply leads are applied. -/
def committing (op : Remote) (reply : Reply) : List Act := (op.commit reply).1.map .dispatched

/-- An operation lowers its flag and releases its lock. -/
def closing (op : Remote) (lock : Option Lock) : List Act := op.flagging false ++ releasing lock

end Remote

/-- What is seen of a task that is dropped in a phase. -/
def Phase.parting : Phase → List Act
  | requesting _ op lock _ => op.closing lock
  | _ => []

/-- What a task that is dropped in a phase does with its operation. -/
def Phase.leaving (n : Nat) : Phase → List Deed
  | requesting _ op _ _ => [.dropped n op]
  | _ => []

/-- A caller edits what it has resolved, or is told how its call has ended. -/
inductive Act.IsAfterword : Act → Prop
  | edit (group id : String) (value : Value) : IsAfterword (.dispatched (.edit group id value))
  | editAll (group : String) (us : List Update) : IsAfterword (.dispatched (.editAll group us))
  | done (task : Nat) (answer : Except Failure Answer) : IsAfterword (.happened (.done task answer))

namespace Store

variable {s : Store} {n : Nat}

/-! ### What is added to the ledger -/

@[simp] theorem ledger_note (s : Store) (what : Happening) :
    (s.note what).ledger = s.ledger.add [.happened what] [] := by
  simp [note, ledger, Ledger.add]

@[simp] theorem ledger_ask (s : Store) (scope : Scope) (mode : LockMode) :
    (s.ask scope mode).ledger = s.ledger.add [.asked s.name scope mode] [] := by
  simp [ask, ledger, Ledger.add]

@[simp] theorem ledger_tried (s : Store) (a : Attempt) : (s.tried a).ledger = s.ledger := rfl

@[simp] theorem ledger_did (s : Store) (d : Deed) : (s.did d).ledger = s.ledger.add [] [d] := by
  simp [did, ledger, Ledger.add]

@[simp] theorem ledger_dispatch (s : Store) (a : Action) :
    (s.dispatch a).ledger = s.ledger.add [.dispatched a] [] := by
  rw [dispatch_eq]
  simp [ledger, Ledger.add]

@[simp] theorem ledger_dispatchAll (s : Store) (as : List Action) :
    (s.dispatchAll as).ledger = s.ledger.add (as.map .dispatched) [] := by
  rw [dispatchAll_eq]
  simp [ledger, Ledger.add]

@[simp] theorem ledger_wake (s : Store) (n : Nat) : (s.wake n).ledger = s.ledger := by
  rw [wake_eq]
  rfl

@[simp] theorem ledger_setPhase (s : Store) (n : Nat) (phase : Phase) :
    (s.setPhase n phase).ledger = s.ledger.put n phase := by
  have hphases := map_setPhase id s n phase
  simp only [setPhase, modifyTask, ledger, Ledger.put, id] at hphases ⊢
  rw [hphases]

@[simp] theorem ledger_modifyCell (s : Store) (c : Nat) (f : Cell → Cell) :
    (s.modifyCell c f).ledger = s.ledger := rfl

@[simp] theorem ledger_cellOf (s : Store) (key : ResolverKey) :
    (s.cellOf key).2.ledger = s.ledger := by
  rw [cellOf_eq]
  rfl

@[simp] theorem ledger_setFlag (s : Store) (op : Remote) (up : Bool) :
    (s.setFlag op up).ledger = s.ledger.add (op.flagging up) [] := by
  rw [setFlag_eq_dispatchAll, ledger_dispatchAll, List.map_map]
  rfl

@[simp] theorem ledger_serve (s : Store) (result : LockTable × List Nat) :
    (s.serve result).ledger = s.ledger := by
  rw [serve_eq]
  rfl

@[simp] theorem ledger_releaseLock (s : Store) (lock : Lock) :
    (s.releaseLock lock).ledger = s.ledger.add (releasing (some lock)) [] := by
  rw [releaseLock, ledger_serve, ledger_note]
  rfl

@[simp] theorem ledger_readEditedIds (s : Store) (group : String) :
    (s.readEditedIds group).2.ledger = s.ledger := rfl

@[simp] theorem ledger_resolve (s : Store) (cell : Nat) (outcome : Except Failure Unit) :
    (s.resolve cell outcome).ledger = s.ledger := by
  rw [resolve_eq]
  rfl

@[simp] theorem ledger_passOn (s : Store) (cell : Nat) : (s.passOn cell).ledger = s.ledger := by
  rw [passOn_eq]
  rfl

@[simp] theorem ledger_dropGoal (s : Store) (n : Nat) (goal : Goal) :
    (s.dropGoal n goal).ledger = s.ledger := by
  rw [dropGoal_eq]
  rfl

@[simp] theorem ledger_forget (s : Store) (number : Nat) :
    (s.forget number).ledger = s.ledger := rfl

@[simp] theorem ledger_sendOff (s : Store) (n : Nat) (op : Remote) :
    (s.sendOff n op).ledger
      = s.ledger.add [.happened (.requested s.requests.length (op.request s.endpoints))]
        [.sent n op] := by
  simp [sendOff, note, did, ledger, Ledger.add]

@[simp] theorem ledger_await (s : Store) (n number : Nat) (op : Remote) (lock : Option Lock)
    (goal : Goal) :
    (s.await n number op lock goal).ledger = s.ledger.put n (.requesting number op lock goal) :=
  ledger_setPhase _ n _

/-! ### How a turn ends -/

/-- A task that ends says so at most. -/
theorem ledger_finish (s : Store) (n : Nat) (answer : Except Failure Answer) :
    ∃ last, (∀ a ∈ last, Act.IsAfterword a) ∧
      (s.finish n answer).ledger = (s.ledger.add last []).put n .done := by
  rw [finish]
  split
  · exact ⟨[], by simp, by simp⟩
  · refine ⟨[.happened (.done n answer)], fun a ha => ?_, by simp⟩
    rw [List.mem_singleton.mp ha]
    exact .done n answer

/-- A caller that goes on edits at most before it ends. -/
theorem ledger_follow (s : Store) (n : Nat) (outcome : Except Failure Unit) (wanted : Followup) :
    ∃ last, (∀ a ∈ last, Act.IsAfterword a) ∧
      (s.follow n outcome wanted).ledger = (s.ledger.add last []).put n .done := by
  have hedit : ∀ a answer, Act.IsAfterword (.dispatched a) → ∃ last,
      (∀ a ∈ last, Act.IsAfterword a) ∧
        ((s.dispatch a).finish n answer).ledger = (s.ledger.add last []).put n .done := by
    intro a answer ha
    obtain ⟨last, hlast, hledger⟩ := ledger_finish (s.dispatch a) n answer
    refine ⟨.dispatched a :: last, List.forall_mem_cons.mpr ⟨ha, hlast⟩, ?_⟩
    rw [hledger, ledger_dispatch, Ledger.add_add]
    rfl
  cases outcome with
  | error f => cases wanted <;> exact ledger_finish s n _
  | ok =>
    cases wanted with
    | edit group id value => exact hedit _ _ (.edit group id value)
    | editAll group updates => exact hedit _ _ (.editAll group updates)
    | settings group withEdits => exact ledger_finish (s.readSettings group withEdits).2 n _
    | setting group id withEdits => exact ledger_finish (s.readSetting group id withEdits).2 n _
    | _ => exact ledger_finish s n _

/-- A caller that is told how the run has ended goes on. -/
theorem ledger_tell (s : Store) (n cell : Nat) (outcome : Except Failure Unit) (wanted : Followup) :
    ∃ last, (∀ a ∈ last, Act.IsAfterword a) ∧
      (s.tell n cell outcome wanted).ledger = (s.ledger.add last []).put n .done :=
  ledger_follow (s.tried (.told n cell outcome)) n outcome wanted

@[simp] theorem ledger_commitReply (s : Store) (n : Nat) (op : Remote) (lock : Option Lock)
    (reply : Reply) :
    (s.commitReply n op lock reply).ledger
      = s.ledger.add (op.committing reply ++ op.closing lock) [.committed n op reply] := by
  cases lock with
  | none => simp [commitReply, Remote.committing, Remote.closing, releasing]
  | some lock => simp [commitReply, Remote.committing, Remote.closing, List.append_assoc]

/-- To complete an operation is to commit its reply, to lower its flag, to release its lock and to
go on. -/
theorem ledger_complete (s : Store) (n : Nat) (op : Remote) (lock : Option Lock) (goal : Goal)
    (reply : Reply) :
    ∃ last, (∀ a ∈ last, Act.IsAfterword a) ∧
      (s.complete n op lock goal reply).ledger
        = (s.ledger.add (op.committing reply ++ op.closing lock ++ last)
            [.committed n op reply]).put n .done := by
  cases goal with
  | resolve cell wanted =>
    rw [complete_resolve]
    obtain ⟨last, hlast, hledger⟩ := ledger_tell _ n cell ((op.commit reply).2.map fun _ => ())
      wanted
    refine ⟨last, hlast, hledger.trans ?_⟩
    rw [ledger_tried, ledger_resolve, ledger_commitReply, Ledger.add_add, List.append_nil]
  | save =>
    rw [complete_save]
    obtain ⟨last, hlast, hledger⟩ := ledger_finish (s.commitReply n op lock reply) n
      ((op.commit reply).2.map (savedAnswer op))
    refine ⟨last, hlast, hledger.trans ?_⟩
    rw [ledger_commitReply, Ledger.add_add, List.append_nil]

/-- To drop a task is to do what its phase still asks for. -/
@[simp] theorem ledger_drop (s : Store) (n : Nat) (phase : Phase) :
    (s.drop n phase).ledger = (s.ledger.add phase.parting (phase.leaving n)).put n .done := by
  cases phase with
  | ready call => simp [drop, Phase.parting, Phase.leaving]
  | joining cell wanted =>
    rw [drop]
    split <;> simp [Phase.parting, Phase.leaving]
  | locking ticket op goal => simp [drop, Phase.parting, Phase.leaving]
  | requesting number op lock goal =>
    cases lock <;> simp [drop, Phase.parting, Phase.leaving, Remote.closing, releasing]
  | done => simp [drop, Phase.parting, Phase.leaving]

end Store

end RemoteSettings
