import RemoteSettings.Store.Session

/-!
# Runs of the store

A store runs by moves: calls begin, tasks take turns, replies come, tasks are cancelled, and callers
read and change what they may.  Any task may take its turn at any moment, so a run is any order in
which the tasks go on between their waits; the line in which tasks stand is only one such order.

## Main definitions

* `StoreMove` — what can happen to a store.
* `Store.after` — the store after moves one after another.
* `Store.commitReply` — what a task does with a reply before it goes on.

## Main results

* `after_induction` — what every move preserves holds after any run.
* `turn_of_doomed`, `turn_ready`, `turn_joining`, `turn_done` — turns, by how far the task has come.
* `complete_resolve`, `complete_save` — how a task goes on once its reply is committed.
* `exists_run_eq_after`, `exists_perform_eq_after` — turns in the order of the line are a run, and a
  call from its beginning to its end is one.
-/

namespace RemoteSettings

/-- What can happen to a store. -/
inductive StoreMove
  | spawn (call : Call) (quiet : Bool)
  | turn (tr : Transport) (task : Nat)
  | respond (number : Nat) (reply : Reply)
  | cancel (task : Nat)
  | trigger (canSpawn : Bool) (key : ResolverKey)
  | invalidate (key : ResolverKey)
  | invalidateAll
  | dispatch (action : Action)
  | readSettings (group : String) (withEdits : Bool)
  | readSetting (group id : String) (withEdits : Bool)
  | readEditedIds (group : String)

namespace Store

/-- The store after a move. -/
def move (s : Store) : StoreMove → Store
  | .spawn call quiet => (s.spawn call quiet).2
  | .turn tr n => { s with line := s.line.erase n }.turn tr n
  | .respond number reply => (s.respond number reply).2
  | .cancel n => (s.cancel n).2
  | .trigger canSpawn key => s.trigger canSpawn key
  | .invalidate key => s.invalidate key
  | .invalidateAll => s.invalidateAll
  | .dispatch action => s.dispatch action
  | .readSettings group withEdits => (s.readSettings group withEdits).2
  | .readSetting group id withEdits => (s.readSetting group id withEdits).2
  | .readEditedIds group => (s.readEditedIds group).2

/-- The store after moves one after another. -/
def after (s : Store) (ms : List StoreMove) : Store := ms.foldl move s

@[simp] theorem after_cons (s : Store) (m : StoreMove) (ms : List StoreMove) :
    s.after (m :: ms) = (s.move m).after ms := rfl

/-- What every move preserves holds after any run. -/
theorem after_induction {P : Store → Prop} (move : ∀ s m, P s → P (s.move m)) {s : Store}
    (h : P s) (ms : List StoreMove) : P (s.after ms) := by
  induction ms generalizing s with
  | nil => exact h
  | cons m ms ih => exact ih (move s m h)

/-! ### What is read off tasks -/

/-- What is read off phases changes at one place when a task comes further. -/
theorem map_setPhase {β : Type} (f : Phase → β) (s : Store) (n : Nat) (phase : Phase) :
    (s.setPhase n phase).tasks.map (fun t => f t.phase)
      = (s.tasks.map fun t => f t.phase).set n (f phase) := by
  refine List.ext_getElem? fun i => ?_
  by_cases hi : n = i
  · subst hi
    by_cases hlt : n < s.tasks.length <;> simp [setPhase, modifyTask, hlt]
  · simp [setPhase, modifyTask, hi]

/-- That a task is to be dropped does not show where nothing is said of it. -/
theorem map_doom {β : Type} {f : Task → β} (hf : ∀ t : Task, f { t with doomed := true } = f t)
    (s : Store) (n : Nat) :
    (s.modifyTask n fun t => { t with doomed := true }).tasks.map f = s.tasks.map f := by
  refine List.ext_getElem? fun i => ?_
  rw [modifyTask, List.getElem?_map, List.getElem?_map, List.getElem?_modify]
  cases s.tasks[i]? with
  | none => rfl
  | some t => by_cases hi : n = i <;> simp [hi, hf]

/-! ### Turns -/

section Turn

variable {s : Store} {n : Nat} {tr : Transport} {t : Task}

/-- A cancelled task ends at its turn. -/
theorem turn_of_doomed (hn : s.tasks[n]? = some t) (hdoomed : t.doomed = true) :
    s.turn tr n = s.drop n t.phase := by
  rw [turn, hn]
  exact if_pos hdoomed

theorem turn_ready (hn : s.tasks[n]? = some t) (hdoomed : t.doomed = false) {call : Call}
    (hphase : t.phase = .ready call) : s.turn tr n = s.begin tr n call := by
  rw [turn, hn]
  dsimp only
  rw [hdoomed, hphase]
  rfl

theorem turn_joining (hn : s.tasks[n]? = some t) (hdoomed : t.doomed = false) {c : Nat}
    {wanted : Followup} (hphase : t.phase = .joining c wanted) :
    s.turn tr n = s.join tr n c wanted := by
  rw [turn, hn]
  dsimp only
  rw [hdoomed, hphase]
  rfl

theorem turn_done (hn : s.tasks[n]? = some t) (hdoomed : t.doomed = false)
    (hphase : t.phase = .done) : s.turn tr n = s := by
  rw [turn, hn]
  dsimp only
  rw [hdoomed, hphase]
  rfl

end Turn

/-! ### Completing an operation -/

/-- Commits the reply to a request, and gives up flag and lock. -/
def commitReply (s : Store) (n : Nat) (op : Remote) (lock : Option Lock) (reply : Reply) : Store :=
  let s := ((s.dispatchAll (op.commit reply).1).did (.committed n op reply)).setFlag op false
  match lock with
  | some lock => s.releaseLock lock
  | none => s

/-- A task that has run a resolver says how the run has ended, and is told so itself. -/
theorem complete_resolve (s : Store) (n : Nat) (op : Remote) (lock : Option Lock) (c : Nat)
    (wanted : Followup) (reply : Reply) :
    s.complete n op lock (.resolve c wanted) reply
      = (((s.commitReply n op lock reply).resolve c ((op.commit reply).2.map fun _ => ())).tried
          (.ended n c ((op.commit reply).2.map fun _ => ()))).tell n c
            ((op.commit reply).2.map fun _ => ()) wanted := by
  cases lock <;> rfl

/-- A task that has saved answers with what has been saved. -/
theorem complete_save (s : Store) (n : Nat) (op : Remote) (lock : Option Lock) (reply : Reply) :
    s.complete n op lock .save reply
      = (s.commitReply n op lock reply).finish n ((op.commit reply).2.map (savedAnswer op)) := by
  cases lock <;> rfl

/-! ### Turns in the order of the line -/

/-- Turns in the order of the line are a run. -/
theorem exists_run_eq_after (tr : Transport) (fuel : Nat) (s : Store) :
    ∃ ns : List Nat, s.run tr fuel = s.after (ns.map (.turn tr)) := by
  induction fuel generalizing s with
  | zero => exact ⟨[], rfl⟩
  | succ fuel ih =>
    unfold run
    split
    · exact ⟨[], rfl⟩
    · next n rest hline =>
      obtain ⟨ns, hns⟩ := ih ({ s with line := rest }.turn tr n)
      have herase : s.line.erase n = rest := by rw [hline, List.erase_cons_head]
      refine ⟨n :: ns, ?_⟩
      rw [hns, List.map_cons, after_cons, move, herase]

/-- A call from its beginning to its end is a run. -/
theorem exists_perform_eq_after (tr : Transport) (s : Store) (call : Call) :
    ∃ ms : List StoreMove, (s.perform tr call).2 = s.after ms := by
  obtain ⟨ns, hns⟩ := exists_run_eq_after tr
    ((s.spawn call false).2.line.length + 8 * (s.spawn call false).2.tasks.length)
    (s.spawn call false).2
  exact ⟨.spawn call false :: ns.map (.turn tr), hns⟩

end Store

end RemoteSettings
