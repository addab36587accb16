import RemoteSettings.Proofs.Store.Run

/-!
# What the parts of a turn change

Each part of a turn changes a few fields of the store and leaves the others as they are.  What a
view of the store shows of a part follows from its equation here, so no view has to look into a part
again.

## Main results

* `wake_eq`, `wakeAll_eq` — only the line changes when tasks are woken.
* `dispatch_eq`, `dispatchAll_eq` — what changes when actions are applied.
* `setFlag_eq_dispatchAll` — to raise or lower a flag is to apply one action at most.
* `cellOf_eq`, `resolve_eq`, `passOn_eq`, `dropGoal_eq` — what changes with cells.
* `serve_eq`, `releaseLock_eq` — what changes with locks.
* `finish_eq` — what changes when a task ends.
-/

namespace RemoteSettings.Store

/-! ### Waking -/

/-- Only the line changes when a task is woken. -/
theorem wake_eq (s : Store) (n : Nat) : s.wake n = { s with line := (s.wake n).line } := by
  unfold wake
  split <;> rfl

/-- Only the line changes when tasks are woken. -/
theorem wakeAll_eq (s : Store) (ns : List Nat) :
    s.wakeAll ns = { s with line := (s.wakeAll ns).line } := by
  induction ns generalizing s with
  | nil => rfl
  | cons n ns ih =>
    have hfirst := ih (s.wake n)
    rw [wake_eq s n] at hfirst
    rw [wakeAll, List.foldl_cons, wake_eq s n]
    exact hfirst

/-! ### Actions -/

/-- Time passes when an action is applied, which is seen, and nothing else changes but the state and
how often subscribers have been told. -/
theorem dispatch_eq (s : Store) (a : Action) :
    s.dispatch a = { s with
      state := (s.dispatch a).state
      clock := s.clock + 1
      changes := (s.dispatch a).changes
      acts := s.acts ++ [.dispatched a] } := by
  by_cases hsame : (s.state.reduce (s.clock + 1) a).sameAs s.state = true
  · simp only [dispatch, if_pos hsame]
  · simp only [dispatch, if_neg hsame]

/-- Actions are seen in their order, and change nothing but what one of them may. -/
theorem dispatchAll_eq (s : Store) (as : List Action) :
    s.dispatchAll as = { s with
      state := (s.dispatchAll as).state
      clock := (s.dispatchAll as).clock
      changes := (s.dispatchAll as).changes
      acts := s.acts ++ as.map .dispatched } := by
  induction as generalizing s with
  | nil => rw [List.map_nil, List.append_nil]; rfl
  | cons a as ih =>
    obtain ⟨state, clock, changes, hfirst⟩ : ∃ state clock changes, s.dispatch a
        = { s with state, clock, changes, acts := s.acts ++ [.dispatched a] } :=
      ⟨_, _, _, dispatch_eq s a⟩
    have hrest := ih (s.dispatch a)
    rw [hfirst] at hrest
    rw [dispatchAll, List.foldl_cons, hfirst, List.map_cons,
      List.append_cons s.acts (.dispatched a) (as.map .dispatched)]
    exact hrest

/-- To raise or lower the flag of an operation is to apply one action, or none if it has no flag. -/
theorem setFlag_eq_dispatchAll (s : Store) (op : Remote) (up : Bool) :
    s.setFlag op up = s.dispatchAll (op.flag?.toList.map fun f => .setSaving f.1 f.2 up) := by
  rw [setFlag]
  cases op.flag? <;> rfl

/-! ### Cells -/

/-- Only cells and their keys change when the cell of a key is made. -/
theorem cellOf_eq (s : Store) (key : ResolverKey) :
    (s.cellOf key).2 = { s with
      cells := (s.cellOf key).2.cells
      resolutions := (s.cellOf key).2.resolutions } := by
  unfold cellOf
  split <;> rfl

/-- Only the cell and the line change when a run ends. -/
theorem resolve_eq (s : Store) (cell : Nat) (outcome : Except Failure Unit) :
    s.resolve cell outcome = { s with
      cells := s.cells.modify cell fun _ => ⟨some outcome, none, []⟩
      line := (s.resolve cell outcome).line } :=
  wakeAll_eq (s.modifyCell cell fun _ => ⟨some outcome, none, []⟩) _

/-- Only the cell and the line change when a run is passed on. -/
theorem passOn_eq (s : Store) (cell : Nat) :
    s.passOn cell = { s with
      cells := (s.passOn cell).cells
      line := (s.passOn cell).line } := by
  unfold passOn
  split
  · rfl
  · next w rest _ =>
    rw [wake_eq]
    rfl

/-- Only the cell, the line and what has been tried change when a goal is given up. -/
theorem dropGoal_eq (s : Store) (n : Nat) (goal : Goal) :
    s.dropGoal n goal = { s with
      cells := (s.dropGoal n goal).cells
      line := (s.dropGoal n goal).line
      attempts := (s.dropGoal n goal).attempts } := by
  cases goal with
  | resolve cell wanted =>
    rw [dropGoal, passOn_eq]
    rfl
  | save => rfl

/-! ### Locks -/

/-- Only the table and the line change when tasks are served. -/
theorem serve_eq (s : Store) (result : LockTable × List Nat) :
    s.serve result = { s with
      locks := result.1
      line := (s.serve result).line } :=
  wakeAll_eq { s with locks := result.1 } _

/-- That a lock is released is seen, and only the table and the line change besides. -/
theorem releaseLock_eq (s : Store) (lock : Lock) :
    s.releaseLock lock = { s.note (.released lock) with
      locks := (s.locks.release lock.id).1
      line := (s.releaseLock lock).line } :=
  serve_eq (s.note (.released lock)) _

/-! ### How a turn ends -/

/-- A task that ends is done, and says so at most. -/
theorem finish_eq (s : Store) (n : Nat) (answer : Except Failure Answer) :
    s.finish n answer = { s.setPhase n .done with
      log := (s.finish n answer).log
      acts := (s.finish n answer).acts } := by
  unfold finish
  dsimp only
  split <;> rfl

end RemoteSettings.Store
