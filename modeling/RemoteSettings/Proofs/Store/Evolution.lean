import RemoteSettings.Proofs.State.Visits
import RemoteSettings.Proofs.Store.Frame

/-!
# The state changes by actions only

Tasks, cells, locks and requests come and go, but whatever a move does, it changes the state only by
dispatching actions, and the clock never goes back.  So what every action preserves of the state
holds of the state of every run.  And what is remembered of edited ids changes only when they are
read.

## Main definitions

* `actionsIn` — the actions that have been applied.
* `Store.Evolves` — the state of one store comes from that of another by actions.

## Main results

* `Evolves.turn`, `Evolves.move`, `Evolves.after` — turns, moves and runs are such changes.
* `Evolves.induction` — **what holds at first and is preserved by actions holds after any run.**
-/

namespace RemoteSettings

/-- The actions that have been applied. -/
def actionsIn (acts : List Act) : List Action :=
  acts.filterMap fun
    | .dispatched a => some a
    | _ => none

@[simp] theorem actionsIn_append (acts more : List Act) :
    actionsIn (acts ++ more) = actionsIn acts ++ actionsIn more := List.filterMap_append

theorem mem_actionsIn {acts : List Act} {a : Action} :
    a ∈ actionsIn acts ↔ .dispatched a ∈ acts := by
  refine List.mem_filterMap.trans ⟨?_, fun h => ⟨_, h, rfl⟩⟩
  rintro ⟨act, hact, hsome⟩
  cases act with
  | dispatched b => exact Option.some.inj hsome ▸ hact
  | _ => cases hsome

namespace Store

@[simp] theorem acts_dispatch (s : Store) (a : Action) :
    (s.dispatch a).acts = s.acts ++ [.dispatched a] := by
  rw [dispatch_eq]

/-- The state of one store comes from that of another by actions, and what is remembered of edited
ids by reads of them; the clock does not go back. -/
inductive Evolves (s : Store) : Store → Prop
  | refl : Evolves s s
  | dispatch {t : Store} (a : Action) : Evolves s t → Evolves s (t.dispatch a)
  | readEditedIds {t : Store} (group : String) : Evolves s t → Evolves s (t.readEditedIds group).2
  /-- All else may change. -/
  | frame {t u : Store} : Evolves s t → u.state = t.state → t.clock ≤ u.clock →
    u.memo.editedIds = t.memo.editedIds → actionsIn u.acts = actionsIn t.acts → Evolves s u

namespace Evolves

variable {s t : Store} {n : Nat}

/-- What actions preserve, and the passing of time, is preserved. -/
theorem induction {P : State → Nat → List Action → Prop}
    (dispatch : ∀ t : Store, P t.state t.clock (actionsIn t.acts) → ∀ a,
      P (t.dispatch a).state (t.dispatch a).clock (actionsIn t.acts ++ [a]))
    (later : ∀ state clock clock' actions, clock ≤ clock' → P state clock actions →
      P state clock' actions)
    (h : s.Evolves t) (hs : P s.state s.clock (actionsIn s.acts)) :
    P t.state t.clock (actionsIn t.acts) := by
  induction h with
  | refl => exact hs
  | @dispatch t a _ ih =>
    have hnext := dispatch _ ih a
    rwa [acts_dispatch, actionsIn_append]
  | readEditedIds group _ ih => exact later _ _ _ _ (Nat.le_succ _) ih
  | frame _ hstate hclock _ hactions ih => exact hstate ▸ hactions ▸ later _ _ _ _ hclock ih

/-! ### Small changes -/

theorem same (h : s.Evolves t) {u : Store} (hstate : u.state = t.state)
    (hclock : u.clock = t.clock) (hmemo : u.memo = t.memo)
    (hactions : actionsIn u.acts = actionsIn t.acts) : s.Evolves u :=
  h.frame hstate (Nat.le_of_eq hclock.symm) (congrArg Memo.editedIds hmemo) hactions

theorem note (h : s.Evolves t) (what : Happening) : s.Evolves (t.note what) :=
  h.same rfl rfl rfl ((actionsIn_append t.acts _).trans (List.append_nil _))

theorem ask (h : s.Evolves t) (scope : Scope) (mode : LockMode) : s.Evolves (t.ask scope mode) :=
  h.same rfl rfl rfl ((actionsIn_append t.acts _).trans (List.append_nil _))

theorem did (h : s.Evolves t) (d : Deed) : s.Evolves (t.did d) := h.same rfl rfl rfl rfl

theorem tried (h : s.Evolves t) (a : Attempt) : s.Evolves (t.tried a) := h.same rfl rfl rfl rfl

theorem dispatchAll (h : s.Evolves t) (as : List Action) : s.Evolves (t.dispatchAll as) := by
  induction as generalizing t with
  | nil => exact h
  | cons a as ih => exact ih (h.dispatch a)

theorem wake (h : s.Evolves t) (n : Nat) : s.Evolves (t.wake n) := by
  rw [wake_eq]
  exact h.same rfl rfl rfl rfl

theorem wakeAll (h : s.Evolves t) (ns : List Nat) : s.Evolves (t.wakeAll ns) := by
  rw [wakeAll_eq]
  exact h.same rfl rfl rfl rfl

theorem setPhase (h : s.Evolves t) (n : Nat) (phase : Phase) : s.Evolves (t.setPhase n phase) :=
  h.same rfl rfl rfl rfl

theorem modifyCell (h : s.Evolves t) (c : Nat) (f : Cell → Cell) : s.Evolves (t.modifyCell c f) :=
  h.same rfl rfl rfl rfl

theorem cellOf (h : s.Evolves t) (key : ResolverKey) : s.Evolves (t.cellOf key).2 := by
  rw [cellOf_eq]
  exact h.same rfl rfl rfl rfl

theorem spawn (h : s.Evolves t) (call : Call) (quiet : Bool) : s.Evolves (t.spawn call quiet).2 :=
  (h.same (u := { t with tasks := t.tasks ++ [{ phase := .ready call, quiet }] }) rfl rfl rfl
    rfl).wake _

theorem serve (h : s.Evolves t) (result : LockTable × List Nat) : s.Evolves (t.serve result) :=
  (h.same (u := { t with locks := result.1 }) rfl rfl rfl rfl).wakeAll _

theorem releaseLock (h : s.Evolves t) (lock : Lock) : s.Evolves (t.releaseLock lock) :=
  (h.note (.released lock)).serve _

theorem setFlag (h : s.Evolves t) (op : Remote) (up : Bool) : s.Evolves (t.setFlag op up) := by
  rw [setFlag_eq_dispatchAll]
  exact h.dispatchAll _

theorem readSettings (h : s.Evolves t) (group : String) (withEdits : Bool) :
    s.Evolves (t.readSettings group withEdits).2 :=
  h.frame rfl (Nat.le_succ _) (t.memo.readSettings_frame _ _ _ _).2.1 rfl

theorem readSetting (h : s.Evolves t) (group id : String) (withEdits : Bool) :
    s.Evolves (t.readSetting group id withEdits).2 :=
  h.frame rfl (Nat.le_succ _) (t.memo.readSetting_frame _ _ _ _ _).2.1 rfl

theorem resolve (h : s.Evolves t) (cell : Nat) (outcome : Except Failure Unit) :
    s.Evolves (t.resolve cell outcome) := (h.modifyCell _ _).wakeAll _

theorem passOn (h : s.Evolves t) (cell : Nat) : s.Evolves (t.passOn cell) := by
  unfold Store.passOn
  split
  · exact h.modifyCell _ _
  · exact (h.modifyCell _ _).wake _

theorem dropGoal (h : s.Evolves t) (n : Nat) (goal : Goal) : s.Evolves (t.dropGoal n goal) := by
  cases goal with
  | resolve cell wanted => exact (h.tried _).passOn cell
  | save => exact h

/-! ### The parts of a turn -/

theorem finish (h : s.Evolves t) (n : Nat) (answer : Except Failure Answer) :
    s.Evolves (t.finish n answer) := by
  rw [Store.finish]
  split
  · exact h.setPhase _ _
  · exact (h.setPhase _ _).note _

theorem follow (h : s.Evolves t) (n : Nat) (outcome : Except Failure Unit) (wanted : Followup) :
    s.Evolves (t.follow n outcome wanted) := by
  cases outcome with
  | error f => cases wanted <;> exact h.finish n _
  | ok =>
    cases wanted with
    | settings group withEdits => exact (h.readSettings group withEdits).finish n _
    | setting group id withEdits => exact (h.readSetting group id withEdits).finish n _
    | edit group id value => exact (h.dispatch _).finish n _
    | editAll group updates => exact (h.dispatch _).finish n _
    | _ => exact h.finish n _

theorem tell (h : s.Evolves t) (n cell : Nat) (outcome : Except Failure Unit) (wanted : Followup) :
    s.Evolves (t.tell n cell outcome wanted) := (h.tried _).follow n outcome wanted

theorem complete (h : s.Evolves t) (n : Nat) (op : Remote) (lock : Option Lock) (goal : Goal)
    (reply : Reply) : s.Evolves (t.complete n op lock goal reply) := by
  have hflag := ((h.dispatchAll (op.commit reply).1).did (.committed n op reply)).setFlag op false
  cases lock with
  | none =>
    cases goal with
    | resolve cell wanted => exact ((hflag.resolve cell _).tried _).tell n cell _ wanted
    | save => exact hflag.finish n _
  | some lock =>
    cases goal with
    | resolve cell wanted =>
      exact (((hflag.releaseLock lock).resolve cell _).tried _).tell n cell _ wanted
    | save => exact (hflag.releaseLock lock).finish n _

variable (tr : Transport)

theorem sendOff (h : s.Evolves t) (n : Nat) (op : Remote) : s.Evolves (t.sendOff n op) :=
  ((h.same (u := { t with requests := t.requests ++ [op.request t.endpoints] }) rfl rfl rfl
    rfl).note _).did _

theorem send (h : s.Evolves t) (n : Nat) (op : Remote) (lock : Option Lock) (goal : Goal) :
    s.Evolves (t.send tr n op lock goal) := by
  unfold Store.send
  split
  · exact (h.sendOff n op).complete n op lock goal _
  · exact (h.sendOff n op).same rfl rfl rfl rfl

theorem locked (h : s.Evolves t) (n : Nat) (op : Remote) (lock : Lock) (goal : Goal) :
    s.Evolves (t.locked tr n op lock goal) :=
  ((h.note _).setFlag op true).send tr n op (some lock) goal

theorem startRemote (h : s.Evolves t) (n : Nat) (op : Remote) (goal : Goal) :
    s.Evolves (t.startRemote tr n op goal) := by
  unfold Store.startRemote
  split
  · exact h.send tr n op none goal
  · next scope mode _ =>
    split
    · next lock locks _ =>
      exact ((h.same (u := { t with locks }) rfl rfl rfl rfl).ask scope mode).locked tr n op lock
        goal
    · next ticket locks _ =>
      exact ((h.same (u := { t with locks }) rfl rfl rfl rfl).ask scope mode).setPhase n _

theorem join (h : s.Evolves t) (n cell : Nat) (wanted : Followup) :
    s.Evolves (t.join tr n cell wanted) := by
  unfold Store.join
  split
  · exact h
  · split
    · exact h.tell n cell _ wanted
    · split
      · exact ((h.modifyCell _ _).tried _).startRemote tr n _ _
      · exact (h.modifyCell _ _).setPhase n _

theorem want (h : s.Evolves t) (n : Nat) (wanted : Followup) : s.Evolves (t.want tr n wanted) :=
  (h.cellOf wanted.key).join tr n _ wanted

theorem begin (h : s.Evolves t) (n : Nat) (call : Call) : s.Evolves (t.begin tr n call) := by
  cases call with
  | editSettings group updates =>
    rw [Store.begin]
    split
    · exact h.want tr n _
    · exact h.finish n _
  | saveSetting group id value => exact h.startRemote tr n (.saveSetting group id value) .save
  | saveSettings group updates => exact h.startRemote tr n (.saveBatch group updates.toList) .save
  | saveEditedSetting group id =>
    have hread := h.readEditedIds group
    rw [Store.begin]
    dsimp only
    split
    · split
      · exact hread.startRemote tr n _ _
      · exact hread.finish n _
    · exact hread.finish n _
  | saveEditedSettings group =>
    have hread := h.readEditedIds group
    rw [Store.begin]
    dsimp only
    split
    · exact hread.finish n _
    · exact hread.startRemote tr n _ _
  | refuse failure => exact h.finish n _
  | _ => exact h.want tr n _

theorem drop (h : s.Evolves t) (n : Nat) (phase : Phase) : s.Evolves (t.drop n phase) := by
  have hdone := h.setPhase n .done
  cases phase with
  | ready call => exact hdone
  | joining cell wanted =>
    rw [Store.drop]
    split
    · exact (hdone.modifyCell _ _).passOn cell
    · exact hdone.modifyCell _ _
  | locking ticket op goal => exact (hdone.serve _).dropGoal n goal
  | requesting number op lock goal =>
    have hforget : s.Evolves ((t.setPhase n .done).forget number) := hdone.same rfl rfl rfl rfl
    have hflag := (hforget.did (.dropped n op)).setFlag op false
    cases lock with
    | none => exact hflag.dropGoal n goal
    | some lock => exact (hflag.releaseLock lock).dropGoal n goal
  | done => exact hdone

theorem turn (h : s.Evolves t) (n : Nat) : s.Evolves (t.turn tr n) := by
  unfold Store.turn
  split
  · exact h
  · split
    · exact h.drop n _
    · split
      · exact h.begin tr n _
      · exact h.join tr n _ _
      · split
        · refine locked tr ?_ n _ _ _
          exact h.same rfl rfl rfl rfl
        · exact h
      · split
        · refine complete ?_ n _ _ _ _
          exact h.same rfl rfl rfl rfl
        · exact h
      · exact h

/-! ### Moves and runs -/

theorem move (h : s.Evolves t) (m : StoreMove) : s.Evolves (t.move m) := by
  cases m with
  | spawn call quiet => exact h.spawn call quiet
  | turn tr n => exact (h.same (u := { t with line := t.line.erase n }) rfl rfl rfl rfl).turn tr n
  | respond number reply =>
    rw [Store.move, Store.respond]
    split
    · refine wake ?_ _
      exact h.same rfl rfl rfl rfl
    · exact h
  | cancel n =>
    rw [Store.move, Store.cancel]
    split
    · split
      · exact h
      · refine wake ?_ _
        exact h.same rfl rfl rfl rfl
    · exact h
  | trigger canSpawn key =>
    rw [Store.move, Store.trigger]
    split
    · exact h
    · exact (h.cellOf key).spawn _ _
  | invalidate key => exact h.same rfl rfl rfl rfl
  | invalidateAll => exact h.same rfl rfl rfl rfl
  | dispatch action => exact h.dispatch action
  | readSettings group withEdits => exact h.readSettings group withEdits
  | readSetting group id withEdits => exact h.readSetting group id withEdits
  | readEditedIds group => exact h.readEditedIds group

/-- A run changes the state by actions only. -/
theorem after (s : Store) (ms : List StoreMove) : s.Evolves (s.after ms) :=
  after_induction (P := s.Evolves) (fun _ m h => h.move m) .refl ms

end Evolves

end Store

end RemoteSettings
