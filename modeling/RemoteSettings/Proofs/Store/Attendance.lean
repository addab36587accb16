import RemoteSettings.Proofs.Keyed
import RemoteSettings.Proofs.Store.Roster

/-!
# Moves are steps on the roster

Every move of the store is a sequence of steps on its roster, as long as every key has a cell that
is there and so has every task that waits for one.  What a task does that runs a resolver is a
single piece of work.

## Main definitions

* `Call.wanted?` — what a call wants once a key is resolved.
* `StoreMove.Forgets` — a move after which a key does not count as begun.

## Main results

* `turn_of_running` — the turn of a task that runs a resolver is a piece of its work.
* `turn_attends`, `move_attends` — a turn and a move are steps on the roster.
-/

namespace RemoteSettings

/-- What a call wants once a key is resolved; saves want nothing of the kind. -/
def Call.wanted? : Call → Option Followup
  | resolveGroups => some .groups
  | resolveSettings group withEdits => some (.settings group withEdits)
  | resolveSetting group id withEdits => some (.setting group id withEdits)
  | resolveValue group id withEdits => some (.value group id withEdits)
  | editSetting group id value => some (.edit group id value)
  | editSettings group updates =>
    match updates.validate with
    | .ok () => some (.editAll group updates.toList)
    | .error _ => none
  | background key => some (.nothing key)
  | _ => none

/-- A move after which a key does not count as begun. -/
def StoreMove.Forgets (key : ResolverKey) : StoreMove → Prop
  | invalidate key' => key' = key
  | invalidateAll => True
  | _ => False

/-- A task that has begun an operation stands where its goal is. -/
theorem Phase.stand_of_goal {phase : Phase} {op : Remote} {goal : Goal}
    (h : phase.goal? = some (op, goal)) : phase.stand = goal.stand op := by
  cases phase <;> cases h <;> rfl

open Roster

namespace Store

variable {s : Store} {n : Nat} {tr : Transport}

/-! ### What does not show on the roster -/

@[simp] theorem roster_note (s : Store) (what : Happening) : (s.note what).roster = s.roster := rfl

@[simp] theorem roster_dispatch (s : Store) (a : Action) : (s.dispatch a).roster = s.roster := by
  rw [dispatch_eq]
  rfl

@[simp] theorem roster_dispatchAll (s : Store) (as : List Action) :
    (s.dispatchAll as).roster = s.roster := by
  rw [dispatchAll_eq]
  rfl

@[simp] theorem roster_setFlag (s : Store) (op : Remote) (up : Bool) :
    (s.setFlag op up).roster = s.roster := by
  rw [setFlag_eq_dispatchAll, roster_dispatchAll]

@[simp] theorem roster_tried (s : Store) (a : Attempt) :
    (s.tried a).roster = s.roster.tried a := rfl

@[simp] theorem roster_modifyCell (s : Store) (c : Nat) (f : Cell → Cell) :
    (s.modifyCell c f).roster = s.roster.modify c f := rfl

@[simp] theorem roster_setPhase (s : Store) (n : Nat) (phase : Phase) :
    (s.setPhase n phase).roster = s.roster.put n phase.stand := by
  have hstands := map_setPhase Phase.stand s n phase
  simp only [setPhase, modifyTask, roster, Roster.put] at hstands ⊢
  rw [hstands]

/-! ### What makes the roster grow -/

theorem mem_line_wake (s : Store) (n : Nat) : n ∈ (s.wake n).line := by
  unfold wake
  split
  · next h => exact List.contains_iff_mem.mp h
  · exact List.mem_append_right _ (List.mem_singleton_self n)

theorem grows_wake (s : Store) (n : Nat) : s.roster.Grows (s.wake n).roster := by
  unfold wake
  split
  · exact .refl _
  · exact .intro (List.subset_append_left _ _) fun _ h => h

theorem grows_wakeAll (s : Store) (ns : List Nat) :
    s.roster.Grows (s.wakeAll ns).roster ∧ ns ⊆ (s.wakeAll ns).line := by
  induction ns generalizing s with
  | nil => exact ⟨.refl _, List.nil_subset _⟩
  | cons n ns ih =>
    obtain ⟨hgrows, hwoken⟩ := ih (s.wake n)
    exact ⟨(grows_wake s n).trans hgrows,
      List.cons_subset.mpr ⟨hgrows.line_subset (mem_line_wake s n), hwoken⟩⟩

theorem grows_serve (s : Store) (result : LockTable × List Nat) :
    s.roster.Grows (s.serve result).roster := (grows_wakeAll { s with locks := result.1 } _).1

theorem grows_releaseLock (s : Store) (lock : Lock) : s.roster.Grows (s.releaseLock lock).roster :=
  grows_serve (s.note (.released lock)) _

theorem grows_did (s : Store) (d : Deed) : s.roster.Grows (s.did d).roster :=
  .intro (fun _ h => h) (List.subset_append_left _ _)

theorem grows_sendOff (s : Store) (n : Nat) (op : Remote) :
    s.roster.Grows (s.sendOff n op).roster :=
  grows_did ({ s with requests := s.requests ++ [op.request s.endpoints] }.note _) _

theorem grows_resolve (s : Store) (c : Nat) (outcome : Except Failure Unit) :
    (s.roster.modify c fun _ => .settled outcome).Grows (s.resolve c outcome).roster ∧
      ∀ cell, s.cells[c]? = some cell → cell.waiters ⊆ (s.resolve c outcome).line := by
  obtain ⟨hgrows, hwoken⟩ := grows_wakeAll (s.modifyCell c fun _ => .settled outcome)
    ((s.cells[c]?.map (·.waiters)).getD [])
  refine ⟨hgrows, fun cell hcell => ?_⟩
  have hwaiters : (s.cells[c]?.map (·.waiters)).getD [] = cell.waiters := by rw [hcell]; rfl
  have hline : (s.resolve c outcome).line
      = ((s.modifyCell c fun _ => .settled outcome).wakeAll cell.waiters).line := by
    rw [← hwaiters]
    rfl
  rwa [hline, ← hwaiters]

/-- To pass a run on is to hand it over, and to wake whoever has it then. -/
theorem grows_passOn {s : Store} {c : Nat} {cell : Cell} (hcell : s.cells[c]? = some cell) :
    (s.roster.modify c Cell.handOver).Grows (s.passOn c).roster ∧
      cell.waiters.head?.toList ⊆ (s.passOn c).line := by
  have hmodify : ∀ f : Cell → Cell, f cell = cell.handOver →
      s.roster.modify c Cell.handOver = (s.modifyCell c f).roster := by
    intro f hf
    have hcells : s.cells.modify c Cell.handOver = s.cells.modify c f := by
      refine List.ext_getElem? fun i => ?_
      rw [List.getElem?_modify, List.getElem?_modify]
      by_cases hi : c = i
      · subst hi
        simp [hcell, hf]
      · simp [hi]
    rw [roster_modifyCell, Roster.modify, Roster.modify]
    exact congrArg (fun cells => { s.roster with cells }) hcells
  unfold passOn
  rw [show (s.cells[c]?.map (·.waiters)).getD [] = cell.waiters by rw [hcell]; rfl]
  split
  · next hnone =>
    rw [hmodify (fun c => { c with driver := none }) (by rw [Cell.handOver, hnone])]
    exact ⟨.refl _, by simp [hnone]⟩
  · next w rest hsome =>
    rw [hmodify (fun c => { c with driver := some w, waiters := rest })
      (by rw [Cell.handOver, hsome])]
    refine ⟨grows_wake _ w, ?_⟩
    rw [hsome, List.head?_cons, Option.toList_some]
    intro x hx
    rw [List.mem_singleton.mp hx]
    exact mem_line_wake _ w

/-! ### How a turn ends -/

@[simp] theorem roster_finish (s : Store) (n : Nat) (answer : Except Failure Answer) :
    (s.finish n answer).roster = s.roster.put n .over := by
  rw [finish_eq]
  exact roster_setPhase s n .done

@[simp] theorem roster_follow (s : Store) (n : Nat) (outcome : Except Failure Unit)
    (wanted : Followup) : (s.follow n outcome wanted).roster = s.roster.put n .over := by
  cases outcome with
  | error f => cases wanted <;> exact roster_finish s n _
  | ok =>
    cases wanted with
    | edit group id value => rw [follow, roster_finish, roster_dispatch]
    | editAll group updates => rw [follow, roster_finish, roster_dispatch]
    | _ => exact roster_finish _ n _

@[simp] theorem roster_tell (s : Store) (n cell : Nat) (outcome : Except Failure Unit)
    (wanted : Followup) :
    (s.tell n cell outcome wanted).roster = (s.roster.tried (.told n cell outcome)).put n .over :=
  roster_follow _ n outcome wanted

/-! ### The parts of a turn -/

theorem grows_commitReply (s : Store) (n : Nat) (op : Remote) (lock : Option Lock) (reply : Reply) :
    s.roster.Grows (s.commitReply n op lock reply).roster ∧
      .committed n op reply ∈ (s.commitReply n op lock reply).deeds := by
  have hflag : s.roster.Grows
      (((s.dispatchAll (op.commit reply).1).did (.committed n op reply)).setFlag op
        false).roster := by
    rw [roster_setFlag, ← roster_dispatchAll s (op.commit reply).1]
    exact grows_did _ _
  have hcommitted : .committed n op reply ∈
      (((s.dispatchAll (op.commit reply).1).did (.committed n op reply)).setFlag op
        false).roster.deeds := by
    rw [roster_setFlag]
    exact List.mem_append_right _ (List.mem_singleton_self _)
  cases lock with
  | none => exact ⟨hflag, hcommitted⟩
  | some lock =>
    have hrelease := grows_releaseLock (((s.dispatchAll (op.commit reply).1).did
      (.committed n op reply)).setFlag op false) lock
    exact ⟨hflag.trans hrelease, hrelease.deeds_subset hcommitted⟩

/-- To commit a reply and to go on is what a task does for its goal. -/
theorem complete_pursued (s : Store) (n : Nat) (op : Remote) (lock : Option Lock) (goal : Goal)
    (reply : Reply) :
    goal.Pursued n op (s.roster.put n (goal.stand op))
      (s.complete n op lock goal reply).roster := by
  obtain ⟨hgrows, hcommitted⟩ := grows_commitReply s n op lock reply
  cases goal with
  | save =>
    rw [complete_save, roster_finish]
    exact hgrows.put n .over
  | resolve cell wanted =>
    rw [complete_resolve, roster_tell, roster_tried]
    obtain ⟨hresolve, hwoken⟩ := grows_resolve (s.commitReply n op lock reply) cell
      ((op.commit reply).2.map fun _ => ())
    have hcells : (s.commitReply n op lock reply).cells = s.cells := hgrows.cells_eq
    exact Work.settled hgrows hcommitted rfl hresolve fun c hc => hwoken c (hcells ▸ hc)

theorem send_pursued (tr : Transport) (s : Store) (n : Nat) (op : Remote) (lock : Option Lock)
    (goal : Goal) :
    goal.Pursued n op (s.roster.put n (goal.stand op)) (s.send tr n op lock goal).roster := by
  have hsent := (grows_sendOff s n op).put n (goal.stand op)
  unfold send
  split
  · exact (complete_pursued _ n op lock goal _).grow hsent
  · have hawait : ((s.sendOff n op).await n s.requests.length op lock goal).roster
        = (s.sendOff n op).roster.put n (goal.stand op) := roster_setPhase _ n _
    rw [hawait]
    exact .of_grows hsent

theorem locked_pursued (tr : Transport) (s : Store) (n : Nat) (op : Remote) (lock : Lock)
    (goal : Goal) :
    goal.Pursued n op (s.roster.put n (goal.stand op)) (s.locked tr n op lock goal).roster := by
  have hsend := send_pursued tr ((s.note (.acquired lock)).setFlag op true) n op (some lock) goal
  rwa [roster_setFlag, roster_note] at hsend

theorem startRemote_pursued (tr : Transport) (s : Store) (n : Nat) (op : Remote) (goal : Goal) :
    goal.Pursued n op (s.roster.put n (goal.stand op)) (s.startRemote tr n op goal).roster := by
  unfold startRemote
  split
  · exact send_pursued tr s n op none goal
  · next scope mode _ =>
    split
    · next lock locks _ => exact locked_pursued tr ({ s with locks }.ask scope mode) n op lock goal
    · next ticket locks _ =>
      rw [roster_setPhase]
      exact .of_grows (.refl _)

/-- A task that is at a cell is told how the run has ended, waits, or has the run itself. -/
theorem join_attends (tr : Transport) (hn : n < s.tasks.length) {c : Nat} (hc : c < s.cells.length)
    (wanted : Followup) :
    (s.roster.put n (.up c wanted.key)).Steps (s.join tr n c wanted).roster := by
  have hlt : n < s.roster.stands.length := by simpa [roster] using hn
  have hup := stand_put hlt (.up c wanted.key)
  have hfound : ∀ cell, s.cells[c]? = some cell →
      (s.roster.put n (.up c wanted.key)).cells[c]? = some cell := fun _ h => h
  unfold join
  split
  · next hnone => exact absurd hc (Nat.not_lt.mpr (List.getElem?_eq_none_iff.mp hnone))
  · next cell hcell =>
    split
    · next outcome houtcome =>
      have hhear := Step.hear hup (hfound cell hcell) houtcome
      rw [put_tried, put_put] at hhear
      rw [roster_tell]
      exact hhear.one
    · next hopen =>
      split
      · next hfree =>
        have hbegin := Step.begin hup (hfound cell hcell) hopen hfree
        rw [put_modify, put_tried, put_put] at hbegin
        have hwork := startRemote_pursued tr ((s.modifyCell c (Cell.drivenBy n)).tried
          (.begun n c wanted.key)) n wanted.key.remote (.resolve c wanted)
        have hlt' : n < ((s.roster.modify c (Cell.drivenBy n)).tried
            (.begun n c wanted.key)).stands.length := hlt
        exact hbegin.one.tail (.work (stand_put hlt' _) hwork)
      · next htaken =>
        obtain ⟨hsome, hother⟩ := not_or.mp htaken
        obtain ⟨m, hm⟩ := Option.ne_none_iff_exists'.mp hsome
        have hne : m ≠ n := fun heq => hother (heq ▸ hm)
        have hwait := Step.wait hup (hfound cell hcell) hopen hm hne
        rw [put_modify, put_put] at hwait
        rw [roster_setPhase]
        exact hwait.one

/-- A task comes to the cell of its key, which is made if it is not there. -/
theorem cellOf_attends (hidle : s.roster.stands[n]? = some .idle) (hplaced : s.roster.Placed)
    (key : ResolverKey) :
    (s.cellOf key).1 < (s.cellOf key).2.cells.length ∧
      s.roster.Steps ((s.cellOf key).2.roster.put n (.up (s.cellOf key).1 key)) := by
  unfold cellOf
  split
  · next c hc => exact ⟨hplaced.keys key c hc, (Step.come hidle hc).one⟩
  · next hnew =>
    refine ⟨by simp, (Step.enter hnew).one.tail (Step.come hidle ?_)⟩
    exact Keyed.get?_put_self key _ _

theorem want_attends (tr : Transport) (hidle : s.roster.stands[n]? = some .idle)
    (hplaced : s.roster.Placed) (wanted : Followup) :
    s.roster.Steps (s.want tr n wanted).roster := by
  obtain ⟨hc, hcome⟩ := cellOf_attends hidle hplaced wanted.key
  have hn : n < (s.cellOf wanted.key).2.tasks.length := by
    have htasks : (s.cellOf wanted.key).2.tasks = s.tasks := by
      rw [cellOf_eq]
    rw [htasks]
    simpa [roster] using lt_of_stand hidle
  exact hcome.trans (join_attends tr hn hc wanted)

/-- A call that wants a key resolved begins with that. -/
theorem begin_of_wanted (tr : Transport) (s : Store) (n : Nat) {call : Call} {wanted : Followup}
    (h : call.wanted? = some wanted) : s.begin tr n call = s.want tr n wanted := by
  cases call with
  | editSettings group updates =>
    cases hvalid : updates.validate with
    | ok =>
      simp only [Call.wanted?, hvalid, Option.some_inj] at h
      simp only [begin, hvalid, h]
    | error problem =>
      simp only [Call.wanted?, hvalid] at h
      cases h
  | saveSetting group id value => cases h
  | saveSettings group updates => cases h
  | saveEditedSetting group id => cases h
  | saveEditedSettings group => cases h
  | refuse failure => cases h
  | _ =>
    cases h
    rfl

/-- Any other call has nothing to do with cells. -/
theorem begin_of_not_wanted (tr : Transport) (s : Store) (n : Nat) {call : Call}
    (h : call.wanted? = none) : (s.roster.put n .over).Grows (s.begin tr n call).roster := by
  have hfinish : ∀ (u : Store) answer, u.roster = s.roster →
      (s.roster.put n .over).Grows (u.finish n answer).roster := by
    intro u answer hu
    rw [roster_finish, hu]
    exact .refl _
  cases call with
  | editSettings group updates =>
    cases hvalid : updates.validate with
    | ok =>
      simp only [Call.wanted?, hvalid] at h
      cases h
    | error problem =>
      simp only [begin, hvalid]
      exact hfinish s _ rfl
  | saveSetting group id value => exact startRemote_pursued tr s n _ .save
  | saveSettings group updates => exact startRemote_pursued tr s n _ .save
  | saveEditedSetting group id =>
    rw [begin]
    dsimp only
    split
    · split
      · exact startRemote_pursued tr (s.readEditedIds group).2 n _ .save
      · exact hfinish _ _ rfl
    · exact hfinish _ _ rfl
  | saveEditedSettings group =>
    rw [begin]
    dsimp only
    split
    · exact hfinish _ _ rfl
    · exact startRemote_pursued tr (s.readEditedIds group).2 n _ .save
  | refuse failure => exact hfinish s _ rfl
  | _ => cases h

/-! ### The end of a cancelled task -/

/-- To drop a task that has begun an operation is to give up its flag, its lock and its goal. -/
theorem exists_drop (s : Store) (n : Nat) {phase : Phase} {op : Remote} {goal : Goal}
    (hphase : phase.goal? = some (op, goal)) :
    ∃ u : Store, (s.roster.put n .over).Grows u.roster ∧ s.drop n phase = u.dropGoal n goal := by
  have hdone : (s.setPhase n .done).roster = s.roster.put n .over := roster_setPhase s n .done
  cases phase with
  | locking ticket op' goal' =>
    cases hphase
    exact ⟨_, hdone ▸ grows_serve (s.setPhase n .done) _, rfl⟩
  | requesting number op' lock goal' =>
    cases hphase
    have hflag : (s.roster.put n .over).Grows
        ((((s.setPhase n .done).forget number).did (.dropped n op)).setFlag op false).roster := by
      rw [roster_setFlag, ← hdone]
      exact grows_did ((s.setPhase n .done).forget number) _
    cases lock with
    | none => exact ⟨_, hflag, rfl⟩
    | some lock => exact ⟨_, hflag.trans (grows_releaseLock _ lock), rfl⟩
  | _ => cases hphase

/-- A task that runs a resolver gives up the run when it is dropped. -/
theorem drop_givesUp (s : Store) (n : Nat) {phase : Phase} {op : Remote} {c : Nat}
    {wanted : Followup} (hphase : phase.goal? = some (op, .resolve c wanted)) :
    GivesUp n c s.roster (s.drop n phase).roster := by
  obtain ⟨u, hu, hdrop⟩ := exists_drop s n hphase
  have hcells : u.cells = s.cells := hu.cells_eq
  rw [hdrop]
  exact .of_grows hu fun cell hcell => grows_passOn (s := u.tried (.dropped n c)) (hcells ▸ hcell)

/-- A task that waits is dropped: it waits no longer, and if it was to have the run, it passes it
on. -/
theorem drop_joining {c : Nat} {cell : Cell} (hcell : s.cells[c]? = some cell) (n : Nat)
    (wanted : Followup) :
    if cell.driver = some n then
      (((s.roster.modify c (Cell.without n)).put n .over).modify c Cell.handOver).Grows
          (s.drop n (.joining c wanted)).roster ∧
        (cell.without n).waiters.head?.toList ⊆ (s.drop n (.joining c wanted)).line
    else (s.drop n (.joining c wanted)).roster
      = (s.roster.modify c (Cell.without n)).put n .over := by
  -- The task has ended, and it waits no longer.
  let u := (s.setPhase n .done).modifyCell c fun c =>
    { c with waiters := c.waiters.filter (· != n) }
  have hu : u.roster = (s.roster.modify c (Cell.without n)).put n .over := by
    rw [roster_modifyCell, roster_setPhase]
    rfl
  have hfound : u.cells[c]? = some (cell.without n) := by
    have hcells : u.cells = s.cells.modify c (Cell.without n) := rfl
    rw [hcells, List.getElem?_modify_eq, hcell]
    rfl
  have hdrop : s.drop n (.joining c wanted) = if cell.driver = some n then u.passOn c else u := by
    have hdriver : (u.cells[c]?.bind (·.driver)) = cell.driver := by rw [hfound]; rfl
    rw [← hdriver]
    rfl
  rw [hdrop]
  split
  · exact hu ▸ grows_passOn hfound
  · exact hu

/-- A task whose turn it is at a cell leaves it when it is dropped. -/
theorem drop_joining_attends (hn : n < s.tasks.length) {c : Nat} {cell : Cell}
    (hcell : s.cells[c]? = some cell) (wanted : Followup) :
    (s.roster.put n (.up c wanted.key)).Steps (s.drop n (.joining c wanted)).roster := by
  have hlt : n < s.roster.stands.length := by simpa [roster] using hn
  have hup := stand_put hlt (.up c wanted.key)
  have hdrop := drop_joining hcell n wanted
  split at hdrop
  · next hown =>
    obtain ⟨hgrows, hwoken⟩ := hdrop
    change _ ⊆ (s.drop n (.joining c wanted)).roster.line at hwoken
    generalize (s.drop n (.joining c wanted)).roster = v at hgrows hwoken ⊢
    cases hgrows with
    | @intro line deeds hline hdeeds =>
      have hstill : (s.roster.put n (.up c wanted.key)).Grows
          ({ s.roster with line, deeds }.put n (.up c wanted.key)) := .intro hline hdeeds
      have hleave := Step.leaveRun hup hcell hown hstill hwoken
      rw [put_modify, put_modify, put_put] at hleave
      exact hleave.one
  · next hother =>
    have hleave := Step.leave hup hcell hother
    rw [put_modify, put_put] at hleave
    rw [hdrop]
    exact hleave.one

/-! ### Turns and moves -/

theorem stand_of_task {t : Task} (hn : s.tasks[n]? = some t) :
    s.roster.stands[n]? = some t.phase.stand := by
  simp [roster, hn]

/-- The turn of a task that has begun an operation is what it does for its goal. -/
theorem turn_pursued (tr : Transport) {t : Task} (hn : s.tasks[n]? = some t)
    (hdoomed : t.doomed = false) {op : Remote} {goal : Goal}
    (hphase : t.phase.goal? = some (op, goal)) :
    goal.Pursued n op s.roster (s.turn tr n).roster := by
  have hstand : s.roster.stands[n]? = some (goal.stand op) := by
    rw [stand_of_task hn, Phase.stand_of_goal hphase]
  have hself := put_self hstand
  unfold turn
  rw [hn]
  dsimp only
  rw [if_neg (by simp [hdoomed])]
  split
  · next heq => rw [heq] at hphase; cases hphase
  · next heq => rw [heq] at hphase; cases hphase
  · next ticket op' goal' heq =>
    rw [heq] at hphase
    cases hphase
    split
    · next lock locks _ =>
      have hlocked := locked_pursued tr { s with locks } n op lock goal
      have hput : ({ s with locks } : Store).roster.put n (goal.stand op) = s.roster := hself
      rwa [hput] at hlocked
    · exact .of_grows (.refl _)
  · next number op' lock goal' heq =>
    rw [heq] at hphase
    cases hphase
    split
    · next reply _ =>
      have hcomplete := complete_pursued { s with replies := s.replies.erase number } n op lock goal
        reply
      have hput : ({ s with replies := s.replies.erase number } : Store).roster.put n
          (goal.stand op) = s.roster := hself
      rwa [hput] at hcomplete
    · exact .of_grows (.refl _)
  · next heq => rw [heq] at hphase; cases hphase

/-- **The turn of a task that runs a resolver is a piece of its work.** -/
theorem turn_of_running (tr : Transport) {t : Task} (hn : s.tasks[n]? = some t) {op : Remote}
    {c : Nat} {wanted : Followup} (hphase : t.phase.goal? = some (op, .resolve c wanted))
    {cell : Cell} (hcell : s.cells[c]? = some cell) :
    s.roster.Work n c op (s.turn tr n).roster := by
  cases hdoomed : t.doomed with
  | true =>
    rw [turn_of_doomed hn hdoomed]
    exact (drop_givesUp s n hphase).work hcell
  | false => exact turn_pursued tr hn hdoomed hphase

/-- The turn of a task that saves has nothing to do with cells. -/
theorem turn_of_saving (tr : Transport) {t : Task} (hn : s.tasks[n]? = some t) {op : Remote}
    (hphase : t.phase.goal? = some (op, .save)) : s.roster.Grows (s.turn tr n).roster := by
  cases hdoomed : t.doomed with
  | true =>
    obtain ⟨u, hu, hdrop⟩ := exists_drop s n hphase
    have hover : s.roster.stands[n]? = some .over := by
      rw [stand_of_task hn, Phase.stand_of_goal hphase]
      rfl
    rw [turn_of_doomed hn hdoomed, hdrop]
    rwa [put_self hover] at hu
  | false => exact turn_pursued tr hn hdoomed hphase

/-- The turn of a task that is about to begin. -/
theorem turn_of_ready (tr : Transport) {t : Task} (hn : s.tasks[n]? = some t) {call : Call}
    (hphase : t.phase = .ready call) (hplaced : s.roster.Placed) :
    s.roster.Steps (s.turn tr n).roster := by
  have hidle : s.roster.stands[n]? = some .idle := by
    rw [stand_of_task hn, hphase]
    rfl
  cases hdoomed : t.doomed with
  | true =>
    rw [turn_of_doomed hn hdoomed, hphase, drop, roster_setPhase]
    exact (Step.finish hidle).one
  | false =>
    rw [turn_ready hn hdoomed hphase]
    cases hwanted : call.wanted? with
    | some wanted =>
      rw [begin_of_wanted tr s n hwanted]
      exact want_attends tr hidle hplaced wanted
    | none => exact (Step.finish hidle).one.tail (.grow (begin_of_not_wanted tr s n hwanted))

/-- The turn of a task that waits for a cell. -/
theorem turn_of_joining (tr : Transport) {t : Task} (hn : s.tasks[n]? = some t) {c : Nat}
    {wanted : Followup} (hphase : t.phase = .joining c wanted) (hc : c < s.cells.length) :
    (s.roster.put n (.up c wanted.key)).Steps (s.turn tr n).roster := by
  have hlt : n < s.tasks.length := (List.getElem?_eq_some_iff.mp hn).1
  cases hdoomed : t.doomed with
  | true =>
    rw [turn_of_doomed hn hdoomed, hphase]
    exact drop_joining_attends hlt (List.getElem?_eq_getElem hc) wanted
  | false =>
    rw [turn_joining hn hdoomed hphase]
    exact join_attends tr hlt hc wanted

/-- **A turn is a sequence of steps on the roster.** -/
theorem turn_attends (tr : Transport) (s : Store) (n : Nat) (hplaced : s.roster.Placed) :
    s.roster.Steps (s.move (.turn tr n)).roster := by
  -- The task has left the line, and nothing else has changed.
  let u : Store := { s with line := s.line.erase n }
  have hu : u.roster.Placed := ⟨hplaced.keys, hplaced.stands⟩
  have hrest : (∀ c key, s.roster.stands[n]? ≠ some (.waiting c key)) →
      s.roster.Steps u.roster := fun hfree => (Step.rest hfree).one
  change s.roster.Steps (u.turn tr n).roster
  cases hn : s.tasks[n]? with
  | none =>
    have hstand : s.roster.stands[n]? = none := by simp [roster, hn]
    have hturn : u.turn tr n = u := by simp only [turn, u, hn]
    rw [hturn]
    exact hrest fun c key hwaiting => Option.some_ne_none _ (hwaiting.symm.trans hstand)
  | some t =>
    have hnu : u.tasks[n]? = some t := hn
    have hstand := stand_of_task hn
    have hcell : ∀ c key, t.phase.stand.place? = some (c, key) → c < u.cells.length :=
      fun c key hplace => hplaced.stands n _ c key hstand hplace
    -- The task has begun an operation.
    have hbusy : ∀ op goal, t.phase.goal? = some (op, goal) →
        s.roster.Steps (u.turn tr n).roster := by
      intro op goal hgoal
      rw [Phase.stand_of_goal hgoal] at hstand hcell
      refine (hrest ?_).tail ?_
      · rw [hstand]
        cases goal <;> rintro _ _ ⟨⟩
      · cases goal with
        | save => exact .grow (turn_of_saving tr hnu hgoal)
        | resolve c wanted =>
          have hc := List.getElem?_eq_getElem (hcell c wanted.key rfl)
          exact .work hstand (turn_of_running tr hnu hgoal hc)
    cases hphase : t.phase with
    | ready call =>
      refine (hrest ?_).trans (turn_of_ready tr hnu hphase hu)
      rw [hstand, hphase]
      rintro _ _ ⟨⟩
    | joining c wanted =>
      rw [hphase] at hstand hcell
      exact (turn_of_joining tr hnu hphase (hcell c wanted.key rfl)).head (Step.rise hstand)
    | done =>
      have hover : u.roster.stands[n]? = some .over := by
        rw [stand_of_task hnu, hphase]
        rfl
      have hstay : (u.turn tr n).roster = u.roster := by
        cases hdoomed : t.doomed with
        | true => rw [turn_of_doomed hnu hdoomed, hphase, drop, roster_setPhase,
            show Phase.done.stand = .over from rfl, put_self hover]
        | false => rw [turn_done hnu hdoomed hphase]
      rw [hstay]
      refine hrest ?_
      rw [hstand, hphase]
      rintro _ _ ⟨⟩
    | locking ticket op goal =>
      exact hbusy op goal (by rw [hphase]; rfl)
    | requesting number op lock goal =>
      exact hbusy op goal (by rw [hphase]; rfl)

theorem spawn_attends (s : Store) (call : Call) (quiet : Bool) :
    s.roster.Steps (s.spawn call quiet).2.roster := by
  have hspawn : s.roster.Step
      ({ s with tasks := s.tasks ++ [{ phase := .ready call, quiet }] } : Store).roster := by
    have hstands : (s.tasks ++ [{ phase := .ready call, quiet : Task }]).map (·.phase.stand)
        = s.roster.stands ++ [.idle] := by simp [roster, Phase.stand]
    rw [show ({ s with tasks := s.tasks ++ [{ phase := .ready call, quiet }] } : Store).roster
        = { s.roster with stands := s.roster.stands ++ [.idle] } by rw [← hstands]; rfl]
    exact .spawn
  exact hspawn.one.tail (.grow (grows_wake _ _))

theorem cellOf_enters (s : Store) (key : ResolverKey) :
    s.roster.Steps (s.cellOf key).2.roster := by
  unfold cellOf
  split
  · exact .refl
  · next hnew => exact (Step.enter hnew).one

/-- That a task is to be dropped does not show until its turn comes. -/
theorem roster_doom (s : Store) (n : Nat) :
    (s.modifyTask n fun t => { t with doomed := true }).roster = s.roster := by
  rw [roster, map_doom fun _ => rfl]
  rfl

/-- **A move that does not make keys count as not begun is a sequence of steps on the roster.** -/
theorem move_attends (s : Store) {m : StoreMove} (hm : ∀ key, ¬m.Forgets key)
    (hplaced : s.roster.Placed) : s.roster.Steps (s.move m).roster := by
  cases m with
  | spawn call quiet => exact spawn_attends s call quiet
  | turn tr n => exact turn_attends tr s n hplaced
  | respond number reply =>
    rw [move, respond]
    split
    · next n _ =>
      have hgrows := grows_wake { s with
        awaited := s.awaited.erase number
        replies := s.replies.put number reply } n
      exact (Step.grow hgrows).one
    · exact .refl
  | cancel n =>
    rw [move, cancel]
    split
    · split
      · exact .refl
      · rw [← roster_doom s n]
        exact (Step.grow (grows_wake _ _)).one
    · exact .refl
  | trigger canSpawn key =>
    rw [move, trigger]
    split
    · exact .refl
    · exact (cellOf_enters s key).trans (spawn_attends _ _ _)
  | invalidate key => exact absurd rfl (hm key)
  | invalidateAll => exact absurd trivial (hm .groups)
  | dispatch action =>
    rw [move, roster_dispatch]
  | readSettings group withEdits => exact .refl
  | readSetting group id withEdits => exact .refl
  | readEditedIds group => exact .refl

end Store

end RemoteSettings
