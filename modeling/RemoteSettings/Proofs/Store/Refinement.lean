import RemoteSettings.Proofs.Store.Board

/-!
# Moves are steps on the board

Every move of the store is a sequence of steps on its board, so what the steps preserve holds of
every run, and no proof about locks and requests has to look into a turn again.

## Main results

* `turn_steps`, `move_steps` — a turn and a move are steps on the board.
* `after_steps` — **a run is a sequence of steps on the board.**
-/

namespace RemoteSettings

namespace Store

variable {s : Store} {n : Nat}

@[simp] theorem board_readEditedIds (s : Store) (group : String) :
    (s.readEditedIds group).2.board = s.board := rfl

@[simp] theorem board_resolve (s : Store) (cell : Nat) (outcome : Except Failure Unit) :
    (s.resolve cell outcome).board = s.board := by
  rw [resolve_eq]
  rfl

@[simp] theorem board_passOn (s : Store) (cell : Nat) : (s.passOn cell).board = s.board := by
  rw [passOn_eq]
  rfl

@[simp] theorem board_dropGoal (s : Store) (n : Nat) (goal : Goal) :
    (s.dropGoal n goal).board = s.board := by
  rw [dropGoal_eq]
  rfl

/-! ### How a turn ends -/

theorem board_finish (s : Store) (n : Nat) (answer : Except Failure Answer) :
    (s.finish n answer).board = s.board.put n .over := by
  rw [finish_eq]
  exact board_setPhase s n .done

theorem board_follow (s : Store) (n : Nat) (outcome : Except Failure Unit) (wanted : Followup) :
    (s.follow n outcome wanted).board = s.board.put n .over := by
  cases outcome with
  | error f => cases wanted <;> exact board_finish s n _
  | ok =>
    cases wanted with
    | edit group id value => rw [follow, board_finish, board_dispatch]
    | editAll group updates => rw [follow, board_finish, board_dispatch]
    | _ => exact board_finish _ n _

theorem board_tell (s : Store) (n cell : Nat) (outcome : Except Failure Unit) (wanted : Followup) :
    (s.tell n cell outcome wanted).board = s.board.put n .over := board_follow _ n outcome wanted

theorem board_complete (s : Store) (n : Nat) (op : Remote) (lock : Option Lock) (goal : Goal)
    (reply : Reply) :
    (s.complete n op lock goal reply).board
      = ((s.board.did (.committed n op reply)).letGo lock).put n .over := by
  cases lock <;> cases goal <;>
    simp [complete, board_tell, board_finish, board_releaseLock, Board.letGo]

/-! ### The parts of a turn -/

/-- To commit a reply and go on is to commit it, to give the lock back and to end. -/
theorem complete_steps (hn : n < s.board.stages.length) (op : Remote) (lock : Option Lock)
    (goal : Goal) (reply : Reply) :
    (s.board.put n (.awaiting op lock)).Steps (s.complete n op lock goal reply).board := by
  -- The task stands where it waits for the reply, even if the reply came at once.
  have hcommit := Board.Step.commit reply (Board.stage_put hn (.awaiting op lock))
  rw [Board.put_did, Board.put_put] at hcommit
  rw [board_complete]
  exact (Board.steps_close (by simpa using hn) lock).head hcommit

@[simp] theorem board_sendOff (s : Store) (n : Nat) (op : Remote) :
    (s.sendOff n op).board = s.board.sendOff n op := rfl

@[simp] theorem board_await (s : Store) (n number : Nat) (op : Remote) (lock : Option Lock)
    (goal : Goal) : (s.await n number op lock goal).board = s.board.put n (.awaiting op lock) :=
  board_setPhase _ n _

theorem send_steps (tr : Transport) (hn : n < s.board.stages.length) (op : Remote)
    (lock : Option Lock) (goal : Goal) :
    (s.board.put n (.holding op lock)).Steps (s.send tr n op lock goal).board := by
  have hsend := Board.Step.send (Board.stage_put hn (.holding op lock))
  rw [Board.put_sendOff, Board.put_put, ← board_sendOff] at hsend
  unfold send
  split
  · exact (complete_steps (s := s.sendOff n op) hn op lock goal _).head hsend
  · rw [board_await]
    exact hsend.one

theorem locked_steps (tr : Transport) (hn : n < s.board.stages.length) (op : Remote) (lock : Lock)
    (goal : Goal) :
    (s.board.put n (.holding op (some lock))).Steps (s.locked tr n op lock goal).board := by
  have hboard : ((s.note (.acquired lock)).setFlag op true).board = s.board := by
    rw [board_setFlag, board_note]
  rw [← hboard] at hn ⊢
  exact send_steps tr hn op (some lock) goal

theorem startRemote_steps (tr : Transport) (h : s.board.stages[n]? = some .idle) (op : Remote)
    (goal : Goal) :
    s.board.Steps (s.startRemote tr n op goal).board := by
  have hn := Board.lt_of_stage h
  unfold startRemote
  split
  · next hnone => exact (send_steps tr hn op none goal).head (.skip h hnone)
  · next scope mode hsome =>
    split
    · next lock locks hacquire =>
      have hlocked := locked_steps tr (s := { s with locks }.ask scope mode) hn op lock goal
      exact hlocked.head (.grant h hsome hacquire)
    · next ticket locks hacquire =>
      rw [board_setPhase]
      exact (Board.Step.queue h hsome hacquire).one

theorem join_steps (tr : Transport) (h : s.board.stages[n]? = some .idle) (cell : Nat)
    (wanted : Followup) :
    s.board.Steps (s.join tr n cell wanted).board := by
  unfold join
  split
  · exact .refl
  · split
    · rw [board_tell]
      exact (Board.Step.finish h (Or.inl rfl)).one
    · split
      · exact startRemote_steps tr (s := (s.modifyCell cell _).tried _) h _ _
      · -- A task that waits for others has not begun its own operation.
        rw [board_setPhase, board_modifyCell]
        exact (Board.put_self h).symm ▸ .refl

theorem want_steps (tr : Transport) (h : s.board.stages[n]? = some .idle) (wanted : Followup) :
    s.board.Steps (s.want tr n wanted).board := by
  have hjoin := join_steps tr (s := (s.cellOf wanted.key).2) (by rwa [board_cellOf])
    (s.cellOf wanted.key).1 wanted
  rwa [board_cellOf] at hjoin

theorem finish_steps (h : s.board.stages[n]? = some .idle) (answer : Except Failure Answer) :
    s.board.Steps (s.finish n answer).board := by
  rw [board_finish]
  exact (Board.Step.finish h (Or.inl rfl)).one

theorem begin_steps (tr : Transport) (h : s.board.stages[n]? = some .idle) (call : Call) :
    s.board.Steps (s.begin tr n call).board := by
  cases call with
  | editSettings group updates =>
    rw [begin]
    split
    · exact want_steps tr h _
    · exact finish_steps h _
  | saveSetting group id value => exact startRemote_steps tr h _ _
  | saveSettings group updates => exact startRemote_steps tr h _ _
  | saveEditedSetting group id =>
    cases hread : s.readEditedIds group with
    | mk ids s' =>
      -- To read the edits remembers them, which does not show.
      have hboard : s'.board = s.board := by rw [← board_readEditedIds s group, hread]
      rw [begin, hread, ← hboard]
      rw [← hboard] at h
      dsimp only
      split
      · split
        · exact startRemote_steps tr h _ _
        · exact finish_steps h _
      · exact finish_steps h _
  | saveEditedSettings group =>
    cases hread : s.readEditedIds group with
    | mk ids s' =>
      have hboard : s'.board = s.board := by rw [← board_readEditedIds s group, hread]
      rw [begin, hread, ← hboard]
      rw [← hboard] at h
      dsimp only
      split
      · exact finish_steps h _
      · exact startRemote_steps tr h _ _
  | refuse failure => exact finish_steps h _
  | _ => exact want_steps tr h _

/-! ### The end of a cancelled task -/

@[simp] theorem board_forget (s : Store) (number : Nat) : (s.forget number).board = s.board := rfl

theorem drop_steps {phase : Phase} (h : s.board.stages[n]? = some phase.stage) :
    s.board.Steps (s.drop n phase).board := by
  have hn := Board.lt_of_stage h
  cases phase with
  | ready call =>
    rw [drop, board_setPhase]
    exact (Board.Step.finish h (Or.inl rfl)).one
  | joining cell wanted =>
    have hboard : (s.drop n (.joining cell wanted)).board = s.board.put n .over := by
      rw [drop]
      split
      · rw [board_passOn, board_modifyCell, board_setPhase]
        rfl
      · rw [board_modifyCell, board_setPhase]
        rfl
    rw [hboard]
    exact (Board.Step.finish h (Or.inl rfl)).one
  | locking ticket op goal =>
    rw [drop, board_dropGoal, board_serve, board_setPhase]
    exact (Board.Step.abandon h).one
  | requesting number op lock goal =>
    -- The flag and the cells do not show, so the board sees a drop, a release and an end.
    have hboard : (s.drop n (.requesting number op lock goal)).board
        = ((s.board.did (.dropped n op)).letGo lock).put n .over := by
      cases lock <;>
        simp [drop, board_releaseLock, Board.put_did, Board.put_letGo, Phase.stage]
    rw [hboard]
    exact (Board.steps_close (b := s.board.did (.dropped n op)) hn lock).head (.drop h)
  | done =>
    rw [drop, board_setPhase, Board.put_self h]

/-! ### Turns and moves -/

/-- **A turn is a sequence of steps on the board.** -/
theorem turn_steps (tr : Transport) (s : Store) (n : Nat) : s.board.Steps (s.turn tr n).board := by
  unfold turn
  split
  · exact .refl
  · next t ht =>
    have h : s.board.stages[n]? = some t.phase.stage := by simp [board, ht]
    split
    · exact drop_steps h
    · split
      · next call hphase =>
        rw [hphase] at h
        exact begin_steps tr h call
      · next cell wanted hphase =>
        rw [hphase] at h
        exact join_steps tr h cell wanted
      · next ticket op goal hphase =>
        rw [hphase] at h
        split
        · next lock locks hcollect =>
          obtain ⟨hsent, rfl⟩ := Prod.mk.inj hcollect
          have hlocked := locked_steps tr (s := { s with locks := (s.locks.collect ticket).2 })
            (Board.lt_of_stage h) op lock goal
          exact hlocked.head (.collect h hsent)
        · exact .refl
      · next number op lock goal hphase =>
        rw [hphase] at h
        split
        · next reply hreply =>
          have hsteps := complete_steps (s := { s with replies := s.replies.erase number })
            (Board.lt_of_stage h) op lock goal reply
          -- The task stands there already: its stage has not changed since the request.
          have hput : s.board.put n (.awaiting op lock) = s.board := Board.put_self h
          exact hput ▸ hsteps
        · exact .refl
      · exact .refl

theorem board_spawn (s : Store) (call : Call) (quiet : Bool) :
    (s.spawn call quiet).2.board = { s.board with stages := s.board.stages ++ [.idle] } := by
  rw [spawn, board_wake]
  simp [board, Phase.stage]

/-- That a task is to be dropped does not show until its turn comes. -/
theorem board_doom (s : Store) (n : Nat) :
    (s.modifyTask n fun t => { t with doomed := true }).board = s.board := by
  rw [board, map_doom fun _ => rfl]
  rfl

theorem board_respond (s : Store) (number : Nat) (reply : Reply) :
    (s.respond number reply).2.board = s.board := by
  unfold respond
  split
  · exact board_wake _ _
  · rfl

theorem board_cancel (s : Store) (n : Nat) : (s.cancel n).2.board = s.board := by
  unfold cancel
  split
  · split
    · rfl
    · exact (board_wake _ _).trans (board_doom s n)
  · rfl

/-- **A move is a sequence of steps on the board.** -/
theorem move_steps (s : Store) (m : StoreMove) : s.board.Steps (s.move m).board := by
  have hspawn : ∀ (s : Store) call quiet, s.board.Steps (s.spawn call quiet).2.board := by
    intro s call quiet
    rw [board_spawn]
    exact (Board.Step.spawn).one
  cases m with
  | spawn call quiet => exact hspawn s call quiet
  | turn tr n => exact turn_steps tr { s with line := s.line.erase n } n
  | respond number reply =>
    rw [move, board_respond]
  | cancel n =>
    rw [move, board_cancel]
  | trigger canSpawn key =>
    rw [move, trigger]
    split
    · exact .refl
    · have hsteps := hspawn (s.cellOf key).2 (.background key) true
      rwa [board_cellOf] at hsteps
  | dispatch action =>
    rw [move, board_dispatch]
  | invalidate key => exact .refl
  | invalidateAll => exact .refl
  | readSettings group withEdits => exact .refl
  | readSetting group id withEdits => exact .refl
  | readEditedIds group => exact .refl

/-- **A run is a sequence of steps on the board.** -/
theorem after_steps (s : Store) (ms : List StoreMove) : s.board.Steps (s.after ms).board :=
  after_induction (P := fun s' => s.board.Steps s'.board)
    (fun s' m h => h.trans (move_steps s' m)) .refl ms

end Store

end RemoteSettings
