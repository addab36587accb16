import RemoteSettings.Proofs.Locks.Scan
import RemoteSettings.Proofs.Keyed
import RemoteSettings.Proofs.Store.Frame

/-!
# Operations that nothing interrupts

A task that has its lock with its next turn, and whose request is answered before anything else
happens, comes in one go to the end of its operation.  Whether the lock is to be had at once or was
waited for, and whether the reply comes at once or later, the task commits the reply to the state
from which it sets out, with its flag up.

## Main definitions

* `Store.Like` — two stores agree on the state, the tasks and what has been sent.
* `Store.Free` — the lock of an operation can be had at once.
* `Store.Poised` — a task sends the request of a save with its next turn.
* `Store.Alone` — the moves with which a task goes through its operation.
* `Store.latest?` — what happened last.

## Main results

* `exists_complete_of_alone` — **a task that nothing interrupts commits the reply to the state from
  which it sets out.**
* `complete_save_state`, `complete_save_latest?` — what the commit of a save leads to.
-/

namespace RemoteSettings

/-- The save that a call asks for by itself, whatever the store has. -/
def Call.save? : Call → Option Remote
  | .saveSetting group id value => some (.saveSetting group id value)
  | .saveSettings group updates => some (.saveBatch group updates.toList)
  | _ => none

namespace Store

variable {s u : Store} {n : Nat} {op : Remote} {goal : Goal} {reply : Reply}

/-! ### Stores that agree -/

/-- Two stores agree on the state and the clock, on the tasks, and on what has been sent. -/
structure Like (s u : Store) : Prop where
  state : u.state = s.state
  clock : u.clock = s.clock
  tasks : u.tasks = s.tasks
  requests : u.requests = s.requests
  endpoints : u.endpoints = s.endpoints

theorem Like.refl (s : Store) : s.Like s := ⟨rfl, rfl, rfl, rfl, rfl⟩

theorem Like.trans {v : Store} (h : s.Like u) (h' : u.Like v) : s.Like v where
  state := h'.state.trans h.state
  clock := h'.clock.trans h.clock
  tasks := h'.tasks.trans h.tasks
  requests := h'.requests.trans h.requests
  endpoints := h'.endpoints.trans h.endpoints

theorem Like.dispatch (h : s.Like u) (a : Action) : (s.dispatch a).Like (u.dispatch a) := by
  rw [Store.dispatch, Store.dispatch, h.state, h.clock]
  split
  · exact ⟨rfl, rfl, h.tasks, h.requests, h.endpoints⟩
  · exact ⟨rfl, rfl, h.tasks, h.requests, h.endpoints⟩

theorem Like.setFlag (h : s.Like u) (op : Remote) (up : Bool) :
    (s.setFlag op up).Like (u.setFlag op up) := by
  rw [Store.setFlag, Store.setFlag]
  split
  · exact h.dispatch _
  · exact h

/-! ### What dispatching leaves as it is -/

@[simp] theorem tasks_dispatchAll (s : Store) (as : List Action) :
    (s.dispatchAll as).tasks = s.tasks := by
  rw [dispatchAll_eq]

@[simp] theorem tasks_setFlag (s : Store) (op : Remote) (up : Bool) :
    (s.setFlag op up).tasks = s.tasks := by
  rw [setFlag_eq_dispatchAll, tasks_dispatchAll]

@[simp] theorem requests_setFlag (s : Store) (op : Remote) (up : Bool) :
    (s.setFlag op up).requests = s.requests := by
  rw [setFlag_eq_dispatchAll, dispatchAll_eq]

@[simp] theorem endpoints_setFlag (s : Store) (op : Remote) (up : Bool) :
    (s.setFlag op up).endpoints = s.endpoints := by
  rw [setFlag_eq_dispatchAll, dispatchAll_eq]

/-! ### From the beginning to the request -/

/-- The lock of an operation can be had at once. -/
def Free (s : Store) (op : Remote) : Prop :=
  ∀ scope mode, op.lock? = some (scope, mode) → s.locks.conflicts s.name scope mode = false

/-- An operation whose lock can be had at once sends its request with its flag up. -/
theorem exists_send_of_free (tr : Transport) (n : Nat) (goal : Goal) (h : s.Free op) :
    ∃ u lock, s.startRemote tr n op goal = u.send tr n op lock goal ∧
      (s.setFlag op true).Like u := by
  unfold startRemote
  split
  · next hlock =>
    have hflag : s.setFlag op true = s := by
      cases op with
      | fetchGroups => rfl
      | _ => cases hlock
    exact ⟨s, none, rfl, hflag.symm ▸ Like.refl s⟩
  · next scope mode hlock =>
    rw [LockTable.acquire_of_no_conflict (h scope mode hlock)]
    refine ⟨_, _, rfl, ?_⟩
    have hgranted : s.Like (({ s with locks := (s.locks.grant s.name scope mode).2 }.ask
        scope mode).note (.acquired (s.locks.nextLock s.name scope mode))) :=
      ⟨rfl, rfl, rfl, rfl, rfl⟩
    exact hgranted.setFlag op true

theorem begin_of_save {call : Call} (h : call.save? = some op) (s : Store) (tr : Transport)
    (n : Nat) : s.begin tr n call = s.startRemote tr n op .save := by
  cases call with
  | saveSetting group id value => rw [← Option.some.inj h, begin]
  | saveSettings group updates => rw [← Option.some.inj h, begin]
  | _ => cases h

/-- A task in a phase sends the request of a save with its next turn: its call begins and the lock
can be had at once, or the lock that it has been waiting for has been sent. -/
inductive Poised (s : Store) (op : Remote) : Phase → Prop
  | begins {call : Call} (save : call.save? = some op) (free : s.Free op) :
    Poised s op (.ready call)
  | served {ticket : Nat} {lock : Lock} (sent : s.locks.sent.get? ticket = some lock) :
    Poised s op (.locking ticket op .save)

/-- A task to which the lock has been sent that it has been waiting for sends its request with its
flag up. -/
theorem exists_send_of_served {t : Task} (tr : Transport) (hn : s.tasks[n]? = some t)
    (hdoomed : t.doomed = false) {ticket : Nat} (hphase : t.phase = .locking ticket op goal)
    {lock : Lock} (sent : s.locks.sent.get? ticket = some lock) :
    ∃ u, s.move (.turn tr n) = u.send tr n op (some lock) goal ∧ (s.setFlag op true).Like u := by
  have hcollected : s.Like ({ s with
      line := s.line.erase n
      locks := (s.locks.collect ticket).2 }.note (.acquired lock)) := ⟨rfl, rfl, rfl, rfl, rfl⟩
  refine ⟨_, ?_, hcollected.setFlag op true⟩
  rw [move, turn]
  simp only [hn, hdoomed, hphase, Bool.false_eq_true, if_false, LockTable.collect, sent]
  rfl

/-- The turn of a task that is poised sends its request with its flag up. -/
theorem exists_send_of_poised {t : Task} (tr : Transport) (hn : s.tasks[n]? = some t)
    (hdoomed : t.doomed = false) (hpoised : s.Poised op t.phase) :
    ∃ u lock, s.move (.turn tr n) = u.send tr n op lock .save ∧ (s.setFlag op true).Like u := by
  cases hphase : t.phase with
  | ready call =>
    rw [hphase] at hpoised
    cases hpoised with
    | begins save free =>
      have hbefore : s.Like { s with line := s.line.erase n } := ⟨rfl, rfl, rfl, rfl, rfl⟩
      obtain ⟨u, lock, hsend, hlike⟩ :=
        exists_send_of_free (s := { s with line := s.line.erase n }) tr n .save free
      refine ⟨u, lock, ?_, (hbefore.setFlag op true).trans hlike⟩
      rw [← hsend, move, turn]
      simp only [hn, hdoomed, hphase, Bool.false_eq_true, if_false]
      exact begin_of_save save _ tr n
  | locking ticket op' goal =>
    rw [hphase] at hpoised
    cases hpoised with
    | @served _ lock sent =>
      obtain ⟨u, hsend, hlike⟩ := exists_send_of_served tr hn hdoomed hphase sent
      exact ⟨u, some lock, hsend, hlike⟩
  | _ =>
    rw [hphase] at hpoised
    cases hpoised

/-! ### From the request to the commit -/

/-- The moves with which a task goes through its operation: its turn, if the request is answered at
once, and otherwise the reply and another turn. -/
inductive Alone (tr : Transport) (s : Store) (op : Remote) (reply : Reply) (n : Nat) :
    List StoreMove → Prop
  | atOnce : tr s.requests (op.request s.endpoints) = some reply →
    Alone tr s op reply n [.turn tr n]
  | later (tr' : Transport) : tr s.requests (op.request s.endpoints) = none →
    Alone tr s op reply n [.turn tr n, .respond s.requests.length reply, .turn tr' n]

theorem respond_of_awaited {number : Nat} (h : s.awaited.get? number = some n) (reply : Reply) :
    (s.respond number reply).2
      = { s with
          awaited := s.awaited.erase number
          replies := s.replies.put number reply }.wake n := by
  rw [respond, h]

/-- A task whose reply has come commits it. -/
theorem turn_of_reply {t : Task} {number : Nat} {lock : Option Lock} (tr : Transport)
    (hn : s.tasks[n]? = some t) (hphase : t.phase = .requesting number op lock goal)
    (hdoomed : t.doomed = false) (hreply : s.replies.get? number = some reply) :
    s.turn tr n
      = { s with replies := s.replies.erase number }.complete n op lock goal reply := by
  rw [turn, hn]
  simp only [hdoomed, hphase, hreply, Bool.false_eq_true, if_false]

/-- A task whose first turn comes as far as the request, with its flag up, commits the reply to the
state that it has left then, for whatever goal. -/
theorem exists_complete_of_send {v : Store} {t : Task} {tr : Transport} {lock : Option Lock}
    (hn : s.tasks[n]? = some t) (hdoomed : t.doomed = false)
    (hturn : s.move (.turn tr n) = u.send tr n op lock goal) (hlike : (v.setFlag op true).Like u)
    (htasks : v.tasks = s.tasks) (hrequests : v.requests = s.requests)
    (hendpoints : v.endpoints = s.endpoints) {ms : List StoreMove}
    (hms : Alone tr s op reply n ms) :
    ∃ w : Store, s.after ms = w.complete n op lock goal reply ∧
      w.state = (v.setFlag op true).state ∧ w.clock = (v.setFlag op true).clock ∧
      w.tasks[n]?.map (·.quiet) = some t.quiet := by
  have hrequests' : u.requests = s.requests := by
    rw [hlike.requests, requests_setFlag, hrequests]
  have hendpoints' : u.endpoints = s.endpoints := by
    rw [hlike.endpoints, endpoints_setFlag, hendpoints]
  have htasks' : u.tasks[n]? = some t := by
    rw [hlike.tasks, tasks_setFlag, htasks, hn]
  rw [send, hrequests', hendpoints'] at hturn
  cases hms with
  | atOnce hreply =>
    rw [hreply] at hturn
    refine ⟨u.sendOff n op, hturn, hlike.state, hlike.clock, ?_⟩
    show u.tasks[n]?.map (·.quiet) = _
    rw [htasks']
    rfl
  | later tr' hnone =>
    rw [hnone] at hturn
    -- While it waits, the task is what it was but for its phase.
    have hwaiting : ∀ v : Store, v.tasks = (u.tasks.modify n fun t =>
        { t with phase := .requesting s.requests.length op lock goal }) →
        v.tasks[n]? = some { t with phase := .requesting s.requests.length op lock goal } := by
      intro v hv
      rw [hv, List.getElem?_modify_eq, htasks']
      rfl
    -- The reply is kept until the second turn, and nothing else has changed then.
    rw [after_cons, hturn, after_cons, move,
      respond_of_awaited (n := n) (Keyed.get?_put_self s.requests.length n _) reply, wake_eq]
    refine ⟨_, turn_of_reply tr' (hwaiting _ rfl) rfl hdoomed (Keyed.get?_put_self _ _ _),
      hlike.state, hlike.clock, ?_⟩
    exact congrArg (Option.map (·.quiet)) (hwaiting ((u.sendOff n op).await n _ op lock goal) rfl)

/-- **A task that nothing interrupts commits the reply to the state from which it sets out.** -/
theorem exists_complete_of_alone {t : Task} {tr : Transport} (hn : s.tasks[n]? = some t)
    (hdoomed : t.doomed = false) (hpoised : s.Poised op t.phase) {ms : List StoreMove}
    (hms : Alone tr s op reply n ms) :
    ∃ (u : Store) (lock : Option Lock), s.after ms = u.complete n op lock .save reply ∧
      u.state = (s.setFlag op true).state ∧ u.clock = (s.setFlag op true).clock ∧
      u.tasks[n]?.map (·.quiet) = some t.quiet := by
  obtain ⟨u, lock, hturn, hlike⟩ := exists_send_of_poised tr hn hdoomed hpoised
  obtain ⟨w, hw⟩ := exists_complete_of_send hn hdoomed hturn hlike rfl rfl rfl hms
  exact ⟨w, lock, hw⟩

/-! ### The commit of a save -/

/-- To release a lock changes the state of no task, and none of the settings. -/
theorem like_releaseLock (s : Store) (lock : Lock) : s.Like (s.releaseLock lock) := by
  rw [releaseLock_eq]
  exact ⟨rfl, rfl, rfl, rfl, rfl⟩

/-- Once a reply has been committed, the flag falls and the lock is released. -/
theorem like_commitReply (u : Store) (n : Nat) (op : Remote) (lock : Option Lock) (reply : Reply) :
    ((u.dispatchAll (op.commit reply).1).setFlag op false).Like
      (u.commitReply n op lock reply) := by
  have hdid : (u.dispatchAll (op.commit reply).1).Like
      ((u.dispatchAll (op.commit reply).1).did (.committed n op reply)) := ⟨rfl, rfl, rfl, rfl, rfl⟩
  cases lock with
  | none => exact hdid.setFlag op false
  | some lock => exact (hdid.setFlag op false).trans (like_releaseLock _ lock)

/-- A task that has saved ends once its reply has been committed. -/
theorem exists_finish_of_save (u : Store) (n : Nat) (op : Remote) (lock : Option Lock)
    (reply : Reply) :
    ∃ v : Store, u.complete n op lock .save reply
        = v.finish n ((op.commit reply).2.map (savedAnswer op)) ∧
      ((u.dispatchAll (op.commit reply).1).setFlag op false).Like v :=
  ⟨u.commitReply n op lock reply, complete_save u n op lock reply,
    like_commitReply u n op lock reply⟩

theorem finish_state (s : Store) (n : Nat) (answer : Except Failure Answer) :
    (s.finish n answer).state = s.state := by
  rw [finish_eq]
  rfl

/-- What happened last. -/
def latest? (s : Store) : Option Happening := s.log.getLast?.map (·.what)

/-- A task that is not quiet says last of all how it ended. -/
theorem finish_latest? (hquiet : s.tasks[n]?.map (·.quiet) = some false)
    (answer : Except Failure Answer) : (s.finish n answer).latest? = some (.done n answer) := by
  rw [finish, hquiet]
  simp [note, latest?]

/-- The state after a save has been committed. -/
theorem complete_save_state (u : Store) (n : Nat) (op : Remote) (lock : Option Lock)
    (reply : Reply) :
    (u.complete n op lock .save reply).state
      = ((u.dispatchAll (op.commit reply).1).setFlag op false).state := by
  obtain ⟨v, hfinish, hlike⟩ := exists_finish_of_save u n op lock reply
  rw [hfinish, finish_state, hlike.state]

/-- The answer of a save. -/
theorem complete_save_latest? (hquiet : u.tasks[n]?.map (·.quiet) = some false) (op : Remote)
    (lock : Option Lock) (reply : Reply) :
    (u.complete n op lock .save reply).latest?
      = some (.done n ((op.commit reply).2.map (savedAnswer op))) := by
  obtain ⟨v, hfinish, hlike⟩ := exists_finish_of_save u n op lock reply
  rw [hfinish]
  refine finish_latest? ?_ _
  rw [hlike.tasks, tasks_setFlag, tasks_dispatchAll, hquiet]

end Store

end RemoteSettings
