import RemoteSettings.Proofs.Store.Answers
import RemoteSettings.Proofs.Store.SavedEdits

/-!
# Calls to a store in which nobody else works

If nobody stands in line, nobody waits and no lock is held, then a call has the store to itself.  It
gets its lock at once, and when its request is answered at once too, it ends in its first turn and
leaves the store as quiet as it was.  So a call from its beginning to its end sends at most one
request and answers with what comes of the reply.

## Main definitions

* `Desk`, `Store.desk` — what a call may have to wait for, and what has been sent.
* `Desk.Clear` — nobody waits for anything.
* `Followup.edit?` — the edit that a caller makes once a key is resolved.

## Main results

* `perform_save`, `perform_unedited` — a call that saves what is edited, or has nothing to save.
* `perform_edit` — **a call that edits fetches what it edits, and edits it if that went well.**
-/

namespace RemoteSettings

/-- What a call may have to wait for, and what has been sent. -/
structure Desk where
  line : List Nat
  locks : LockTable
  cells : List Cell
  requests : List Request
  endpoints : Endpoints

/-- The desk of a store. -/
def Store.desk (s : Store) : Desk := ⟨s.line, s.locks, s.cells, s.requests, s.endpoints⟩

/-- Nobody stands in line, waits for a lock or waits for a cell, and no lock is held but at most a
given one. -/
structure Desk.Clear (lock : Option Lock) (d : Desk) : Prop where
  line : d.line = []
  waiting : d.locks.waiting = []
  active : d.locks.active = lock.toList
  cells : ∀ c ∈ d.cells, c.waiters = []

/-- The edit that a caller makes once a key is resolved, if that is what is wanted. -/
def Followup.edit? : Followup → Option Action
  | edit group id v => some (.edit group id v)
  | editAll group us => some (.editAll group us)
  | _ => none

namespace Store

variable {s u v : Store} {n : Nat} {tr : Transport} {op : Remote} {lock : Option Lock}
  {reply : Reply} {goal : Goal}

/-! ### What leaves the desk as it is -/

@[simp] theorem desk_did (s : Store) (d : Deed) : (s.did d).desk = s.desk := rfl

@[simp] theorem desk_dispatch (s : Store) (a : Action) : (s.dispatch a).desk = s.desk := by
  rw [dispatch_eq]
  rfl

@[simp] theorem desk_dispatchAll (s : Store) (as : List Action) :
    (s.dispatchAll as).desk = s.desk := by
  rw [dispatchAll_eq]
  rfl

@[simp] theorem desk_setFlag (s : Store) (op : Remote) (up : Bool) :
    (s.setFlag op up).desk = s.desk := by
  rw [setFlag_eq_dispatchAll, desk_dispatchAll]

@[simp] theorem desk_finish (s : Store) (n : Nat) (answer : Except Failure Answer) :
    (s.finish n answer).desk = s.desk := by
  rw [finish_eq]
  rfl

/-! ### What a call does at a clear desk -/

/-- To release the only lock wakes nobody, since nobody waits for it. -/
theorem clear_releaseLock {lock : Lock} (h : s.desk.Clear (some lock)) :
    (s.releaseLock lock).desk.Clear none ∧ (s.releaseLock lock).requests = s.requests ∧
      (s.releaseLock lock).endpoints = s.endpoints := by
  have hwaiting : s.locks.waiting = [] := h.waiting
  have hactive : s.locks.active = [lock] := h.active
  have hrelease : s.locks.release lock.id
      = ({ s.locks.remove lock.id with waiting := [] }, []) := by
    rw [LockTable.release, LockTable.releaseWhile_of_mem (hactive ▸ List.mem_singleton_self lock),
      LockTable.drain]
    simp only [LockTable.remove, hwaiting, LockTable.scan]
  rw [releaseLock, hrelease]
  refine ⟨⟨h.line, rfl, ?_, h.cells⟩, rfl, rfl⟩
  show s.locks.active.filter (·.id != lock.id) = []
  simp [hactive]

/-- Whoever commits a reply leaves the desk clear. -/
theorem clear_commitReply (h : u.desk.Clear lock) (n : Nat) (op : Remote) (reply : Reply) :
    (u.commitReply n op lock reply).desk.Clear none ∧
      (u.commitReply n op lock reply).requests = u.requests ∧
      (u.commitReply n op lock reply).endpoints = u.endpoints := by
  have hdesk : (((u.dispatchAll (op.commit reply).1).did (.committed n op reply)).setFlag op
      false).desk = u.desk := by simp
  have hrequests := congrArg Desk.requests hdesk
  have hendpoints := congrArg Desk.endpoints hdesk
  rw [← hdesk] at h
  cases lock with
  | none => exact ⟨h, hrequests, hendpoints⟩
  | some lock =>
    obtain ⟨hclear, hrequests', hendpoints'⟩ := clear_releaseLock h
    exact ⟨hclear, hrequests'.trans hrequests, hendpoints'.trans hendpoints⟩

theorem clear_modifyCell (h : s.desk.Clear lock) (c : Nat) {f : Cell → Cell}
    (hf : ∀ cell, cell.waiters = [] → (f cell).waiters = []) :
    (s.modifyCell c f).desk.Clear lock := by
  refine ⟨h.line, h.waiting, h.active, fun cell hcell => ?_⟩
  obtain ⟨i, hi⟩ := List.mem_iff_getElem?.mp hcell
  change (s.cells.modify c f)[i]? = some cell at hi
  rw [List.getElem?_modify] at hi
  obtain ⟨old, hold, rfl⟩ := Option.map_eq_some_iff.mp hi
  have hwaiters := h.cells old (List.mem_of_getElem? hold)
  by_cases hc : c = i
  · rw [if_pos hc]
    exact hf old hwaiters
  · rw [if_neg hc]
    exact hwaiters

/-- A run that ends wakes nobody if nobody waits for its cell. -/
theorem clear_resolve (h : s.desk.Clear none) (c : Nat) (outcome : Except Failure Unit) :
    (s.resolve c outcome).desk.Clear none ∧ (s.resolve c outcome).requests = s.requests ∧
      (s.resolve c outcome).endpoints = s.endpoints := by
  have hwaiters : (s.cells[c]?.map (·.waiters)).getD [] = [] := by
    cases hc : s.cells[c]? with
    | none => rfl
    | some cell => exact h.cells cell (List.mem_of_getElem? hc)
  rw [resolve, hwaiters]
  exact ⟨clear_modifyCell h c fun _ _ => rfl, rfl, rfl⟩

theorem clear_sendOff (h : s.desk.Clear lock) (n : Nat) (op : Remote) :
    (s.sendOff n op).desk.Clear lock :=
  ⟨h.line, h.waiting, h.active, h.cells⟩

/-- An operation that is answered at once is completed at once. -/
theorem send_of_reply (n : Nat) (lock : Option Lock) (goal : Goal)
    (hreply : tr s.requests (op.request s.endpoints) = some reply) :
    s.send tr n op lock goal = (s.sendOff n op).complete n op lock goal reply := by
  rw [send, hreply]

/-- At a clear desk an operation gets its lock at once, and comes to its end if it is answered at
once. -/
theorem exists_complete_of_clear (h : s.desk.Clear none) (n : Nat) (goal : Goal)
    (hreply : tr s.requests (op.request s.endpoints) = some reply) :
    ∃ (u : Store) (lock : Option Lock),
      s.startRemote tr n op goal = u.complete n op lock goal reply ∧
      u.desk.Clear lock ∧ u.requests = s.requests ++ [op.request s.endpoints] ∧
      u.endpoints = s.endpoints ∧ u.state = (s.setFlag op true).state ∧
      u.clock = (s.setFlag op true).clock ∧ u.answers = s.answers := by
  unfold startRemote
  split
  · next hlock =>
    have hflag : s.setFlag op true = s := by
      cases op with
      | fetchGroups => rfl
      | _ => cases hlock
    exact ⟨s.sendOff n op, none, send_of_reply n none goal hreply, clear_sendOff h n op, rfl, rfl,
      by rw [hflag]; rfl, by rw [hflag]; rfl, answers_sendOff s n op⟩
  · next scope mode hlock =>
    have hactive : s.locks.active = [] := h.active
    have hfree : s.locks.conflicts s.name scope mode = false := by
      rw [LockTable.conflicts, hactive, List.any_nil]
    rw [LockTable.acquire_of_no_conflict hfree]
    -- The store from which the operation sets out with its lock, and with its flag up.
    generalize hv : ({ s with locks := (s.locks.grant s.name scope mode).2 }.ask scope mode).note
      (.acquired (s.locks.nextLock s.name scope mode)) = v
    have hlike : (s.setFlag op true).Like (v.setFlag op true) := by
      have hgranted : s.Like v := hv ▸ ⟨rfl, rfl, rfl, rfl, rfl⟩
      exact hgranted.setFlag op true
    have hclear : (v.setFlag op true).desk.Clear (some (s.locks.nextLock s.name scope mode)) := by
      rw [desk_setFlag, ← hv]
      refine ⟨h.line, h.waiting, ?_, h.cells⟩
      show s.locks.active ++ [_] = _
      rw [hactive]
      rfl
    have hanswers : (v.setFlag op true).answers = s.answers := by
      rw [answers_setFlag, ← hv]
      exact answers_note _ rfl
    have hrequests : (v.setFlag op true).requests = s.requests :=
      hlike.requests.trans (requests_setFlag s op true)
    have hendpoints : (v.setFlag op true).endpoints = s.endpoints :=
      hlike.endpoints.trans (endpoints_setFlag s op true)
    have hreply' : tr (v.setFlag op true).requests (op.request (v.setFlag op true).endpoints)
        = some reply := by rw [hrequests, hendpoints, hreply]
    refine ⟨(v.setFlag op true).sendOff n op, _, ?_, clear_sendOff hclear n op, ?_, hendpoints,
      hlike.state, hlike.clock, (answers_sendOff _ n op).trans hanswers⟩
    · rw [← send_of_reply n _ goal hreply', ← hv]
      rfl
    · show (v.setFlag op true).requests ++ [op.request (v.setFlag op true).endpoints] = _
      rw [hrequests, hendpoints]

/-! ### A call from its beginning to its end -/

/-- A store in which a new task has its first turn. -/
def engage (s : Store) (call : Call) : Store :=
  { s with tasks := s.tasks ++ [{ phase := .ready call }], line := [] }

/-- A call that leaves the line empty ends with its first turn. -/
theorem perform_eq {call : Call} (hline : s.line = [])
    (h : (s.engage call).begin tr s.tasks.length call = u) (hended : u.line = []) :
    s.perform tr call = (u.answerOf? s.tasks.length, u) := by
  have hspawn : s.spawn call false
      = (s.tasks.length, { s.engage call with line := [s.tasks.length] }) := by
    simp [spawn, wake, hline, engage]
  have hturn : (s.engage call).turn tr s.tasks.length = u := by
    rw [turn_ready (t := { phase := .ready call }) (by simp [engage]) rfl rfl, h]
  have hrest : ∀ fuel, u.run tr fuel = u := by
    intro fuel
    cases fuel with
    | zero => rfl
    | succ fuel => rw [run, hended]
  have hrun : ∀ fuel, { s.engage call with line := [s.tasks.length] }.run tr (fuel + 1) = u := by
    intro fuel
    show ((s.engage call).turn tr s.tasks.length).run tr fuel = u
    rw [hturn, hrest]
  rw [perform, hspawn]
  dsimp only
  rw [settle, List.length_singleton, Nat.add_comm 1, hrun]

variable {call : Call}

/-- The answer with which a new task ends in its first turn is the answer of its call, as no other
task has its number. -/
theorem perform_of_finish (hs : s.answers.Agreed) (hline : s.line = [])
    {answer : Except Failure Answer}
    (h : (s.engage call).begin tr s.tasks.length call = v.finish s.tasks.length answer)
    (hclear : v.desk.Clear none) (htasks : v.answers.tasks = (s.engage call).answers.tasks)
    (hgiven : v.answers.given = s.answers.given) :
    s.perform tr call = (some answer, v.finish s.tasks.length answer) := by
  have hended : (v.finish s.tasks.length answer).line = [] := by
    have hdesk := congrArg Desk.line (desk_finish v s.tasks.length answer)
    exact hdesk.trans hclear.line
  have hlength : s.tasks.length = s.answers.tasks.length := (List.length_map _).symm
  have hnew : (v.answers.put s.tasks.length true).tasks[s.tasks.length]? = some (false, true) := by
    rw [Answers.put, List.getElem?_modify_eq, htasks]
    simp [answers, engage]
  have hnone : ∀ earlier,
      (s.tasks.length, earlier) ∉ (v.answers.put s.tasks.length true).given := by
    intro earlier hearlier
    obtain ⟨quiet, hquiet⟩ := hs.given _ _ (hgiven ▸ hearlier)
    have hlt := (List.getElem?_eq_some_iff.mp hquiet).1
    omega
  have hanswer : (v.finish s.tasks.length answer).answerOf? s.tasks.length = some answer := by
    rw [← answerOf?_answers, answers_finish]
    exact Answers.answerOf?_give_self hnew hnone answer
  rw [perform_eq hline h hended, hanswer]

theorem clear_engage (h : s.desk.Clear none) (call : Call) : (s.engage call).desk.Clear none :=
  ⟨rfl, h.waiting, h.active, h.cells⟩

/-- A call that leads to a save sends it, and answers with what has been saved. -/
theorem perform_save (tr : Transport) (h : s.desk.Clear none) (hs : s.answers.Agreed)
    (hsave : s.saveOf? call = some op)
    (hreply : tr s.requests (op.request s.endpoints) = some reply) :
    (s.perform tr call).1 = some ((op.commit reply).2.map (savedAnswer op)) ∧
      (s.perform tr call).2.requests = s.requests ++ [op.request s.endpoints] := by
  obtain ⟨v, hbegin, hglances⟩ :=
    exists_begin_of_saveOf? (s := s.engage call) hsave tr s.tasks.length
  obtain ⟨hdesk, hanswers⟩ : v.desk = (s.engage call).desk ∧
      v.answers = (s.engage call).answers := by
    cases hglances <;> exact ⟨rfl, rfl⟩
  have hrequests : v.requests = s.requests := congrArg Desk.requests hdesk
  have hendpoints : v.endpoints = s.endpoints := congrArg Desk.endpoints hdesk
  have hreply' : tr v.requests (op.request v.endpoints) = some reply := by
    rw [hrequests, hendpoints, hreply]
  obtain ⟨w, lock, hstart, hlock, hsent, -, -, -, hw⟩ :=
    exists_complete_of_clear (hdesk ▸ clear_engage h call) s.tasks.length .save hreply'
  obtain ⟨hclear, hkept, -⟩ := clear_commitReply hlock s.tasks.length op reply
  have hfinal : (w.commitReply s.tasks.length op lock reply).answers
      = (s.engage call).answers := by rw [answers_commitReply, hw, hanswers]
  rw [hstart, complete_save] at hbegin
  rw [perform_of_finish hs h.line hbegin hclear (by rw [hfinal]) (by rw [hfinal]; rfl)]
  refine ⟨rfl, ?_⟩
  have hfinish := congrArg Desk.requests (desk_finish (w.commitReply s.tasks.length op lock reply)
    s.tasks.length ((op.commit reply).2.map (savedAnswer op)))
  exact hfinish.trans (by rw [← hrequests, ← hendpoints, ← hsent, ← hkept]; rfl)

/-- A call that is to save edits and finds none sends nothing. -/
theorem perform_unedited (h : s.desk.Clear none) (hs : s.answers.Agreed) {group : String}
    {answer : Answer}
    (hbegin : (s.engage call).begin tr s.tasks.length call
      = ((s.engage call).readEditedIds group).2.finish s.tasks.length (.ok answer)) :
    (s.perform tr call).1 = some (.ok answer) ∧ (s.perform tr call).2.requests = s.requests := by
  have hclear : ((s.engage call).readEditedIds group).2.desk.Clear none := clear_engage h call
  rw [perform_of_finish hs h.line hbegin hclear rfl rfl]
  refine ⟨rfl, ?_⟩
  exact congrArg Desk.requests
    (desk_finish ((s.engage call).readEditedIds group).2 s.tasks.length (.ok answer))

/-! ### Edits -/

/-- A caller that edits does so once the key is resolved, and ends. -/
theorem follow_edit {wanted : Followup} {a : Action} (h : wanted.edit? = some a) (s : Store)
    (n : Nat) : s.follow n (.ok ()) wanted = (s.dispatch a).finish n (.ok .nothing) := by
  cases wanted <;> cases h <;> rfl

theorem follow_error (s : Store) (n : Nat) (f : Failure) (wanted : Followup) :
    s.follow n (.error f) wanted = s.finish n (.error f) := by
  cases wanted <;> rfl

/-- What actions lead to depends on nothing but the state and the clock. -/
theorem dispatchAll_congr (hstate : u.state = s.state) (hclock : u.clock = s.clock)
    (as : List Action) :
    (u.dispatchAll as).state = (s.dispatchAll as).state ∧
      (u.dispatchAll as).clock = (s.dispatchAll as).clock := by
  induction as generalizing s u with
  | nil => exact ⟨hstate, hclock⟩
  | cons a as ih =>
    refine ih ?_ (by rw [dispatch_clock, dispatch_clock, hclock])
    rw [dispatch, dispatch, hstate, hclock]
    split <;> rfl

/-- To resolve a key no flag is raised. -/
theorem setFlag_resolver (s : Store) (key : ResolverKey) (up : Bool) :
    s.setFlag key.remote up = s := by
  cases key <;> rfl

/-- At a clear desk a call that wants a key that has not been begun makes its cell and runs the
resolver. -/
theorem exists_startRemote_of_wanted (h : s.desk.Clear none) {wanted : Followup}
    (hwanted : call.wanted? = some wanted) (hnew : s.resolutions.get? wanted.key = none)
    (tr : Transport) (n : Nat) :
    ∃ u : Store, (s.engage call).begin tr n call
        = u.startRemote tr n wanted.key.remote (.resolve s.cells.length wanted) ∧
      u.desk.Clear none ∧ u.requests = s.requests ∧ u.endpoints = s.endpoints ∧
      u.state = s.state ∧ u.clock = s.clock ∧ u.answers = (s.engage call).answers := by
  let made : Store :=
    { s.engage call with
      cells := s.cells ++ [{}]
      resolutions := s.resolutions.put wanted.key s.cells.length }
  have hcell : (s.engage call).cellOf wanted.key = (s.cells.length, made) := by
    rw [cellOf, show (s.engage call).resolutions.get? wanted.key = none from hnew]
    rfl
  have hfirst : made.cells[s.cells.length]? = some {} := by simp [made]
  have hclear : made.desk.Clear none := by
    refine ⟨rfl, h.waiting, h.active, fun cell hcell => ?_⟩
    rcases List.mem_append.mp hcell with hold | hnewest
    · exact h.cells cell hold
    · rw [List.mem_singleton.mp hnewest]
  refine ⟨(made.modifyCell s.cells.length fun cell => { cell with driver := some n }).tried
    (.begun n s.cells.length wanted.key), ?_, clear_modifyCell hclear _ fun _ hw => hw, rfl, rfl,
    rfl, rfl, answers_tried _ rfl⟩
  rw [begin_of_wanted tr _ n hwanted, want, hcell]
  dsimp only
  rw [join, hfirst]
  rfl

/-- The call goes on from what the reply has led to. -/
theorem exists_follow_of_wanted (h : s.desk.Clear none) {wanted : Followup}
    (hwanted : call.wanted? = some wanted) (hnew : s.resolutions.get? wanted.key = none)
    (hreply : tr s.requests (wanted.key.remote.request s.endpoints) = some reply) :
    ∃ v : Store, (s.engage call).begin tr s.tasks.length call = v.follow s.tasks.length
        ((wanted.key.remote.commit reply).2.map fun _ => ()) wanted ∧
      v.desk.Clear none ∧
      v.requests = s.requests ++ [wanted.key.remote.request s.endpoints] ∧
      v.endpoints = s.endpoints ∧
      v.answers.tasks = (s.engage call).answers.tasks ∧ v.answers.given = s.answers.given ∧
      v.state = (s.dispatchAll (wanted.key.remote.commit reply).1).state ∧
      v.clock = (s.dispatchAll (wanted.key.remote.commit reply).1).clock := by
  generalize s.tasks.length = n
  obtain ⟨u, hbegin, hclear, hu, he, hs, hc, ha⟩ :=
    exists_startRemote_of_wanted h hwanted hnew tr n
  rw [← hu, ← he] at hreply ⊢
  obtain ⟨w, lock, hstart, hlock, hsent, hendpoints, hstate, hclock, hanswers⟩ :=
    exists_complete_of_clear hclear n (.resolve s.cells.length wanted) hreply
  rw [setFlag_resolver] at hstate hclock
  have hdispatched := dispatchAll_congr (hstate.trans hs) (hclock.trans hc)
    (wanted.key.remote.commit reply).1
  have hlike := like_commitReply w n wanted.key.remote lock reply
  rw [setFlag_resolver] at hlike
  have hcommitted := clear_commitReply hlock n wanted.key.remote reply
  have hgiven := (answers_commitReply w n wanted.key.remote lock reply).trans (hanswers.trans ha)
  -- The run ends, and nobody else hears of it.
  rw [hstart, complete_resolve] at hbegin
  generalize (wanted.key.remote.commit reply).2.map (fun _ => ()) = outcome at hbegin ⊢
  generalize w.commitReply n wanted.key.remote lock reply = r at *
  have hresolved := clear_resolve hcommitted.1 s.cells.length outcome
  have hwoken : (r.resolve s.cells.length outcome).state = r.state ∧
      (r.resolve s.cells.length outcome).clock = r.clock := by
    rw [resolve_eq]
    exact ⟨rfl, rfl⟩
  have hanswered : (r.resolve s.cells.length outcome).answers = (s.engage call).answers :=
    (answers_resolve r _ _).trans hgiven
  refine ⟨_, hbegin, hresolved.1, ?_, ?_, ?_, ?_, ?_, ?_⟩
  · exact hresolved.2.1.trans (hcommitted.2.1.trans hsent)
  · exact hresolved.2.2.trans (hcommitted.2.2.trans hendpoints)
  · show (r.resolve s.cells.length outcome).answers.tasks = _
    rw [hanswered]
  · show (r.resolve s.cells.length outcome).answers.given = _
    rw [hanswered]
    rfl
  · exact hwoken.1.trans (hlike.state.trans hdispatched.1)
  · exact hwoken.2.trans (hlike.clock.trans hdispatched.2)

/-- **A call that edits fetches what it edits, and edits it if that went well.** -/
theorem perform_edit (h : s.desk.Clear none) (hs : s.answers.Agreed) {wanted : Followup}
    {a : Action} (hwanted : call.wanted? = some wanted) (hedit : wanted.edit? = some a)
    (hnew : s.resolutions.get? wanted.key = none)
    (hreply : tr s.requests (wanted.key.remote.request s.endpoints) = some reply) :
    (s.perform tr call).2.desk.Clear none ∧
      (s.perform tr call).2.requests = s.requests ++ [wanted.key.remote.request s.endpoints] ∧
      (s.perform tr call).2.endpoints = s.endpoints ∧
      (∀ f, (wanted.key.remote.commit reply).2 = .error f →
        (s.perform tr call).1 = some (.error f)) ∧
      ∀ xs, (wanted.key.remote.commit reply).2 = .ok xs →
        (s.perform tr call).1 = some (.ok .nothing) ∧
        (s.perform tr call).2.state
          = ((s.dispatchAll (wanted.key.remote.commit reply).1).dispatch a).state := by
  obtain ⟨v, hbegin, hclear, hrequests, hendpoints, htasks, hgiven, hstate, hclock⟩ :=
    exists_follow_of_wanted h hwanted hnew hreply
  cases hresult : (wanted.key.remote.commit reply).2 with
  | error f =>
    rw [hresult, Except.map, follow_error] at hbegin
    rw [perform_of_finish hs h.line hbegin hclear htasks hgiven]
    have hdesk := desk_finish v s.tasks.length (.error f)
    refine ⟨hdesk ▸ hclear, (congrArg Desk.requests hdesk).trans hrequests,
      (congrArg Desk.endpoints hdesk).trans hendpoints, ?_, by rintro xs ⟨⟩⟩
    rintro f ⟨⟩
    rfl
  | ok xs =>
    rw [hresult, Except.map, follow_edit hedit] at hbegin
    have hsame := desk_dispatch v a
    rw [perform_of_finish hs h.line hbegin (hsame ▸ hclear) (by rw [answers_dispatch, htasks])
      (by rw [answers_dispatch, hgiven])]
    have hdesk := (desk_finish (v.dispatch a) s.tasks.length (.ok .nothing)).trans hsame
    refine ⟨hdesk ▸ hclear, (congrArg Desk.requests hdesk).trans hrequests,
      (congrArg Desk.endpoints hdesk).trans hendpoints, by rintro f ⟨⟩, fun _ _ => ⟨rfl, ?_⟩⟩
    show ((v.dispatch a).finish s.tasks.length (.ok .nothing)).state = _
    rw [finish_state]
    exact (dispatchAll_congr hstate hclock [a]).1

end Store

end RemoteSettings
