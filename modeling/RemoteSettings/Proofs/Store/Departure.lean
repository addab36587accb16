import RemoteSettings.Proofs.Store.Alone
import RemoteSettings.Proofs.Store.Attendance
import RemoteSettings.Proofs.Store.Tidy

/-!
# Setting out on an operation

A task sets out on an operation with its next turn if nothing keeps it back: its call leads to a
save and the lock can be had at once, or the run of a resolver falls to it and the lock can be had
at once, or it has waited for the lock and the lock has been sent to it.  A task that sets out and
that nothing interrupts comes in one go to the end of its operation, whatever it is run for.

## Main definitions

* `Store.submission` — the edits of a group as they are submitted.
* `Store.saveOf?` — the save that a call leads to.
* `Store.Idles` — nothing but a read may have happened; `Store.Glances` says which.
* `Store.SetsOut` — a task sends the request of an operation with its next turn.

## Main results

* `exists_complete_of_setsOut` — **a task that sets out commits the reply to the state from which it
  sets out.**
-/

namespace RemoteSettings.Store

variable {s u v : Store} {n : Nat} {op : Remote} {goal : Goal} {reply : Reply}

/-! ### Saves -/

/-- The edits of a group as they are submitted, in the order in which they were begun. -/
def submission (s : Store) (group : String) : List Update :=
  (s.readEditedIds group).1.value.filterMap fun id =>
    (s.state.value? group id true).map fun value => ⟨id, value⟩

/-- The save that a call leads to, if it leads to one in this store. -/
def saveOf? (s : Store) : Call → Option Remote
  | .saveSetting group id value => some (.saveSetting group id value)
  | .saveSettings group updates => some (.saveBatch group updates.toList)
  | .saveEditedSetting group id =>
    (s.state.value? group id true).bind fun value =>
      if (s.readEditedIds group).1.value.contains id then some (.saveSetting group id value)
      else none
  | .saveEditedSettings group =>
    if (s.submission group).isEmpty then none else some (.saveBatch group (s.submission group))
  | _ => none

/-- Nothing but a read may have happened, so far as operations can tell. -/
structure Idles (s v : Store) : Prop where
  state : v.state = s.state
  clock : s.clock ≤ v.clock
  tasks : v.tasks = s.tasks
  requests : v.requests = s.requests
  endpoints : v.endpoints = s.endpoints
  locks : v.locks = s.locks
  name : v.name = s.name

theorem Idles.refl (s : Store) : s.Idles s := ⟨rfl, Nat.le_refl _, rfl, rfl, rfl, rfl, rfl⟩

theorem Idles.trans {w : Store} (h : s.Idles v) (h' : v.Idles w) : s.Idles w where
  state := h'.state.trans h.state
  clock := Nat.le_trans h.clock h'.clock
  tasks := h'.tasks.trans h.tasks
  requests := h'.requests.trans h.requests
  endpoints := h'.endpoints.trans h.endpoints
  locks := h'.locks.trans h.locks
  name := h'.name.trans h.name

theorem Idles.free (h : s.Idles v) (hfree : s.Free op) : v.Free op := by
  intro scope mode hlock
  rw [h.locks, h.name]
  exact hfree scope mode hlock

theorem Idles.tidy (h : s.Idles v) (hs : s.Tidy) : v.Tidy where
  kept := by
    rw [h.state]
    exact hs.kept
  builtBy := by
    rw [h.state]
    exact hs.builtBy.mono h.clock

theorem idles_readEditedIds (s : Store) (group : String) : s.Idles (s.readEditedIds group).2 :=
  ⟨rfl, Nat.le_succ _, rfl, rfl, rfl, rfl, rfl⟩

theorem idles_cellOf (s : Store) (key : ResolverKey) : s.Idles (s.cellOf key).2 := by
  rw [cellOf_eq]
  exact ⟨rfl, Nat.le_refl _, rfl, rfl, rfl, rfl, rfl⟩

/-- Nothing but the ids of edits may have been read. -/
inductive Glances (s : Store) : Store → Prop
  | none : Glances s s
  | ids (group : String) : Glances s (s.readEditedIds group).2

theorem Glances.idles (h : s.Glances v) : s.Idles v := by
  cases h with
  | none => exact .refl s
  | ids group => exact idles_readEditedIds s group

/-- A call that leads to a save begins with it. -/
theorem exists_begin_of_saveOf? {call : Call} (h : s.saveOf? call = some op) (tr : Transport)
    (n : Nat) : ∃ v, s.begin tr n call = v.startRemote tr n op .save ∧ s.Glances v := by
  cases call with
  | saveSetting group id value =>
    cases h
    exact ⟨s, rfl, .none⟩
  | saveSettings group updates =>
    cases h
    exact ⟨s, rfl, .none⟩
  | saveEditedSetting group id =>
    refine ⟨(s.readEditedIds group).2, ?_, .ids group⟩
    obtain ⟨value, hvalue, hop⟩ := Option.bind_eq_some_iff.mp h
    have hvalue' : (s.readEditedIds group).2.state.value? group id true = some value := hvalue
    split at hop
    · next hedited =>
      cases hop
      rw [begin]
      dsimp only
      rw [hvalue']
      exact if_pos hedited
    · cases hop
  | saveEditedSettings group =>
    refine ⟨(s.readEditedIds group).2, ?_, .ids group⟩
    rw [saveOf?] at h
    split at h
    · cases h
    · next hsome =>
      cases h
      exact if_neg hsome
  | _ => cases h

/-! ### Setting out -/

/-- The run for a cell falls to a task that comes to it. -/
def Falls (s : Store) (n c : Nat) : Prop :=
  ∃ cell, s.cells[c]? = some cell ∧ cell.outcome = none ∧
    (cell.driver = none ∨ cell.driver = some n)

/-- A task in a phase sends the request of an operation with its next turn: its call leads to a
save, or the run of a resolver falls to it, and the lock can be had at once; or the lock that it has
been waiting for has been sent. -/
inductive SetsOut (s : Store) (n : Nat) : Remote → Goal → Phase → Prop
  | saves {op : Remote} {call : Call} (save : s.saveOf? call = some op) (free : s.Free op) :
    SetsOut s n op .save (.ready call)
  | resolves {call : Call} {wanted : Followup} (wants : call.wanted? = some wanted)
      (falls : (s.cellOf wanted.key).2.Falls n (s.cellOf wanted.key).1)
      (free : s.Free wanted.key.remote) :
    SetsOut s n wanted.key.remote (.resolve (s.cellOf wanted.key).1 wanted) (.ready call)
  | joins {c : Nat} {wanted : Followup} (falls : s.Falls n c) (free : s.Free wanted.key.remote) :
    SetsOut s n wanted.key.remote (.resolve c wanted) (.joining c wanted)
  | served {op : Remote} {goal : Goal} {ticket : Nat} {lock : Lock}
      (sent : s.locks.sent.get? ticket = some lock) : SetsOut s n op goal (.locking ticket op goal)

/-- The line makes no difference to cells. -/
theorem cellOf_line (s : Store) (line : List Nat) (key : ResolverKey) :
    ({ s with line } : Store).cellOf key
      = ((s.cellOf key).1, { (s.cellOf key).2 with line }) := by
  unfold cellOf
  dsimp only
  split <;> rfl

/-- A task to which the run for a cell falls begins the operation that resolves the key. -/
theorem exists_join_of_falls {c : Nat} (h : s.Falls n c) (tr : Transport) (wanted : Followup) :
    ∃ v, s.join tr n c wanted = v.startRemote tr n wanted.key.remote (.resolve c wanted) ∧
      s.Idles v := by
  obtain ⟨cell, hcell, hopen, hdriver⟩ := h
  refine ⟨(s.modifyCell c fun c => { c with driver := some n }).tried (.begun n c wanted.key), ?_,
    ⟨rfl, Nat.le_refl _, rfl, rfl, rfl, rfl, rfl⟩⟩
  rw [join, hcell]
  dsimp only
  rw [hopen]
  dsimp only
  rw [if_pos hdriver]

/-- The turn of a task that sets out sends its request with its flag up. -/
theorem exists_send_of_setsOut {t : Task} (tr : Transport) (hn : s.tasks[n]? = some t)
    (hdoomed : t.doomed = false) (h : s.SetsOut n op goal t.phase) :
    ∃ v u lock, s.move (.turn tr n) = u.send tr n op lock goal ∧ s.Idles v ∧
      (v.setFlag op true).Like u := by
  -- The task leaves the line first, which makes no difference.
  let r : Store := { s with line := s.line.erase n }
  have hline : s.Idles r := ⟨rfl, Nat.le_refl _, rfl, rfl, rfl, rfl, rfl⟩
  have hr : r.tasks[n]? = some t := hn
  have hstart : ∀ v, r.turn tr n = v.startRemote tr n op goal → s.Idles v → s.Free op →
      ∃ v u lock, s.move (.turn tr n) = u.send tr n op lock goal ∧ s.Idles v ∧
        (v.setFlag op true).Like u := by
    intro v hturn hidles hfree
    obtain ⟨u, lock, hsend, hlike⟩ := exists_send_of_free tr n goal (hidles.free hfree)
    exact ⟨v, u, lock, hturn.trans hsend, hidles, hlike⟩
  generalize hphase : t.phase = phase at h
  cases h with
  | @saves _ call save free =>
    obtain ⟨v, hbegin, hglances⟩ := exists_begin_of_saveOf? (s := r) save tr n
    refine hstart v ?_ (hline.trans hglances.idles) free
    rw [turn_ready hr hdoomed hphase, hbegin]
  | @resolves call wanted wants falls free =>
    have hcell : r.cellOf wanted.key = ((s.cellOf wanted.key).1,
        { (s.cellOf wanted.key).2 with line := r.line }) := cellOf_line s r.line wanted.key
    have hfalls : (r.cellOf wanted.key).2.Falls n (s.cellOf wanted.key).1 := by
      rw [hcell]
      exact falls
    obtain ⟨v, hjoin, hidles⟩ := exists_join_of_falls hfalls tr wanted
    refine hstart v ?_ (hline.trans ((idles_cellOf r wanted.key).trans hidles)) free
    rw [turn_ready hr hdoomed hphase, begin_of_wanted tr r n wants, want, ← hjoin, hcell]
  | @joins c wanted falls free =>
    obtain ⟨v, hjoin, hidles⟩ := exists_join_of_falls (s := r) falls tr wanted
    refine hstart v ?_ (hline.trans hidles) free
    rw [turn_joining hr hdoomed hphase, hjoin]
  | @served _ _ ticket lock sent =>
    obtain ⟨u, hsend, hlike⟩ := exists_send_of_served tr hn hdoomed hphase sent
    exact ⟨s, u, some lock, hsend, .refl s, hlike⟩

/-- **A task that sets out commits the reply to the state from which it sets out**, if nothing
interrupts it. -/
theorem exists_complete_of_setsOut {t : Task} {tr : Transport} (hn : s.tasks[n]? = some t)
    (hdoomed : t.doomed = false) (hsets : s.SetsOut n op goal t.phase) {ms : List StoreMove}
    (hms : Alone tr s op reply n ms) :
    ∃ (v w : Store) (lock : Option Lock), s.after ms = w.complete n op lock goal reply ∧
      s.Idles v ∧ w.state = (v.setFlag op true).state ∧ w.clock = (v.setFlag op true).clock ∧
      w.tasks[n]?.map (·.quiet) = some t.quiet := by
  obtain ⟨v, u, lock, hturn, hidles, hlike⟩ := exists_send_of_setsOut tr hn hdoomed hsets
  obtain ⟨w, hw, hstate, hclock, hquiet⟩ := exists_complete_of_send hn hdoomed hturn hlike
    hidles.tasks hidles.requests hidles.endpoints hms
  exact ⟨v, w, lock, hw, hidles, hstate, hclock, hquiet⟩

end RemoteSettings.Store
