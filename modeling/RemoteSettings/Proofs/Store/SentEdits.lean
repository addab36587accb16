import RemoteSettings.Proofs.Store.Progress
import RemoteSettings.Proofs.Store.SavedEdits

/-!
# Edits are sent once

A task that begins to save edits takes them as they are then, and works on that one save until it
ends.  It may have to wait for its lock, and meanwhile anything may happen: settings are edited and
read, other tasks go on, and the task itself may be cancelled.  But the only request that it ever
sends is that of its save, and it does not end without having sent it unless it is cancelled.

## Main definitions

* `Saving` — how far a task has come with a save, and what it has done with it.
* `Store.requestsOf` — the requests that a task has sent.
* `Store.Pursues` — a task is at a save.
* `Store.SendsOnce` — a task sends one request, whatever happens.
* `Store.DoesNothing` — a task has answered, and nothing else has happened.

## Main results

* `Store.Carries.turn`, `Store.Pursues.move` — a turn and any other move leave a task at its save.
* `Store.AtSave.sendsOnce` — **a task that is at a save sends its request once.**
* `edits_are_sent_once` — to save edits is to send them, as they are, once.
-/

namespace RemoteSettings

/-! ### A save and its task -/

/-- How far a task has come with a save, and what it has done with it.  It may have ended early if
it has been cancelled. -/
inductive Saving (n : Nat) (op : Remote) (cancelled : Prop) : Phase → List Deed → Prop
  | waiting (ticket : Nat) (goal : Goal) : Saving n op cancelled (.locking ticket op goal) []
  | sent (number : Nat) (lock : Option Lock) (goal : Goal) :
    Saving n op cancelled (.requesting number op lock goal) [.sent n op]
  | answered (reply : Reply) : Saving n op cancelled .done [.sent n op, .committed n op reply]
  | withdrawn : cancelled → Saving n op cancelled .done []
  | dropped : cancelled → Saving n op cancelled .done [.sent n op, .dropped n op]

namespace Saving

variable {n : Nat} {op : Remote} {cancelled : Prop} {phase : Phase} {deeds : List Deed}

theorem mono {cancelled' : Prop} (h : Saving n op cancelled phase deeds)
    (hcancelled : cancelled → cancelled') : Saving n op cancelled' phase deeds := by
  cases h with
  | waiting ticket goal => exact .waiting ticket goal
  | sent number lock goal => exact .sent number lock goal
  | answered reply => exact .answered reply
  | withdrawn hc => exact .withdrawn (hcancelled hc)
  | dropped hc => exact .dropped (hcancelled hc)

theorem task_eq (h : Saving n op cancelled phase deeds) : ∀ d ∈ deeds, d.task = n := by
  cases h <;> simp [Deed.task]

/-- At most one request has been sent, and it is that of the save. -/
theorem requests (h : Saving n op cancelled phase deeds) (e : Endpoints) :
    deeds.filterMap (Deed.request? e) = [] ∨
      deeds.filterMap (Deed.request? e) = [op.request e] := by
  cases h with
  | waiting ticket goal => exact Or.inl rfl
  | withdrawn hc => exact Or.inl rfl
  | _ => exact Or.inr rfl

/-- Who has ended without having been cancelled has sent the request. -/
theorem requests_of_done (h : Saving n op cancelled .done deeds) (hc : ¬cancelled) (e : Endpoints) :
    deeds.filterMap (Deed.request? e) = [op.request e] := by
  cases h with
  | answered reply => rfl
  | withdrawn hcancelled => exact absurd hcancelled hc
  | dropped hcancelled => exact absurd hcancelled hc

end Saving

namespace Store

/-- From one store to another, a task goes on with a save with which it has done some deeds. -/
def Carries (n : Nat) (op : Remote) (cancelled : Prop) (deeds : List Deed) (s u : Store) : Prop :=
  ∃ more done phase, u.ledger = (s.ledger.add more done).put n phase ∧
    Saving n op cancelled phase (deeds ++ done)

namespace Carries

variable {n : Nat} {op : Remote} {cancelled : Prop} {deeds : List Deed} {s u v : Store}

/-- What comes before is seen as well. -/
theorem head {more : List Act} {done : List Deed} (hledger : u.ledger = s.ledger.add more done)
    (h : Carries n op cancelled (deeds ++ done) u v) : Carries n op cancelled deeds s v := by
  obtain ⟨more', done', phase, hv, hsaving⟩ := h
  refine ⟨more ++ more', done ++ done', phase, ?_, ?_⟩
  · rw [hv, hledger, Ledger.add_add]
  · rwa [← List.append_assoc]

theorem stay {phase : Phase} (hphase : s.ledger.phases[n]? = some phase)
    (h : Saving n op cancelled phase deeds) : Carries n op cancelled deeds s s := by
  refine ⟨[], [], phase, ?_, by rwa [List.append_nil]⟩
  rw [Ledger.add_nil, Ledger.put_self hphase]

/-! ### The parts of a turn -/

theorem complete (s : Store) (n : Nat) (op : Remote) (lock : Option Lock) (goal : Goal)
    (reply : Reply) :
    Carries n op cancelled [.sent n op] s (s.complete n op lock goal reply) := by
  obtain ⟨last, -, hledger⟩ := ledger_complete s n op lock goal reply
  exact ⟨_, [.committed n op reply], .done, hledger, .answered reply⟩

theorem send (tr : Transport) (s : Store) (n : Nat) (op : Remote) (lock : Option Lock)
    (goal : Goal) : Carries n op cancelled [] s (s.send tr n op lock goal) := by
  unfold Store.send
  split
  · next reply _ => exact head (ledger_sendOff s n op) (complete _ n op lock goal reply)
  · refine ⟨[.happened (.requested s.requests.length (op.request s.endpoints))], [.sent n op],
      .requesting s.requests.length op lock goal, ?_, .sent ..⟩
    rw [ledger_await, ledger_sendOff]

theorem locked (tr : Transport) (s : Store) (n : Nat) (op : Remote) (lock : Lock) (goal : Goal) :
    Carries n op cancelled [] s (s.locked tr n op lock goal) := by
  have hledger : ((s.note (.acquired lock)).setFlag op true).ledger
      = s.ledger.add ([.happened (.acquired lock)] ++ op.flagging true) [] := by simp
  exact head hledger (send tr _ n op (some lock) goal)

theorem startRemote (tr : Transport) (s : Store) (n : Nat) (op : Remote) (goal : Goal) :
    Carries n op cancelled [] s (s.startRemote tr n op goal) := by
  unfold Store.startRemote
  split
  · exact send tr s n op none goal
  · next scope mode _ =>
    split
    · next lock locks _ =>
      exact head (ledger_ask { s with locks } scope mode) (locked tr _ n op lock goal)
    · next ticket locks _ =>
      refine ⟨[.asked s.name scope mode], [], .locking ticket op goal, ?_, .waiting ticket goal⟩
      rw [ledger_setPhase, ledger_ask]
      rfl

/-- A task that is dropped ends early. -/
theorem drop {phase : Phase} (hc : cancelled) (h : Saving n op cancelled phase deeds) :
    Carries n op cancelled deeds s (s.drop n phase) := by
  refine ⟨phase.parting, phase.leaving n, .done, ledger_drop s n phase, ?_⟩
  cases h with
  | waiting ticket goal => exact .withdrawn hc
  | sent number lock goal => exact .dropped hc
  | answered reply => exact .answered reply
  | withdrawn => exact .withdrawn hc
  | dropped => exact .dropped hc

/-- **A turn leaves a task at its save.** -/
theorem turn (tr : Transport) {t : Task} (hn : s.tasks[n]? = some t)
    (hdoomed : t.doomed = true → cancelled) (h : Saving n op cancelled t.phase deeds) :
    Carries n op cancelled deeds s (s.turn tr n) := by
  have hphase : s.ledger.phases[n]? = some t.phase := by simp [ledger, hn]
  unfold Store.turn
  rw [hn]
  dsimp only
  split
  · next hd => exact drop (hdoomed hd) h
  · generalize t.phase = phase at h hphase
    cases h with
    | waiting ticket goal =>
      dsimp only
      split
      · next lock locks _ => exact locked tr { s with locks } n op lock goal
      · exact stay hphase (.waiting ticket goal)
    | sent number lock goal =>
      dsimp only
      split
      · next reply _ =>
        exact complete { s with replies := s.replies.erase number } n op lock goal reply
      · exact stay hphase (.sent number lock goal)
    | answered reply => exact stay hphase (.answered reply)
    | withdrawn hc => exact stay hphase (.withdrawn hc)
    | dropped hc => exact stay hphase (.dropped hc)

end Carries

/-! ### A task at its save -/

variable {s : Store} {n : Nat} {op : Remote}

/-- A task is at a save, which it began when it had done nothing yet. -/
def Pursues (s : Store) (n : Nat) (op : Remote) : Prop :=
  ∃ t, s.tasks[n]? = some t ∧
    Saving n op (t.doomed = true) t.phase (s.deeds.filter (·.task = n))

/-- A task that goes on with a save is at it when its turn ends. -/
theorem Pursues.of_carries {u : Store} {t : Task} (hn : s.tasks[n]? = some t)
    (hdoomed : u.tasks.map (·.doomed) = s.tasks.map (·.doomed))
    (h : Carries n op (t.doomed = true) (s.deeds.filter (·.task = n)) s u) : u.Pursues n op := by
  obtain ⟨more, done, phase, hledger, hsaving⟩ := h
  have hphases : u.tasks.map (·.phase) = (s.tasks.map (·.phase)).set n phase :=
    congrArg Ledger.phases hledger
  have hdeeds : u.deeds = s.deeds ++ done := congrArg Ledger.deeds hledger
  have hlt : n < s.tasks.length := (List.getElem?_eq_some_iff.mp hn).1
  have hphase : u.tasks[n]?.map (·.phase) = some phase := by
    rw [← List.getElem?_map, hphases, List.getElem?_set_self (by simpa using hlt)]
  obtain ⟨t', hn', rfl⟩ := Option.map_eq_some_iff.mp hphase
  have hsame : t'.doomed = t.doomed := by
    have hat := congrArg (·[n]?) hdoomed
    simpa [hn, hn'] using hat
  have hown : done.filter (·.task = n) = done := by
    refine List.filter_eq_self.mpr fun d hd => decide_eq_true ?_
    exact hsaving.task_eq d (List.mem_append_right _ hd)
  refine ⟨t', hn', ?_⟩
  rw [hdeeds, List.filter_append, hown, hsame]
  exact hsaving

/-- What a task does in its turn are deeds of its own. -/
theorem exists_deeds_turn {name : String} {e : Endpoints} {story : List (Option Nat × Act)}
    (h : Transcribed name e story s) (tr : Transport) (k : Nat) :
    ∃ done : List Deed, (s.move (.turn tr k)).deeds = s.deeds ++ done ∧ ∀ d ∈ done, d.task = k := by
  cases hk : s.tasks[k]? with
  | none =>
    refine ⟨[], ?_, by simp⟩
    rw [move, Store.turn]
    dsimp only
    rw [hk, List.append_nil]
  | some t =>
    have htranscript := h.transcript k
    rw [Ledger.phase, show s.ledger.phases[k]? = some t.phase by simp [ledger, hk],
      Option.getD_some, ← h.name_eq, ← h.endpoints_eq] at htranscript
    obtain ⟨more, done, phase, hledger, hdone⟩ :=
      Continues.turn (s := s.aside k) tr hk htranscript
    refine ⟨done, congrArg Ledger.deeds hledger, fun d hd => ?_⟩
    exact hdone.task_eq d (List.mem_append_right _ hd)

/-- A move that is no turn leaves each task where it is, and at most it is cancelled. -/
theorem exists_task_move {m : StoreMove} (hm : m.task? = none) {t : Task}
    (hn : s.tasks[n]? = some t) :
    ∃ t', (s.move m).tasks[n]? = some t' ∧ t'.phase = t.phase ∧
      (t'.doomed = t.doomed ∨ m = .cancel n ∧ t'.doomed = true) := by
  have hsame : ∀ {u : Store}, u.tasks[n]? = s.tasks[n]? → ∃ t', u.tasks[n]? = some t' ∧
      t'.phase = t.phase ∧ (t'.doomed = t.doomed ∨ m = .cancel n ∧ t'.doomed = true) :=
    fun hu => ⟨t, hu.trans hn, rfl, Or.inl rfl⟩
  have hlt : n < s.tasks.length := (List.getElem?_eq_some_iff.mp hn).1
  have hspawn : ∀ (u : Store) call quiet, u.tasks = s.tasks →
      (u.spawn call quiet).2.tasks[n]? = s.tasks[n]? := by
    intro u call quiet hu
    rw [spawn, wake_eq]
    show (u.tasks ++ [_])[n]? = _
    rw [List.getElem?_append_left (hu ▸ hlt), hu]
  cases m with
  | spawn call quiet => exact hsame (hspawn s call quiet rfl)
  | turn tr k => cases hm
  | respond number reply =>
    refine hsame ?_
    rw [move, respond]
    split
    · rw [wake_eq]
    · rfl
  | cancel k =>
    rw [move, cancel]
    split
    · split
      · exact hsame rfl
      · rw [wake_eq]
        show ∃ t', (s.tasks.modify k _)[n]? = some t' ∧ _
        rw [List.getElem?_modify, hn]
        by_cases hk : k = n
        · subst hk
          exact ⟨{ t with doomed := true }, by simp, rfl, Or.inr ⟨rfl, rfl⟩⟩
        · exact ⟨t, by simp [hk], rfl, Or.inl rfl⟩
    · exact hsame rfl
  | trigger canSpawn key =>
    refine hsame ?_
    rw [move, trigger]
    split
    · rfl
    · exact hspawn _ _ true (Watch.mk.inj (watch_cellOf s key)).1
  | dispatch a => exact hsame (congrArg (·[n]?) (Watch.mk.inj (watch_dispatch s a)).1)
  | _ => exact hsame rfl

/-- **Every move leaves a task at its save.** -/
theorem Pursues.move {name : String} {e : Endpoints} {story : List (Option Nat × Act)}
    (hwatchful : s.Watchful) (htranscribed : Transcribed name e story s) (h : s.Pursues n op)
    (m : StoreMove) : (s.move m).Pursues n op := by
  obtain ⟨t, hn, hsaving⟩ := h
  cases hm : m.task? with
  | none =>
    obtain ⟨t', hn', hphase, hdoomed⟩ := exists_task_move hm hn
    obtain ⟨calls, hledger⟩ := s.ledger_move hm
    refine ⟨t', hn', ?_⟩
    rw [show (s.move m).deeds = s.deeds from congrArg Ledger.deeds hledger, hphase]
    exact hsaving.mono fun hd => hdoomed.elim (fun hsame => hsame.trans hd) (·.2)
  | some k =>
    cases m with
    | turn tr k =>
      have hleaves := hwatchful.leavesOthers tr k
      by_cases hk : k = n
      · subst hk
        exact .of_carries (s := s.aside k) hn hleaves.doomed
          (Carries.turn (s := s.aside k) tr hn id hsaving)
      · obtain ⟨done, hdeeds, hown⟩ := exists_deeds_turn htranscribed tr k
        have hnone : done.filter (·.task = n) = [] :=
          List.filter_eq_nil_iff.mpr fun d hd heq =>
            hk ((hown d hd).symm.trans (of_decide_eq_true heq))
        refine ⟨t, (hleaves.tasks n (Ne.symm hk)).trans hn, ?_⟩
        rw [hdeeds, List.filter_append, hnone, List.append_nil]
        exact hsaving
    | _ => cases hm

/-- A task that begins a save is at it when its first turn ends. -/
theorem pursues_of_begin {name : String} {e : Endpoints} {story : List (Option Nat × Act)}
    (hwatchful : s.Watchful) (htranscribed : Transcribed name e story s) {t : Task} {call : Call}
    (hn : s.tasks[n]? = some t) (hdoomed : t.doomed = false) (hphase : t.phase = .ready call)
    (hsave : s.saveOf? call = some op) (tr : Transport) :
    (s.move (.turn tr n)).Pursues n op := by
  have hfirst : s.deeds.filter (·.task = n) = [] := by
    have htranscript := htranscribed.transcript n
    rw [Ledger.phase, show s.ledger.phases[n]? = some t.phase by simp [ledger, hn], hphase,
      Option.getD_some] at htranscript
    generalize s.deeds.filter (·.task = n) = deeds at htranscript
    generalize actsOf n story = acts at htranscript
    cases htranscript
    rfl
  obtain ⟨v, hbegin, hglances⟩ := exists_begin_of_saveOf? (s := s.aside n) hsave tr n
  have hledger : v.ledger = (s.aside n).ledger.add [] [] := by
    rw [Ledger.add_nil]
    cases hglances with
    | none => rfl
    | ids group => exact ledger_readEditedIds _ group
  have hturn : s.move (.turn tr n) = v.startRemote tr n op .save := by
    rw [← hbegin]
    exact turn_ready (s := s.aside n) hn hdoomed hphase
  refine .of_carries (s := s.aside n) hn (hwatchful.leavesOthers tr n).doomed ?_
  rw [hturn, show (s.aside n).deeds = s.deeds from rfl, hfirst]
  exact .head hledger (.startRemote tr v n op .save)

/-! ### Runs -/

/-- The requests that a task has sent. -/
def requestsOf (s : Store) (n : Nat) : List Request :=
  (s.deeds.filter (·.task = n)).filterMap (Deed.request? s.endpoints)

/-- What is known of a task at a save in a run. -/
structure AtSave (e : Endpoints) (n : Nat) (op : Remote) (s : Store) : Prop where
  watchful : s.Watchful
  transcribed : ∃ name story, Transcribed name e story s
  pursues : s.Pursues n op

theorem AtSave.move {e : Endpoints} (s : Store) (m : StoreMove) (h : AtSave e n op s) :
    AtSave e n op (s.move m) where
  watchful := h.watchful.move m
  transcribed := by
    obtain ⟨name, story, hstory⟩ := h.transcribed
    exact ⟨name, _, hstory.manage (none, m)⟩
  pursues := by
    obtain ⟨name, story, hstory⟩ := h.transcribed
    exact h.pursues.move h.watchful hstory m

/-- So far a task has sent one request or none, and if it has ended it has sent the one, unless it
has been cancelled. -/
theorem AtSave.requestsOf {e : Endpoints} (h : AtSave e n op s) {t : Task}
    (hn : s.tasks[n]? = some t) :
    (s.requestsOf n = [] ∨ s.requestsOf n = [op.request e]) ∧
      (t.phase = .done → t.doomed = false → s.requestsOf n = [op.request e]) := by
  obtain ⟨name, story, hstory⟩ := h.transcribed
  obtain ⟨t', hn', hsaving⟩ := h.pursues
  obtain rfl : t' = t := Option.some.inj (hn'.symm.trans hn)
  rw [Store.requestsOf, hstory.endpoints_eq]
  refine ⟨hsaving.requests e, fun hdone hlive => ?_⟩
  rw [hdone] at hsaving
  exact hsaving.requests_of_done (by simp [hlive]) e

/-- A task that begins a save in a run is at it when its first turn ends. -/
theorem AtSave.of_begin {name : String} {e : Endpoints} {ms : List StoreMove}
    (hs : s = (Store.fresh name e).after ms) {t : Task} {call : Call} (hn : s.tasks[n]? = some t)
    (hdoomed : t.doomed = false) (hphase : t.phase = .ready call)
    (hsave : s.saveOf? call = some op) (tr : Transport) : AtSave e n op (s.move (.turn tr n)) := by
  have hwatchful : s.Watchful := hs ▸ .after name e ms
  have htranscribed : Transcribed name e _ s :=
    (hs ▸ Store.afterManaged_none _ ms) ▸
      Transcribed.afterManaged name e (ms.map fun m => (none, m))
  exact ⟨hwatchful.move _, ⟨name, _, htranscribed.manage (none, .turn tr n)⟩,
    pursues_of_begin hwatchful htranscribed hn hdoomed hphase hsave tr⟩

/-- A task that nobody cancels is not cancelled. -/
theorem exists_live_after (hs : s.Watchful) {t : Task} (hn : s.tasks[n]? = some t)
    (hlive : t.doomed = false) {ms : List StoreMove} (hms : .cancel n ∉ ms) :
    ∃ t', (s.after ms).tasks[n]? = some t' ∧ t'.doomed = false := by
  induction ms generalizing s t with
  | nil => exact ⟨t, hn, hlive⟩
  | cons m ms ih =>
    rw [List.mem_cons, not_or] at hms
    have hstep : ∃ t', (s.move m).tasks[n]? = some t' ∧ t'.doomed = false := by
      cases hm : m.task? with
      | none =>
        obtain ⟨t', hn', -, hsame | ⟨hcancel, -⟩⟩ := exists_task_move hm hn
        · exact ⟨t', hn', hsame.trans hlive⟩
        · exact absurd hcancel.symm hms.1
      | some k =>
        cases m with
        | turn tr k =>
          have hdoomed := congrArg (·[n]?) (hs.leavesOthers tr k).doomed
          rw [List.getElem?_map, List.getElem?_map, show (s.aside k).tasks[n]? = some t from hn]
            at hdoomed
          obtain ⟨t', hn', hsame⟩ := Option.map_eq_some_iff.mp hdoomed
          exact ⟨t', hn', hsame.trans hlive⟩
        | _ => cases hm
    obtain ⟨t', hn', hlive'⟩ := hstep
    exact ih (hs.move m) hn' hlive' hms.2

/-- What can happen without any caller cancels no task. -/
theorem Goes.cancel_not_mem {ms : List StoreMove} (h : s.Goes ms) : .cancel n ∉ ms := by
  induction h with
  | nil s => exact List.not_mem_nil
  | cons enabled _ ih =>
    refine List.not_mem_cons_of_ne_of_not_mem ?_ ih
    cases enabled <;> rintro ⟨⟩

/-- A task sends a request once, whatever happens.  At any time it has sent this request or none.
It has sent it if it has ended, unless it has been cancelled; and unless somebody cancels it, it
can go on without any caller until it has sent it. -/
def SendsOnce (s : Store) (n : Nat) (r : Request) : Prop :=
  ∀ ms, ∃ t, (s.after ms).tasks[n]? = some t ∧
    ((s.after ms).requestsOf n = [] ∨ (s.after ms).requestsOf n = [r]) ∧
    (t.phase = .done → t.doomed = false → (s.after ms).requestsOf n = [r]) ∧
    (.cancel n ∉ ms → t.doomed = false ∧
      ∃ more, (s.after ms).Goes more ∧ ((s.after ms).after more).requestsOf n = [r])

/-- **A task that is at a save sends its request once.** -/
theorem AtSave.sendsOnce {e : Endpoints} (h : AtSave e n op s) {t : Task}
    (hn : s.tasks[n]? = some t) (hlive : t.doomed = false) : s.SendsOnce n (op.request e) := by
  intro ms
  have hthere : AtSave e n op (s.after ms) := after_induction AtSave.move h ms
  obtain ⟨t', hn', -⟩ := hthere.pursues
  obtain ⟨honce, hended⟩ := hthere.requestsOf hn'
  refine ⟨t', hn', honce, hended, fun hms => ?_⟩
  obtain ⟨t'', hn'', hlive'⟩ := exists_live_after h.watchful hn hlive hms
  obtain rfl : t'' = t' := Option.some.inj (hn''.symm.trans hn')
  obtain ⟨more, hgoes, hdone⟩ := hthere.watchful.exists_goes
  obtain ⟨u, hu, huLive⟩ := exists_live_after hthere.watchful hn' hlive' hgoes.cancel_not_mem
  have hend : AtSave e n op ((s.after ms).after more) := after_induction AtSave.move hthere more
  exact ⟨hlive', more, hgoes, (hend.requestsOf hu).2 (hdone u (List.mem_of_getElem? hu)) huLive⟩

/-- A task that begins a save in a run sends its request once. -/
theorem sendsOnce_of_begin {name : String} {e : Endpoints} {ms : List StoreMove}
    (hs : s = (Store.fresh name e).after ms) {t : Task} {call : Call} (hn : s.tasks[n]? = some t)
    (hdoomed : t.doomed = false) (hphase : t.phase = .ready call)
    (hsave : s.saveOf? call = some op) (tr : Transport) :
    (s.move (.turn tr n)).SendsOnce n (op.request e) := by
  have hthere : AtSave e n op (s.move (.turn tr n)) := .of_begin hs hn hdoomed hphase hsave tr
  have huncancelled : .cancel n ∉ [StoreMove.turn tr n] := by simp
  obtain ⟨t', hn', hlive⟩ :=
    exists_live_after (hs ▸ .after name e ms) hn hdoomed huncancelled
  exact hthere.sendsOnce hn' hlive

/-! ### What is sent -/

theorem Tracked.submission_ne_nil (hs : s.Tracked) {g : String} (h : s.state.hasEdits g = true) :
    s.submission g ≠ [] := by
  intro hnil
  rw [hs.submission_eq] at hnil
  rw [State.hasEdits_eq, List.map_eq_nil_iff.mp hnil] at h
  cases h

/-- Each edit of a group is submitted once. -/
theorem Tracked.nodup_submission (hs : s.Tracked) (g : String) :
    ((s.submission g).map (·.id)).Nodup := by
  have hkeys : (s.submission g).map (·.id) = (State.part s.state.edits g).keys := by
    rw [hs.submission_eq]
    exact List.map_map
  rw [hkeys]
  exact hs.regular.kept.edits.distinct g

/-! ### Nothing to send -/

/-- From one store to another, a task has answered, and nothing else has happened: no lock has been
asked for, nothing has been sent, and all is as it was but what is remembered of reads. -/
structure DoesNothing (s : Store) (n : Nat) (given : Answer) (s' : Store) : Prop
    extends s.OnlyAnswers n given s' where
  acts : ∀ t, s.tasks[n]? = some t →
    s'.acts = s.acts ++ if t.quiet then [] else [.happened (.done n (.ok given))]
  tasks : s'.tasks = s.tasks.modify n fun t => { t with phase := .done }
  changes : s'.changes = s.changes
  locks : s'.locks = s.locks
  deeds : s'.deeds = s.deeds
  awaited : s'.awaited = s.awaited
  replies : s'.replies = s.replies
  resolutions : s'.resolutions = s.resolutions
  cells : s'.cells = s.cells
  attempts : s'.attempts = s.attempts

/-- A task that answers once it has read the ids of edits does nothing else. -/
theorem doesNothing_of_begin {t : Task} {call : Call} {answer : Answer} {tr : Transport}
    {g : String} (hn : s.tasks[n]? = some t) (hdoomed : t.doomed = false)
    (hphase : t.phase = .ready call)
    (hbegin : (s.aside n).begin tr n call
      = ((s.aside n).readEditedIds g).2.finish n (.ok answer)) :
    s.DoesNothing n answer (s.move (.turn tr n)) := by
  have honly := onlyAnswers_of_begin hn hdoomed hphase (idles_readEditedIds (s.aside n) g) hbegin
  have hturn : s.move (.turn tr n) = ((s.aside n).readEditedIds g).2.finish n (.ok answer) := by
    rw [← hbegin]
    exact turn_ready (s := s.aside n) hn hdoomed hphase
  refine ⟨honly, fun t' ht' => ?_, ?_, ?_, ?_, ?_, ?_, ?_, ?_, ?_, ?_⟩
  · obtain rfl : t' = t := Option.some.inj (ht'.symm.trans hn)
    have hquiet : (((s.aside n).readEditedIds g).2.tasks[n]?.map (·.quiet)).getD true
        = t'.quiet := by
      rw [show ((s.aside n).readEditedIds g).2.tasks = s.tasks from rfl, hn]
      rfl
    rw [hturn, finish, hquiet]
    cases t'.quiet with
    | true => exact (List.append_nil _).symm
    | false => rfl
  all_goals
    rw [hturn, finish_eq]
    rfl

end Store

/-- **To save edits is to send them, as they are, once.**  After any run, whatever has been edited,
saved, taken back and read in it, let a task begin to save what is edited.

* If the edits of a group are to be saved and there are none, it answers with no settings and does
  nothing else.  If there are some, it sends one request, whatever happens then: all edits that
  there are now, each once, in their order and with its value, are posted to the batch endpoint of
  the group.
* If the edit of a setting is to be saved and there is none, it answers with no setting and does
  nothing else.  If there is one, it sends one request, whatever happens then: the edit is put to
  the endpoint of the setting. -/
theorem edits_are_sent_once (name : String) (e : Endpoints) (ms : List StoreMove) :
    let s := (Store.fresh name e).after ms
    s.requests = s.deeds.filterMap (Deed.request? e) ∧
    (∀ n t tr g, s.tasks[n]? = some t → t.doomed = false →
      t.phase = .ready (.saveEditedSettings g) → s.state.hasEdits g = false →
        s.DoesNothing n (.saved []) (s.move (.turn tr n))) ∧
    (∀ n t tr g, s.tasks[n]? = some t → t.doomed = false →
      t.phase = .ready (.saveEditedSettings g) → s.state.hasEdits g = true →
        let us := (State.part s.state.edits g).map fun x => (⟨x.1, x.2⟩ : Update)
        us ≠ [] ∧ (us.map (·.id)).Nodup ∧
          (∀ u, u ∈ us ↔ s.state.edit? g u.id = some u.value) ∧
          (s.move (.turn tr n)).SendsOnce n
            (.post (e.batch g) (.object [("update", .array (us.map Update.toJson))]))) ∧
    (∀ n t tr g id, s.tasks[n]? = some t → t.doomed = false →
      t.phase = .ready (.saveEditedSetting g id) → s.state.edit? g id = none →
        s.DoesNothing n (.setting none) (s.move (.turn tr n))) ∧
    ∀ n t tr g id value, s.tasks[n]? = some t → t.doomed = false →
      t.phase = .ready (.saveEditedSetting g id) → s.state.edit? g id = some value →
        (s.move (.turn tr n)).SendsOnce n
          (.put (e.setting g id) (.object [("value", value.toJson)])) := by
  intro s
  have htracked : s.Tracked := Store.tracked_after name e ms
  have hrequests : s.requests = s.deeds.filterMap (Deed.request? s.endpoints) :=
    (Board.custody_and_chronicle name e ms).2.requests
  have hendpoints : s.endpoints = e := by
    have htranscribed := Transcribed.afterManaged name e (ms.map fun m => (none, m))
    rw [Store.afterManaged_none] at htranscribed
    exact htranscribed.endpoints_eq
  rw [hendpoints] at hrequests
  refine ⟨hrequests, ?_, ?_, ?_, ?_⟩
  · intro n t tr g hn hdoomed hphase hedits
    have hnone : s.saveOf? (.saveEditedSettings g) = none := by
      rw [htracked.saveOf?_saveEditedSettings, hedits]
      rfl
    exact Store.doesNothing_of_begin hn hdoomed hphase
      (Store.begin_of_no_edits (s := s.aside n) hnone)
  · intro n t tr g hn hdoomed hphase hedits us
    have hus : s.submission g = us := htracked.submission_eq g
    have hsave : s.saveOf? (.saveEditedSettings g) = some (.saveBatch g us) := by
      rw [htracked.saveOf?_saveEditedSettings, if_pos hedits, hus]
    exact ⟨hus ▸ htracked.submission_ne_nil hedits, hus ▸ htracked.nodup_submission g,
      hus ▸ htracked.mem_submission g, Store.sendsOnce_of_begin rfl hn hdoomed hphase hsave tr⟩
  · intro n t tr g id hn hdoomed hphase hedit
    have hnone : s.saveOf? (.saveEditedSetting g id) = none := by
      rw [htracked.saveOf?_saveEditedSetting, hedit, Option.map_none]
    exact Store.doesNothing_of_begin hn hdoomed hphase
      (Store.begin_of_no_edit (s := s.aside n) hnone)
  · intro n t tr g id value hn hdoomed hphase hedit
    have hsave : s.saveOf? (.saveEditedSetting g id) = some (.saveSetting g id value) := by
      rw [htracked.saveOf?_saveEditedSetting, hedit, Option.map_some]
    exact Store.sendsOnce_of_begin rfl hn hdoomed hphase hsave tr

/-- Two settings are edited, one of them again after the ids of the edits have been read, and the
edit of a third is taken back.  A save of another setting waits for its reply; then the edits of the
group, those of another group, the edit that was taken back and one of the others are to be
saved. -/
def oneTakenBack : List StoreMove :=
  [.dispatch (.edit "g" "b" (.text "x")), .readEditedIds "g",
    .dispatch (.edit "g" "a" (.bool true)), .dispatch (.edit "g" "b" (.text "y")),
    .dispatch (.edit "g" "c" (.text "z")), .dispatch (.revert "g" "c"),
    .spawn (.saveSetting "g" "d" (.bool false)) false, .turn .later 0,
    .spawn (.saveEditedSettings "g") false, .spawn (.saveEditedSettings "h") false,
    .spawn (.saveEditedSetting "g" "c") false, .spawn (.saveEditedSetting "g" "a") false]

/-- While the batch waits for its lock, one more setting is edited; then the save comes to its end,
and after it the batch. -/
def overtaken : List StoreMove :=
  [.dispatch (.edit "g" "e" (.text "late")), .respond 0 (.error (.transport "refused")),
    .turn .later 0, .turn .later 1, .respond 1 (.error (.transport "refused")), .turn .later 1]

/-- The batch has been sent once, with the two edits that there were when it began, in the order in
which they were begun; nothing is done for the others but for the edit that there is. -/
theorem overtaken_batch_is_sent_once :
    let s := (Store.fresh "s" ⟨"", "/groups"⟩).after oneTakenBack
    let batch : Request := .post "/settings/g/batch" (.object [("update", .array
      [.object [("id", .string "b"), ("value", .string "y")],
        .object [("id", .string "a"), ("value", .bool true)]])])
    let put : Request := .put "/settings/g/a" (.object [("value", .bool true)])
    ((s.move (.turn .later 1)).after (overtaken.take 1)).requestsOf 1 = [] ∧
      ((s.move (.turn .later 1)).after overtaken).requestsOf 1 = [batch] ∧
      s.DoesNothing 2 (.saved []) (s.move (.turn .later 2)) ∧
      s.DoesNothing 3 (.setting none) (s.move (.turn .later 3)) ∧
      (s.move (.turn .later 4)).SendsOnce 4 put := by
  intro s batch put
  obtain ⟨-, hnoEdits, hedits, hnoEdit, hedit⟩ :=
    edits_are_sent_once "s" ⟨"", "/groups"⟩ oneTakenBack
  obtain ⟨-, -, -, hbatch⟩ := hedits 1 _ .later "g" rfl rfl rfl rfl
  obtain ⟨t, ht, -, hended, hlive⟩ := hbatch overtaken
  refine ⟨rfl, hended ?_ (hlive (by simp [overtaken])).1, hnoEdits 2 _ .later "h" rfl rfl rfl rfl,
    hnoEdit 3 _ .later "g" "c" rfl rfl rfl rfl,
    hedit 4 _ .later "g" "a" (.bool true) rfl rfl rfl rfl⟩
  cases ht
  rfl

end RemoteSettings
