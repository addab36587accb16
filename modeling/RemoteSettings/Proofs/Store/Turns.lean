import RemoteSettings.Proofs.Store.Alone
import RemoteSettings.Proofs.Store.Ledger
import RemoteSettings.Proofs.Store.Resolution
import RemoteSettings.Proofs.Store.Tickets

/-!
# What a turn does to its task and to the others

A turn leaves the other tasks where they are, with what they wait for: their tickets and their
requests.  If it sends a lock to one of them, it wakes that task.  And it leaves its own task
nearer to the end, unless the task has been woken for nothing: it has ended, or it has something
new to wait for, which has not come yet.

## Main definitions

* `Phase.number?`, `Phase.left` — the reply that a task waits for; how far it is from the end.
* `Store.ticketOf?`, `Store.numberOf?`, `Store.left` — the same, by number of the task.
* `Store.Watch`, `Store.watch` — what a store shows of those who wait.
* `Store.LeavesOthers` — all tasks but one are left alone.
* `Store.AtWork`, `Store.Rests` — a task is amid its turn, or at the end of it.
* `Store.aside` — the store once a task has left the line for its turn.

## Main results

* `AtWork.begin`, `AtWork.join`, `AtWork.send`, `AtWork.complete` — how parts of a turn end.
* `rests_of_doomed`, `rests_of_ready`, `rests_of_joining`, `rests_of_arrives`, `rests_of_served`,
  `rests_of_answered` — **how a turn ends**, by how far its task has come.
-/

namespace RemoteSettings

/-- The number of the request with which a task in a phase waits for the reply. -/
def Phase.number? : Phase → Option Nat
  | requesting number _ _ _ => some number
  | _ => none

/-- How far a task in a phase is from the end. -/
def Phase.left : Phase → Nat
  | ready _ => 4
  | joining _ _ => 3
  | locking _ _ _ => 2
  | requesting _ _ _ _ => 1
  | done => 0

theorem Phase.left_eq_zero {phase : Phase} : phase.left = 0 ↔ phase = .done := by
  cases phase <;> simp [Phase.left]

namespace Store

variable {s t u : Store} {n m k : Nat} {op : Remote} {lock : Option Lock} {goal : Goal}
  {reply : Reply} {tr : Transport}

/-- The ticket with which a task waits for a lock. -/
def ticketOf? (s : Store) (n : Nat) : Option Nat := s.tasks[n]?.bind (·.phase.ticket?)

/-- The number of the request with which a task waits for the reply. -/
def numberOf? (s : Store) (n : Nat) : Option Nat := s.tasks[n]?.bind (·.phase.number?)

/-- How far a task is from the end. -/
def left (s : Store) (n : Nat) : Nat := (s.tasks[n]?.map (·.phase.left)).getD 0

theorem ticketOf?_of_task {task : Task} (h : s.tasks[n]? = some task) :
    s.ticketOf? n = task.phase.ticket? := by rw [ticketOf?, h]; rfl

theorem numberOf?_of_task {task : Task} (h : s.tasks[n]? = some task) :
    s.numberOf? n = task.phase.number? := by rw [numberOf?, h]; rfl

theorem left_of_task {task : Task} (h : s.tasks[n]? = some task) :
    s.left n = task.phase.left := by rw [left, h]; rfl

theorem exists_locking (h : s.ticketOf? n = some k) :
    ∃ task op goal, s.tasks[n]? = some task ∧ task.phase = .locking k op goal := by
  obtain ⟨task, htask, hticket⟩ := Option.bind_eq_some_iff.mp h
  cases hphase : task.phase with
  | locking k' op goal =>
    rw [hphase] at hticket
    cases hticket
    exact ⟨task, op, goal, htask, hphase⟩
  | _ =>
    rw [hphase] at hticket
    cases hticket

theorem exists_requesting {number : Nat} (h : s.numberOf? n = some number) :
    ∃ task op lock goal, s.tasks[n]? = some task ∧
      task.phase = .requesting number op lock goal := by
  obtain ⟨task, htask, hnumber⟩ := Option.bind_eq_some_iff.mp h
  cases hphase : task.phase with
  | requesting number' op lock goal =>
    rw [hphase] at hnumber
    cases hnumber
    exact ⟨task, op, lock, goal, htask, hphase⟩
  | _ =>
    rw [hphase] at hnumber
    cases hnumber

/-- No ticket is in two hands. -/
theorem ticket_unique (h : s.board.Ticketed) (hn : s.ticketOf? n = some k)
    (hm : s.ticketOf? m = some k) : n = m := by
  have hstage : ∀ {i : Nat}, s.ticketOf? i = some k →
      ∃ st : Stage, s.board.stages[i]? = some st ∧ st.ticket? = some k := by
    intro i hi
    obtain ⟨task, htask, hticket⟩ := Option.bind_eq_some_iff.mp hi
    refine ⟨task.phase.stage, by simp [board, htask], ?_⟩
    rw [Phase.ticket?_stage, hticket]
  obtain ⟨st, hst, hk⟩ := hstage hn
  obtain ⟨st', hst', hk'⟩ := hstage hm
  exact h.unique hst hst' hk hk'

/-- What others wait with is not the ticket of a task. -/
theorem ticketOf?_ne (h : s.board.Ticketed) (hne : m ≠ n) (hm : s.ticketOf? m = some k) :
    s.ticketOf? n ≠ some k := fun hn => hne (ticket_unique h hm hn)

theorem holdsTicket_iff {task : Task} :
    holdsTicket k task = true ↔ task.phase.ticket? = some k := by
  rw [holdsTicket]
  cases task.phase <;> simp [Phase.ticket?]

/-! ### What a store shows of those who wait -/

/-- What a store shows of those who wait, and of what they wait for. -/
structure Watch where
  tasks : List Task
  line : List Nat
  locks : LockTable
  requests : List Request
  awaited : Keyed Nat Nat
  replies : Keyed Nat Reply

/-- What a store shows of those who wait. -/
def watch (s : Store) : Watch := ⟨s.tasks, s.line, s.locks, s.requests, s.awaited, s.replies⟩

@[simp] theorem watch_note (s : Store) (what : Happening) : (s.note what).watch = s.watch := rfl

@[simp] theorem watch_did (s : Store) (d : Deed) : (s.did d).watch = s.watch := rfl

@[simp] theorem watch_tried (s : Store) (a : Attempt) : (s.tried a).watch = s.watch := rfl

@[simp] theorem watch_ask (s : Store) (scope : Scope) (mode : LockMode) :
    (s.ask scope mode).watch = s.watch := rfl

@[simp] theorem watch_modifyCell (s : Store) (c : Nat) (f : Cell → Cell) :
    (s.modifyCell c f).watch = s.watch := rfl

@[simp] theorem watch_dispatch (s : Store) (a : Action) : (s.dispatch a).watch = s.watch := by
  rw [dispatch_eq]
  rfl

@[simp] theorem watch_dispatchAll (s : Store) (as : List Action) :
    (s.dispatchAll as).watch = s.watch := by
  rw [dispatchAll_eq]
  rfl

@[simp] theorem watch_setFlag (s : Store) (op : Remote) (up : Bool) :
    (s.setFlag op up).watch = s.watch := by
  rw [setFlag_eq_dispatchAll, watch_dispatchAll]

@[simp] theorem watch_cellOf (s : Store) (key : ResolverKey) :
    (s.cellOf key).2.watch = s.watch := by
  rw [cellOf_eq]
  rfl

/-! ### A task amid its turn -/

/-- From one store to another, all tasks but one are left where they are, with what they wait for.
Some may have been woken, and those to which locks have been sent have. -/
structure LeavesOthers (n : Nat) (s u : Store) : Prop where
  tasks : ∀ m, m ≠ n → u.tasks[m]? = s.tasks[m]?
  doomed : u.tasks.map (·.doomed) = s.tasks.map (·.doomed)
  line : s.line ⊆ u.line
  requests : s.requests.length ≤ u.requests.length
  mail : ∀ number < s.requests.length, s.numberOf? n ≠ some number →
    u.awaited.get? number = s.awaited.get? number ∧ u.replies.get? number = s.replies.get? number
  nodup : s.awaited.keys.Nodup → u.awaited.keys.Nodup
  sent : ∀ m k l, m ≠ n → s.ticketOf? m = some k → u.locks.sent.get? k = some l →
    s.locks.sent.get? k = some l ∨ m ∈ u.line

/-- A task is amid its turn: it is where it was, or has said that it is done. -/
structure AtWork (n : Nat) (s u : Store) : Prop extends LeavesOthers n s u where
  own : u.ticketOf? n = s.ticketOf? n ∨ u.ticketOf? n = none

/-- A task is at the end of its turn, and no further from its own end than a given distance.  If it
waits for a lock or for a reply, this has not come. -/
structure Rests (n bound : Nat) (s u : Store) : Prop extends LeavesOthers n s u where
  left_le : u.left n ≤ bound
  unsent : ∀ k, u.ticketOf? n = some k → u.locks.sent.get? k = none
  asked : ∀ number, u.numberOf? n = some number → s.requests.length ≤ number ∧
    number < u.requests.length ∧ u.awaited.get? number = some n

theorem Rests.mono {bound bound' : Nat} (h : Rests n bound s u) (hle : bound ≤ bound') :
    Rests n bound' s u := { h with left_le := Nat.le_trans h.left_le hle }

theorem LeavesOthers.congr (h : LeavesOthers n s t) (hwatch : u.watch = t.watch) :
    LeavesOthers n s u := by
  obtain ⟨htasks, hline, hlocks, hrequests, hawaited, hreplies⟩ := Watch.mk.inj hwatch
  exact ⟨htasks ▸ h.tasks, htasks ▸ h.doomed, hline ▸ h.line, hrequests ▸ h.requests,
    hawaited ▸ hreplies ▸ h.mail, hawaited ▸ h.nodup, hlocks ▸ hline ▸ h.sent⟩

theorem ticketOf?_congr (h : u.tasks = t.tasks) (n : Nat) : u.ticketOf? n = t.ticketOf? n := by
  rw [ticketOf?, h, ticketOf?]

theorem Rests.congr {bound : Nat} (h : Rests n bound s t) (hwatch : u.watch = t.watch) :
    Rests n bound s u := by
  obtain ⟨htasks, -, hlocks, hrequests, hawaited, -⟩ := Watch.mk.inj hwatch
  refine ⟨h.toLeavesOthers.congr hwatch, ?_, ?_, ?_⟩
  · rw [left, htasks]
    exact h.left_le
  · rw [ticketOf?, htasks, hlocks]
    exact h.unsent
  · rw [numberOf?, htasks, hrequests, hawaited]
    exact h.asked

namespace AtWork

theorem refl (n : Nat) (s : Store) : AtWork n s s where
  tasks _ _ := rfl
  doomed := rfl
  line := List.Subset.refl _
  requests := Nat.le_refl _
  mail _ _ _ := ⟨rfl, rfl⟩
  nodup h := h
  sent _ _ _ _ _ h := Or.inl h
  own := Or.inl rfl

theorem congr (h : AtWork n s t) (hwatch : u.watch = t.watch) : AtWork n s u := by
  have htasks : u.tasks = t.tasks := (Watch.mk.inj hwatch).1
  refine ⟨h.toLeavesOthers.congr hwatch, ?_⟩
  rw [ticketOf?_congr htasks]
  exact h.own

/-- More tasks may be woken. -/
theorem moreLine (h : AtWork n s t) {line : List Nat} (hline : t.line ⊆ line) :
    AtWork n s { t with line } :=
  { h with
    line := fun _ hm => hline (h.line hm)
    sent := fun m k l hne hk hl => (h.sent m k l hne hk hl).imp_right fun hm => hline hm }

theorem wake (h : AtWork n s t) (m : Nat) : AtWork n s (t.wake m) := by
  rw [wake_eq]
  exact h.moreLine (grows_wake t m).line_subset

theorem wakeAll (h : AtWork n s t) (ms : List Nat) : AtWork n s (t.wakeAll ms) := by
  rw [wakeAll_eq]
  exact h.moreLine (grows_wakeAll t ms).1.line_subset

/-- The table of locks may change if no lock is sent to others. -/
theorem withLocks (h : AtWork n s t) (hs : s.board.Ticketed) (locks : LockTable)
    (hsent : ∀ k l, s.ticketOf? n ≠ some k → locks.sent.get? k = some l →
      t.locks.sent.get? k = some l) : AtWork n s { t with locks } :=
  { h with
    sent := fun m k l hne hk hl => h.sent m k l hne hk (hsent k l (ticketOf?_ne hs hne hk) hl) }

/-- Another task that waits with a ticket is the one that is found by it. -/
theorem findIdx?_eq (h : AtWork n s t) (hs : s.board.Ticketed) (hne : m ≠ n)
    (hk : s.ticketOf? m = some k) : t.tasks.findIdx? (holdsTicket k) = some m := by
  have hm : t.ticketOf? m = some k := by rw [ticketOf?, h.tasks m hne, ← ticketOf?, hk]
  obtain ⟨task, htask, hticket⟩ := Option.bind_eq_some_iff.mp hm
  obtain ⟨hlt, hget⟩ := List.getElem?_eq_some_iff.mp htask
  rw [List.findIdx?_eq_some_iff_getElem]
  refine ⟨hlt, by rw [hget]; exact holdsTicket_iff.mpr hticket, fun i hi hholds => ?_⟩
  -- Whoever else has the ticket is the same task, be it the one whose turn it is.
  have hi' : t.ticketOf? i = some k := by
    rw [ticketOf?_of_task (List.getElem?_eq_getElem (Nat.lt_trans hi hlt))]
    exact holdsTicket_iff.mp hholds
  have hsame : s.ticketOf? i = some k := by
    by_cases hin : i = n
    · subst hin
      rcases h.own with hown | hown
      · rw [← hown, hi']
      · cases hown.symm.trans hi'
    · rw [ticketOf?, ← h.tasks i hin, ← ticketOf?, hi']
  exact absurd (ticket_unique hs hsame hk) (Nat.ne_of_lt hi)

/-- Those to whom locks are sent are woken. -/
theorem serve (h : AtWork n s t) (hs : s.board.Ticketed) (result : LockTable × List Nat)
    (hsent : ∀ k l, s.ticketOf? n ≠ some k → result.1.sent.get? k = some l →
      t.locks.sent.get? k = some l ∨ k ∈ result.2) : AtWork n s (t.serve result) := by
  obtain ⟨hgrows, hwoken⟩ := grows_wakeAll { t with locks := result.1 }
    (result.2.filterMap fun ticket => t.tasks.findIdx? (holdsTicket ticket))
  rw [Store.serve, wakeAll_eq]
  refine { h with
    line := fun _ hm => hgrows.line_subset (h.line hm)
    sent := fun m k l hne hk hl => ?_ }
  rcases hsent k l (ticketOf?_ne hs hne hk) hl with hl | hserved
  · exact (h.sent m k l hne hk hl).imp_right fun hm => hgrows.line_subset hm
  · exact Or.inr (hwoken (List.mem_filterMap.mpr ⟨k, hserved, h.findIdx?_eq hs hne hk⟩))

theorem releaseLock (h : AtWork n s t) (hs : s.board.Ticketed) (l : Lock) :
    AtWork n s (t.releaseLock l) :=
  (h.congr (watch_note t (.released l))).serve hs _ fun _ _ _ hl => LockTable.sent_release hl

theorem commitReply (h : AtWork n s t) (hs : s.board.Ticketed) (op : Remote) (lock : Option Lock)
    (reply : Reply) : AtWork n s (t.commitReply n op lock reply) := by
  have hflag : AtWork n s (((t.dispatchAll (op.commit reply).1).did (.committed n op reply)).setFlag
      op false) := h.congr (by simp)
  cases lock with
  | none => exact hflag
  | some l => exact hflag.releaseLock hs l

theorem resolve (h : AtWork n s t) (c : Nat) (outcome : Except Failure Unit) :
    AtWork n s (t.resolve c outcome) := (h.congr (watch_modifyCell t c _)).wakeAll _

theorem passOn (h : AtWork n s t) (c : Nat) : AtWork n s (t.passOn c) := by
  unfold Store.passOn
  split
  · exact h.congr rfl
  · exact (h.congr (watch_modifyCell t c _)).wake _

theorem dropGoal (h : AtWork n s t) (goal : Goal) : AtWork n s (t.dropGoal n goal) := by
  cases goal with
  | resolve c wanted => exact (h.congr (watch_tried t (.dropped n c))).passOn c
  | save => exact h

theorem sendOff (h : AtWork n s t) (op : Remote) : AtWork n s (t.sendOff n op) :=
  { h with requests := Nat.le_trans h.requests (by simp [Store.sendOff, note, did]) }

/-- The mail of the task itself may be forgotten. -/
theorem forget (h : AtWork n s t) {number : Nat} (hnumber : s.numberOf? n = some number) :
    AtWork n s (t.forget number) where
  toLeavesOthers := { h with
    mail := by
      intro number' hlt hne
      have hother : number ≠ number' := by
        rintro rfl
        exact hne hnumber
      obtain ⟨hawaited, hreplies⟩ := h.mail number' hlt hne
      exact ⟨(Keyed.get?_erase_of_ne hother _).trans hawaited,
        (Keyed.get?_erase_of_ne hother _).trans hreplies⟩
    nodup := fun hs => Keyed.nodup_keys_erase (h.nodup hs) number }
  own := h.own

/-- The reply to the request of the task itself may be taken. -/
theorem takeReply (h : AtWork n s t) {number : Nat} (hnumber : s.numberOf? n = some number) :
    AtWork n s { t with replies := t.replies.erase number } where
  toLeavesOthers := { h with
    mail := by
      intro number' hlt hne
      have hother : number ≠ number' := by
        rintro rfl
        exact hne hnumber
      obtain ⟨hawaited, hreplies⟩ := h.mail number' hlt hne
      exact ⟨hawaited, (Keyed.get?_erase_of_ne hother _).trans hreplies⟩ }
  own := h.own

/-! ### How a turn ends -/

/-- A task says how far it has come. -/
theorem setPhase (h : AtWork n s t) (phase : Phase) : LeavesOthers n s (t.setPhase n phase) :=
  { h with
    tasks := fun m hne => (List.getElem?_modify_ne _ _ hne.symm).trans (h.tasks m hne)
    doomed := by
      rw [← h.doomed]
      refine List.ext_getElem? fun i => ?_
      show ((t.tasks.modify n fun task => { task with phase }).map _)[i]? = _
      rw [List.getElem?_map, List.getElem?_map, List.getElem?_modify]
      cases t.tasks[i]? with
      | none => rfl
      | some task => by_cases hi : n = i <;> simp [hi] }

end AtWork

/-- What is read off the phase of a task after it has said how far it has come. -/
theorem bind_setPhase {α : Type} (f : Phase → Option α) (t : Store) (n : Nat) (phase : Phase) :
    (t.setPhase n phase).tasks[n]?.bind (fun task => f task.phase)
      = t.tasks[n]?.bind fun _ => f phase := by
  show (t.tasks.modify n _)[n]?.bind _ = _
  rw [List.getElem?_modify_eq]
  cases t.tasks[n]? <;> rfl

theorem left_setPhase_le (t : Store) (n : Nat) (phase : Phase) :
    (t.setPhase n phase).left n ≤ phase.left := by
  have hleft : (t.setPhase n phase).tasks[n]?.map (·.phase.left)
      = t.tasks[n]?.map fun _ => phase.left := by
    show (t.tasks.modify n _)[n]?.map _ = _
    rw [List.getElem?_modify_eq]
    cases t.tasks[n]? <;> rfl
  rw [left, hleft]
  cases t.tasks[n]? with
  | none => exact Nat.zero_le _
  | some task => exact Nat.le_refl _

namespace AtWork

/-- A task rests if what it waits for has not come. -/
theorem rests (h : AtWork n s t) (phase : Phase)
    (hunsent : ∀ k, phase.ticket? = some k → t.locks.sent.get? k = none)
    (hasked : ∀ number, phase.number? = some number → s.requests.length ≤ number ∧
      number < t.requests.length ∧ t.awaited.get? number = some n) :
    Rests n phase.left s (t.setPhase n phase) where
  toLeavesOthers := h.setPhase phase
  left_le := left_setPhase_le t n phase
  unsent k hk := by
    rw [ticketOf?, bind_setPhase] at hk
    obtain ⟨-, -, hk⟩ := Option.bind_eq_some_iff.mp hk
    exact hunsent k hk
  asked number hnumber := by
    rw [numberOf?, bind_setPhase] at hnumber
    obtain ⟨-, -, hnumber⟩ := Option.bind_eq_some_iff.mp hnumber
    exact hasked number hnumber

theorem finish (h : AtWork n s t) (answer : Except Failure Answer) :
    Rests n 0 s (t.finish n answer) := by
  have hdone : Rests n 0 s (t.setPhase n .done) :=
    h.rests .done (by rintro k ⟨⟩) (by rintro number ⟨⟩)
  rw [Store.finish]
  split
  · exact hdone
  · exact hdone.congr (watch_note _ _)

theorem follow (h : AtWork n s t) (outcome : Except Failure Unit) (wanted : Followup) :
    Rests n 0 s (t.follow n outcome wanted) := by
  cases outcome with
  | error f => cases wanted <;> exact h.finish _
  | ok =>
    cases wanted with
    | settings group withEdits =>
      exact (h.congr (u := (t.readSettings group withEdits).2) rfl).finish _
    | setting group id withEdits =>
      exact (h.congr (u := (t.readSetting group id withEdits).2) rfl).finish _
    | edit group id value => exact (h.congr (watch_dispatch t _)).finish _
    | editAll group updates => exact (h.congr (watch_dispatch t _)).finish _
    | _ => exact h.finish _

theorem tell (h : AtWork n s t) (c : Nat) (outcome : Except Failure Unit) (wanted : Followup) :
    Rests n 0 s (t.tell n c outcome wanted) :=
  (h.congr (watch_tried t (.told n c outcome))).follow outcome wanted

theorem complete (h : AtWork n s t) (hs : s.board.Ticketed) (op : Remote) (lock : Option Lock)
    (goal : Goal) (reply : Reply) : Rests n 0 s (t.complete n op lock goal reply) := by
  have hcommitted := h.commitReply hs op lock reply
  cases goal with
  | resolve c wanted =>
    rw [complete_resolve]
    exact ((hcommitted.resolve c _).congr (watch_tried _ _)).tell c _ wanted
  | save =>
    rw [complete_save]
    exact hcommitted.finish _

/-- A task that sends a request waits for the reply, or comes to its end. -/
theorem send (h : AtWork n s t) (hs : s.board.Ticketed) (tr : Transport) (op : Remote)
    (lock : Option Lock) (goal : Goal) : Rests n 1 s (t.send tr n op lock goal) := by
  have hsent := h.sendOff op
  unfold Store.send
  split
  · exact (hsent.complete hs op lock goal _).mono (Nat.zero_le 1)
  · have hawaits : AtWork n s { t.sendOff n op with
        awaited := (t.sendOff n op).awaited.put t.requests.length n } :=
      { hsent with
        mail := fun number hlt hne => by
          have hnew : t.requests.length ≠ number := by
            have hle := h.requests
            omega
          obtain ⟨hawaited, hreplies⟩ := hsent.mail number hlt hne
          exact ⟨(Keyed.get?_put_of_ne hnew n _).trans hawaited, hreplies⟩
        nodup := fun hs => Keyed.nodup_keys_put (hsent.nodup hs) _ n }
    refine hawaits.rests (.requesting t.requests.length op lock goal) (by rintro k ⟨⟩) ?_
    rintro number ⟨⟩
    have hlt : t.requests.length < (t.requests ++ [op.request t.endpoints]).length := by simp
    exact ⟨h.requests, hlt, Keyed.get?_put_self _ _ _⟩

theorem locked (h : AtWork n s t) (hs : s.board.Ticketed) (tr : Transport) (op : Remote) (l : Lock)
    (goal : Goal) : Rests n 1 s (t.locked tr n op l goal) :=
  (h.congr (u := (t.note (.acquired l)).setFlag op true) (by simp)).send hs tr op (some l) goal

/-- A task that begins an operation sends its request, or waits for the lock with a new ticket. -/
theorem startRemote (h : AtWork n s t) (hs : s.board.Ticketed) (hnumbered : t.locks.Numbered)
    (tr : Transport) (op : Remote) (goal : Goal) : Rests n 2 s (t.startRemote tr n op goal) := by
  unfold Store.startRemote
  split
  · exact (h.send hs tr op none goal).mono (by decide)
  · next scope mode _ =>
    split
    · next l locks hacquire =>
      obtain ⟨-, -, rfl⟩ := LockTable.acquire_eq_inl hacquire
      have hgranted := h.withLocks hs (t.locks.grant t.name scope mode).2
        fun _ _ _ hl => hl
      exact ((hgranted.congr (watch_ask _ _ _)).locked hs tr op l goal).mono (by decide)
    · next ticket locks hacquire =>
      obtain ⟨-, rfl, rfl⟩ := LockTable.acquire_eq_inr hacquire
      have hqueued := h.withLocks hs { t.locks.postpone
        ⟨t.locks.nextTicket, t.name, scope, mode⟩ with nextTicket := t.locks.nextTicket + 1 }
        fun _ _ _ hl => hl
      have hasked := hqueued.congr (watch_ask _ scope mode)
      refine hasked.rests (.locking t.locks.nextTicket op goal) ?_ (by rintro number ⟨⟩)
      rintro k ⟨⟩
      show t.locks.sent.get? t.locks.nextTicket = none
      refine Option.eq_none_iff_forall_ne_some.mpr fun l hl => ?_
      exact absurd (hnumbered.lt_of_outstanding (LockTable.mem_outstanding_of_sent hl))
        (Nat.lt_irrefl _)

/-- A task that comes to a cell where nobody else has the run is told how it has ended, or begins
one. -/
theorem join_of_arrives (h : AtWork n s t) (hs : s.board.Ticketed) (hnumbered : t.locks.Numbered)
    (tr : Transport) {c : Nat} {cell : Cell} (hcell : t.cells[c]? = some cell)
    (harrives : cell.outcome ≠ none ∨ cell.driver = none ∨ cell.driver = some n)
    (wanted : Followup) : Rests n 2 s (t.join tr n c wanted) := by
  rw [join_of_cell hcell]
  cases houtcome : cell.outcome with
  | some outcome => exact (h.tell c outcome wanted).mono (by decide)
  | none =>
    dsimp only
    rw [if_pos (harrives.resolve_left fun hsome => hsome houtcome)]
    exact (h.congr (u := (t.modifyCell c (Cell.drivenBy n)).tried (.begun n c wanted.key))
      rfl).startRemote hs hnumbered tr _ _

/-- A task that comes to a cell rests there at most. -/
theorem join (h : AtWork n s t) (hs : s.board.Ticketed) (hnumbered : t.locks.Numbered)
    (tr : Transport) {c : Nat} {cell : Cell} (hcell : t.cells[c]? = some cell) (wanted : Followup) :
    Rests n 3 s (t.join tr n c wanted) := by
  by_cases harrives : cell.outcome ≠ none ∨ cell.driver = none ∨ cell.driver = some n
  · exact (h.join_of_arrives hs hnumbered tr hcell harrives wanted).mono (by decide)
  · obtain ⟨hopen, htaken⟩ := not_or.mp harrives
    rw [join_of_cell hcell, not_not.mp hopen]
    dsimp only
    rw [if_neg htaken]
    exact (h.congr (watch_modifyCell t c _)).rests (.joining c wanted) (by rintro k ⟨⟩)
      (by rintro number ⟨⟩)

theorem want (h : AtWork n s t) (hs : s.board.Ticketed) (hnumbered : t.locks.Numbered)
    (hplaced : t.roster.Placed) (tr : Transport) (wanted : Followup) :
    Rests n 3 s (t.want tr n wanted) := by
  have hlt : (t.cellOf wanted.key).1 < (t.cellOf wanted.key).2.cells.length := by
    unfold cellOf
    split
    · next c hc => exact hplaced.keys _ c hc
    · simp
  have hwatch := watch_cellOf t wanted.key
  have hlocks : (t.cellOf wanted.key).2.locks = t.locks := congrArg Watch.locks hwatch
  exact (h.congr hwatch).join hs (hlocks ▸ hnumbered) tr (List.getElem?_eq_getElem hlt) wanted

theorem begin (h : AtWork n s t) (hs : s.board.Ticketed) (hnumbered : t.locks.Numbered)
    (hplaced : t.roster.Placed) (tr : Transport) (call : Call) :
    Rests n 3 s (t.begin tr n call) := by
  have hfinish : ∀ {v : Store} answer, v.watch = t.watch → Rests n 3 s (v.finish n answer) :=
    fun answer hv => ((h.congr hv).finish answer).mono (by decide)
  have hstart : ∀ {v : Store} op, v.watch = t.watch →
      Rests n 3 s (v.startRemote tr n op .save) := by
    intro v op hv
    have hlocks : v.locks = t.locks := congrArg Watch.locks hv
    exact ((h.congr hv).startRemote hs (hlocks ▸ hnumbered) tr op .save).mono (by decide)
  cases call with
  | editSettings group updates =>
    rw [Store.begin]
    split
    · exact h.want hs hnumbered hplaced tr _
    · exact hfinish _ rfl
  | saveSetting group id value => exact hstart (v := t) (.saveSetting group id value) rfl
  | saveSettings group updates => exact hstart (v := t) (.saveBatch group updates.toList) rfl
  | saveEditedSetting group id =>
    rw [Store.begin]
    dsimp only
    split
    · split
      · exact hstart _ rfl
      · exact hfinish _ rfl
    · exact hfinish _ rfl
  | saveEditedSettings group =>
    rw [Store.begin]
    dsimp only
    split
    · exact hfinish _ rfl
    · exact hstart _ rfl
  | refuse failure => exact hfinish _ rfl
  | _ => exact h.want hs hnumbered hplaced tr _

/-! ### The end of a cancelled task -/

/-- A task that has been cancelled says first that it is done. -/
theorem setDone (h : AtWork n s t) : AtWork n s (t.setPhase n .done) where
  toLeavesOthers := h.setPhase .done
  own := by
    refine Or.inr ?_
    rw [ticketOf?, bind_setPhase]
    cases t.tasks[n]? <;> rfl

/-- A task that has said that it is done waits for nothing. -/
theorem rests_of_done (h : AtWork n s t)
    (hdone : ∀ task : Task, t.tasks[n]? = some task → task.phase = .done) : Rests n 0 s t where
  toLeavesOthers := h.toLeavesOthers
  left_le := by
    cases htask : t.tasks[n]? with
    | none => rw [left, htask]; exact Nat.le_refl 0
    | some task => rw [left_of_task htask, hdone task htask]; exact Nat.le_refl 0
  unsent k hk := by
    obtain ⟨task, htask, hk⟩ := Option.bind_eq_some_iff.mp hk
    rw [hdone task htask] at hk
    cases hk
  asked number hnumber := by
    obtain ⟨task, htask, hnumber⟩ := Option.bind_eq_some_iff.mp hnumber
    rw [hdone task htask] at hnumber
    cases hnumber

theorem drop (hs : s.board.Ticketed) {task : Task} (hn : s.tasks[n]? = some task) :
    AtWork n s (s.drop n task.phase) := by
  have hdone := (AtWork.refl n s).setDone
  cases hphase : task.phase with
  | ready call => exact hdone
  | done => exact hdone
  | joining c wanted =>
    have hleft := hdone.congr (watch_modifyCell _ c fun c =>
      { c with waiters := c.waiters.filter (· != n) })
    rw [Store.drop]
    split
    · exact hleft.passOn c
    · exact hleft
  | locking ticket op goal =>
    have hticket : s.ticketOf? n = some ticket := by rw [ticketOf?_of_task hn, hphase]; rfl
    have hserved := hdone.serve hs (s.locks.abandon ticket) fun k l hne hl =>
      LockTable.sent_abandon (fun heq => hne (heq ▸ hticket)) hl
    exact hserved.dropGoal goal
  | requesting number op lock goal =>
    have hnumber : s.numberOf? n = some number := by rw [numberOf?_of_task hn, hphase]; rfl
    have hflag := (hdone.forget hnumber).congr (u := (((s.setPhase n .done).forget number).did
      (.dropped n op)).setFlag op false) (by simp)
    cases lock with
    | none => exact hflag.dropGoal goal
    | some l => exact (hflag.releaseLock hs l).dropGoal goal

end AtWork

/-! ### Turns -/

/-- A task whose turn has come leaves the line. -/
def aside (s : Store) (n : Nat) : Store := { s with line := s.line.erase n }

theorem move_turn (s : Store) (tr : Transport) (n : Nat) :
    s.move (.turn tr n) = (s.aside n).turn tr n := rfl

variable {task : Task}

/-- **The turn of a cancelled task is its end.** -/
theorem rests_of_doomed (tr : Transport) (hs : s.board.Ticketed) (hn : s.tasks[n]? = some task)
    (hdoomed : task.doomed = true) : Rests n 0 (s.aside n) (s.move (.turn tr n)) := by
  rw [move_turn, turn_of_doomed (s := s.aside n) hn hdoomed]
  refine (AtWork.drop (s := s.aside n) hs hn).rests_of_done fun task' htask' => ?_
  have hphases : ((s.aside n).drop n task.phase).tasks.map (·.phase)
      = (s.tasks.map (·.phase)).set n .done :=
    congrArg Ledger.phases (ledger_drop (s.aside n) n task.phase)
  have hphase : (((s.aside n).drop n task.phase).tasks.map (·.phase))[n]? = some .done := by
    rw [hphases]
    simp [(List.getElem?_eq_some_iff.mp hn).1]
  rw [List.getElem?_map, htask'] at hphase
  exact Option.some.inj hphase

/-- **A task that begins comes to a cell at least**, if not further. -/
theorem rests_of_ready (tr : Transport) (hs : s.board.Ticketed) (hnumbered : s.locks.Numbered)
    (hplaced : s.roster.Placed) (hn : s.tasks[n]? = some task) (hdoomed : task.doomed = false)
    {call : Call} (hphase : task.phase = .ready call) :
    Rests n 3 (s.aside n) (s.move (.turn tr n)) := by
  rw [move_turn, turn_ready (s := s.aside n) hn hdoomed hphase]
  exact (AtWork.refl n (s.aside n)).begin hs hnumbered ⟨hplaced.keys, hplaced.stands⟩ tr call

/-- A task that waits at a cell stays there at most. -/
theorem rests_of_joining (tr : Transport) (hs : s.board.Ticketed) (hnumbered : s.locks.Numbered)
    (hn : s.tasks[n]? = some task) (hdoomed : task.doomed = false) {c : Nat} {wanted : Followup}
    (hphase : task.phase = .joining c wanted) {cell : Cell} (hcell : s.cells[c]? = some cell) :
    Rests n 3 (s.aside n) (s.move (.turn tr n)) := by
  rw [move_turn, turn_joining (s := s.aside n) hn hdoomed hphase]
  exact (AtWork.refl n (s.aside n)).join hs hnumbered tr hcell wanted

/-- **A task that waits at a cell leaves it once the run has ended or has come to the task.** -/
theorem rests_of_arrives (tr : Transport) (hs : s.board.Ticketed) (hnumbered : s.locks.Numbered)
    (hn : s.tasks[n]? = some task) (hdoomed : task.doomed = false) {c : Nat} {wanted : Followup}
    (hphase : task.phase = .joining c wanted) {cell : Cell} (hcell : s.cells[c]? = some cell)
    (harrives : cell.outcome ≠ none ∨ cell.driver = none ∨ cell.driver = some n) :
    Rests n 2 (s.aside n) (s.move (.turn tr n)) := by
  rw [move_turn, turn_joining (s := s.aside n) hn hdoomed hphase]
  exact (AtWork.refl n (s.aside n)).join_of_arrives hs hnumbered tr hcell harrives wanted

/-- **A task to which its lock has been sent sends its request.** -/
theorem rests_of_served (tr : Transport) (hs : s.board.Ticketed) (hn : s.tasks[n]? = some task)
    (hdoomed : task.doomed = false) (hphase : task.phase = .locking k op goal) {l : Lock}
    (hsent : s.locks.sent.get? k = some l) : Rests n 1 (s.aside n) (s.move (.turn tr n)) := by
  have hturn : s.move (.turn tr n)
      = { s.aside n with locks := (s.locks.collect k).2 }.locked tr n op l goal := by
    rw [move, turn, hn]
    simp only [hdoomed, hphase, LockTable.collect, hsent, Bool.false_eq_true, if_false]
    rfl
  have hticket : (s.aside n).ticketOf? n = some k := by
    rw [ticketOf?_of_task (s := s.aside n) hn, hphase]
    rfl
  have hcollected := (AtWork.refl n (s.aside n)).withLocks hs (s.locks.collect k).2
    fun k' l' hne hl' => by
      have hother : k ≠ k' := fun heq => hne (heq ▸ hticket)
      exact (Keyed.get?_erase_of_ne hother s.locks.sent).symm.trans hl'
  rw [hturn]
  exact hcollected.locked hs tr op l goal

/-- **A task to which the reply has come ends.** -/
theorem rests_of_answered (tr : Transport) (hs : s.board.Ticketed) (hn : s.tasks[n]? = some task)
    (hdoomed : task.doomed = false) {number : Nat}
    (hphase : task.phase = .requesting number op lock goal)
    (hreply : s.replies.get? number = some reply) :
    Rests n 0 (s.aside n) (s.move (.turn tr n)) := by
  have hnumber : (s.aside n).numberOf? n = some number := by
    rw [numberOf?_of_task (s := s.aside n) hn, hphase]
    rfl
  rw [move_turn, turn_of_reply (s := s.aside n) tr hn hphase hdoomed hreply]
  exact ((AtWork.refl n (s.aside n)).takeReply hnumber).complete hs op lock goal reply

/-- A task whose lock has not been sent waits on. -/
theorem turn_unserved (tr : Transport) (hn : s.tasks[n]? = some task)
    (hdoomed : task.doomed = false) (hphase : task.phase = .locking k op goal)
    (hsent : s.locks.sent.get? k = none) : s.turn tr n = s := by
  rw [turn, hn]
  simp only [hdoomed, hphase, LockTable.collect, hsent, Bool.false_eq_true, if_false]

/-- A task whose reply has not come waits on. -/
theorem turn_unanswered (tr : Transport) (hn : s.tasks[n]? = some task)
    (hdoomed : task.doomed = false) {number : Nat}
    (hphase : task.phase = .requesting number op lock goal)
    (hreply : s.replies.get? number = none) : s.turn tr n = s := by
  rw [turn, hn]
  simp only [hdoomed, hphase, hreply, Bool.false_eq_true, if_false]

end Store

end RemoteSettings
