import Mathlib.Algebra.Order.BigOperators.Group.Finset
import RemoteSettings.Proofs.Store.Flags
import RemoteSettings.Proofs.Store.Vigil

/-!
# Operations never deadlock

As long as an operation has not ended, something can happen without any caller.  Whoever waits for
a lock waits for a task that has the lock in hand, or to which it has been sent; whoever waits for a
resolution waits for the task that runs the resolver, or that is to run it next.  A task that has a
lock in hand waits for neither but for the reply to its request, so there is no circle.

## Main definitions

* `Store.Enabled` — what can happen without any caller.
* `Store.Goes` — a run of such moves.
* `Store.effort` — how many more of them there can be for a task.
* `Store.NeverDeadlocks` — what it is for no operation to be held up for ever.

## Main results

* `Watchful.exists_owner` — an active lock is in the hands of a task, or on its way to one.
* `Watchful.exists_enabled` — **as long as an operation has not ended, something can happen.**
* `Watchful.length_le` — every run of such moves comes to an end.
* `operations_never_deadlock` — all this of every run.
-/

namespace RemoteSettings

namespace Store

variable {s u : Store} {n m k c number : Nat} {task : Task} {l : Lock} {op : Remote} {goal : Goal}

/-- A task waits for the reply to its request with a lock in hand. -/
def InHand (s : Store) (n : Nat) (l : Lock) : Prop :=
  ∃ task number op goal, s.tasks[n]? = some task ∧ task.phase = .requesting number op (some l) goal

/-- A lock has been sent to a task that waits for it. -/
def SentTo (s : Store) (n : Nat) (l : Lock) : Prop :=
  ∃ k, s.ticketOf? n = some k ∧ s.locks.sent.get? k = some l

/-- What can happen without any caller: the reply comes to a request that is awaited, or a task that
stands in line has its turn, and observes that its lock has been sent, or goes on otherwise. -/
inductive Enabled (s : Store) : StoreMove → Prop
  | answer {n number : Nat} (reply : Reply) (waits : s.numberOf? n = some number)
      (awaited : s.awaited.get? number = some n) : Enabled s (.respond number reply)
  | observe {n : Nat} {l : Lock} (tr : Transport) (stands : n ∈ s.line) (sent : s.SentTo n l) :
      Enabled s (.turn tr n)
  | goOn {n : Nat} (tr : Transport) (stands : n ∈ s.line)
      (nearer : ∀ tr, (s.move (.turn tr n)).left n < s.left n) : Enabled s (.turn tr n)

/-- All operations have ended. -/
def Ended (s : Store) : Prop := ∀ task ∈ s.tasks, task.phase = .done

/-- A run in which each move can happen without any caller when it happens. -/
inductive Goes : Store → List StoreMove → Prop
  | nil (s : Store) : Goes s []
  | cons {s : Store} {m : StoreMove} {ms : List StoreMove} (enabled : s.Enabled m)
      (goes : Goes (s.move m) ms) : Goes s (m :: ms)

theorem Enabled.of_rests {bound : Nat} (tr : Transport) (hline : n ∈ s.line)
    (hrests : ∀ tr, Rests n bound (s.aside n) (s.move (.turn tr n)))
    (hlt : bound < s.left n) : s.Enabled (.turn tr n) :=
  .goOn tr hline fun tr => Nat.lt_of_le_of_lt (hrests tr).left_le hlt

namespace Watchful

/-! ### Whoever waits, waits for somebody who can go on -/

/-- A task that has been cancelled and has not ended can go on. -/
theorem enabled_or_live (h : s.Watchful) (hn : s.tasks[n]? = some task)
    (hphase : task.phase ≠ .done) : (∃ m, s.Enabled m) ∨ task.doomed = false := by
  cases hdoomed : task.doomed with
  | false => exact Or.inr rfl
  | true =>
    have hline := h.vigilant.due n task hn (.doomed hdoomed hphase)
    refine Or.inl ⟨_, .of_rests .later hline
      (fun tr => rests_of_doomed tr h.ticketed hn hdoomed) ?_⟩
    rw [left_of_task hn]
    exact Nat.pos_of_ne_zero fun hzero => hphase (Phase.left_eq_zero.mp hzero)

/-- For whoever waits for a reply, it can come or has come. -/
theorem exists_enabled_of_requesting (h : s.Watchful) (hn : s.tasks[n]? = some task)
    {lock : Option Lock} (hphase : task.phase = .requesting number op lock goal) :
    ∃ m, s.Enabled m := by
  rcases h.enabled_or_live hn (by rw [hphase]; rintro ⟨⟩) with henabled | hdoomed
  · exact henabled
  have hnumber : s.numberOf? n = some number := by rw [numberOf?_of_task hn, hphase]; rfl
  obtain ⟨-, hawaited | ⟨hline, reply, hreply⟩⟩ := h.vigilant.asked n number hnumber
  · exact ⟨_, .answer (.ok .null) hnumber hawaited⟩
  · refine ⟨_, .of_rests .later hline
      (fun tr => rests_of_answered tr h.ticketed hn hdoomed hphase hreply) ?_⟩
    rw [left_of_task hn, hphase]
    exact Nat.zero_lt_one

/-- A task to which its lock has been sent stands in line. -/
theorem line_of_sent (h : s.Watchful) (hsent : s.SentTo n l) : n ∈ s.line := by
  obtain ⟨k, hk, hsent⟩ := hsent
  obtain ⟨task, hn, hticket⟩ := Option.bind_eq_some_iff.mp hk
  exact h.vigilant.due n task hn (.served hticket hsent)

/-- **An active lock is in the hands of a task that waits for its reply, or it has been sent to a
task.** -/
theorem exists_owner (h : s.Watchful) (hl : l ∈ s.locks.active) :
    ∃ n, s.InHand n l ∨ s.SentTo n l := by
  have hmem : l ∈ s.board.held ++ s.locks.sent.values := h.custody.owned.owners.mem_iff.mpr hl
  rcases List.mem_append.mp hmem with hheld | hvalue
  · obtain ⟨st, hst, hlock⟩ := List.mem_filterMap.mp hheld
    obtain ⟨task, htask, rfl⟩ := List.mem_map.mp hst
    obtain ⟨n, hn⟩ := List.mem_iff_getElem?.mp htask
    cases hphase : task.phase with
    | requesting number op lock goal =>
      rw [hphase] at hlock
      cases hlock
      exact ⟨n, Or.inl ⟨task, number, op, goal, hn, hphase⟩⟩
    | _ =>
      rw [hphase] at hlock
      cases hlock
  · obtain ⟨⟨k, l'⟩, hsent, rfl⟩ := List.mem_map.mp hvalue
    have hkeys : s.locks.sent.keys.Nodup := (List.nodup_append.mp h.ticketed.nodup).2.1
    have hget : s.locks.sent.get? k = some l' := Keyed.get?_of_mem hkeys hsent
    obtain ⟨n, st, hst, hticket⟩ :=
      h.ticketed.exists_waiting (LockTable.mem_outstanding_of_sent hget)
    obtain ⟨task, hn, rfl⟩ := Option.map_eq_some_iff.mp (List.getElem?_map.symm.trans hst)
    have hk : s.ticketOf? n = some k := by
      rw [ticketOf?_of_task hn, ← Phase.ticket?_stage, hticket]
    exact ⟨n, Or.inr ⟨k, hk, hget⟩⟩

theorem exists_enabled_of_active (h : s.Watchful) (hl : l ∈ s.locks.active) :
    ∃ m, s.Enabled m := by
  obtain ⟨n, ⟨task, number, op, goal, hn, hphase⟩ | hsent⟩ := h.exists_owner hl
  · exact h.exists_enabled_of_requesting hn hphase
  · exact ⟨_, .observe .later (h.line_of_sent hsent) hsent⟩

/-- Whoever waits for a lock has been sent it, or an active lock stands in its way. -/
theorem exists_enabled_of_locking (h : s.Watchful) (hn : s.tasks[n]? = some task)
    (hphase : task.phase = .locking k op goal) : ∃ m, s.Enabled m := by
  have hticket : s.ticketOf? n = some k := by rw [ticketOf?_of_task hn, hphase]; rfl
  have hstage : s.board.stages[n]? = some (.queued k op) := by
    show (s.tasks.map (·.phase.stage))[n]? = _
    rw [List.getElem?_map, hn, Option.map_some, hphase]
    rfl
  rcases LockTable.mem_outstanding.mp (h.ticketed.mem_outstanding hstage rfl) with
    ⟨w, hw, -⟩ | hkey
  · obtain ⟨l, hl, -⟩ := h.ticketed.prompt.blocked w hw
    exact h.exists_enabled_of_active hl
  · have hsome : s.locks.sent.get? k ≠ none := fun hnone => Keyed.get?_eq_none_iff.mp hnone hkey
    obtain ⟨l, hl⟩ := Option.ne_none_iff_exists'.mp hsome
    have hsent : s.SentTo n l := ⟨k, hticket, hl⟩
    exact ⟨_, .observe .later (h.line_of_sent hsent) hsent⟩

/-- A task that stands in line can leave its cell once the run has ended or has come to the task. -/
theorem exists_enabled_of_arrives (h : s.Watchful) (hn : s.tasks[n]? = some task)
    {wanted : Followup} (hphase : task.phase = .joining c wanted) {cell : Cell}
    (hcell : s.cells[c]? = some cell) (hline : n ∈ s.line)
    (harrives : cell.outcome ≠ none ∨ cell.driver = none ∨ cell.driver = some n) :
    ∃ m, s.Enabled m := by
  rcases h.enabled_or_live hn (by rw [hphase]; rintro ⟨⟩) with henabled | hdoomed
  · exact henabled
  refine ⟨_, .of_rests .later hline (fun tr => rests_of_arrives tr h.ticketed
    h.custody.numbered hn hdoomed hphase hcell harrives) ?_⟩
  rw [left_of_task hn, hphase]
  exact Nat.lt_succ_self 2

/-- Whoever waits for a cell stands in line once there is no run, and otherwise waits for the task
that has the run, or is to have it. -/
theorem exists_enabled_of_joining (h : s.Watchful) (hn : s.tasks[n]? = some task)
    {wanted : Followup} (hphase : task.phase = .joining c wanted) : ∃ m, s.Enabled m := by
  obtain ⟨cell, hcell, hwaits⟩ := h.exists_cell hn hphase
  have htended := h.sound.tended.cells c cell hcell
  cases hdriver : cell.driver with
  | none =>
    have hline : n ∈ s.line := by
      rw [htended.led hdriver] at hwaits
      exact hwaits.resolve_left List.not_mem_nil
    exact h.exists_enabled_of_arrives hn hphase hcell hline (Or.inr (Or.inl hdriver))
  | some m =>
    obtain ⟨-, ⟨key, hup⟩ | ⟨key, op, hrunning⟩ | ⟨⟨key, hwaiting⟩, hline⟩⟩ :=
      htended.driver m hdriver
    · obtain ⟨t, -, hst⟩ := exists_task hup
      exact absurd hst (stand_ne_up t.phase)
    · obtain ⟨t, ht, hst⟩ := exists_task hrunning
      obtain ⟨wanted', hgoal, -⟩ := exists_goal hst
      cases hphase' : t.phase with
      | locking k op' goal => exact h.exists_enabled_of_locking ht hphase'
      | requesting number op' lock goal => exact h.exists_enabled_of_requesting ht hphase'
      | _ =>
        rw [hphase'] at hgoal
        cases hgoal
    · obtain ⟨t, ht, hst⟩ := exists_task hwaiting
      obtain ⟨wanted', hphase'⟩ := exists_joining hst
      exact h.exists_enabled_of_arrives ht hphase' hcell hline (Or.inr (Or.inr hdriver))

theorem exists_enabled_of_task (h : s.Watchful) (hn : s.tasks[n]? = some task)
    (hphase : task.phase ≠ .done) : ∃ m, s.Enabled m := by
  cases hcase : task.phase with
  | ready call =>
    rcases h.enabled_or_live hn hphase with henabled | hdoomed
    · exact henabled
    refine ⟨_, .of_rests .later (h.vigilant.due n task hn (.ready hcase))
      (fun tr => rests_of_ready tr h.ticketed h.custody.numbered h.sound.named.placed hn hdoomed
        hcase) ?_⟩
    rw [left_of_task hn, hcase]
    exact Nat.lt_succ_self 3
  | joining c wanted => exact h.exists_enabled_of_joining hn hcase
  | locking k op goal => exact h.exists_enabled_of_locking hn hcase
  | requesting number op lock goal => exact h.exists_enabled_of_requesting hn hcase
  | done => exact absurd hcase hphase

/-- **As long as an operation has not ended, something can happen without any caller.** -/
theorem exists_enabled (h : s.Watchful) (hended : ¬s.Ended) : ∃ m, s.Enabled m := by
  rw [Ended] at hended
  push Not at hended
  obtain ⟨task, htask, hphase⟩ := hended
  obtain ⟨n, hn⟩ := List.mem_iff_getElem?.mp htask
  exact h.exists_enabled_of_task hn hphase

/-! ### What can happen brings tasks nearer to the end -/

/-- **A turn that a task can have brings it nearer to the end.** -/
theorem nearer (h : s.Watchful) {tr : Transport} (hm : s.Enabled (.turn tr n)) (tr' : Transport) :
    (s.move (.turn tr' n)).left n < s.left n := by
  cases hm with
  | goOn _ stands nearer => exact nearer tr'
  | observe _ stands sent =>
    obtain ⟨k, hk, hsent⟩ := sent
    obtain ⟨task, op, goal, hn, hphase⟩ := exists_locking hk
    have hrests : Rests n 1 (s.aside n) (s.move (.turn tr' n)) := by
      cases hdoomed : task.doomed with
      | true => exact (rests_of_doomed tr' h.ticketed hn hdoomed).mono (Nat.zero_le 1)
      | false => exact rests_of_served tr' h.ticketed hn hdoomed hphase hsent
    rw [left_of_task hn, hphase]
    exact Nat.lt_succ_of_le hrests.left_le

/-- A turn leaves the other tasks where they are. -/
theorem leavesOthers (h : s.Watchful) (tr : Transport) (n : Nat) :
    LeavesOthers n (s.aside n) (s.move (.turn tr n)) := by
  have hidle := (AtWork.refl n (s.aside n)).toLeavesOthers
  cases hn : s.tasks[n]? with
  | none =>
    rw [Store.move, Store.turn, hn]
    exact hidle
  | some task =>
    cases hdoomed : task.doomed with
    | true => exact (rests_of_doomed tr h.ticketed hn hdoomed).toLeavesOthers
    | false =>
      rcases h.turn_cases tr hn hdoomed with hrests | ⟨hturn, -⟩
      · exact hrests.toLeavesOthers
      · rw [hturn]
        exact hidle

/-- **Once the reply has come, whoever waits for it ends with its next turn.** -/
theorem ends_of_answer (h : s.Watchful) {reply : Reply} (hm : s.Enabled (.respond number reply)) :
    number < s.requests.length ∧ (s.respond number reply).1 = true ∧
      ∃ n, s.numberOf? n = some number ∧ n ∈ (s.move (.respond number reply)).line ∧
        ∀ tr, ((s.move (.respond number reply)).move (.turn tr n)).left n = 0 := by
  cases hm with
  | @answer n _ _ waits awaited =>
    have hmoved : s.move (.respond number reply) = _ := respond_of_awaited awaited reply
    have hnext : (s.move (.respond number reply)).Watchful := h.move _
    have htasks : (s.move (.respond number reply)).tasks = s.tasks := by rw [hmoved, wake_eq]
    have hreply : (s.move (.respond number reply)).replies.get? number = some reply := by
      rw [hmoved, wake_eq]
      exact Keyed.get?_put_self number reply _
    refine ⟨(h.vigilant.asked n number waits).1, by rw [respond, awaited], n, waits, ?_,
      fun tr => ?_⟩
    · rw [hmoved]
      exact mem_line_wake _ n
    · obtain ⟨task, op, lock, goal, hn, hphase⟩ := exists_requesting waits
      rw [← htasks] at hn
      cases hdoomed : task.doomed with
      | true => exact Nat.le_zero.mp (rests_of_doomed tr hnext.ticketed hn hdoomed).left_le
      | false =>
        exact Nat.le_zero.mp (rests_of_answered tr hnext.ticketed hn hdoomed hphase hreply).left_le

end Watchful

/-! ### Runs come to an end -/

/-- A task waits for a reply that has come. -/
def answered (s : Store) (n : Nat) : Bool :=
  (s.numberOf? n).any fun number => (s.awaited.get? number).isNone

/-- How many moves there are left for a task at most: two for each phase before the end, its own
turn and one for what it waits for. -/
def effort (s : Store) (n : Nat) : Nat := 2 * s.left n - (s.answered n).toNat

/-- How many moves there are left for all tasks at most. -/
def efforts (s : Store) : Nat := ∑ n ∈ Finset.range s.tasks.length, s.effort n

theorem left_le (s : Store) (n : Nat) : s.left n ≤ 4 := by
  rw [left]
  cases s.tasks[n]? with
  | none => exact Nat.zero_le 4
  | some task => cases hphase : task.phase <;> simp [hphase, Phase.left]

theorem lt_of_left_pos (h : 0 < s.left n) : n < s.tasks.length := by
  by_contra hge
  rw [left, List.getElem?_eq_none (Nat.not_lt.mp hge)] at h
  exact Nat.lt_irrefl 0 h

theorem efforts_le (s : Store) : s.efforts ≤ 8 * s.tasks.length := by
  have heach : ∀ n ∈ Finset.range s.tasks.length, s.effort n ≤ 8 := by
    intro n _
    have hle := s.left_le n
    rw [effort]
    omega
  have hsum := Finset.sum_le_card_nsmul (Finset.range s.tasks.length) s.effort 8 heach
  rw [Finset.card_range] at hsum
  exact hsum.trans_eq (Nat.mul_comm _ 8)

/-- There are fewer moves left for all if there are fewer for one and as many for the others. -/
theorem efforts_lt (hlength : u.tasks.length = s.tasks.length) (hlt : u.effort n < s.effort n)
    (hothers : ∀ m, m ≠ n → u.effort m = s.effort m) : u.efforts < s.efforts := by
  have hpos : 0 < s.effort n := Nat.zero_lt_of_lt hlt
  have hn : n < s.tasks.length := lt_of_left_pos (by rw [effort] at hpos; omega)
  rw [efforts, efforts, hlength]
  refine Finset.sum_lt_sum (fun m _ => ?_) ⟨n, Finset.mem_range.mpr hn, hlt⟩
  by_cases hm : m = n
  · subst hm
    exact Nat.le_of_lt hlt
  · exact Nat.le_of_eq (hothers m hm)

namespace Watchful

/-- The turn of a task makes no difference to how far the others are from the end. -/
theorem effort_turn_of_ne (h : s.Watchful) (tr : Transport) (hne : m ≠ n) :
    (s.move (.turn tr n)).effort m = s.effort m := by
  have hleaves := h.leavesOthers tr n
  have htask : (s.move (.turn tr n)).tasks[m]? = s.tasks[m]? := hleaves.tasks m hne
  have hnumber : (s.move (.turn tr n)).numberOf? m = s.numberOf? m := by
    rw [numberOf?, htask, numberOf?]
  rw [effort, effort, answered, answered, hnumber, left, left, htask]
  cases hasked : s.numberOf? m with
  | none => rfl
  | some number =>
    have hlt := (h.vigilant.asked m number hasked).1
    have hother : s.numberOf? n ≠ some number := fun hn =>
      hne (h.vigilant.alone m n number hasked hn)
    have hawaited : (s.move (.turn tr n)).awaited.get? number = s.awaited.get? number :=
      (hleaves.mail number hlt hother).1
    simp only [Option.any_some, hawaited]

theorem efforts_turn (h : s.Watchful) {tr : Transport} (hm : s.Enabled (.turn tr n)) :
    (s.move (.turn tr n)).efforts < s.efforts := by
  have hdoomed : (s.move (.turn tr n)).tasks.map (·.doomed) = s.tasks.map (·.doomed) :=
    (h.leavesOthers tr n).doomed
  have hlength : (s.move (.turn tr n)).tasks.length = s.tasks.length := by
    simpa using congrArg List.length hdoomed
  have hnearer := h.nearer hm tr
  have hanswered := Bool.toNat_le (s.answered n)
  refine efforts_lt (n := n) hlength ?_ fun m hne => h.effort_turn_of_ne tr hne
  rw [effort, effort]
  omega

theorem efforts_respond (h : s.Watchful) {reply : Reply} (waits : s.numberOf? n = some number)
    (awaited : s.awaited.get? number = some n) :
    (s.move (.respond number reply)).efforts < s.efforts := by
  let u : Store := { s with
    awaited := s.awaited.erase number
    replies := s.replies.put number reply }
  have hmoved : s.move (.respond number reply) = { u with line := (u.wake n).line } :=
    (respond_of_awaited awaited reply).trans (wake_eq u n)
  rw [hmoved]
  refine efforts_lt (n := n) rfl ?_ fun m hne => ?_
  · obtain ⟨task, op, lock, goal, hn, hphase⟩ := exists_requesting waits
    have hleft : s.left n = 1 := by rw [left_of_task hn, hphase]; rfl
    have hbefore : s.answered n = false := by
      rw [answered, waits, Option.any_some, awaited]
      rfl
    have hafter : u.answered n = true := by
      show (s.numberOf? n).any _ = true
      rw [waits, Option.any_some, Keyed.get?_erase_self h.vigilant.nodup]
      rfl
    show 2 * s.left n - (u.answered n).toNat < _
    rw [effort, hleft, hbefore, hafter]
    exact Nat.lt_succ_self 1
  · have hanswered : u.answered m = s.answered m := by
      show (s.numberOf? m).any _ = (s.numberOf? m).any _
      cases hasked : s.numberOf? m with
      | none => rfl
      | some number' =>
        have hother : number ≠ number' := by
          rintro rfl
          exact hne (h.vigilant.alone m n number hasked waits)
        rw [Option.any_some, Option.any_some, Keyed.get?_erase_of_ne hother]
    show 2 * s.left m - (u.answered m).toNat = _
    rw [hanswered, effort]

/-- What can happen without any caller leaves fewer moves to come. -/
theorem efforts_move (h : s.Watchful) {m : StoreMove} (hm : s.Enabled m) :
    (s.move m).efforts < s.efforts := by
  cases hm with
  | answer reply waits awaited => exact h.efforts_respond waits awaited
  | observe tr stands sent => exact h.efforts_turn (.observe tr stands sent)
  | goOn tr stands nearer => exact h.efforts_turn (.goOn tr stands nearer)

/-- **Every run of what can happen without any caller comes to an end.** -/
theorem length_le (h : s.Watchful) {ms : List StoreMove} (hms : s.Goes ms) :
    ms.length ≤ s.efforts := by
  induction hms with
  | nil s => exact Nat.zero_le _
  | @cons s m ms enabled goes ih =>
    exact Nat.succ_le_of_lt (Nat.lt_of_le_of_lt (ih (h.move m)) (h.efforts_move enabled))

/-- **Such a run can be had until all operations have ended.** -/
theorem exists_goes (h : s.Watchful) :
    ∃ ms, s.Goes ms ∧ (s.after ms).Ended := by
  induction hefforts : s.efforts using Nat.strong_induction_on generalizing s with
  | _ efforts ih =>
    by_cases hended : s.Ended
    · exact ⟨[], .nil s, hended⟩
    · obtain ⟨m, hm⟩ := h.exists_enabled hended
      obtain ⟨ms, hms, hend⟩ := ih _ (hefforts ▸ h.efforts_move hm) (h.move m) rfl
      exact ⟨m :: ms, .cons hm hms, hend⟩

end Watchful

end Store

/-! ### Tasks ask for locks empty-handed -/

/-- What stands in a list once at most, and first of all, has nothing before it. -/
theorem eq_nil_of_concat_prefix {α : Type} {a : α} {first rest pre : List α}
    (hfirst : first.length ≤ 1) (hrest : a ∉ rest) (h : pre ++ [a] <+: first ++ rest) :
    pre = [] := by
  cases pre with
  | nil => rfl
  | cons b pre =>
    have hmem : a ∈ pre ++ [a] := List.mem_append_right _ (List.mem_singleton_self a)
    match first, hfirst with
    | [], _ => exact absurd (h.subset (List.mem_cons_of_mem b hmem)) hrest
    | [x], _ => exact absurd ((List.cons_prefix_cons.mp h).2.subset hmem) hrest

namespace Transcript

variable {name : String} {e : Endpoints} {n : Nat} {phase : Phase} {acts : List Act}
  {deeds : List Deed}

/-- A task asks for one lock at most, and before anything else is seen of it. -/
theorem exists_asking (h : Transcript name e n phase acts deeds) :
    ∃ first rest, acts = first ++ rest ∧ first.length ≤ 1 ∧
      ∀ store scope mode, .asked store scope mode ∉ rest := by
  have hone : ∀ op : Remote, (op.asking name).length ≤ 1 := by
    intro op
    rw [Remote.asking]
    cases op.lock? <;> simp
  have hlast : ∀ {last : List Act}, (∀ a ∈ last, Act.IsAfterword a) →
      ∀ store scope mode, .asked store scope mode ∉ last :=
    fun hlast _ _ _ hmem => by cases hlast _ hmem
  cases h with
  | ready call => exact ⟨[], [], rfl, Nat.zero_le 1, by simp⟩
  | joining cell wanted => exact ⟨[], [], rfl, Nat.zero_le 1, by simp⟩
  | @locking ticket op => exact ⟨op.asking name, [], by simp, hone op, by simp⟩
  | @withdrawn op => exact ⟨op.asking name, [], by simp, hone op, by simp⟩
  | idle hdone => exact ⟨[], _, rfl, Nat.zero_le 1, hlast hdone⟩
  | @requesting number op lock =>
    refine ⟨op.asking name, _, by rw [Remote.opening, List.append_assoc, List.append_assoc],
      hone op, fun store scope mode => ?_⟩
    simp [acquiring, Remote.flagging]
  | @dropped number op lock =>
    refine ⟨op.asking name, _, by
      rw [Remote.opening, List.append_assoc, List.append_assoc, List.append_assoc], hone op,
      fun store scope mode => ?_⟩
    simp [acquiring, Remote.flagging, Remote.closing, releasing]
  | @completed number op lock reply last _ hdone =>
    have hafter := hlast hdone
    refine ⟨op.asking name, _, by
      rw [Remote.opening, List.append_assoc, List.append_assoc, List.append_assoc], hone op,
      fun store scope mode => ?_⟩
    simp [acquiring, Remote.flagging, Remote.committing, Remote.closing, releasing, hafter]

/-- Whoever waits for a lock or for a resolution has never got hold of a lock. -/
theorem locksGot_eq_nil (h : Transcript name e n phase acts deeds)
    (hwaits : phase.ticket? ≠ none ∨ ∃ c wanted, phase = .joining c wanted) :
    locksGot acts = [] := by
  cases h with
  | joining c wanted => rfl
  | @locking ticket op => exact (op.harmless_asking name).got
  | _ => simp [Phase.ticket?] at hwaits

end Transcript

/-! ### Deadlock freedom -/

/-- No operation is held up for ever, given what has been seen. -/
structure Store.NeverDeadlocks (s : Store) (story : List (Option Nat × Act)) : Prop where
  /-- As long as an operation has not ended, something can happen without any caller: the reply to a
  request comes, or a task that stands in line observes that its lock has been sent, or goes on
  otherwise. -/
  enabled : ¬s.Ended → ∃ m, s.Enabled m
  /-- Whoever goes on without any caller stands in line. -/
  stands : ∀ tr n, s.Enabled (.turn tr n) → n ∈ s.line
  /-- Such a turn brings the task nearer to its end, whatever is answered. -/
  nearer : ∀ tr n, s.Enabled (.turn tr n) → ∀ tr', (s.move (.turn tr' n)).left n < s.left n
  /-- Such a turn leaves the other tasks where they are. -/
  others : ∀ tr n, s.Enabled (.turn tr n) → ∀ tr' m, m ≠ n →
    (s.move (.turn tr' n)).tasks[m]? = s.tasks[m]?
  /-- A reply that comes without any caller is to a request that has been sent, it is taken, and
  whoever waits for it ends with its next turn. -/
  answered : ∀ number reply, s.Enabled (.respond number reply) →
    number < s.requests.length ∧ (s.respond number reply).1 = true ∧
      ∃ n, s.numberOf? n = some number ∧ n ∈ (s.move (.respond number reply)).line ∧
        ∀ tr, ((s.move (.respond number reply)).move (.turn tr n)).left n = 0
  /-- An active lock is in the hands of a task that waits for the reply to its request, or it has been
  sent to a task that stands in line. -/
  owned : ∀ l ∈ s.locks.active, ∃ n, s.InHand n l ∨ s.SentTo n l ∧ n ∈ s.line
  /-- Whoever waits for a lock or for a resolution has never got hold of a lock. -/
  emptyHanded : ∀ (n : Nat) t, s.tasks[n]? = some t →
    (t.phase.ticket? ≠ none ∨ ∃ c wanted, t.phase = .joining c wanted) →
      locksGot (actsOf n story) = []
  /-- Whoever asks for a lock does so before anything else is seen of it. -/
  asksFirst : ∀ n store scope mode pre, pre ++ [(some n, .asked store scope mode)] <+: story →
    actsOf n pre = []
  /-- What can happen without any caller comes to an end after eight moves for each task at most. -/
  bounded : ∀ ms, s.Goes ms → ms.length ≤ 8 * s.tasks.length
  /-- Wherever one has got to in this way, one can go on until all operations have ended. -/
  ends : ∀ ms, s.Goes ms → ∃ more, (s.after ms).Goes more ∧ ((s.after ms).after more).Ended

/-- What is watchful, and has been transcribed, is never held up. -/
theorem Store.Watchful.neverDeadlocks {s : Store} (h : s.Watchful) {name : String}
    {endpoints : Endpoints} {story : List (Option Nat × Act)}
    (hstory : Transcribed name endpoints story s) : s.NeverDeadlocks story where
  enabled := h.exists_enabled
  stands := by
    intro tr n hm
    cases hm with
    | observe _ stands _ => exact stands
    | goOn _ stands _ => exact stands
  nearer _ _ hm tr' := h.nearer hm tr'
  others _ n _ tr' m := (h.leavesOthers tr' n).tasks m
  answered _ _ hm := h.ends_of_answer hm
  owned := by
    intro l hl
    obtain ⟨n, howner⟩ := h.exists_owner hl
    exact ⟨n, howner.imp_right fun hsent => ⟨hsent, h.line_of_sent hsent⟩⟩
  emptyHanded := by
    intro n t hn hwaits
    have htranscript := hstory.transcript n
    rw [Ledger.phase, show s.ledger.phases[n]? = some t.phase by simp [Store.ledger, hn]]
      at htranscript
    exact htranscript.locksGot_eq_nil hwaits
  asksFirst := by
    intro n store scope mode pre hpre
    obtain ⟨first, rest, hacts, hfirst, hrest⟩ := (hstory.transcript n).exists_asking
    have hseen : actsOf n pre ++ [.asked store scope mode] <+: first ++ rest := by
      have hprefix := hpre.filterMap fun x : Option Nat × Act =>
        if x.1 = some n then some x.2 else none
      rw [← hacts]
      simpa [actsOf] using hprefix
    exact eq_nil_of_concat_prefix hfirst (hrest store scope mode) hseen
  bounded ms hms := (h.length_le hms).trans s.efforts_le
  ends ms _ := by
    have hthere : (s.after ms).Watchful :=
      Store.after_induction (P := Store.Watchful) (fun _ m hs => hs.move m) h ms
    exact hthere.exists_goes

/-- **Operations never deadlock**, after any run, whatever calls have begun, whatever replies have
come and whatever tasks have been cancelled. -/
theorem operations_never_deadlock (name : String) (endpoints : Endpoints) (ms : List StoreMove) :
    ((Store.fresh name endpoints).after ms).NeverDeadlocks
      ((Store.fresh name endpoints).story (ms.map fun m => (none, m))) := by
  have hstory := Transcribed.afterManaged name endpoints (ms.map fun m => (none, m))
  rw [Store.afterManaged_none] at hstory
  exact Store.Watchful.neverDeadlocks (.after name endpoints ms) hstory

/-- A save waits for its reply, a batch save and a fetch for locks, and a caller for the fetch. -/
def standstill : List StoreMove :=
  [.spawn (.saveSetting "g" "a" (.bool true)) false, .turn .later 0,
    .spawn (.saveSettings "g" (.list [⟨"b", .bool false⟩])) false, .turn .later 1,
    .spawn (.resolveSetting "g" "a" false) false, .turn .later 2,
    .spawn (.resolveSetting "g" "a" false) false, .turn .later 3]

/-- At the standstill nobody stands in line, and all that can happen is the reply to the save; none
of the others has got hold of a lock, and all can come to their ends. -/
theorem standstill_ends :
    let s := (Store.fresh "s" ⟨"", "/groups"⟩).after standstill
    let story := (Store.fresh "s" ⟨"", "/groups"⟩).story (standstill.map fun m => (none, m))
    s.line = [] ∧ (∃ reply, s.Enabled (.respond 0 reply)) ∧
      locksGot (actsOf 1 story) = [] ∧ locksGot (actsOf 3 story) = [] ∧
      ∃ ms', s.Goes ms' ∧ (s.after ms').Ended := by
  intro s story
  have hnever := operations_never_deadlock "s" ⟨"", "/groups"⟩ standstill
  have hline : s.line = [] := rfl
  have hwaiting : ∃ t k op goal, s.tasks[1]? = some t ∧ t.phase = .locking k op goal :=
    ⟨_, _, _, _, rfl, rfl⟩
  have hjoining : ∃ t c wanted, s.tasks[3]? = some t ∧ t.phase = .joining c wanted :=
    ⟨_, _, _, rfl, rfl⟩
  obtain ⟨batch, k, op, goal, hbatch, hlocking⟩ := hwaiting
  obtain ⟨caller, c, wanted, hcaller, hjoins⟩ := hjoining
  have hnone : ∀ n, n ∉ s.line := by
    rw [hline]
    exact fun n => List.not_mem_nil
  refine ⟨hline, ?_, hnever.emptyHanded 1 batch hbatch (Or.inl ?_),
    hnever.emptyHanded 3 caller hcaller (Or.inr ⟨c, wanted, hjoins⟩), hnever.ends [] (.nil s)⟩
  · have hopen : ¬s.Ended := fun hended => by
      cases hjoins.symm.trans (hended caller (List.mem_of_getElem? hcaller))
    obtain ⟨m, hm⟩ := hnever.enabled hopen
    cases hm with
    | @answer n number reply waits awaited =>
      have hfirst : (number, n) ∈ [(0, 0)] := Keyed.mem_of_get? awaited
      cases List.mem_singleton.mp hfirst
      exact ⟨reply, .answer reply waits awaited⟩
    | observe _ stands _ => exact absurd stands (hnone _)
    | goOn _ stands _ => exact absurd stands (hnone _)
  · rw [hlocking]
    rintro ⟨⟩

end RemoteSettings
