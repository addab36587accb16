import RemoteSettings.Proofs.Store.Isolation
import RemoteSettings.Proofs.Store.Turns

/-!
# Whoever can go on stands in line

A task that can go on is woken when it comes to that, and nothing but its own turn takes it out of
the line.  So at every moment whoever has not begun, whoever has been cancelled, and whoever has
been sent the lock that it waits for stands in line; and whoever waits for a reply either has a
request that is still awaited, or stands in line and finds the reply.

## Main definitions

* `Store.Due` — a task can go on without anybody else.
* `Store.Vigilant` — the invariant.
* `Store.Watchful` — it, and what it relies on.

## Main results

* `Watchful.move` — every move keeps it.
* `Watchful.after` — **nobody who can go on is ever left out of the line.**
-/

namespace RemoteSettings.Store

variable {s u : Store} {n m k number : Nat} {task : Task}

/-- A task can go on without anybody else: it has not begun, it has been cancelled, or the lock that
it waits for has been sent. -/
inductive Due (s : Store) (task : Task) : Prop
  | ready {call : Call} (phase : task.phase = .ready call)
  | doomed (doomed : task.doomed = true) (phase : task.phase ≠ .done)
  | served {k : Nat} {l : Lock} (ticket : task.phase.ticket? = some k)
      (sent : s.locks.sent.get? k = some l)

theorem Due.congr (h : s.Due task) (hlocks : u.locks = s.locks) : u.Due task := by
  cases h with
  | ready phase => exact .ready phase
  | doomed doomed phase => exact .doomed doomed phase
  | served ticket sent => exact .served ticket (hlocks ▸ sent)

/-- A task that has begun and has not been cancelled cannot go on without its lock. -/
theorem not_due (hdoomed : task.doomed = false) (hbegun : ∀ call, task.phase ≠ .ready call)
    (hunsent : ∀ k, task.phase.ticket? = some k → s.locks.sent.get? k = none) : ¬s.Due task := by
  intro hdue
  cases hdue with
  | @ready call phase => exact hbegun call phase
  | doomed doomed phase => cases hdoomed.symm.trans doomed
  | @served k l ticket sent => cases (hunsent k ticket).symm.trans sent

/-- The invariant: whoever can go on stands in line, and for whoever waits for a reply either the
request is still awaited, or the reply is there and the task stands in line. -/
structure Vigilant (s : Store) : Prop where
  due : ∀ n task, s.tasks[n]? = some task → s.Due task → n ∈ s.line
  asked : ∀ n number, s.numberOf? n = some number → number < s.requests.length ∧
    (s.awaited.get? number = some n ∨ n ∈ s.line ∧ ∃ reply, s.replies.get? number = some reply)
  alone : ∀ n m number, s.numberOf? n = some number → s.numberOf? m = some number → n = m
  nodup : s.awaited.keys.Nodup

theorem Vigilant.fresh (name : String) (endpoints : Endpoints) :
    (Store.fresh name endpoints).Vigilant := by
  have hnobody : ∀ n number, (Store.fresh name endpoints).numberOf? n ≠ some number := by
    rintro n number ⟨⟩
  refine ⟨?_, fun n number h => absurd h (hnobody n number),
    fun n m number h => absurd h (hnobody n number), List.nodup_nil⟩
  rintro n task ⟨⟩

/-! ### Moves that are no turns -/

/-- Tasks that have been stirred up stand in line, and wait for what they waited for before. -/
theorem Vigilant.stir (h : s.Vigilant) (hline : s.line ⊆ u.line) (hlocks : u.locks = s.locks)
    (hrequests : u.requests = s.requests) (hawaited : u.awaited = s.awaited)
    (hreplies : u.replies = s.replies)
    (htasks : ∀ m, u.tasks[m]? = s.tasks[m]? ∨ m ∈ u.line ∧ u.numberOf? m = s.numberOf? m) :
    u.Vigilant := by
  have hnumbers : ∀ m, u.numberOf? m = s.numberOf? m := by
    intro m
    rcases htasks m with hm | ⟨-, hm⟩
    · rw [numberOf?, hm, numberOf?]
    · exact hm
  refine ⟨fun m task hm hdue => ?_, fun m number hm => ?_, fun m m' number hm hm' => ?_,
    hawaited ▸ h.nodup⟩
  · rcases htasks m with hsame | ⟨hwoken, -⟩
    · exact hline (h.due m task (hsame ▸ hm) (hdue.congr hlocks.symm))
    · exact hwoken
  · rw [hrequests, hawaited, hreplies]
    obtain ⟨hlt, hmail⟩ := h.asked m number (hnumbers m ▸ hm)
    exact ⟨hlt, hmail.imp_right fun hcome => ⟨hline hcome.1, hcome.2⟩⟩
  · exact h.alone m m' number (hnumbers m ▸ hm) (hnumbers m' ▸ hm')

theorem Vigilant.congr (h : s.Vigilant) (hwatch : u.watch = s.watch) : u.Vigilant := by
  obtain ⟨htasks, hline, hlocks, hrequests, hawaited, hreplies⟩ := Watch.mk.inj hwatch
  exact h.stir (hline ▸ List.Subset.refl _) hlocks hrequests hawaited hreplies
    fun m => Or.inl (htasks ▸ rfl)

theorem Vigilant.spawn (h : s.Vigilant) (call : Call) (quiet : Bool) :
    (s.spawn call quiet).2.Vigilant := by
  let u : Store := { s with tasks := s.tasks ++ [{ phase := .ready call, quiet }] }
  have hspawn : (s.spawn call quiet).2 = { u with line := (u.wake s.tasks.length).line } :=
    wake_eq u s.tasks.length
  rw [hspawn]
  refine h.stir (grows_wake u _).line_subset rfl rfl rfl rfl fun m => ?_
  -- The new task is the only one that was not there, and it waits for nothing.
  rcases Nat.lt_trichotomy m s.tasks.length with hlt | rfl | hgt
  · exact Or.inl (List.getElem?_append_left hlt)
  · refine Or.inr ⟨mem_line_wake u _, ?_⟩
    simp [numberOf?, u, Phase.number?]
  · refine Or.inl ?_
    show (s.tasks ++ [_])[m]? = s.tasks[m]?
    rw [List.getElem?_eq_none_iff.mpr (Nat.le_of_lt hgt), List.getElem?_eq_none_iff,
      List.length_append]
    exact hgt

theorem Vigilant.cancel (h : s.Vigilant) (n : Nat) : (s.cancel n).2.Vigilant := by
  unfold Store.cancel
  split
  · next task hn =>
    split
    · exact h
    · let u : Store := s.modifyTask n fun task => { task with doomed := true }
      show (u.wake n).Vigilant
      rw [wake_eq]
      refine h.stir (grows_wake u n).line_subset rfl rfl rfl rfl fun m => ?_
      by_cases hm : n = m
      · subst hm
        refine Or.inr ⟨mem_line_wake u n, ?_⟩
        show (s.tasks.modify n _)[n]?.bind _ = s.tasks[n]?.bind _
        rw [List.getElem?_modify_eq, hn]
        rfl
      · exact Or.inl (List.getElem?_modify_ne _ _ hm)
  · exact h

/-- A reply that has come is there until the task has its turn. -/
theorem Vigilant.respond (h : s.Vigilant) (number : Nat) (reply : Reply) :
    (s.respond number reply).2.Vigilant := by
  cases hawaited : s.awaited.get? number with
  | none =>
    rw [Store.respond, hawaited]
    exact h
  | some n =>
    rw [respond_of_awaited hawaited, wake_eq]
    have hline := (grows_wake { s with
      awaited := s.awaited.erase number
      replies := s.replies.put number reply } n).line_subset
    refine ⟨fun m task hm hdue => ?_, fun m number' hm => ?_, h.alone,
      Keyed.nodup_keys_erase h.nodup number⟩
    · exact hline (h.due m task hm (hdue.congr rfl))
    · obtain ⟨hlt, hmail⟩ := h.asked m number' hm
      refine ⟨hlt, ?_⟩
      by_cases hnumber : number = number'
      · subst hnumber
        refine Or.inr ⟨?_, reply, Keyed.get?_put_self _ _ _⟩
        rcases hmail with hmail | ⟨hcome, -⟩
        · cases hawaited.symm.trans hmail
          exact mem_line_wake _ n
        · exact hline hcome
      · rw [Keyed.get?_erase_of_ne hnumber, Keyed.get?_put_of_ne hnumber]
        exact hmail.imp_right fun hcome => ⟨hline hcome.1, hcome.2⟩

/-! ### Turns -/

/-- A task that has its turn and goes nowhere leaves the line. -/
theorem Vigilant.stay (h : s.Vigilant)
    (hdue : ∀ task, s.tasks[n]? = some task → ¬s.Due task)
    (hreply : ∀ number, s.numberOf? n = some number → s.replies.get? number = none) :
    (s.aside n).Vigilant := by
  have hothers : ∀ m, m ≠ n → m ∈ s.line → m ∈ s.line.erase n := fun m hne hm =>
    (List.mem_erase_of_ne hne).mpr hm
  refine ⟨fun m task hm hmdue => ?_, fun m number hm => ?_, h.alone, h.nodup⟩
  · have hsdue : s.Due task := hmdue.congr rfl
    refine hothers m ?_ (h.due m task hm hsdue)
    rintro rfl
    exact hdue task hm hsdue
  · obtain ⟨hlt, hmail⟩ := h.asked m number hm
    refine ⟨hlt, ?_⟩
    rcases hmail with hmail | ⟨hcome, reply, hthere⟩
    · exact Or.inl hmail
    · refine Or.inr ⟨hothers m ?_ hcome, reply, hthere⟩
      rintro rfl
      cases (hreply number hm).symm.trans hthere

/-- A task that has come to rest cannot go on, unless it has been cancelled before the end. -/
theorem Rests.not_due (h : Rests n 3 s u)
    (hlast : ∀ task, s.tasks[n]? = some task → task.doomed = true → u.left n = 0)
    (hn : u.tasks[n]? = some task) : ¬u.Due task := by
  have hleft : u.left n = task.phase.left := left_of_task hn
  intro hdue
  cases hdue with
  | @ready call phase =>
    have hle : u.left n ≤ 3 := h.left_le
    have hfour : u.left n = 4 := by rw [hleft, phase]; rfl
    omega
  | doomed doomed phase =>
    -- It was cancelled before, so this was its last turn.
    have hmap : (s.tasks.map (·.doomed))[n]? = some true := by
      rw [← h.doomed, List.getElem?_map, hn, ← doomed]
      rfl
    rw [List.getElem?_map] at hmap
    obtain ⟨before, hbefore, hdoomed⟩ := Option.map_eq_some_iff.mp hmap
    exact phase (Phase.left_eq_zero.mp (hleft ▸ hlast before hbefore hdoomed))
  | @served k l ticket sent =>
    cases (h.unsent k ((ticketOf?_of_task hn).trans ticket)).symm.trans sent

/-- A task that has its turn and comes to rest leaves the others in line, and wakes those to which
it sends locks. -/
theorem Vigilant.rests (h : s.Vigilant) (hrests : Rests n 3 (s.aside n) u)
    (hlast : ∀ task, s.tasks[n]? = some task → task.doomed = true → u.left n = 0) :
    u.Vigilant := by
  have hothers : ∀ m, m ≠ n → m ∈ s.line → m ∈ u.line := fun m hne hm =>
    hrests.line ((List.mem_erase_of_ne hne).mpr hm)
  have htasks : ∀ m, m ≠ n → u.tasks[m]? = s.tasks[m]? := hrests.tasks
  have hnumbers : ∀ m, m ≠ n → u.numberOf? m = s.numberOf? m := by
    intro m hne
    rw [numberOf?, htasks m hne, numberOf?]
  -- The number of another task is not that of the task at rest, which is new.
  have hfresh : ∀ m number, m ≠ n → u.numberOf? m = some number → u.numberOf? n ≠ some number := by
    intro m number hne hm hn
    have hlt : number < s.requests.length := (h.asked m number (hnumbers m hne ▸ hm)).1
    exact Nat.lt_irrefl _ (Nat.lt_of_lt_of_le hlt (hrests.asked number hn).1)
  refine ⟨fun m task hm hdue => ?_, fun m number hm => ?_, fun i j number hi hj => ?_,
    hrests.nodup h.nodup⟩
  · by_cases hmn : m = n
    · subst hmn
      exact absurd hdue (hrests.not_due hlast hm)
    · have hsame : s.tasks[m]? = some task := (htasks m hmn).symm.trans hm
      cases hdue with
      | ready phase => exact hothers m hmn (h.due m task hsame (.ready phase))
      | doomed doomed phase => exact hothers m hmn (h.due m task hsame (.doomed doomed phase))
      | @served k l ticket sent =>
        have hticket : s.ticketOf? m = some k := (ticketOf?_of_task hsame).trans ticket
        rcases hrests.sent m k l hmn hticket sent with hsent | hwoken
        · exact hothers m hmn (h.due m task hsame (.served ticket hsent))
        · exact hwoken
  · by_cases hmn : m = n
    · subst hmn
      obtain ⟨-, hlt, hawaited⟩ := hrests.asked number hm
      exact ⟨hlt, Or.inl hawaited⟩
    · have hbefore : s.numberOf? m = some number := hnumbers m hmn ▸ hm
      obtain ⟨hlt, hmail⟩ := h.asked m number hbefore
      obtain ⟨hawaited, hreplies⟩ := hrests.mail number hlt fun hn =>
        hmn (h.alone m n number hbefore hn)
      rw [hawaited, hreplies]
      exact ⟨Nat.lt_of_lt_of_le hlt hrests.requests,
        hmail.imp_right fun hcome => ⟨hothers m hmn hcome.1, hcome.2⟩⟩
  · by_cases hin : i = n
    · subst hin
      by_contra hne
      exact hfresh j number (Ne.symm hne) hj hi
    · by_cases hjn : j = n
      · subst hjn
        exact absurd hj (hfresh i number hin hi)
      · exact h.alone i j number (hnumbers i hin ▸ hi) (hnumbers j hjn ▸ hj)

/-! ### Runs -/

/-- The invariant, and what it relies on: tickets belong to those who wait with them, and cells are
kept in order. -/
structure Watchful (s : Store) : Prop where
  custody : s.board.Custody
  ticketed : s.board.Ticketed
  sound : s.roster.Sound
  vigilant : s.Vigilant

namespace Watchful

theorem fresh (name : String) (endpoints : Endpoints) : (Store.fresh name endpoints).Watchful :=
  ⟨.fresh name endpoints, .fresh name endpoints, .fresh name endpoints, .fresh name endpoints⟩

/-- Whoever waits for a cell is known to it or stands in line. -/
theorem exists_cell (h : s.Watchful) (hn : s.tasks[n]? = some task) {c : Nat} {wanted : Followup}
    (hphase : task.phase = .joining c wanted) :
    ∃ cell : Cell, s.cells[c]? = some cell ∧ (n ∈ cell.waiters ∨ n ∈ s.line) := by
  refine h.sound.tended.waiting n c wanted.key ?_
  show (s.tasks.map (·.phase.stand))[n]? = _
  rw [List.getElem?_map, hn, Option.map_some, hphase]
  rfl

/-- The turn of a task that has not been cancelled leaves it at rest, or where it was if what it
waits for has not come. -/
theorem turn_cases (h : s.Watchful) (tr : Transport) (hn : s.tasks[n]? = some task)
    (hdoomed : task.doomed = false) :
    Rests n 3 (s.aside n) (s.move (.turn tr n)) ∨
      s.move (.turn tr n) = s.aside n ∧ ¬s.Due task ∧
        ∀ number, task.phase.number? = some number → s.replies.get? number = none := by
  have hnumbered := h.custody.numbered
  cases hphase : task.phase with
  | ready call =>
    exact Or.inl (rests_of_ready tr h.ticketed hnumbered h.sound.named.placed hn hdoomed hphase)
  | joining c wanted =>
    obtain ⟨cell, hcell, -⟩ := h.exists_cell hn hphase
    exact Or.inl (rests_of_joining tr h.ticketed hnumbered hn hdoomed hphase hcell)
  | locking k op goal =>
    cases hsent : s.locks.sent.get? k with
    | some l =>
      exact Or.inl ((rests_of_served tr h.ticketed hn hdoomed hphase hsent).mono (by decide))
    | none =>
      refine Or.inr ⟨turn_unserved (s := s.aside n) tr hn hdoomed hphase hsent, ?_,
        by rintro number ⟨⟩⟩
      refine not_due hdoomed (by rw [hphase]; rintro call ⟨⟩) ?_
      rw [hphase]
      rintro k' ⟨⟩
      exact hsent
  | requesting number op lock goal =>
    cases hreply : s.replies.get? number with
    | some reply =>
      exact Or.inl ((rests_of_answered tr h.ticketed hn hdoomed hphase hreply).mono (by decide))
    | none =>
      refine Or.inr ⟨turn_unanswered (s := s.aside n) tr hn hdoomed hphase hreply, ?_, ?_⟩
      · exact not_due hdoomed (by rw [hphase]; rintro call ⟨⟩) (by rw [hphase]; rintro k ⟨⟩)
      · rintro number' ⟨⟩
        exact hreply
  | done =>
    refine Or.inr ⟨turn_done (s := s.aside n) hn hdoomed hphase, ?_, by rintro number ⟨⟩⟩
    exact not_due hdoomed (by rw [hphase]; rintro call ⟨⟩) (by rw [hphase]; rintro k ⟨⟩)

theorem turn (h : s.Watchful) (tr : Transport) (n : Nat) : (s.move (.turn tr n)).Vigilant := by
  cases hn : s.tasks[n]? with
  | none =>
    have hturn : s.move (.turn tr n) = s.aside n := by rw [Store.move, Store.turn, hn]; rfl
    rw [hturn]
    refine h.vigilant.stay (fun task htask => by cases hn.symm.trans htask) fun number hnumber => ?_
    rw [numberOf?, hn] at hnumber
    cases hnumber
  | some task =>
    cases hdoomed : task.doomed with
    | true =>
      have hend := rests_of_doomed tr h.ticketed hn hdoomed
      exact h.vigilant.rests (hend.mono (Nat.zero_le 3)) fun _ _ _ => Nat.le_zero.mp hend.left_le
    | false =>
      rcases h.turn_cases tr hn hdoomed with hrests | ⟨hturn, hdue, hreply⟩
      · refine h.vigilant.rests hrests fun task' htask' hdoomed' => ?_
        cases hn.symm.trans htask'
        cases hdoomed.symm.trans hdoomed'
      · rw [hturn]
        refine h.vigilant.stay (fun task' htask' => ?_) fun number hnumber => ?_
        · cases hn.symm.trans htask'
          exact hdue
        · exact hreply number ((numberOf?_of_task hn).symm.trans hnumber)

/-- **Every move keeps those in line who can go on.** -/
theorem move (h : s.Watchful) (m : StoreMove) : (s.move m).Watchful := by
  have hboard := (move_steps s m).induction (P := fun b => b.Custody ∧ b.Ticketed)
    (fun b b' hstep hb => ⟨hb.1.step b b' hstep, hb.2.step b b' hstep hb.1⟩)
    ⟨h.custody, h.ticketed⟩
  refine ⟨hboard.1, hboard.2, h.sound.move s m, ?_⟩
  cases m with
  | turn tr n => exact h.turn tr n
  | spawn call quiet => exact h.vigilant.spawn call quiet
  | respond number reply => exact h.vigilant.respond number reply
  | cancel n => exact h.vigilant.cancel n
  | trigger canSpawn key =>
    rw [Store.move, trigger]
    split
    · exact h.vigilant
    · exact (h.vigilant.congr (watch_cellOf s key)).spawn (.background key) true
  | dispatch action => exact h.vigilant.congr (watch_dispatch s action)
  | _ => exact h.vigilant.congr rfl

/-- **Nobody who can go on is ever left out of the line.** -/
theorem after (name : String) (endpoints : Endpoints) (ms : List StoreMove) :
    ((Store.fresh name endpoints).after ms).Watchful :=
  after_induction (P := Watchful) (fun _ m h => h.move m) (.fresh name endpoints) ms

end Watchful

end RemoteSettings.Store
