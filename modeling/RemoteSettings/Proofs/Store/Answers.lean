import RemoteSettings.Proofs.Store.Frame

/-!
# Callers get the outcome of the run

A task that is told how a run has ended ends there and then, and what it answers is that outcome: a
failure is answered with the same failure, and anything else with a success.  Nobody is told after
having answered, and nobody answers twice, so the answer of a task is the one that it gave then.

## Main definitions

* `Answers`, `Store.answers` — who has been told what, and who has answered what.
* `Answers.Turn` — what a turn can do to them.
* `Answers.Agreed` — whoever has been told answers accordingly.

## Main results

* `answers_turn` — a turn of a task does one of these.
* `agreed_after` — **whoever has been told answers accordingly**, in every run.
-/

namespace RemoteSettings

/-- Who is told what of a run. -/
def Attempt.told? : Attempt → Option (Nat × Nat × Except Failure Unit)
  | told n c outcome => some (n, c, outcome)
  | _ => none

/-- Who answers what. -/
def Happening.answer? : Happening → Option (Nat × Except Failure Answer)
  | done n answer => some (n, answer)
  | _ => none

/-- What tasks have been told, and what they have answered. -/
structure Answers where
  /-- Whether each task answers nobody, and whether it has ended, by number. -/
  tasks : List (Bool × Bool)
  told : List (Nat × Nat × Except Failure Unit)
  given : List (Nat × Except Failure Answer)

namespace Answers

variable {A B : Answers} {n m : Nat} {quiet : Bool}

/-- A task ends, or it goes on. -/
def put (A : Answers) (n : Nat) (ended : Bool) : Answers :=
  { A with tasks := A.tasks.modify n fun t => (t.1, ended) }

/-- A task is told how the run for a cell has ended. -/
def hear (A : Answers) (n c : Nat) (outcome : Except Failure Unit) : Answers :=
  { A with told := A.told ++ [(n, c, outcome)] }

/-- A task answers, unless it answers nobody. -/
def give (A : Answers) (n : Nat) (answer : Except Failure Answer) : Answers :=
  if (A.tasks[n]?.map (·.1)).getD true then A else { A with given := A.given ++ [(n, answer)] }

/-- The answer that a task has given. -/
def answerOf? (A : Answers) (n : Nat) : Option (Except Failure Answer) :=
  A.given.findSome? fun x => if x.1 = n then some x.2 else none

/-- What a turn of a task can do: the task goes on, it is dropped, it ends with an answer, or it is
told how a run has ended and answers accordingly. -/
inductive Turn (A : Answers) (n : Nat) : Answers → Prop
  | goOn : Turn A n A
  | leave : Turn A n (A.put n true)
  | finish (answer : Except Failure Answer) : Turn A n ((A.put n true).give n answer)
  | tell (c : Nat) {outcome : Except Failure Unit} {answer : Except Failure Answer}
      (agrees : answer.map (fun _ => ()) = outcome) :
      Turn A n (((A.put n true).give n answer).hear n c outcome)

/-- To leave a task as it is changes nothing. -/
theorem put_self {ended : Bool} (h : A.tasks[n]? = some (quiet, ended)) : A.put n ended = A := by
  have htasks : A.tasks.modify n (fun t => (t.1, ended)) = A.tasks := by
    refine List.ext_getElem? fun i => ?_
    rw [List.getElem?_modify]
    by_cases hi : n = i
    · subst hi
      simp [h]
    · simp [hi]
  rw [put, htasks]

/-- What has been told does not matter to what is answered. -/
theorem give_hear (A : Answers) (n m c : Nat) (outcome : Except Failure Unit)
    (answer : Except Failure Answer) :
    (A.hear n c outcome).give m answer = (A.give m answer).hear n c outcome := by
  rw [give, give, apply_ite fun B : Answers => B.hear n c outcome]
  rfl

end Answers

namespace Store

variable {s : Store} {n : Nat} {quiet : Bool}

/-- What tasks have been told, and what they have answered. -/
def answers (s : Store) : Answers where
  tasks := s.tasks.map fun t => (t.quiet, t.phase.isDone)
  told := s.attempts.filterMap Attempt.told?
  given := s.log.filterMap (·.what.answer?)

theorem mem_told_answers {c : Nat} {outcome : Except Failure Unit} :
    (n, c, outcome) ∈ s.answers.told ↔ .told n c outcome ∈ s.attempts := by
  refine List.mem_filterMap.trans ⟨?_, fun h => ⟨_, h, rfl⟩⟩
  rintro ⟨a, ha, hsome⟩
  cases a with
  | told => cases hsome; exact ha
  | _ => cases hsome

theorem answerOf?_answers (s : Store) (n : Nat) : s.answers.answerOf? n = s.answerOf? n := by
  rw [Answers.answerOf?, answers, answerOf?]
  induction s.log with
  | nil => rfl
  | cons e log ih =>
    obtain ⟨what, saving⟩ := e
    cases what with
    | done m answer =>
      by_cases hm : m = n
      · simp [Happening.answer?, hm]
      · simpa [Happening.answer?, hm] using ih
    | _ => simpa [Happening.answer?] using ih

/-! ### What tells and answers nothing -/

theorem answers_note (s : Store) {what : Happening} (h : what.answer? = none) :
    (s.note what).answers = s.answers := by
  simp [note, answers, h]

@[simp] theorem answers_dispatch (s : Store) (a : Action) : (s.dispatch a).answers = s.answers := by
  rw [dispatch_eq]
  rfl

@[simp] theorem answers_dispatchAll (s : Store) (as : List Action) :
    (s.dispatchAll as).answers = s.answers := by
  rw [dispatchAll_eq]
  rfl

@[simp] theorem answers_setFlag (s : Store) (op : Remote) (up : Bool) :
    (s.setFlag op up).answers = s.answers := by
  rw [setFlag_eq_dispatchAll, answers_dispatchAll]

theorem answers_tried (s : Store) {a : Attempt} (h : a.told? = none) :
    (s.tried a).answers = s.answers := by
  simp [tried, answers, h]

@[simp] theorem answers_did (s : Store) (d : Deed) : (s.did d).answers = s.answers := rfl

@[simp] theorem answers_wake (s : Store) (n : Nat) : (s.wake n).answers = s.answers := by
  rw [wake_eq]
  rfl

@[simp] theorem answers_serve (s : Store) (result : LockTable × List Nat) :
    (s.serve result).answers = s.answers := by
  rw [serve_eq]
  rfl

@[simp] theorem answers_releaseLock (s : Store) (lock : Lock) :
    (s.releaseLock lock).answers = s.answers :=
  (answers_serve _ _).trans (answers_note s rfl)

@[simp] theorem answers_modifyCell (s : Store) (c : Nat) (f : Cell → Cell) :
    (s.modifyCell c f).answers = s.answers := rfl

@[simp] theorem answers_cellOf (s : Store) (key : ResolverKey) :
    (s.cellOf key).2.answers = s.answers := by
  rw [cellOf_eq]
  rfl

@[simp] theorem answers_resolve (s : Store) (cell : Nat) (outcome : Except Failure Unit) :
    (s.resolve cell outcome).answers = s.answers := by
  rw [resolve_eq]
  rfl

@[simp] theorem answers_passOn (s : Store) (cell : Nat) : (s.passOn cell).answers = s.answers := by
  rw [passOn_eq]
  rfl

@[simp] theorem answers_dropGoal (s : Store) (n : Nat) (goal : Goal) :
    (s.dropGoal n goal).answers = s.answers := by
  cases goal with
  | resolve cell wanted => exact (answers_passOn _ cell).trans (answers_tried s rfl)
  | save => rfl

@[simp] theorem answers_sendOff (s : Store) (n : Nat) (op : Remote) :
    (s.sendOff n op).answers = s.answers :=
  answers_note { s with requests := s.requests ++ [op.request s.endpoints] }
    (show Happening.answer? (.requested s.requests.length (op.request s.endpoints)) = none from rfl)

@[simp] theorem answers_setPhase (s : Store) (n : Nat) (phase : Phase) :
    (s.setPhase n phase).answers = s.answers.put n phase.isDone := by
  have htasks : (s.tasks.modify n fun t => { t with phase }).map
        (fun t => (t.quiet, t.phase.isDone))
      = (s.tasks.map fun t => (t.quiet, t.phase.isDone)).modify n fun t => (t.1, phase.isDone) := by
    refine List.ext_getElem? fun i => ?_
    rw [List.getElem?_map, List.getElem?_modify, List.getElem?_modify, List.getElem?_map]
    cases s.tasks[i]? with
    | none => rfl
    | some t => by_cases hi : n = i <;> simp [hi]
  simp only [setPhase, modifyTask, answers, Answers.put, htasks]

/-! ### How a turn ends -/

theorem answers_finish (s : Store) (n : Nat) (answer : Except Failure Answer) :
    (s.finish n answer).answers = (s.answers.put n true).give n answer := by
  have hquiet : (((s.answers.put n true).tasks[n]?).map (·.1)).getD true
      = (s.tasks[n]?.map (·.quiet)).getD true := by
    rw [Answers.put, List.getElem?_modify_eq, answers, List.getElem?_map]
    cases s.tasks[n]? <;> rfl
  rw [finish, Answers.give, hquiet]
  split
  · exact answers_setPhase s n .done
  · rw [← show (s.setPhase n .done).answers = s.answers.put n true from answers_setPhase s n .done]
    simp [note, answers, Happening.answer?]

/-- A caller that goes on answers with the failure of the run, or with a success. -/
theorem answers_follow (s : Store) (n : Nat) (outcome : Except Failure Unit) (wanted : Followup) :
    ∃ answer : Except Failure Answer, answer.map (fun _ => ()) = outcome ∧
      (s.follow n outcome wanted).answers = (s.answers.put n true).give n answer := by
  cases outcome with
  | error f => exact ⟨.error f, rfl, by cases wanted <;> exact answers_finish s n _⟩
  | ok =>
    cases wanted with
    | settings group withEdits =>
      exact ⟨_, rfl, answers_finish (s.readSettings group withEdits).2 n (.ok _)⟩
    | setting group id withEdits =>
      exact ⟨_, rfl, answers_finish (s.readSetting group id withEdits).2 n (.ok _)⟩
    | edit group id value =>
      refine ⟨.ok .nothing, rfl, ?_⟩
      rw [← answers_dispatch s (.edit group id value)]
      exact answers_finish _ n _
    | editAll group updates =>
      refine ⟨.ok .nothing, rfl, ?_⟩
      rw [← answers_dispatch s (.editAll group updates)]
      exact answers_finish _ n _
    | _ => exact ⟨_, rfl, answers_finish s n (.ok _)⟩

/-- Whoever is told how a run has ended answers accordingly. -/
theorem answers_tell (s : Store) (n c : Nat) (outcome : Except Failure Unit) (wanted : Followup) :
    s.answers.Turn n (s.tell n c outcome wanted).answers := by
  obtain ⟨answer, hagrees, hfollow⟩ := answers_follow (s.tried (.told n c outcome)) n outcome wanted
  have hheard : (s.tried (.told n c outcome)).answers = s.answers.hear n c outcome := by
    simp [tried, answers, Answers.hear, Attempt.told?]
  have hput : (s.answers.hear n c outcome).put n true
      = (s.answers.put n true).hear n c outcome := rfl
  rw [tell, hfollow, hheard, hput, Answers.give_hear]
  exact .tell c hagrees

@[simp] theorem answers_commitReply (s : Store) (n : Nat) (op : Remote) (lock : Option Lock)
    (reply : Reply) : (s.commitReply n op lock reply).answers = s.answers := by
  cases lock <;> simp [commitReply]

theorem answers_complete (s : Store) (n : Nat) (op : Remote) (lock : Option Lock) (goal : Goal)
    (reply : Reply) : s.answers.Turn n (s.complete n op lock goal reply).answers := by
  rw [← answers_commitReply s n op lock reply]
  cases goal with
  | resolve c wanted =>
    rw [complete_resolve, ← answers_resolve _ c ((op.commit reply).2.map fun _ => ()),
      ← answers_tried ((s.commitReply n op lock reply).resolve c _) (a := .ended n c _) rfl]
    exact answers_tell _ n c _ wanted
  | save =>
    rw [complete_save, answers_finish]
    exact .finish _

section Turn

variable (tr : Transport) (hn : s.answers.tasks[n]? = some (quiet, false))

include hn

/-- A task that waits for something goes on. -/
theorem answers_wait (phase : Phase) (hphase : phase.isDone = false) :
    s.answers.Turn n (s.setPhase n phase).answers := by
  rw [answers_setPhase, hphase, Answers.put_self hn]
  exact .goOn

theorem answers_send (op : Remote) (lock : Option Lock) (goal : Goal) :
    s.answers.Turn n (s.send tr n op lock goal).answers := by
  have hsent := answers_sendOff s n op
  unfold send
  split
  · rw [← hsent]
    exact answers_complete _ n op lock goal _
  · rw [← hsent] at hn ⊢
    exact answers_wait (s := { s.sendOff n op with awaited := _ }) hn
      (.requesting _ op lock goal) rfl

theorem answers_locked (op : Remote) (lock : Lock) (goal : Goal) :
    s.answers.Turn n (s.locked tr n op lock goal).answers := by
  have hlocked : ((s.note (.acquired lock)).setFlag op true).answers = s.answers :=
    (answers_setFlag _ op true).trans (answers_note s rfl)
  rw [← hlocked] at hn ⊢
  exact answers_send tr hn op (some lock) goal

theorem answers_startRemote (op : Remote) (goal : Goal) :
    s.answers.Turn n (s.startRemote tr n op goal).answers := by
  unfold startRemote
  split
  · exact answers_send tr hn op none goal
  · next scope mode _ =>
    split
    · next lock locks _ =>
      exact answers_locked (s := { s with locks }.ask scope mode) tr hn op lock goal
    · next ticket locks _ =>
      exact answers_wait (s := { s with locks }.ask scope mode) hn (.locking ticket op goal) rfl

theorem answers_join (c : Nat) (wanted : Followup) :
    s.answers.Turn n (s.join tr n c wanted).answers := by
  unfold join
  split
  · exact .goOn
  · split
    · exact answers_tell s n c _ wanted
    · split
      · have htried := answers_tried (s.modifyCell c fun x => { x with driver := some n })
          (a := .begun n c wanted.key) rfl
        rw [answers_modifyCell] at htried
        rw [← htried] at hn ⊢
        exact answers_startRemote tr hn wanted.key.remote (.resolve c wanted)
      · exact answers_wait (s := s.modifyCell c _) hn (.joining c wanted) rfl

theorem answers_want (wanted : Followup) : s.answers.Turn n (s.want tr n wanted).answers := by
  rw [← answers_cellOf s wanted.key] at hn ⊢
  exact answers_join tr hn _ wanted

theorem answers_begin (call : Call) : s.answers.Turn n (s.begin tr n call).answers := by
  have hfinish : ∀ {u : Store} (answer : Except Failure Answer), u.answers = s.answers →
      s.answers.Turn n (u.finish n answer).answers := by
    intro u answer hu
    rw [answers_finish, hu]
    exact .finish answer
  cases call with
  | editSettings group updates =>
    rw [begin]
    split
    · exact answers_want tr hn _
    · exact hfinish _ rfl
  | saveSetting group id value =>
    exact answers_startRemote tr hn (.saveSetting group id value) .save
  | saveSettings group updates =>
    exact answers_startRemote tr hn (.saveBatch group updates.toList) .save
  | saveEditedSetting group id =>
    rw [begin]
    dsimp only
    split
    · split
      · exact answers_startRemote (s := (s.readEditedIds group).2) tr hn _ _
      · exact hfinish _ rfl
    · exact hfinish _ rfl
  | saveEditedSettings group =>
    rw [begin]
    dsimp only
    split
    · exact hfinish _ rfl
    · exact answers_startRemote (s := (s.readEditedIds group).2) tr hn _ _
  | refuse failure => exact hfinish _ rfl
  | _ => exact answers_want tr hn _

end Turn

@[simp] theorem answers_drop (s : Store) (n : Nat) (phase : Phase) :
    (s.drop n phase).answers = s.answers.put n true := by
  have hdone : (s.setPhase n .done).answers = s.answers.put n true := answers_setPhase s n .done
  cases phase with
  | ready call => exact hdone
  | joining cell wanted =>
    rw [drop]
    split
    · exact (answers_passOn _ cell).trans hdone
    · exact hdone
  | locking ticket op goal => simp [drop, hdone]
  | requesting number op lock goal =>
    have hforget : ((s.setPhase n .done).forget number).answers = s.answers.put n true := hdone
    cases lock <;> simp [drop, hforget]
  | done => exact hdone

/-- **What a turn does**: its task goes on, is dropped, ends with an answer, or is told how a run
has ended and answers accordingly; and a task that has ended does nothing more. -/
theorem answers_turn (tr : Transport) (s : Store) (n : Nat) :
    (s.turn tr n).answers = s.answers ∨
      ∃ quiet, s.answers.tasks[n]? = some (quiet, false) ∧
        s.answers.Turn n (s.turn tr n).answers := by
  cases ht : s.tasks[n]? with
  | none =>
    rw [turn, ht]
    exact Or.inl rfl
  | some t =>
    have hn : s.answers.tasks[n]? = some (t.quiet, t.phase.isDone) := by simp [answers, ht]
    cases hdone : t.phase.isDone with
    | true =>
      obtain ⟨phase, doomed, quiet⟩ := t
      cases phase <;> cases hdone
      left
      cases doomed with
      | true =>
        rw [turn_of_doomed ht rfl, answers_drop]
        exact Answers.put_self hn
      | false => rw [turn_done ht rfl rfl]
    | false =>
      rw [hdone] at hn
      refine Or.inr ⟨t.quiet, hn, ?_⟩
      rw [turn, ht]
      dsimp only
      split
      · rw [answers_drop]
        exact .leave
      · split
        · exact answers_begin tr hn _
        · exact answers_join tr hn _ _
        · next ticket op goal _ =>
          split
          · next lock locks _ => exact answers_locked (s := { s with locks }) tr hn op lock goal
          · exact .goOn
        · next number op lock goal _ =>
          split
          · next reply _ =>
            exact answers_complete { s with replies := s.replies.erase number } n op lock goal reply
          · exact .goOn
        · exact .goOn

theorem answers_doom (s : Store) (n : Nat) :
    (s.modifyTask n fun t => { t with doomed := true }).answers = s.answers := by
  rw [answers, map_doom fun _ => rfl]
  rfl

/-- A move that is no turn begins tasks at most. -/
theorem answers_move (s : Store) (m : StoreMove) :
    (∃ more : List (Bool × Bool), (s.move m).answers = { s.answers with
      tasks := s.answers.tasks ++ more }) ∨ ∃ n quiet, s.answers.tasks[n]? = some (quiet, false) ∧
        s.answers.Turn n (s.move m).answers := by
  have hsame : ∀ {u : Store}, u.answers = s.answers → ∃ more : List (Bool × Bool),
      u.answers = { s.answers with tasks := s.answers.tasks ++ more } :=
    fun hu => ⟨[], by rw [hu, List.append_nil]⟩
  have hspawn : ∀ {u : Store} (call : Call) (quiet : Bool), u.answers = s.answers →
      ∃ more : List (Bool × Bool), (u.spawn call quiet).2.answers
        = { s.answers with tasks := s.answers.tasks ++ more } := by
    intro u call quiet hu
    refine ⟨[(quiet, false)], ?_⟩
    rw [← hu, spawn, answers_wake]
    simp [answers, Phase.isDone]
  cases m with
  | turn tr n =>
    rcases answers_turn tr { s with line := s.line.erase n } n with heq | ⟨quiet, hn, hturn⟩
    · exact Or.inl (hsame heq)
    · exact Or.inr ⟨n, quiet, hn, hturn⟩
  | spawn call quiet => exact Or.inl (hspawn call quiet rfl)
  | respond number reply =>
    refine Or.inl (hsame ?_)
    rw [move, respond]
    split
    · exact answers_wake _ _
    · rfl
  | cancel n =>
    refine Or.inl (hsame ?_)
    rw [move, cancel]
    split
    · split
      · rfl
      · exact (answers_wake _ _).trans (answers_doom s n)
    · rfl
  | trigger canSpawn key =>
    left
    rw [move, trigger]
    split
    · exact hsame rfl
    · exact hspawn _ _ (answers_cellOf s key)
  | dispatch a => exact Or.inl (hsame (answers_dispatch s a))
  | _ => exact Or.inl (hsame rfl)

end Store

namespace Answers

variable {A B : Answers} {n : Nat}

/-- Whoever has been told how a run has ended has ended, and has answered accordingly unless it
answers nobody; and only those who have ended have answered. -/
structure Agreed (A : Answers) : Prop where
  told : ∀ n c outcome, (n, c, outcome) ∈ A.told → ∃ quiet, A.tasks[n]? = some (quiet, true) ∧
    (quiet = false → ∃ answer, A.answerOf? n = some answer ∧ answer.map (fun _ => ()) = outcome)
  given : ∀ n answer, (n, answer) ∈ A.given → ∃ quiet, A.tasks[n]? = some (quiet, true)

theorem Agreed.append (h : A.Agreed) (more : List (Bool × Bool)) :
    Agreed { A with tasks := A.tasks ++ more } := by
  have hstays : ∀ {n : Nat} {t : Bool × Bool}, A.tasks[n]? = some t →
      (A.tasks ++ more)[n]? = some t :=
    fun hn => (List.getElem?_append_left (List.getElem?_eq_some_iff.mp hn).1).trans hn
  refine ⟨fun n c outcome hn => ?_, fun n answer hn => ?_⟩
  · obtain ⟨quiet, hquiet, hanswer⟩ := h.told n c outcome hn
    exact ⟨quiet, hstays hquiet, hanswer⟩
  · obtain ⟨quiet, hquiet⟩ := h.given n answer hn
    exact ⟨quiet, hstays hquiet⟩

/-- A task that has not ended ends. -/
theorem Agreed.put (h : A.Agreed) {quiet : Bool} (hn : A.tasks[n]? = some (quiet, false)) :
    (A.put n true).Agreed := by
  have hstays : ∀ {m : Nat} {q : Bool}, A.tasks[m]? = some (q, true) →
      (A.put n true).tasks[m]? = some (q, true) := by
    intro m q hm
    have hne : n ≠ m := fun heq => by cases hn.symm.trans (heq ▸ hm)
    rw [Answers.put, List.getElem?_modify_ne _ _ hne, hm]
  refine ⟨fun m c outcome hm => ?_, fun m answer hm => ?_⟩
  · obtain ⟨q, hq, hanswer⟩ := h.told m c outcome hm
    exact ⟨q, hstays hq, hanswer⟩
  · obtain ⟨q, hq⟩ := h.given m answer hm
    exact ⟨q, hstays hq⟩

/-- Answers that have been given stand. -/
theorem answerOf?_give (A : Answers) (n m : Nat) (answer : Except Failure Answer)
    {earlier : Except Failure Answer} (h : A.answerOf? m = some earlier) :
    (A.give n answer).answerOf? m = some earlier := by
  rw [give]
  split
  · exact h
  · rw [answerOf?, List.findSome?_append, show A.given.findSome? _ = some earlier from h]
    rfl

/-- The first answer of a task is its answer. -/
theorem answerOf?_give_self {ended : Bool} (hn : A.tasks[n]? = some (false, ended))
    (hnone : ∀ earlier, (n, earlier) ∉ A.given) (answer : Except Failure Answer) :
    (A.give n answer).answerOf? n = some answer := by
  have hspeaks : ¬((A.tasks[n]?.map (·.1)).getD true = true) := by simp [hn]
  rw [give, if_neg hspeaks, answerOf?, List.findSome?_append]
  have hearlier : (A.given.findSome? fun x => if x.1 = n then some x.2 else none) = none := by
    refine List.findSome?_eq_none_iff.mpr fun x hx => if_neg fun heq => ?_
    exact hnone x.2 (heq ▸ hx)
  rw [hearlier]
  simp

theorem tasks_give (A : Answers) (n : Nat) (answer : Except Failure Answer) :
    (A.give n answer).tasks = A.tasks := by
  rw [give]
  split <;> rfl

/-- A task that ends answers. -/
theorem Agreed.give (h : A.Agreed) {quiet : Bool} (hn : A.tasks[n]? = some (quiet, true))
    (answer : Except Failure Answer) : (A.give n answer).Agreed := by
  have htold : (A.give n answer).told = A.told := by
    rw [Answers.give]
    split <;> rfl
  refine ⟨fun m c outcome hm => ?_, fun m earlier hm => ?_⟩
  · obtain ⟨q, hq, hanswer⟩ := h.told m c outcome (htold ▸ hm)
    refine ⟨q, tasks_give A n answer ▸ hq, fun hspeaks => ?_⟩
    obtain ⟨earlier, hearlier, hagrees⟩ := hanswer hspeaks
    exact ⟨earlier, answerOf?_give A n m answer hearlier, hagrees⟩
  · rw [tasks_give]
    rw [Answers.give] at hm
    split at hm
    · exact h.given m earlier hm
    · rcases List.mem_append.mp hm with hm | hm
      · exact h.given m earlier hm
      · cases List.mem_singleton.mp hm
        exact ⟨quiet, hn⟩

/-- Whoever has ended is told what it has answered. -/
theorem Agreed.hear (h : A.Agreed) {quiet : Bool} (hn : A.tasks[n]? = some (quiet, true)) (c : Nat)
    {outcome : Except Failure Unit} (hanswer : quiet = false → ∃ answer,
      A.answerOf? n = some answer ∧ answer.map (fun _ => ()) = outcome) :
    (A.hear n c outcome).Agreed := by
  refine ⟨fun m c' o hm => ?_, h.given⟩
  rcases List.mem_append.mp hm with hm | hm
  · exact h.told m c' o hm
  · cases List.mem_singleton.mp hm
    exact ⟨quiet, hn, hanswer⟩

/-- **Every turn keeps answers in agreement with what has been told.** -/
theorem Agreed.turn (h : A.Agreed) {quiet : Bool} (hn : A.tasks[n]? = some (quiet, false))
    (hturn : A.Turn n B) : B.Agreed := by
  have hput := h.put hn
  have hended : (A.put n true).tasks[n]? = some (quiet, true) := by
    rw [Answers.put, List.getElem?_modify_eq, hn]
    rfl
  cases hturn with
  | goOn => exact h
  | leave => exact hput
  | finish answer => exact hput.give hended answer
  | @tell c outcome answer agrees =>
    refine (hput.give hended answer).hear (tasks_give _ _ _ ▸ hended) c fun hspeaks => ?_
    -- Whoever has not ended has not answered before.
    have hnone : ∀ earlier, (n, earlier) ∉ (A.put n true).given := by
      intro earlier hearlier
      obtain ⟨q, hq⟩ := h.given n earlier hearlier
      cases hn.symm.trans hq
    exact ⟨answer, answerOf?_give_self (hspeaks ▸ hended) hnone answer, agrees⟩

end Answers

namespace Store

/-- **Whoever has been told how a run has ended answers accordingly**, in every run of the store. -/
theorem agreed_after (name : String) (endpoints : Endpoints) (ms : List StoreMove) :
    ((Store.fresh name endpoints).after ms).answers.Agreed := by
  refine after_induction (P := fun s => s.answers.Agreed) (fun s m h => ?_) ?_ ms
  · rcases answers_move s m with ⟨more, heq⟩ | ⟨n, quiet, hn, hturn⟩
    · rw [heq]
      exact h.append more
    · exact h.turn hn hturn
  · exact ⟨fun n c outcome h => absurd h List.not_mem_nil,
      fun n answer h => absurd h List.not_mem_nil⟩

/-- Whoever has been told how a run has ended has ended, and what it has answered is that, unless it
answers nobody. -/
theorem answer_of_told {s : Store} {n c : Nat} {outcome : Except Failure Unit}
    (h : s.answers.Agreed) (htold : .told n c outcome ∈ s.attempts) :
    ∃ t, s.tasks[n]? = some t ∧ t.phase = .done ∧ (t.quiet = false → ∃ answer,
      s.answerOf? n = some answer ∧ answer.map (fun _ => ()) = outcome) := by
  obtain ⟨quiet, hn, hanswer⟩ := h.told n c outcome (mem_told_answers.mpr htold)
  rw [answers, List.getElem?_map] at hn
  obtain ⟨t, ht, heq⟩ := Option.map_eq_some_iff.mp hn
  obtain ⟨hquiet, hdone⟩ := Prod.mk.injEq .. ▸ heq
  refine ⟨t, ht, ?_, fun hspeaks => ?_⟩
  · cases hphase : t.phase with
    | done => rfl
    | _ => rw [hphase] at hdone; cases hdone
  · rw [← answerOf?_answers]
    exact hanswer (hquiet ▸ hspeaks)

end Store

end RemoteSettings
