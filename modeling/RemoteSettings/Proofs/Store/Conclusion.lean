import RemoteSettings.Proofs.Store.Guards

/-!
# How a turn ends

A turn comes to one of three ends: the task goes on later, it ends with an answer, or it is told how
a run has ended.  Only with the last of these does a task edit what it has resolved, and only if the
run has ended well.  So a call that ends in a failure has edited nothing.

## Main definitions

* `Store.Mute` — nothing is seen but what belongs to remote operations.
* `Store.Concludes` — the ends to which a turn can come.
* `Candid` — acts in which nobody edits and answers with a failure.

## Main results

* `Concludes.turn` — **a turn comes to one of its ends.**
* `candid_of_story` — **whoever answers with a failure has edited nothing**, in every run.
-/

namespace RemoteSettings

/-- An action that a caller takes to edit settings. -/
def Action.isEdit : Action → Bool
  | edit _ _ _ => true
  | editAll _ _ => true
  | _ => false

/-! ### What belongs to remote operations -/

/-- Acts that belong to remote operations: nobody edits and nobody answers. -/
def Operational (acts : List Act) : Prop := ∀ a ∈ acts, ¬a.IsAfterword

theorem Operational.append {acts more : List Act} (h : Operational acts)
    (hmore : Operational more) : Operational (acts ++ more) := by
  intro a ha
  rcases List.mem_append.mp ha with ha | ha
  · exact h a ha
  · exact hmore a ha

theorem operational_nil : Operational [] := fun _ ha => absurd ha List.not_mem_nil

theorem operational_acquiring (lock : Option Lock) : Operational (acquiring lock) := by
  intro a ha
  obtain ⟨l, -, rfl⟩ := List.mem_map.mp ha
  rintro ⟨⟩

theorem operational_releasing (lock : Option Lock) : Operational (releasing lock) := by
  intro a ha
  obtain ⟨l, -, rfl⟩ := List.mem_map.mp ha
  rintro ⟨⟩

namespace Remote

variable (op : Remote)

theorem operational_flagging (up : Bool) : Operational (op.flagging up) := by
  intro a ha
  obtain ⟨f, -, rfl⟩ := List.mem_map.mp ha
  rintro ⟨⟩

theorem operational_asking (name : String) : Operational (op.asking name) := by
  intro a ha
  obtain ⟨l, -, rfl⟩ := List.mem_map.mp ha
  rintro ⟨⟩

theorem operational_requested (number : Nat) (request : Request) :
    Operational [.happened (.requested number request)] := by
  intro a ha
  rw [List.mem_singleton.mp ha]
  rintro ⟨⟩

theorem operational_opening (name : String) (e : Endpoints) (lock : Option Lock) (number : Nat) :
    Operational (op.opening name e lock number) :=
  (((op.operational_asking name).append (operational_acquiring lock)).append
    (op.operational_flagging true)).append (operational_requested number _)

theorem operational_closing (lock : Option Lock) : Operational (op.closing lock) :=
  (op.operational_flagging false).append (operational_releasing lock)

theorem operational_committing (reply : Reply) : Operational (op.committing reply) := by
  intro a ha
  obtain ⟨action, haction, rfl⟩ := List.mem_map.mp ha
  cases htarget : op.target? with
  | none =>
    cases op with
    | fetchGroups =>
      rw [commit] at haction
      split at haction
      · rw [List.mem_singleton.mp haction]
        rintro ⟨⟩
      · exact absurd haction List.not_mem_nil
    | _ => cases htarget
  | some t =>
    rcases mem_commit htarget reply action haction with ⟨xs, rfl⟩ | ⟨i, f, rfl⟩
    · rintro ⟨⟩
    · rintro ⟨⟩

end Remote

theorem Phase.operational_parting (phase : Phase) : Operational phase.parting := by
  cases phase with
  | requesting number op lock goal => exact op.operational_closing lock
  | _ => exact operational_nil

/-! ### The ends of a turn -/

namespace Store

/-- From one store to another, nothing is seen but what belongs to remote operations. -/
def Mute (s u : Store) : Prop := ∃ more, u.acts = s.acts ++ more ∧ Operational more

/-- The ends to which a turn of a task can come: the task goes on later, it ends with an answer, or
it is told how a run has ended. -/
inductive Concludes (n : Nat) (s : Store) : Store → Prop
  | goesOn {u : Store} : s.Mute u → Concludes n s u
  | ends {v : Store} (answer : Except Failure Answer) : s.Mute v → Concludes n s (v.finish n answer)
  | told {v : Store} (cell : Nat) (outcome : Except Failure Unit) (wanted : Followup) :
    s.Mute v → Concludes n s (v.tell n cell outcome wanted)

variable {s u v : Store} {n : Nat}

theorem Mute.refl (s : Store) : s.Mute s := ⟨[], (List.append_nil _).symm, operational_nil⟩

theorem Mute.trans (h : s.Mute u) (h' : u.Mute v) : s.Mute v := by
  obtain ⟨more, hu, hmore⟩ := h
  obtain ⟨more', hv, hmore'⟩ := h'
  exact ⟨more ++ more', by rw [hv, hu, List.append_assoc], hmore.append hmore'⟩

theorem Mute.of_acts (h : u.acts = s.acts) : s.Mute u :=
  ⟨[], by rw [h, List.append_nil], operational_nil⟩

theorem Mute.of_ledger {more : List Act} {done : List Deed} (h : u.ledger = s.ledger.add more done)
    (hmore : Operational more) : s.Mute u := ⟨more, congrArg Ledger.acts h, hmore⟩

theorem Mute.of_ledger_eq (h : u.ledger = s.ledger) : s.Mute u :=
  .of_acts (congrArg Ledger.acts h)

namespace Concludes

/-- What comes before is mute. -/
theorem after (h : Concludes n u v) (hbefore : s.Mute u) : Concludes n s v := by
  cases h with
  | goesOn hmute => exact .goesOn (hbefore.trans hmute)
  | ends answer hmute => exact .ends answer (hbefore.trans hmute)
  | told cell outcome wanted hmute => exact .told cell outcome wanted (hbefore.trans hmute)

/-- A task that waits for something goes on later. -/
theorem wait (s : Store) (n : Nat) (phase : Phase) : Concludes n s (s.setPhase n phase) :=
  .goesOn (.of_acts (congrArg Ledger.acts (ledger_setPhase s n phase)))

theorem complete (s : Store) (n : Nat) (op : Remote) (lock : Option Lock) (goal : Goal)
    (reply : Reply) : Concludes n s (s.complete n op lock goal reply) := by
  have hcommit : s.Mute (s.commitReply n op lock reply) :=
    .of_ledger (ledger_commitReply s n op lock reply)
      ((op.operational_committing reply).append (op.operational_closing lock))
  cases goal with
  | resolve cell wanted =>
    rw [complete_resolve]
    exact .told cell _ wanted (hcommit.trans (.of_ledger_eq (by simp)))
  | save =>
    rw [complete_save]
    exact .ends _ hcommit

variable (tr : Transport)

theorem send (s : Store) (n : Nat) (op : Remote) (lock : Option Lock) (goal : Goal) :
    Concludes n s (s.send tr n op lock goal) := by
  have hsent : s.Mute (s.sendOff n op) :=
    .of_ledger (ledger_sendOff s n op) (Remote.operational_requested _ _)
  unfold Store.send
  split
  · exact (complete _ n op lock goal _).after hsent
  · refine .after (.goesOn (.of_acts ?_)) hsent
    exact congrArg Ledger.acts (ledger_await (s.sendOff n op) n s.requests.length op lock goal)

theorem locked (s : Store) (n : Nat) (op : Remote) (lock : Lock) (goal : Goal) :
    Concludes n s (s.locked tr n op lock goal) := by
  have hledger : ((s.note (.acquired lock)).setFlag op true).ledger
      = s.ledger.add (acquiring (some lock) ++ op.flagging true) [] := by simp [acquiring]
  have hmute : s.Mute ((s.note (.acquired lock)).setFlag op true) :=
    .of_ledger hledger ((operational_acquiring (some lock)).append (op.operational_flagging true))
  exact (send tr _ n op (some lock) goal).after hmute

theorem startRemote (s : Store) (n : Nat) (op : Remote) (goal : Goal) :
    Concludes n s (s.startRemote tr n op goal) := by
  unfold Store.startRemote
  split
  · exact send tr s n op none goal
  · next scope mode hlock =>
    have hasked : ∀ locks : LockTable, s.Mute ({ s with locks }.ask scope mode) := by
      intro locks
      refine .of_ledger (ledger_ask { s with locks } scope mode) ?_
      have hasking := op.operational_asking s.name
      rwa [Remote.asking, hlock] at hasking
    split
    · exact (locked tr _ n op _ goal).after (hasked _)
    · exact (wait _ n _).after (hasked _)

theorem join (s : Store) (n cell : Nat) (wanted : Followup) :
    Concludes n s (s.join tr n cell wanted) := by
  unfold Store.join
  split
  · exact .goesOn (.refl s)
  · split
    · exact .told cell _ wanted (.refl s)
    · split
      · exact (startRemote tr _ n _ _).after (.of_acts rfl)
      · exact (wait _ n _).after (.of_acts rfl)

theorem want (s : Store) (n : Nat) (wanted : Followup) :
    Concludes n s (s.want tr n wanted) :=
  (join tr _ n _ wanted).after (.of_ledger_eq (ledger_cellOf s wanted.key))

theorem begin (s : Store) (n : Nat) (call : Call) : Concludes n s (s.begin tr n call) := by
  cases call with
  | editSettings group updates =>
    rw [Store.begin]
    split
    · exact want tr s n _
    · exact .ends _ (.refl s)
  | saveSetting group id value => exact startRemote tr s n (.saveSetting group id value) .save
  | saveSettings group updates => exact startRemote tr s n (.saveBatch group updates.toList) .save
  | saveEditedSetting group id =>
    have hread : s.Mute (s.readEditedIds group).2 := .of_acts rfl
    rw [Store.begin]
    dsimp only
    split
    · split
      · exact (startRemote tr _ n _ _).after hread
      · exact .ends _ hread
    · exact .ends _ hread
  | saveEditedSettings group =>
    have hread : s.Mute (s.readEditedIds group).2 := .of_acts rfl
    rw [Store.begin]
    dsimp only
    split
    · exact .ends _ hread
    · exact (startRemote tr _ n _ _).after hread
  | refuse failure => exact .ends _ (.refl s)
  | _ => exact want tr s n _

theorem drop (s : Store) (n : Nat) (phase : Phase) : Concludes n s (s.drop n phase) :=
  .goesOn ⟨phase.parting, congrArg Ledger.acts (ledger_drop s n phase), phase.operational_parting⟩

/-- **A turn comes to one of its ends.** -/
theorem turn (s : Store) (n : Nat) : Concludes n s (s.turn tr n) := by
  unfold Store.turn
  split
  · exact .goesOn (.refl s)
  · split
    · exact drop s n _
    · split
      · exact begin tr s n _
      · exact join tr s n _ _
      · split
        · exact (locked tr _ n _ _ _).after (.of_acts rfl)
        · exact .goesOn (.refl s)
      · split
        · exact (complete _ n _ _ _ _).after (.of_acts rfl)
        · exact .goesOn (.refl s)
      · exact .goesOn (.refl s)

end Concludes

end Store

/-! ### Failures and edits -/

/-- Acts in which nobody edits and answers with a failure. -/
def Candid (acts : List Act) : Prop :=
  ∀ n f, .happened (.done n (.error f)) ∈ acts → ∀ a, .dispatched a ∈ acts → a.isEdit = false

/-- What belongs to operations may come before. -/
theorem Candid.prepend {acts more : List Act} (hmore : Candid more) (h : Operational acts) :
    Candid (acts ++ more) := by
  intro n f hdone a ha
  have hdone' : .happened (.done n (.error f)) ∈ more := by
    rcases List.mem_append.mp hdone with hdone | hdone
    · exact absurd (.done n (.error f)) (h _ hdone)
    · exact hdone
  rcases List.mem_append.mp ha with ha | ha
  · cases a with
    | edit group id value => exact absurd (.edit group id value) (h _ ha)
    | editAll group us => exact absurd (.editAll group us) (h _ ha)
    | _ => rfl
  · exact hmore n f hdone' a ha

theorem Candid.of_operational {acts : List Act} (h : Operational acts) : Candid acts :=
  fun n f hdone => absurd (.done n (.error f)) (h _ hdone)

namespace Store

variable {s : Store} {n : Nat}

/-- Whoever ends says so at most. -/
theorem acts_finish (s : Store) (n : Nat) (answer : Except Failure Answer) :
    ∃ last, (last = [] ∨ last = [.happened (.done n answer)]) ∧
      (s.finish n answer).acts = s.acts ++ last := by
  rw [finish]
  split
  · exact ⟨[], Or.inl rfl, (List.append_nil _).symm⟩
  · exact ⟨_, Or.inr rfl, rfl⟩

/-- Whoever only answers is candid. -/
theorem candid_finish (s : Store) (n : Nat) (answer : Except Failure Answer) :
    ∃ last, Candid last ∧ (s.finish n answer).acts = s.acts ++ last := by
  obtain ⟨last, hlast, hacts⟩ := acts_finish s n answer
  refine ⟨last, fun m f _ a ha => ?_, hacts⟩
  rcases hlast with rfl | rfl
  · exact absurd ha List.not_mem_nil
  · cases List.mem_singleton.mp ha

/-- Whoever edits answers with success. -/
theorem candid_edited (s : Store) (n : Nat) (a : Action) (answer : Answer) :
    ∃ last, Candid last ∧ ((s.dispatch a).finish n (.ok answer)).acts = s.acts ++ last := by
  obtain ⟨last, hlast, hacts⟩ := acts_finish (s.dispatch a) n (.ok answer)
  refine ⟨.dispatched a :: last, fun m f hdone => ?_, ?_⟩
  · rcases List.mem_cons.mp hdone with hdone | hdone
    · cases hdone
    · rcases hlast with rfl | rfl
      · exact absurd hdone List.not_mem_nil
      · cases List.mem_singleton.mp hdone
  · rw [hacts, acts_dispatch, List.append_assoc]
    rfl

theorem candid_tell (s : Store) (n cell : Nat) (outcome : Except Failure Unit)
    (wanted : Followup) :
    ∃ last, Candid last ∧ (s.tell n cell outcome wanted).acts = s.acts ++ last := by
  rw [tell]
  cases outcome with
  | error f => cases wanted <;> exact candid_finish (s.tried _) n (.error f)
  | ok =>
    cases wanted with
    | settings group withEdits =>
      exact candid_finish ((s.tried _).readSettings group withEdits).2 n _
    | setting group id withEdits =>
      exact candid_finish ((s.tried _).readSetting group id withEdits).2 n _
    | edit group id value => exact candid_edited (s.tried _) n _ _
    | editAll group updates => exact candid_edited (s.tried _) n _ _
    | _ => exact candid_finish (s.tried _) n _

/-- What is seen of a turn is candid. -/
theorem Concludes.candid {u : Store} (h : Concludes n s u) :
    ∃ more, Candid more ∧ u.acts = s.acts ++ more := by
  cases h with
  | goesOn hmute =>
    obtain ⟨more, hacts, hmore⟩ := hmute
    exact ⟨more, .of_operational hmore, hacts⟩
  | ends answer hmute =>
    obtain ⟨more, hacts, hmore⟩ := hmute
    obtain ⟨last, hlast, hfinish⟩ := candid_finish _ n answer
    exact ⟨more ++ last, hlast.prepend hmore, by rw [hfinish, hacts, List.append_assoc]⟩
  | told cell outcome wanted hmute =>
    obtain ⟨more, hacts, hmore⟩ := hmute
    obtain ⟨last, hlast, htell⟩ := candid_tell _ n cell outcome wanted
    exact ⟨more ++ last, hlast.prepend hmore, by rw [htell, hacts, List.append_assoc]⟩

end Store

/-- Of a task that has not ended only operations have been seen. -/
theorem Transcript.operational {name : String} {e : Endpoints} {n : Nat} {phase : Phase}
    {acts : List Act} {deeds : List Deed} (h : Transcript name e n phase acts deeds)
    (hphase : phase ≠ .done) : Operational acts := by
  cases h with
  | ready call => exact operational_nil
  | joining cell wanted => exact operational_nil
  | locking => exact Remote.operational_asking _ name
  | requesting => exact Remote.operational_opening _ name e _ _
  | _ => exact absurd rfl hphase

namespace Store

/-- A task that has ended shows nothing more. -/
theorem acts_turn_of_done {s : Store} {n : Nat} {t : Task} (tr : Transport)
    (hn : s.tasks[n]? = some t) (hphase : t.phase = .done) : (s.turn tr n).acts = s.acts := by
  cases hdoomed : t.doomed with
  | true =>
    rw [turn_of_doomed hn hdoomed, hphase]
    exact (congrArg Ledger.acts (ledger_drop s n .done)).trans (List.append_nil _)
  | false => rw [turn_done hn hdoomed hphase]

/-- What is seen of a move is candid, together with what has been seen of its task before. -/
theorem candid_news {name : String} {e : Endpoints} {story : List (Option Nat × Act)} {s : Store}
    (h : Transcribed name e story s) (hcandid : Candid (actsOf n story)) (m : ManagedMove) :
    Candid (actsOf n story ++ actsOf n (s.news m)) := by
  by_cases hm : m.2.task? = some n
  · obtain ⟨locks, move⟩ := m
    cases move with
    | turn tr k =>
      cases hm
      -- The turn begins once the table of locks has been replaced and the task has left the line.
      let r : Store := { s.withTable locks with line := (s.withTable locks).line.erase n }
      have hacts : r.acts = s.acts := congrArg Ledger.acts (s.ledger_withTable locks)
      have htasks : r.tasks = s.tasks := tasks_withTable s locks
      have hnews : ∀ more, (r.turn tr n).acts = s.acts ++ more →
          actsOf n (s.news (locks, .turn tr n)) = more := by
        intro more hmore
        rw [news, show (s.manage (locks, .turn tr n)).acts = s.acts ++ more from hmore,
          List.drop_left]
        exact actsOf_map_self n more
      obtain ⟨more, hmore, hturn⟩ := (Concludes.turn tr r n).candid
      rw [hacts] at hturn
      cases ht : s.tasks[n]? with
      | none =>
        have hstay : (r.turn tr n).acts = s.acts ++ [] := by
          rw [turn, show r.tasks[n]? = none from htasks ▸ ht, List.append_nil]
          exact hacts
        rwa [hnews [] hstay, List.append_nil]
      | some t =>
        have hr : r.tasks[n]? = some t := htasks ▸ ht
        by_cases hdone : t.phase = .done
        · have hstay : (r.turn tr n).acts = s.acts ++ [] := by
            rw [acts_turn_of_done tr hr hdone, hacts, List.append_nil]
          rwa [hnews [] hstay, List.append_nil]
        · have hphase : s.ledger.phase n = t.phase := by simp [Ledger.phase, Store.ledger, ht]
          have hbefore : Operational (actsOf n story) :=
            (h.transcript n).operational (hphase ▸ hdone)
          rw [hnews more hturn]
          exact hmore.prepend hbefore
    | _ => cases hm
  · rw [news, actsOf_map_of_ne hm, List.append_nil]
    exact hcandid

/-- **Whoever answers with a failure has edited nothing**, whatever hands out the locks. -/
theorem candid_of_story (name : String) (e : Endpoints) (ms : List ManagedMove) (n : Nat) :
    Candid (actsOf n ((Store.fresh name e).story ms)) := by
  induction ms using List.reverseRecOn with
  | nil => exact .of_operational operational_nil
  | append_singleton ms m ih =>
    rw [story_snoc, actsOf_append]
    exact candid_news (Transcribed.afterManaged name e ms) ih m

end Store

end RemoteSettings
