import RemoteSettings.Proofs.Store.Deeds
import RemoteSettings.Proofs.Store.Ledger

/-!
# Transcripts

What is seen of a remote operation comes in one order: it asks for its lock and gets it, raises its
flag, sends its request, applies the actions to which the reply leads, lowers its flag and releases
the lock that it got.  The *transcript* of a task says how much of this has been seen when the task
has come so far.

Nothing is assumed about the locks: before each move the table may be replaced by any other, so that
a ticket may be served at any time and with any lock, or never.  What has been seen of a task is
what has been added in its turns.

## Main definitions

* `Transcript` — what is seen of a task that has come so far, and what it has done.
* `Store.Continues` — what has been seen of a task is continued to a transcript.
* `ManagedMove`, `Store.afterManaged`, `Store.story` — runs whatever hands out the locks, and who
  has been seen doing what.
* `Transcribed` — the transcripts of all tasks.

## Main results

* `Continues.turn` — **a turn continues a transcript.**
* `Transcribed.afterManaged` — **the transcripts of a run**, whatever hands out the locks.
-/

namespace RemoteSettings

/-! ### Transcripts -/

/-- A lock is in hand exactly if an operation needs one. -/
def Remote.Guarded (op : Remote) (lock : Option Lock) : Prop := lock.isSome = op.lock?.isSome

/-- What is seen of a task that has come so far, and what it has done with its operation. -/
inductive Transcript (name : String) (e : Endpoints) (n : Nat) :
    Phase → List Act → List Deed → Prop
  | ready (call : Call) : Transcript name e n (.ready call) [] []
  | joining (cell : Nat) (wanted : Followup) : Transcript name e n (.joining cell wanted) [] []
  | locking {ticket : Nat} {op : Remote} {goal : Goal} : op.lock?.isSome = true →
      Transcript name e n (.locking ticket op goal) (op.asking name) []
  | requesting {number : Nat} {op : Remote} {lock : Option Lock} {goal : Goal} :
      op.Guarded lock →
      Transcript name e n (.requesting number op lock goal) (op.opening name e lock number)
        [.sent n op]
  /-- The call has ended without an operation of its own. -/
  | idle {last : List Act} : (∀ a ∈ last, Act.IsAfterword a) → Transcript name e n .done last []
  /-- The task was dropped before it got its lock. -/
  | withdrawn {op : Remote} : op.lock?.isSome = true →
      Transcript name e n .done (op.asking name) []
  /-- The task was dropped while it waited for the reply. -/
  | dropped {number : Nat} {op : Remote} {lock : Option Lock} : op.Guarded lock →
      Transcript name e n .done (op.opening name e lock number ++ op.closing lock)
        [.sent n op, .dropped n op]
  | completed {number : Nat} {op : Remote} {lock : Option Lock} {reply : Reply}
      {last : List Act} : op.Guarded lock → (∀ a ∈ last, Act.IsAfterword a) →
      Transcript name e n .done
        (op.opening name e lock number ++ (op.committing reply ++ op.closing lock ++ last))
        [.sent n op, .committed n op reply]

namespace Store

/-- From one store to another, what has been seen of a task and what it has done is continued to a
transcript. -/
def Continues (n : Nat) (acts : List Act) (deeds : List Deed) (s u : Store) : Prop :=
  ∃ more done phase, u.ledger = (s.ledger.add more done).put n phase ∧
    Transcript s.name s.endpoints n phase (acts ++ more) (deeds ++ done)

namespace Continues

variable {n : Nat} {acts : List Act} {deeds : List Deed} {s u v : Store}

/-- What comes before is part of what is seen. -/
theorem head {more : List Act} {done : List Deed} (hledger : u.ledger = s.ledger.add more done)
    (h : Continues n (acts ++ more) (deeds ++ done) u v) : Continues n acts deeds s v := by
  obtain ⟨more', done', phase, hv, htranscript⟩ := h
  have hname : u.name = s.name := congrArg Ledger.name hledger
  have hendpoints : u.endpoints = s.endpoints := congrArg Ledger.endpoints hledger
  rw [hname, hendpoints, List.append_assoc, List.append_assoc] at htranscript
  refine ⟨more ++ more', done ++ done', phase, ?_, htranscript⟩
  rw [hv, hledger, Ledger.add_add]

/-- What does not show makes no difference. -/
theorem congr (hledger : u.ledger = s.ledger) (h : Continues n acts deeds u v) :
    Continues n acts deeds s v := by
  have hadd : u.ledger = s.ledger.add [] [] := by rw [hledger, Ledger.add_nil]
  refine head hadd ?_
  rwa [List.append_nil, List.append_nil]

/-- A task that goes nowhere. -/
theorem stay {phase : Phase} (hphase : s.ledger.phases[n]? = some phase)
    (h : Transcript s.name s.endpoints n phase acts deeds) : Continues n acts deeds s s := by
  refine ⟨[], [], phase, ?_, by simpa using h⟩
  rw [Ledger.add_nil, Ledger.put_self hphase]

/-! ### The parts of a turn -/

theorem finish (s : Store) (n : Nat) (answer : Except Failure Answer) :
    Continues n [] [] s (s.finish n answer) := by
  obtain ⟨last, hlast, hledger⟩ := ledger_finish s n answer
  exact ⟨last, [], .done, hledger, .idle hlast⟩

theorem tell (s : Store) (n cell : Nat) (outcome : Except Failure Unit) (wanted : Followup) :
    Continues n [] [] s (s.tell n cell outcome wanted) := by
  obtain ⟨last, hlast, hledger⟩ := ledger_tell s n cell outcome wanted
  exact ⟨last, [], .done, hledger, .idle hlast⟩

theorem complete {op : Remote} {lock : Option Lock} (hguarded : op.Guarded lock) (number : Nat)
    (goal : Goal) (reply : Reply) :
    Continues n (op.opening s.name s.endpoints lock number) [.sent n op] s
      (s.complete n op lock goal reply) := by
  obtain ⟨last, hlast, hledger⟩ := ledger_complete s n op lock goal reply
  exact ⟨_, _, .done, hledger, .completed hguarded hlast⟩

theorem send (tr : Transport) {op : Remote} {lock : Option Lock} (hguarded : op.Guarded lock)
    (goal : Goal) :
    Continues n (op.asking s.name ++ acquiring lock ++ op.flagging true) [] s
      (s.send tr n op lock goal) := by
  unfold Store.send
  split
  · next reply _ => exact head (ledger_sendOff s n op) (complete hguarded _ goal reply)
  · refine ⟨_, _, .requesting s.requests.length op lock goal, ?_, .requesting hguarded⟩
    rw [ledger_await, ledger_sendOff]

theorem locked (tr : Transport) {op : Remote} (hneeds : op.lock?.isSome = true) (lock : Lock)
    (goal : Goal) : Continues n (op.asking s.name) [] s (s.locked tr n op lock goal) := by
  have hguarded : op.Guarded (some lock) := hneeds.symm
  have hledger : ((s.note (.acquired lock)).setFlag op true).ledger
      = s.ledger.add (acquiring (some lock) ++ op.flagging true) [] := by simp [acquiring]
  have hname : ((s.note (.acquired lock)).setFlag op true).name = s.name :=
    congrArg Ledger.name hledger
  have hsend := send (n := n) tr hguarded goal (s := (s.note (.acquired lock)).setFlag op true)
  rw [hname, List.append_assoc] at hsend
  exact head hledger hsend

theorem startRemote (tr : Transport) (s : Store) (n : Nat) (op : Remote) (goal : Goal) :
    Continues n [] [] s (s.startRemote tr n op goal) := by
  unfold Store.startRemote
  split
  · next hnone =>
    -- No lock is asked for, and there is no flag either.
    have hguarded : op.Guarded none := by rw [Remote.Guarded, hnone]; rfl
    have hnothing : op.asking s.name ++ acquiring none ++ op.flagging true = [] := by
      cases op with
      | fetchGroups => rfl
      | _ => cases hnone
    exact hnothing ▸ send tr hguarded goal
  · next scope mode hsome =>
    have hneeds : op.lock?.isSome = true := by rw [hsome]; rfl
    have hasking : op.asking s.name = [.asked s.name scope mode] := by
      rw [Remote.asking, hsome]
      rfl
    split
    · next lock locks _ =>
      have hlocked := locked (n := n) tr hneeds lock goal (s := { s with locks }.ask scope mode)
      refine head (ledger_ask { s with locks } scope mode) ?_
      exact hasking ▸ hlocked
    · next ticket locks _ =>
      refine ⟨op.asking s.name, [], .locking ticket op goal, ?_, .locking hneeds⟩
      rw [ledger_setPhase, ledger_ask, hasking]
      rfl

theorem join (tr : Transport) (cell : Nat) (wanted : Followup) {phase : Phase}
    (hphase : s.ledger.phases[n]? = some phase)
    (h : Transcript s.name s.endpoints n phase [] []) :
    Continues n [] [] s (s.join tr n cell wanted) := by
  unfold Store.join
  split
  · exact stay hphase h
  · split
    · exact tell s n cell _ wanted
    · split
      · exact congr (u := (s.modifyCell cell _).tried _) rfl (startRemote tr _ n _ _)
      · refine ⟨[], [], .joining cell wanted, ?_, .joining cell wanted⟩
        rw [ledger_setPhase, ledger_modifyCell, Ledger.add_nil]

theorem want (tr : Transport) (wanted : Followup) {call : Call}
    (hphase : s.ledger.phases[n]? = some (.ready call)) :
    Continues n [] [] s (s.want tr n wanted) := by
  have hledger := ledger_cellOf s wanted.key
  have hphase' : (s.cellOf wanted.key).2.ledger.phases[n]? = some (.ready call) := by
    rw [hledger, hphase]
  exact congr hledger (join tr _ wanted hphase' (.ready call))

theorem begin (tr : Transport) {call : Call}
    (hphase : s.ledger.phases[n]? = some (.ready call)) :
    Continues n [] [] s (s.begin tr n call) := by
  have hwant : ∀ wanted, Continues n [] [] s (s.want tr n wanted) := fun wanted =>
    want tr wanted hphase
  cases call with
  | editSettings group updates =>
    rw [Store.begin]
    split
    · exact hwant _
    · exact finish s n _
  | saveSetting group id value => exact startRemote tr s n _ _
  | saveSettings group updates => exact startRemote tr s n _ _
  | saveEditedSetting group id =>
    rw [Store.begin]
    refine congr (ledger_readEditedIds s group) ?_
    dsimp only
    split
    · split
      · exact startRemote tr _ n _ _
      · exact finish _ n _
    · exact finish _ n _
  | saveEditedSettings group =>
    rw [Store.begin]
    refine congr (ledger_readEditedIds s group) ?_
    dsimp only
    split
    · exact finish _ n _
    · exact startRemote tr _ n _ _
  | refuse failure => exact finish s n _
  | _ => exact hwant _

/-- A task that is dropped continues its transcript with what its phase still asks for. -/
theorem drop {phase : Phase} (h : Transcript s.name s.endpoints n phase acts deeds) :
    Continues n acts deeds s (s.drop n phase) := by
  refine ⟨phase.parting, phase.leaving n, .done, ledger_drop s n phase, ?_⟩
  cases phase with
  | ready call =>
    cases h
    exact .idle (by simp [Phase.parting])
  | joining cell wanted =>
    cases h
    exact .idle (by simp [Phase.parting])
  | locking ticket op goal =>
    cases h with
    | locking hneeds =>
      have hnothing : op.asking s.name ++ (Phase.locking ticket op goal).parting
          = op.asking s.name := List.append_nil _
      rw [hnothing]
      exact .withdrawn hneeds
  | requesting number op lock goal =>
    cases h with
    | requesting hguarded => exact .dropped hguarded
  | done => simpa only [Phase.parting, Phase.leaving, List.append_nil] using h

/-- **A turn continues a transcript.** -/
theorem turn (tr : Transport) {t : Task} (hn : s.tasks[n]? = some t)
    (h : Transcript s.name s.endpoints n t.phase acts deeds) :
    Continues n acts deeds s (s.turn tr n) := by
  have hphase : s.ledger.phases[n]? = some t.phase := by simp [ledger, hn]
  unfold Store.turn
  rw [hn]
  dsimp only
  split
  · exact drop h
  · generalize t.phase = phase at h hphase
    cases h with
    | ready call => exact begin tr hphase
    | joining cell wanted => exact join tr cell wanted hphase (.joining cell wanted)
    | @locking ticket op goal hneeds =>
      dsimp only
      split
      · next lock locks _ =>
        exact congr (u := { s with locks }) rfl (locked tr hneeds lock goal)
      · exact stay hphase (.locking hneeds)
    | @requesting number op lock goal hguarded =>
      dsimp only
      split
      · next reply _ =>
        exact congr (u := { s with replies := s.replies.erase number }) rfl
          (complete hguarded number goal reply)
      · exact stay hphase (.requesting hguarded)
    | idle hlast => exact stay hphase (.idle hlast)
    | withdrawn hneeds => exact stay hphase (.withdrawn hneeds)
    | dropped hguarded => exact stay hphase (.dropped hguarded)
    | completed hguarded hlast => exact stay hphase (.completed hguarded hlast)

end Continues

end Store

/-- Whatever a task has done is its own. -/
theorem Transcript.task_eq {name : String} {e : Endpoints} {n : Nat} {phase : Phase}
    {acts : List Act} {deeds : List Deed} (h : Transcript name e n phase acts deeds) :
    ∀ d ∈ deeds, d.task = n := by
  cases h <;> simp [Deed.task]

/-! ### Runs, whatever hands out the locks -/

/-- A move, and the table of locks that it finds: the one that the store has left, or any other. -/
abbrev ManagedMove := Option LockTable × StoreMove

/-- The task that takes its turn. -/
def StoreMove.task? : StoreMove → Option Nat
  | turn _ n => some n
  | _ => none

/-- What is seen of a move that is no turn. -/
def StoreMove.acts : StoreMove → List Act
  | dispatch a => [.dispatched a]
  | _ => []

namespace Store

/-- The store with another table of locks, if there is one. -/
def withTable (s : Store) : Option LockTable → Store
  | some locks => { s with locks }
  | none => s

/-- The store after a move. -/
def manage (s : Store) (m : ManagedMove) : Store := (s.withTable m.1).move m.2

/-- The store after moves one after another. -/
def afterManaged (s : Store) (ms : List ManagedMove) : Store := ms.foldl manage s

/-- What is seen of a move, and whose turn it is. -/
def news (s : Store) (m : ManagedMove) : List (Option Nat × Act) :=
  ((s.manage m).acts.drop s.acts.length).map fun a => (m.2.task?, a)

/-- What is seen of moves one after another. -/
def story (s : Store) : List ManagedMove → List (Option Nat × Act)
  | [] => []
  | m :: ms => s.news m ++ (s.manage m).story ms

theorem story_snoc (s : Store) (ms : List ManagedMove) (m : ManagedMove) :
    s.story (ms ++ [m]) = s.story ms ++ (s.afterManaged ms).news m := by
  induction ms generalizing s with
  | nil => simp [story, afterManaged]
  | cons m' ms ih =>
    rw [List.cons_append, story, story, ih, List.append_assoc]
    rfl

theorem afterManaged_snoc (s : Store) (ms : List ManagedMove) (m : ManagedMove) :
    s.afterManaged (ms ++ [m]) = (s.afterManaged ms).manage m := List.foldl_append

@[simp] theorem ledger_withTable (s : Store) (locks : Option LockTable) :
    (s.withTable locks).ledger = s.ledger := by
  cases locks <;> rfl

theorem tasks_withTable (s : Store) (locks : Option LockTable) :
    (s.withTable locks).tasks = s.tasks := by
  cases locks <;> rfl

/-! ### Moves that are no turns -/

theorem ledger_spawn (s : Store) (call : Call) (quiet : Bool) :
    (s.spawn call quiet).2.ledger
      = { s.ledger with phases := s.ledger.phases ++ [.ready call] } := by
  rw [spawn, ledger_wake]
  simp [ledger]

theorem ledger_doom (s : Store) (n : Nat) :
    (s.modifyTask n fun t => { t with doomed := true }).ledger = s.ledger := by
  rw [ledger, map_doom fun _ => rfl]
  rfl

/-- A move that is no turn begins tasks, or applies an action. -/
theorem ledger_move (s : Store) {m : StoreMove} (hm : m.task? = none) :
    ∃ calls : List Call, (s.move m).ledger
      = { s.ledger with
          phases := s.ledger.phases ++ calls.map .ready
          acts := s.ledger.acts ++ m.acts } := by
  have hsame : ∀ {u : Store}, u.ledger = s.ledger → ∃ calls : List Call, u.ledger
      = { s.ledger with
          phases := s.ledger.phases ++ calls.map .ready
          acts := s.ledger.acts ++ [] } := by
    intro u hu
    exact ⟨[], by simp [hu]⟩
  cases m with
  | spawn call quiet =>
    refine ⟨[call], (ledger_spawn s call quiet).trans ?_⟩
    simp [StoreMove.acts]
  | turn tr n => cases hm
  | respond number reply =>
    refine hsame ?_
    rw [move, respond]
    split
    · exact ledger_wake _ _
    · rfl
  | cancel n =>
    refine hsame ?_
    rw [move, cancel]
    split
    · split
      · rfl
      · exact (ledger_wake _ _).trans (ledger_doom s n)
    · rfl
  | trigger canSpawn key =>
    rw [move, trigger]
    split
    · exact hsame rfl
    · refine ⟨[.background key], (ledger_spawn _ _ _).trans ?_⟩
      simp [StoreMove.acts]
  | dispatch a =>
    refine ⟨[], ?_⟩
    rw [move, ledger_dispatch]
    simp [Ledger.add, StoreMove.acts]
  | _ => exact hsame rfl

end Store

/-- What has been seen of a task. -/
def actsOf (n : Nat) (story : List (Option Nat × Act)) : List Act :=
  story.filterMap fun x => if x.1 = some n then some x.2 else none

theorem actsOf_append (n : Nat) (story more : List (Option Nat × Act)) :
    actsOf n (story ++ more) = actsOf n story ++ actsOf n more := List.filterMap_append

theorem actsOf_map_self (n : Nat) (acts : List Act) :
    actsOf n (acts.map fun a => (some n, a)) = acts := by
  simp [actsOf, List.filterMap_map]

theorem actsOf_map_of_ne {n : Nat} {m : Option Nat} (h : m ≠ some n) (acts : List Act) :
    actsOf n (acts.map fun a => (m, a)) = [] := by
  simp [actsOf, List.filterMap_map, h]

/-- How far a task has come; one that has not been begun is as one that is about to begin. -/
def Ledger.phase (l : Ledger) (n : Nat) : Phase := l.phases[n]?.getD (.ready .resolveGroups)

theorem Ledger.phase_put {l : Ledger} {n : Nat} (h : n < l.phases.length) (p : Phase) (m : Nat) :
    (l.put n p).phase m = if n = m then p else l.phase m := by
  rw [phase, phase, put, List.getElem?_set]
  by_cases hm : n = m
  · rw [if_pos hm, if_pos hm, if_pos h, Option.getD_some]
  · rw [if_neg hm, if_neg hm]

theorem Ledger.phase_add (l : Ledger) (acts : List Act) (deeds : List Deed) (n : Nat) :
    (l.add acts deeds).phase n = l.phase n := rfl

/-- Where tasks are begun, each stands where it stood, or it has not been begun before. -/
theorem Ledger.phase_append (l : Ledger) (calls : List Call) (acts : List Act) (n : Nat) :
    Ledger.phase { l with phases := l.phases ++ calls.map .ready, acts } n = l.phase n ∨
      l.phase n = .ready .resolveGroups ∧ ∃ call,
        Ledger.phase { l with phases := l.phases ++ calls.map .ready, acts } n = .ready call := by
  rw [phase, phase, List.getElem?_append]
  split
  · exact Or.inl rfl
  · next hn =>
    rw [List.getElem?_eq_none (Nat.not_lt.mp hn), List.getElem?_map]
    refine Or.inr ⟨rfl, ?_⟩
    cases calls[n - l.phases.length]? with
    | none => exact ⟨_, rfl⟩
    | some call => exact ⟨call, rfl⟩

/-- Of a task that is about to begin nothing has been seen, whatever its call is. -/
theorem Transcript.of_ready {name : String} {e : Endpoints} {n : Nat} {call : Call}
    {acts : List Act} {deeds : List Deed} (h : Transcript name e n (.ready call) acts deeds)
    (call' : Call) : Transcript name e n (.ready call') acts deeds := by
  cases h
  exact .ready call'

/-- The transcripts of all tasks, after what has been seen. -/
structure Transcribed (name : String) (e : Endpoints) (story : List (Option Nat × Act))
    (s : Store) : Prop where
  name_eq : s.name = name
  endpoints_eq : s.endpoints = e
  acts : story.map (·.2) = s.acts
  transcript : ∀ n, Transcript name e n (s.ledger.phase n) (actsOf n story)
    (s.deeds.filter (·.task = n))

namespace Transcribed

variable {name : String} {e : Endpoints} {story : List (Option Nat × Act)} {s : Store}

theorem fresh (name : String) (e : Endpoints) : Transcribed name e [] (Store.fresh name e) where
  name_eq := rfl
  endpoints_eq := rfl
  acts := rfl
  transcript _ := .ready .resolveGroups

/-- What is seen of a move that is no turn is no task's. -/
theorem other (h : Transcribed name e story s) {m : StoreMove} (hm : m.task? = none) :
    Transcribed name e (story ++ m.acts.map fun a => (none, a)) (s.move m) := by
  obtain ⟨calls, hledger⟩ := s.ledger_move hm
  have hname : (s.move m).name = s.name := congrArg Ledger.name hledger
  have hendpoints : (s.move m).endpoints = s.endpoints := congrArg Ledger.endpoints hledger
  have hacts : (s.move m).acts = s.acts ++ m.acts := congrArg Ledger.acts hledger
  have hdeeds : (s.move m).deeds = s.deeds := congrArg Ledger.deeds hledger
  refine ⟨hname.trans h.name_eq, hendpoints.trans h.endpoints_eq, ?_, fun n => ?_⟩
  · simp [h.acts, hacts, Function.comp_def]
  · have hn := h.transcript n
    rw [actsOf_append, actsOf_map_of_ne (Option.some_ne_none n).symm, List.append_nil, hdeeds,
      hledger]
    rcases s.ledger.phase_append calls (s.ledger.acts ++ m.acts) n with heq | ⟨hnew, call, hcall⟩
    · exact heq ▸ hn
    · rw [hnew] at hn
      exact hcall ▸ hn.of_ready call

/-- What is seen of a turn continues the transcript of its task, and leaves the others alone. -/
theorem turn (h : Transcribed name e story s) (tr : Transport) (n : Nat) :
    ∃ more : List Act,
      Transcribed name e (story ++ more.map fun a => (some n, a)) (s.turn tr n) := by
  cases ht : s.tasks[n]? with
  | none =>
    refine ⟨[], ?_⟩
    rw [Store.turn, ht]
    simpa using h
  | some t =>
    have hphase : s.ledger.phases[n]? = some t.phase := by simp [Store.ledger, ht]
    have hlt : n < s.ledger.phases.length := (List.getElem?_eq_some_iff.mp hphase).1
    have hn := h.transcript n
    rw [Ledger.phase, hphase, Option.getD_some, ← h.name_eq, ← h.endpoints_eq] at hn
    obtain ⟨more, done, phase, hledger, htranscript⟩ := Store.Continues.turn tr ht hn
    rw [h.name_eq, h.endpoints_eq] at htranscript
    have hname : (s.turn tr n).name = s.name := congrArg Ledger.name hledger
    have hendpoints : (s.turn tr n).endpoints = s.endpoints := congrArg Ledger.endpoints hledger
    have hacts : (s.turn tr n).acts = s.acts ++ more := congrArg Ledger.acts hledger
    have hdeeds : (s.turn tr n).deeds = s.deeds ++ done := congrArg Ledger.deeds hledger
    have hown : ∀ d ∈ done, d.task = n := fun d hd =>
      htranscript.task_eq d (List.mem_append_right _ hd)
    refine ⟨more, hname.trans h.name_eq, hendpoints.trans h.endpoints_eq, ?_, fun m => ?_⟩
    · simp [h.acts, hacts, Function.comp_def]
    · rw [hledger, Ledger.phase_put (l := s.ledger.add more done) hlt, actsOf_append, hdeeds,
        List.filter_append]
      split
      · next hm =>
        subst hm
        rw [actsOf_map_self, List.filter_eq_self.mpr fun d hd => decide_eq_true (hown d hd)]
        exact htranscript
      · next hm =>
        have hnone : done.filter (·.task = m) = [] :=
          List.filter_eq_nil_iff.mpr fun d hd heq =>
            hm ((hown d hd).symm.trans (of_decide_eq_true heq))
        rw [actsOf_map_of_ne (fun heq => hm (Option.some.inj heq)), hnone, List.append_nil,
          List.append_nil, Ledger.phase_add]
        exact h.transcript m

/-- What is seen of a move. -/
theorem manage (h : Transcribed name e story s) (m : ManagedMove) :
    Transcribed name e (story ++ s.news m) (s.manage m) := by
  have htable : Transcribed name e story (s.withTable m.1) := by
    have hledger := s.ledger_withTable m.1
    refine ⟨(congrArg Ledger.name hledger).trans h.name_eq,
      (congrArg Ledger.endpoints hledger).trans h.endpoints_eq,
      h.acts.trans (congrArg Ledger.acts hledger).symm, fun n => ?_⟩
    rw [hledger, show (s.withTable m.1).deeds = s.deeds from congrArg Ledger.deeds hledger]
    exact h.transcript n
  have hnext : ∃ more : List Act, Transcribed name e (story ++ more.map fun a => (m.2.task?, a))
      (s.manage m) := by
    rw [Store.manage]
    cases hm : m.2 with
    | turn tr n =>
      have hline : Transcribed name e story { s.withTable m.1 with
          line := (s.withTable m.1).line.erase n } :=
        ⟨htable.name_eq, htable.endpoints_eq, htable.acts, htable.transcript⟩
      exact hline.turn tr n
    | _ => exact ⟨_, htable.other rfl⟩
  obtain ⟨more, hmore⟩ := hnext
  have hacts : (s.manage m).acts = s.acts ++ more := by
    rw [← hmore.acts, List.map_append, h.acts, List.map_map]
    simp [Function.comp_def]
  rw [Store.news, hacts, List.drop_left]
  exact hmore

/-- **The transcripts of a run**, whatever hands out the locks. -/
theorem afterManaged (name : String) (e : Endpoints) (ms : List ManagedMove) :
    Transcribed name e ((Store.fresh name e).story ms) ((Store.fresh name e).afterManaged ms) := by
  induction ms using List.reverseRecOn with
  | nil => exact fresh name e
  | append_singleton ms m ih =>
    rw [Store.story_snoc, Store.afterManaged_snoc]
    exact ih.manage m

end Transcribed

end RemoteSettings
