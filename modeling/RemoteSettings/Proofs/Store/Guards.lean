import RemoteSettings.Proofs.Store.Evolution
import RemoteSettings.Proofs.Store.Transcript

/-!
# Guards are taken and given back in order

What a transcript says of locks and flags: a lock that a task gets hold of it releases, and a flag
that it raises it lowers, each once, and while it waits for its reply it has the lock in hand and
the flag up.  This holds of every run, whatever hands out the locks and wherever tasks are dropped.

## Main definitions

* `locksGot`, `locksReleased`, `flagMoves` — what acts say of locks and flags.
* `Harmless` — acts that say nothing of locks and flags.
* `Phase.held?`, `Phase.flag?` — the lock that a task has in hand, and the flag that it holds up.
* `Task.Disciplined`, `Remote.Disciplined`, `Store.Disciplined` — what is in order with a task, an
  operation and a store.

## Main results

* `Transcript.locks_eq`, `Transcript.flags_eq` — what a transcript says of locks and flags.
* `guards_are_disciplined` — **locks and flags are taken and given back in order.**
-/

namespace RemoteSettings

/-! ### Locks and flags -/

/-- The locks that have been got hold of. -/
def locksGot (acts : List Act) : List Lock :=
  acts.filterMap fun
    | .happened (.acquired lock) => some lock
    | _ => none

/-- The locks that have been released. -/
def locksReleased (acts : List Act) : List Lock :=
  acts.filterMap fun
    | .happened (.released lock) => some lock
    | _ => none

/-- The flag that an action raises or lowers. -/
def Action.flagMove? : Action → Option (Flag × Bool)
  | setSaving group id up => some ((group, id), up)
  | _ => none

/-- The flags that have been raised and lowered. -/
def flagMoves (acts : List Act) : List (Flag × Bool) :=
  (actionsIn acts).filterMap Action.flagMove?

/-- Acts that say nothing of locks and flags. -/
structure Harmless (acts : List Act) : Prop where
  got : locksGot acts = []
  released : locksReleased acts = []
  flags : flagMoves acts = []

theorem Harmless.of_forall {acts : List Act}
    (h : ∀ a ∈ acts, (∀ lock, a ≠ .happened (.acquired lock)) ∧
      (∀ lock, a ≠ .happened (.released lock)) ∧
      ∀ group id up, a ≠ .dispatched (.setSaving group id up)) : Harmless acts := by
  refine ⟨List.filterMap_eq_nil_iff.mpr fun a ha => ?_,
    List.filterMap_eq_nil_iff.mpr fun a ha => ?_,
    List.filterMap_eq_nil_iff.mpr fun a ha => ?_⟩
  · split
    · next lock => exact absurd rfl ((h _ ha).1 lock)
    · rfl
  · split
    · next lock => exact absurd rfl ((h _ ha).2.1 lock)
    · rfl
  · cases a with
    | setSaving group id up => exact absurd rfl ((h _ (mem_actionsIn.mp ha)).2.2 group id up)
    | _ => rfl

theorem Act.harmless_of_isAfterword {acts : List Act} (h : ∀ a ∈ acts, a.IsAfterword) :
    Harmless acts := by
  refine .of_forall fun a ha => ?_
  cases h a ha <;> simp

namespace Remote

/-- The actions to which a reply leads are about the group that was asked for: settings are reported
or an error is set. -/
theorem mem_commit {op : Remote} {group : String} {id : Option String}
    (htarget : op.target? = some (group, id)) (reply : Reply) :
    ∀ a ∈ (op.commit reply).1, (∃ xs, a = .receiveSettings group xs) ∨
      ∃ i f, a = .setError group i (some f) := by
  cases op with
  | fetchGroups => cases htarget
  | fetchSettings g =>
    cases htarget
    rw [commit]
    split <;> simp
  | fetchSetting g i =>
    cases htarget
    rw [commit]
    split <;> simp
  | saveSetting g i value =>
    cases htarget
    rw [commit]
    split <;> simp
  | saveBatch g updates =>
    cases htarget
    rw [commit]
    split
    · next r _ =>
      intro a ha
      rcases List.mem_append.mp ha with ha | ha
      · obtain ⟨x, -, rfl⟩ := List.mem_map.mp ha
        exact Or.inr ⟨_, _, rfl⟩
      · split at ha
        · exact absurd ha List.not_mem_nil
        · exact Or.inl ⟨_, List.mem_singleton.mp ha⟩
    · split <;> simp

theorem harmless_committing (op : Remote) (reply : Reply) : Harmless (op.committing reply) := by
  have hcommit : ∀ a ∈ (op.commit reply).1, ∀ group id up, a ≠ .setSaving group id up := by
    intro a ha group id up
    cases htarget : op.target? with
    | none =>
      cases op with
      | fetchGroups =>
        rw [commit] at ha
        split at ha
        · rw [List.mem_singleton.mp ha]
          exact nofun
        · exact absurd ha List.not_mem_nil
      | _ => cases htarget
    | some t =>
      rcases mem_commit htarget reply a ha with ⟨xs, rfl⟩ | ⟨i, f, rfl⟩ <;> simp
  refine .of_forall fun a ha => ?_
  obtain ⟨action, haction, rfl⟩ := List.mem_map.mp ha
  refine ⟨nofun, nofun, fun group id up heq => ?_⟩
  cases heq
  exact hcommit _ haction group id up rfl

theorem harmless_asking (op : Remote) (name : String) : Harmless (op.asking name) := by
  refine .of_forall fun a ha => ?_
  obtain ⟨l, -, rfl⟩ := List.mem_map.mp ha
  simp

end Remote

section Append

variable (acts more : List Act)

@[simp] theorem locksGot_append : locksGot (acts ++ more) = locksGot acts ++ locksGot more :=
  List.filterMap_append

@[simp] theorem locksReleased_append :
    locksReleased (acts ++ more) = locksReleased acts ++ locksReleased more := List.filterMap_append

@[simp] theorem flagMoves_append : flagMoves (acts ++ more) = flagMoves acts ++ flagMoves more := by
  rw [flagMoves, actionsIn_append, List.filterMap_append, flagMoves, flagMoves]

end Append

theorem acquiring_says (lock : Option Lock) :
    locksGot (acquiring lock) = lock.toList ∧ locksReleased (acquiring lock) = [] ∧
      flagMoves (acquiring lock) = [] := by
  cases lock <;> exact ⟨rfl, rfl, rfl⟩

theorem releasing_says (lock : Option Lock) :
    locksGot (releasing lock) = [] ∧ locksReleased (releasing lock) = lock.toList ∧
      flagMoves (releasing lock) = [] := by
  cases lock <;> exact ⟨rfl, rfl, rfl⟩

namespace Remote

theorem flagging_says (op : Remote) (up : Bool) :
    locksGot (op.flagging up) = [] ∧ locksReleased (op.flagging up) = [] ∧
      flagMoves (op.flagging up) = op.flag?.toList.map (·, up) := by
  rw [flagging]
  cases op.flag? <;> exact ⟨rfl, rfl, rfl⟩

/-- An operation that has begun has its lock in hand and its flag up. -/
theorem opening_says (op : Remote) (name : String) (e : Endpoints) (lock : Option Lock)
    (number : Nat) :
    locksGot (op.opening name e lock number) = lock.toList ∧
      locksReleased (op.opening name e lock number) = [] ∧
      flagMoves (op.opening name e lock number) = op.flag?.toList.map (·, true) := by
  have hasking := op.harmless_asking name
  obtain ⟨hgot, hreleased, hflags⟩ := acquiring_says lock
  obtain ⟨hgot', hreleased', hflags'⟩ := op.flagging_says true
  have hrequest : Harmless [.happened (.requested number (op.request e))] := ⟨rfl, rfl, rfl⟩
  refine ⟨?_, ?_, ?_⟩
  · simp [opening, hasking.got, hgot, hgot', hrequest.got]
  · simp [opening, hasking.released, hreleased, hreleased', hrequest.released]
  · simp [opening, hasking.flags, hflags, hflags', hrequest.flags]

/-- An operation that ends lowers its flag and gives its lock back. -/
theorem closing_says (op : Remote) (lock : Option Lock) :
    locksGot (op.closing lock) = [] ∧ locksReleased (op.closing lock) = lock.toList ∧
      flagMoves (op.closing lock) = op.flag?.toList.map (·, false) := by
  obtain ⟨hgot, hreleased, hflags⟩ := op.flagging_says false
  obtain ⟨hgot', hreleased', hflags'⟩ := releasing_says lock
  refine ⟨?_, ?_, ?_⟩
  · simp [closing, hgot, hgot']
  · simp [closing, hreleased, hreleased']
  · simp [closing, hflags, hflags']

end Remote

/-- The lock that a task has in hand. -/
def Phase.held? : Phase → Option Lock
  | requesting _ _ lock _ => lock
  | _ => none

/-- The flag that a task holds up. -/
def Phase.flag? : Phase → Option Flag
  | requesting _ op _ _ => op.flag?
  | _ => none

namespace Transcript

variable {name : String} {e : Endpoints} {n : Nat} {phase : Phase} {acts : List Act}
  {deeds : List Deed}

/-- A lock that a task has got hold of has been released, or is still in hand; and a task gets hold
of one lock at most. -/
theorem locks_eq (h : Transcript name e n phase acts deeds) :
    locksGot acts = locksReleased acts ++ phase.held?.toList ∧ (locksGot acts).length ≤ 1 := by
  have hnone : ∀ {acts}, Harmless acts →
      locksGot acts = locksReleased acts ++ (none : Option Lock).toList ∧
        (locksGot acts).length ≤ 1 := by
    intro acts hacts
    rw [hacts.got, hacts.released]
    exact ⟨rfl, Nat.zero_le 1⟩
  have hone : ∀ lock : Option Lock, lock.toList.length ≤ 1 := by
    rintro (_ | _) <;> simp
  cases h with
  | ready call => exact ⟨rfl, Nat.zero_le 1⟩
  | joining cell wanted => exact ⟨rfl, Nat.zero_le 1⟩
  | locking => exact hnone (Remote.harmless_asking _ name)
  | @requesting number op lock goal =>
    obtain ⟨hgot, hreleased, -⟩ := op.opening_says name e lock number
    rw [hgot, hreleased]
    exact ⟨rfl, hone lock⟩
  | idle hlast => exact hnone (Act.harmless_of_isAfterword hlast)
  | withdrawn => exact hnone (Remote.harmless_asking _ name)
  | @dropped number op lock =>
    obtain ⟨hgot, hreleased, -⟩ := op.opening_says name e lock number
    obtain ⟨hgot', hreleased', -⟩ := op.closing_says lock
    simp only [locksGot_append, locksReleased_append, hgot, hreleased, hgot', hreleased',
      List.append_nil, List.nil_append]
    exact ⟨(List.append_nil _).symm, hone lock⟩
  | @completed number op lock reply last _ hlast =>
    obtain ⟨hgot, hreleased, -⟩ := op.opening_says name e lock number
    obtain ⟨hgot', hreleased', -⟩ := op.closing_says lock
    have hcommitting := op.harmless_committing reply
    have hafter := Act.harmless_of_isAfterword hlast
    simp only [locksGot_append, locksReleased_append, hgot, hreleased, hgot', hreleased',
      hcommitting.got, hcommitting.released, hafter.got, hafter.released, List.append_nil,
      List.nil_append]
    exact ⟨(List.append_nil _).symm, hone lock⟩

/-- A flag that a task has raised is still up, or has been lowered once the task has ended. -/
theorem flags_eq (h : Transcript name e n phase acts deeds) :
    flagMoves acts = phase.flag?.toList.map (·, true) ∨
      phase = .done ∧ ∃ f, flagMoves acts = [(f, true), (f, false)] := by
  -- A flag that has been raised and lowered again, if there is one.
  have hboth : ∀ (op : Remote) {acts : List Act},
      flagMoves acts = op.flag?.toList.map (·, true) ++ op.flag?.toList.map (·, false) →
      flagMoves acts = [] ∨ ∃ f, flagMoves acts = [(f, true), (f, false)] := by
    intro op acts hacts
    cases hflag : op.flag? with
    | none => exact Or.inl (by rw [hacts, hflag]; rfl)
    | some f => exact Or.inr ⟨f, by rw [hacts, hflag]; rfl⟩
  cases h with
  | ready call => exact Or.inl rfl
  | joining cell wanted => exact Or.inl rfl
  | locking => exact Or.inl (Remote.harmless_asking _ name).flags
  | @requesting number op lock goal => exact Or.inl (op.opening_says name e lock number).2.2
  | idle hlast => exact Or.inl (Act.harmless_of_isAfterword hlast).flags
  | withdrawn => exact Or.inl (Remote.harmless_asking _ name).flags
  | @dropped number op lock =>
    refine (hboth op ?_).imp_right fun hf => ⟨rfl, hf⟩
    rw [flagMoves_append, (op.opening_says name e lock number).2.2, (op.closing_says lock).2.2]
  | @completed number op lock reply last _ hlast =>
    refine (hboth op ?_).imp_right fun hf => ⟨rfl, hf⟩
    simp only [flagMoves_append, (op.opening_says name e lock number).2.2,
      (op.closing_says lock).2.2, (op.harmless_committing reply).flags,
      (Act.harmless_of_isAfterword hlast).flags, List.nil_append, List.append_nil]

end Transcript

/-! ### Guard discipline -/

/-- The turn of a task that has been cancelled shows what its phase still asks for, and nothing
else, and it is its last. -/
theorem Store.news_of_doomed {s : Store} {n : Nat} {t : Task} (hn : s.tasks[n]? = some t)
    (hdoomed : t.doomed = true) (locks : Option LockTable) (tr : Transport) :
    s.news (locks, .turn tr n) = t.phase.parting.map (fun a => (some n, a)) ∧
      (s.manage (locks, .turn tr n)).ledger.phase n = .done := by
  have hlt : n < s.ledger.phases.length := by
    simpa [Store.ledger] using (List.getElem?_eq_some_iff.mp hn).1
  have hledger : (s.manage (locks, .turn tr n)).ledger
      = (s.ledger.add t.phase.parting (t.phase.leaving n)).put n .done := by
    have hline : { s.withTable locks with line := (s.withTable locks).line.erase n }.ledger
        = s.ledger := s.ledger_withTable locks
    have hn' : (s.withTable locks).tasks[n]? = some t := by rw [tasks_withTable, hn]
    have hturn : s.manage (locks, .turn tr n)
        = { s.withTable locks with line := (s.withTable locks).line.erase n }.drop n t.phase :=
      turn_of_doomed (s := { s.withTable locks with line := _ }) hn' hdoomed
    rw [hturn, ledger_drop, hline]
  have hacts : (s.manage (locks, .turn tr n)).acts = s.acts ++ t.phase.parting :=
    congrArg Ledger.acts hledger
  refine ⟨by rw [news, hacts, List.drop_left]; rfl, ?_⟩
  rw [hledger, Ledger.phase_put (l := s.ledger.add _ _) hlt, if_pos rfl]

/-- What has been seen of a task is in order, and so is what will be seen of it if it has been
cancelled. -/
structure Task.Disciplined (name : String) (endpoints : Endpoints) (s : Store)
    (story : List (Option Nat × Act)) (n : Nat) (t : Task) : Prop where
  /-- What has been seen of the task is what its transcript says. -/
  transcript :
    Transcript name endpoints n t.phase (actsOf n story) (s.deeds.filter (·.task = n))
  /-- A lock that it gets hold of it releases once, and only while it waits for the reply is the lock
  in its hands. -/
  locks : locksGot (actsOf n story) = locksReleased (actsOf n story) ++ t.phase.held?.toList
  /-- It gets hold of one lock at most. -/
  oneLock : (locksGot (actsOf n story)).length ≤ 1
  /-- A flag that it raises it lowers once, and only while it waits for the reply is the flag up. -/
  flags : flagMoves (actsOf n story) = t.phase.flag?.toList.map (·, true) ∨
    t.phase = .done ∧ ∃ f, flagMoves (actsOf n story) = [(f, true), (f, false)]
  /-- Once it has been cancelled, only its flag is lowered and its lock released with its last turn,
  if it was waiting for the reply, and nothing is seen of it otherwise. -/
  parting : t.doomed = true → ∀ locks tr,
    s.news (locks, .turn tr n) = t.phase.parting.map (fun a => (some n, a)) ∧
      (s.manage (locks, .turn tr n)).ledger.phase n = .done

/-- What an operation asks for, and what it leads to, is in order. -/
structure Remote.Disciplined (name : String) (group : String) (id : Option String) (op : Remote) :
    Prop where
  /-- A fetch asks for a shared lock and a save for an exclusive one, on what it is about. -/
  asking : op.asking name = [.asked name (Remote.scopeOf (group, id))
    (if op.isSave then .exclusive else .shared)]
  /-- A save has the flag of what it is about, and a fetch has none. -/
  flag : op.flag? = if op.isSave then some (group, id) else none
  /-- A reply leads to reports and errors only. -/
  reports : ∀ reply, ∀ a ∈ (op.commit reply).1, (∃ xs, a = .receiveSettings group xs) ∨
    ∃ i f, a = .setError group i (some f)

/-- Locks and flags have been taken and given back in order. -/
structure Store.Disciplined (name : String) (endpoints : Endpoints) (s : Store)
    (story : List (Option Nat × Act)) : Prop where
  /-- The story is what has been seen of the store. -/
  acts : story.map (·.2) = s.acts
  tasks : ∀ (n : Nat) (t : Task), s.tasks[n]? = some t →
    t.Disciplined name endpoints s story n
  operations : ∀ (op : Remote) (group : String) (id : Option String),
    op.target? = some (group, id) → op.Disciplined name group id

/-- **Locks and flags are taken and given back in order**, whatever hands out the locks, in whatever
order tasks take their turns and are cancelled, and whatever is answered. -/
theorem guards_are_disciplined (name : String) (endpoints : Endpoints) (ms : List ManagedMove) :
    Store.Disciplined name endpoints ((Store.fresh name endpoints).afterManaged ms)
      ((Store.fresh name endpoints).story ms) := by
  have h := Transcribed.afterManaged name endpoints ms
  refine ⟨h.acts, fun n t hn => ?_, fun op group id htarget => ⟨?_, ?_, ?_⟩⟩
  · have htranscript := h.transcript n
    rw [Ledger.phase, show (Store.ledger _).phases[n]? = some t.phase by simp [Store.ledger, hn]]
      at htranscript
    exact ⟨htranscript, htranscript.locks_eq.1, htranscript.locks_eq.2, htranscript.flags_eq,
      fun hdoomed locks tr => Store.news_of_doomed hn hdoomed locks tr⟩
  · rw [Remote.asking, op.lock?_eq, htarget]
    rfl
  · cases op <;> cases htarget <;> rfl
  · exact Remote.mem_commit htarget

/-- A lock that nobody has asked for. -/
def strangeLock : Lock := ⟨7, "x", .ofGroup "h", .shared⟩

/-- A save waits for its reply and is cancelled; meanwhile the batch that waits for its lock is
served with a strange one, and fails. -/
def strangelyServed : List ManagedMove :=
  [(none, .spawn (.saveSetting "g" "a" (.bool true)) false), (none, .turn .later 0),
    (none, .spawn (.saveSettings "g" (.list [⟨"a", .bool false⟩])) false), (none, .turn .later 1),
    (some { sent := [(0, strangeLock)] }, .turn .later 1),
    (none, .respond 1 (.error (.transport "refused"))), (none, .turn .later 1), (none, .cancel 0)]

/-- The batch has released the strange lock once, and raised and lowered the flag of the group; and
the save that was cancelled lowers its flag and releases its lock with its last turn. -/
theorem strangelyServed_gives_back :
    let s := (Store.fresh "s" ⟨"", "/groups"⟩).afterManaged strangelyServed
    let story := (Store.fresh "s" ⟨"", "/groups"⟩).story strangelyServed
    locksGot (actsOf 1 story) = [strangeLock] ∧ locksReleased (actsOf 1 story) = [strangeLock] ∧
      (∃ f, flagMoves (actsOf 1 story) = [(f, true), (f, false)]) ∧
      s.news (none, .turn .later 0)
        = [(some 0, .dispatched (.setSaving "g" (some "a") false)),
          (some 0, .happened (.released ⟨0, "s", .ofSetting "g" "a", .exclusive⟩))] := by
  intro s story
  have hdisciplined := guards_are_disciplined "s" ⟨"", "/groups"⟩ strangelyServed
  obtain ⟨t, hbatch, hdone, hgot⟩ : ∃ t, s.tasks[1]? = some t ∧ t.phase = .done ∧
      locksGot (actsOf 1 story) = [strangeLock] := ⟨_, rfl, rfl, rfl⟩
  obtain ⟨-, hlocks, -, hflags, -⟩ := hdisciplined.tasks 1 t hbatch
  obtain ⟨u, hsave, hdoomed, hparting⟩ : ∃ u, s.tasks[0]? = some u ∧ u.doomed = true ∧
      u.phase.parting = [.dispatched (.setSaving "g" (some "a") false),
        .happened (.released ⟨0, "s", .ofSetting "g" "a", .exclusive⟩)] := ⟨_, rfl, rfl, rfl⟩
  have hlast := (hdisciplined.tasks 0 u hsave).parting
  have hraised : flagMoves (actsOf 1 story) ≠ [] :=
    List.cons_ne_nil (("g", none), true) [(("g", none), false)]
  refine ⟨hgot, ?_, ?_, ?_⟩
  · rw [hdone, hgot] at hlocks
    exact hlocks.symm.trans rfl
  · rw [hdone] at hflags
    exact hflags.elim (fun hnone => absurd hnone hraised) (·.2)
  · rw [(hlast hdoomed none .later).1, hparting]
    rfl

end RemoteSettings
