import RemoteSettings.Proofs.State.Transitions
import RemoteSettings.Proofs.Store.Guards
import RemoteSettings.Proofs.Store.Isolation
import RemoteSettings.Proofs.Store.Tidy

/-!
# Saving flags are exact

Flags are no counters: whoever raises a flag that is up already would have it lowered by the first
of two.  But a save raises its flag only once it has its lock, and the locks of two saves of the
same settings never meet.  So no flag is raised while an overlapping one is up, whoever lowers a
flag has raised it, and at every moment the flags that are up are those that running saves hold up.

## Main definitions

* `State.flag`, `isUp` — whether a flag is up in a state, and after moves of flags.
* `Holds` — of what has been seen of a task, the last word on a flag is that it is raised.
* `Overlapping` — flags of the same settings.
* `FlagsInOrder` — flags are raised only where no overlapping one is up, and lowered by their
  holders.
* `Store.Awaits` — a task waits for the reply to an operation.

## Main results

* `flag_reduceAll`, `flag_after` — the last word on a flag counts.
* `FlagsInOrder.isUp_iff`, `FlagsInOrder.holder_unique` — what is up has one holder.
* `flagsInOrder_after` — the flags of a run are in order.
* `saving_flags_are_exact` — **a flag is up exactly while its save is running.**
-/

namespace RemoteSettings

/-! ### The last word on a flag counts -/

/-- Whether a flag is up. -/
def State.flag (s : State) : Flag → Bool
  | (group, none) => s.isGroupSaving group
  | (group, some id) => s.isSettingSaving group id

/-- Whether a flag is up after moves of flags. -/
def isUp (f : Flag) (moves : List (Flag × Bool)) : Bool :=
  moves.foldl (fun up m => if m.1 = f then m.2 else up) false

theorem isUp_append_singleton (f : Flag) (moves : List (Flag × Bool)) (m : Flag × Bool) :
    isUp f (moves ++ [m]) = if m.1 = f then m.2 else isUp f moves := by
  rw [isUp, List.foldl_append]
  rfl

/-- What is up has been raised. -/
theorem raised_of_isUp {f : Flag} {moves : List (Flag × Bool)} (h : isUp f moves = true) :
    (f, true) ∈ moves := by
  induction moves using List.reverseRecOn with
  | nil => exact absurd h Bool.false_ne_true
  | append_singleton moves m ih =>
    rw [isUp_append_singleton] at h
    split at h
    · next hm => simp [← hm, ← h]
    · exact List.mem_append_left _ (ih h)

/-- Whether a flag is up, said of what can be looked up. -/
def View.flag (v : View) : Flag → Bool
  | (group, none) => (v.savingGroup group).getD false
  | (group, some id) => (v.savingSetting group id).getD false

theorem View.flag_setSaving (v : View) (g : String) (id : Option String) (up : Bool) (f : Flag) :
    (v.apply (.setSaving g id up)).flag f = if (g, id) = f then up else v.flag f := by
  obtain ⟨h, i⟩ := f
  cases id with
  | none =>
    cases i with
    | none => by_cases hg : g = h <;> simp [apply, flag, hg]
    | some i => simp [apply, flag]
  | some id =>
    cases i with
    | none => simp [apply, flag]
    | some i =>
      by_cases hboth : g = h ∧ id = i
      · simp [apply, flag, replace, hboth]
      · have hne : ¬((g, some id) = (h, some i)) := by
          rintro ⟨⟩
          exact hboth ⟨rfl, rfl⟩
        rw [if_neg hne]
        exact congrArg (Option.getD · false) (if_neg hboth)

namespace State

theorem flag_eq_view (s : State) (f : Flag) : s.flag f = s.view.flag f := by
  obtain ⟨g, id⟩ := f
  cases id <;> rfl

/-- An action leaves the flags as they are, but for the one that it raises or lowers. -/
theorem flag_reduce (s : State) (now : Nat) (a : Action) (f : Flag) :
    (s.reduce now a).flag f
      = match a.flagMove? with
        | some m => if m.1 = f then m.2 else s.flag f
        | none => s.flag f := by
  cases a with
  | setSaving g id up =>
    rw [flag_eq_view, view_setSaving, View.flag_setSaving, flag_eq_view]
    rfl
  | setError g id error =>
    obtain ⟨h, i⟩ := f
    cases id <;> cases error <;> cases i <;> rfl
  | _ =>
    obtain ⟨h, i⟩ := f
    cases i <;> rfl

/-- The last word on a flag counts, at whatever moments actions are applied. -/
theorem flag_reduceAll (actions : List (Nat × Action)) (f : Flag) :
    (State.empty.reduceAll actions).flag f
      = isUp f ((actions.map (·.2)).filterMap Action.flagMove?) := by
  induction actions using List.reverseRecOn with
  | nil =>
    obtain ⟨g, id⟩ := f
    cases id <;> rfl
  | append_singleton actions a ih =>
    have hlast : State.empty.reduceAll (actions ++ [a])
        = (State.empty.reduceAll actions).reduce a.1 a.2 := List.foldl_append
    rw [hlast, flag_reduce, ih, List.map_append, List.filterMap_append]
    cases hmove : a.2.flagMove? with
    | none => simp [hmove]
    | some m => simp [hmove, isUp_append_singleton]

end State

/-- The last word on a flag counts in the state of a run. -/
theorem Store.flag_after (name : String) (endpoints : Endpoints) (ms : List StoreMove) (f : Flag) :
    ((Store.fresh name endpoints).after ms).state.flag f
      = isUp f (flagMoves ((Store.fresh name endpoints).after ms).acts) := by
  have h := (Evolves.after (Store.fresh name endpoints) ms).induction
    (P := fun state clock actions => (state.Kept ∧ state.BuiltBy clock) ∧
      state.flag f = isUp f (actions.filterMap Action.flagMove?)) ?_ ?_ ?_
  · exact h.2
  · rintro t ⟨ht, hflag⟩ a
    have htidy : t.Tidy := ⟨ht.1, ht.2⟩
    have hnext := htidy.dispatch a
    refine ⟨⟨hnext.kept, hnext.builtBy⟩, ?_⟩
    rw [htidy.dispatch_state, State.flag_reduce, hflag, List.filterMap_append]
    cases hmove : a.flagMove? with
    | none => simp [hmove]
    | some m => simp [hmove, isUp_append_singleton]
  · rintro state clock clock' actions hle ⟨ht, hflag⟩
    exact ⟨⟨ht.1, ht.2.mono hle⟩, hflag⟩
  · refine ⟨⟨State.Kept.empty, State.BuiltBy.empty 0⟩, ?_⟩
    exact State.flag_reduceAll [] f

/-! ### Who holds a flag up -/

/-- Of what has been seen of a task, the last word on a flag is that it is raised. -/
def Holds (story : List (Option Nat × Act)) (n : Nat) (f : Flag) : Prop :=
  isUp f (flagMoves (actsOf n story)) = true

/-- Flags of the same settings: of one group, and one is of all of it or both are of the same
setting. -/
def Overlapping (f f' : Flag) : Prop := f.1 = f'.1 ∧ (f.2 = none ∨ f'.2 = none ∨ f.2 = f'.2)

theorem Overlapping.refl (f : Flag) : Overlapping f f := ⟨rfl, Or.inr (Or.inr rfl)⟩

theorem Overlapping.symm {f f' : Flag} (h : Overlapping f f') : Overlapping f' f := by
  refine ⟨h.1.symm, ?_⟩
  rcases h.2 with hf | hf | hf
  · exact Or.inr (Or.inl hf)
  · exact Or.inl hf
  · exact Or.inr (Or.inr hf.symm)

/-- What may be seen after what has been seen: a task raises a flag only if no overlapping one is
held up, and whoever lowers a flag holds it up. -/
def MayBeSeen (story : List (Option Nat × Act)) (x : Option Nat × Act) : Prop :=
  ∀ f up, x.2 = .dispatched (.setSaving f.1 f.2 up) → ∃ n, x.1 = some n ∧
    if up then ∀ m f', Holds story m f' → ¬Overlapping f' f else Holds story n f

/-- Flags are raised only where no overlapping one is up, and lowered by their holders. -/
def FlagsInOrder (story : List (Option Nat × Act)) : Prop :=
  ∀ pre x, pre ++ [x] <+: story → MayBeSeen pre x

theorem FlagsInOrder.of_prefix {story pre : List (Option Nat × Act)} (h : FlagsInOrder story)
    (hpre : pre <+: story) : FlagsInOrder pre := fun pre' x hx => h pre' x (hx.trans hpre)

/-- One more act changes what is held only if it is the task's own and moves the flag. -/
theorem holds_append_singleton {story : List (Option Nat × Act)} {l : Option Nat} {g : String}
    {id : Option String} {up : Bool} {n : Nat} {f : Flag} :
    Holds (story ++ [(l, .dispatched (.setSaving g id up))]) n f ↔
      if l = some n ∧ (g, id) = f then up = true else Holds story n f := by
  rw [Holds, actsOf_append, flagMoves_append]
  by_cases hl : l = some n
  · have hacts : flagMoves (actsOf n [(l, .dispatched (.setSaving g id up))])
        = [((g, id), up)] := by
      rw [hl]
      simp [actsOf, flagMoves, actionsIn, Action.flagMove?]
    rw [hacts, isUp_append_singleton]
    by_cases hf : (g, id) = f
    · rw [if_pos hf, if_pos ⟨hl, hf⟩]
    · rw [if_neg hf, if_neg fun hboth => hf hboth.2, Holds]
  · have hacts : flagMoves (actsOf n [(l, .dispatched (.setSaving g id up))]) = [] := by
      simp [actsOf, hl, flagMoves, actionsIn]
    rw [hacts, List.append_nil, if_neg fun hboth => hl hboth.1, Holds]

/-- An act that moves no flag changes nothing. -/
theorem flagMoves_append_of_not_move {acts : List Act} {a : Act}
    (h : ∀ g id up, a ≠ .dispatched (.setSaving g id up)) :
    flagMoves (acts ++ [a]) = flagMoves acts := by
  have hnone : flagMoves [a] = [] := by
    cases a with
    | dispatched action =>
      cases action with
      | setSaving g id up => exact absurd rfl (h g id up)
      | _ => rfl
    | _ => rfl
  rw [flagMoves_append, hnone, List.append_nil]

theorem holds_append_of_not_move {story : List (Option Nat × Act)} {l : Option Nat} {a : Act}
    (h : ∀ g id up, a ≠ .dispatched (.setSaving g id up)) {n : Nat} {f : Flag} :
    Holds (story ++ [(l, a)]) n f ↔ Holds story n f := by
  rw [Holds, Holds, actsOf_append]
  by_cases hl : l = some n
  · have hacts : actsOf n [(l, a)] = [a] := by simp [actsOf, hl]
    rw [hacts, flagMoves_append_of_not_move h]
  · have hacts : actsOf n [(l, a)] = [] := by simp [actsOf, hl]
    rw [hacts, List.append_nil]

/-- One more thing may be seen after what is in order. -/
theorem FlagsInOrder.append {story news : List (Option Nat × Act)} (h : FlagsInOrder story)
    (hnews : ∀ pre x rest, news = pre ++ x :: rest → MayBeSeen (story ++ pre) x) :
    FlagsInOrder (story ++ news) := by
  intro pre x hx
  obtain ⟨rest, hrest⟩ := hx
  rcases List.append_eq_append_iff.mp hrest with ⟨more, hstory, -⟩ | ⟨seen, hseen, hmore⟩
  · exact h pre x ⟨more, hstory.symm⟩
  · -- Either nothing of the news has been seen before, or what was seen last is the news.
    rcases List.eq_nil_or_concat' seen with rfl | ⟨seen, y, rfl⟩
    · rw [List.append_nil] at hseen
      exact h pre x (hseen ▸ List.prefix_rfl)
    · rw [← List.append_assoc] at hseen
      obtain ⟨rfl, hlast⟩ := List.append_inj' hseen rfl
      obtain rfl := List.singleton_inj.mp hlast
      exact hnews seen x rest (by simpa using hmore)

namespace FlagsInOrder

variable {story : List (Option Nat × Act)}

/-- What is seen last may be seen, and what came before is in order. -/
theorem last {x : Option Nat × Act} (h : FlagsInOrder (story ++ [x])) :
    FlagsInOrder story ∧ MayBeSeen story x :=
  ⟨h.of_prefix (List.prefix_append story [x]), h story x List.prefix_rfl⟩

/-- What is held up has one holder, also among flags that overlap. -/
theorem holder_unique (h : FlagsInOrder story) {n m : Nat} {f f' : Flag} (hn : Holds story n f)
    (hm : Holds story m f') (hover : Overlapping f f') : m = n ∧ f' = f := by
  induction story using List.reverseRecOn generalizing n m f f' with
  | nil => exact absurd hn (by simp [Holds, actsOf, flagMoves, actionsIn, isUp])
  | append_singleton story x ih =>
    obtain ⟨hstory, hx⟩ := h.last
    obtain ⟨l, a⟩ := x
    by_cases hmove : ∀ g id up, a ≠ .dispatched (.setSaving g id up)
    · rw [holds_append_of_not_move hmove] at hn hm
      exact ih hstory hn hm hover
    · simp only [not_forall, not_not] at hmove
      obtain ⟨g, id, up, rfl⟩ := hmove
      obtain ⟨k, rfl, hk⟩ := hx (g, id) up rfl
      rw [holds_append_singleton] at hn hm
      split at hn
      · next hsame =>
        obtain ⟨hkn, rfl⟩ := hsame
        obtain rfl := Option.some.inj hkn
        rw [hn, if_pos rfl] at hk
        split at hm
        · next hsame =>
          exact ⟨(Option.some.inj hsame.1).symm, hsame.2.symm⟩
        · exact absurd hover.symm (hk m f' hm)
      · split at hm
        · next hsame =>
          obtain ⟨-, rfl⟩ := hsame
          rw [hm, if_pos rfl] at hk
          exact absurd hover (hk n f hn)
        · exact ih hstory hn hm hover

/-- **What is up is held up by somebody.** -/
theorem isUp_iff (h : FlagsInOrder story) (f : Flag) :
    isUp f (flagMoves (story.map (·.2))) = true ↔ ∃ n, Holds story n f := by
  induction story using List.reverseRecOn generalizing f with
  | nil => simp [Holds, actsOf, flagMoves, actionsIn, isUp]
  | append_singleton story x ih =>
    obtain ⟨hstory, hx⟩ := h.last
    obtain ⟨l, a⟩ := x
    rw [List.map_append, List.map_singleton]
    by_cases hmove : ∀ g id up, a ≠ .dispatched (.setSaving g id up)
    · rw [flagMoves_append_of_not_move hmove, ih hstory]
      simp only [holds_append_of_not_move hmove]
    · simp only [not_forall, not_not] at hmove
      obtain ⟨g, id, up, rfl⟩ := hmove
      obtain ⟨k, rfl, hk⟩ := hx (g, id) up rfl
      have hlast : flagMoves (story.map (·.2) ++ [.dispatched (.setSaving g id up)])
          = flagMoves (story.map (·.2)) ++ [((g, id), up)] := flagMoves_append _ _
      rw [hlast, isUp_append_singleton]
      simp only [holds_append_singleton, Option.some_inj]
      split
      · next hf =>
        subst hf
        cases up with
        | true => exact iff_of_true rfl ⟨k, by simp⟩
        | false =>
          -- Whoever lowers the flag held it up, so that nobody else did.
          rw [if_neg Bool.false_ne_true] at hk
          refine iff_of_false Bool.false_ne_true ?_
          rintro ⟨n, hn⟩
          split at hn
          · exact Bool.false_ne_true hn
          · next hne =>
            exact hne ⟨(hstory.holder_unique hn hk (.refl _)).1, rfl⟩
      · next hf =>
        simp only [hf, and_false, if_false]
        exact ih hstory f

/-- The flag of a group and that of one of its settings are not up together. -/
theorem apart (h : FlagsInOrder story) {s : State}
    (hheld : ∀ f, s.flag f = true ↔ ∃ n, Holds story n f) {g id : String} :
    ¬(s.isGroupSaving g = true ∧ s.isSettingSaving g id = true) := by
  rintro ⟨hgroup, hsetting⟩
  obtain ⟨n, hn⟩ := (hheld (g, none)).mp hgroup
  obtain ⟨m, hm⟩ := (hheld (g, some id)).mp hsetting
  have hsame := (h.holder_unique hn hm ⟨rfl, Or.inl rfl⟩).2
  exact absurd (congrArg Prod.snd hsame) (Option.some_ne_none id)

end FlagsInOrder

/-! ### Runs -/

/-- An operation has sent its request exactly once its flag has been raised, if it has one. -/
theorem Transcript.sent_iff {name : String} {e : Endpoints} {n : Nat} {phase : Phase}
    {acts : List Act} {deeds : List Deed} (h : Transcript name e n phase acts deeds) {f : Flag} :
    (f, true) ∈ flagMoves acts ↔ ∃ op rest, op.flag? = some f ∧ deeds = .sent n op :: rest := by
  have hnever : ∀ {acts}, Harmless acts → ((f, true) ∈ flagMoves acts ↔
      ∃ op rest, op.flag? = some f ∧ ([] : List Deed) = .sent n op :: rest) := by
    intro acts hacts
    simp [hacts.flags]
  have hsent : ∀ (op : Remote) (lock : Option Lock) (number : Nat) (more : List Act)
      (rest : List Deed), (f, true) ∉ flagMoves more →
      ((f, true) ∈ flagMoves (op.opening name e lock number ++ more) ↔
        ∃ op' rest', op'.flag? = some f ∧
          Deed.sent n op :: rest = .sent n op' :: rest') := by
    intro op lock number more rest hmore
    rw [flagMoves_append, (op.opening_says name e lock number).2.2]
    cases hflag : op.flag? with
    | none => simp [hmore, hflag]
    | some f' => simp [hmore, hflag, eq_comm]
  have hclosing : ∀ (op : Remote) (lock : Option Lock),
      (f, true) ∉ flagMoves (op.closing lock) := by
    intro op lock
    rw [(op.closing_says lock).2.2]
    simp
  cases h with
  | ready call => exact hnever ⟨rfl, rfl, rfl⟩
  | joining cell wanted => exact hnever ⟨rfl, rfl, rfl⟩
  | locking => exact hnever (Remote.harmless_asking _ name)
  | @requesting number op lock goal =>
    have h := hsent op lock number [] [] List.not_mem_nil
    rwa [List.append_nil] at h
  | idle hlast => exact hnever (Act.harmless_of_isAfterword hlast)
  | withdrawn => exact hnever (Remote.harmless_asking _ name)
  | @dropped number op lock => exact hsent op lock number _ _ (hclosing op lock)
  | @completed number op lock reply last _ hlast =>
    refine hsent op lock number _ _ ?_
    rw [flagMoves_append, flagMoves_append, (op.harmless_committing reply).flags,
      (Act.harmless_of_isAfterword hlast).flags, List.nil_append, List.append_nil]
    exact hclosing op lock

/-- While it waits for the reply, a task holds up its flag, and it holds up none otherwise. -/
theorem Transcript.isUp_iff {name : String} {e : Endpoints} {n : Nat} {phase : Phase}
    {acts : List Act} {deeds : List Deed} (h : Transcript name e n phase acts deeds) (f : Flag) :
    isUp f (flagMoves acts) = true ↔ phase.flag? = some f := by
  rcases h.flags_eq with hacts | ⟨rfl, f', hacts⟩
  · rw [hacts]
    cases phase.flag? <;> simp [isUp]
  · rw [hacts]
    by_cases hf : f' = f <;> simp [isUp, Phase.flag?, hf]

/-- A task raises its flag before anything else that it does about flags, and lowers it next. -/
theorem Transcript.flags_before {name : String} {e : Endpoints} {n : Nat} {phase : Phase}
    {acts : List Act} {deeds : List Deed} (h : Transcript name e n phase acts deeds)
    {before after : List (Flag × Bool)} {f : Flag} {up : Bool}
    (hacts : flagMoves acts = before ++ (f, up) :: after) :
    before = if up then [] else [(f, true)] := by
  rcases h.flags_eq with hmoves | ⟨-, f', hmoves⟩
  · rw [hmoves] at hacts
    cases hflag : phase.flag? with
    | none => simp [hflag] at hacts
    | some f' =>
      rw [hflag] at hacts
      cases before with
      | nil =>
        obtain ⟨rfl, rfl⟩ := Prod.mk.inj (List.cons.inj hacts).1
        rfl
      | cons b bs => simp at hacts
  · rw [hmoves] at hacts
    match before with
    | [] =>
      obtain ⟨rfl, rfl⟩ := Prod.mk.inj (List.cons.inj hacts).1
      rfl
    | [b] =>
      obtain ⟨rfl, hrest⟩ := List.cons.inj hacts
      obtain ⟨rfl, rfl⟩ := Prod.mk.inj (List.cons.inj hrest).1
      rfl
    | b :: c :: bs => simp at hacts

/-- A task that raises a flag for the first time sends its request next. -/
theorem Transcript.sends_of_raises {name name' : String} {e e' : Endpoints} {n : Nat}
    {phase phase' : Phase} {acts more : List Act} {deeds done : List Deed}
    (hbefore : Transcript name e n phase acts deeds)
    (hafter : Transcript name' e' n phase' (acts ++ more) (deeds ++ done)) {f : Flag}
    (hnone : flagMoves acts = []) (hraised : (f, true) ∈ flagMoves (acts ++ more)) :
    ∃ op rest, op.flag? = some f ∧ done = .sent n op :: rest := by
  obtain ⟨op, rest, hflag, hdeeds⟩ := hafter.sent_iff.mp hraised
  have hfirst : deeds = [] := by
    -- Otherwise it would have been sent before, and the flag would have been raised.
    rcases List.append_eq_cons_iff.mp hdeeds with ⟨hnil, -⟩ | ⟨rest', hsent, -⟩
    · exact hnil
    · have hearly := hbefore.sent_iff.mpr ⟨op, rest', hflag, hsent⟩
      rw [hnone] at hearly
      exact absurd hearly List.not_mem_nil
  rw [hfirst, List.nil_append] at hdeeds
  exact ⟨op, rest, hflag, hdeeds⟩

/-- An operation that has a flag is a save of what the flag is of. -/
theorem Remote.isSave_of_flag {op : Remote} {f : Flag} (h : op.flag? = some f) :
    op.target? = some (f.1, f.2) ∧ op.isSave = true := by
  cases op <;> cases h <;> exact ⟨rfl, rfl⟩

/-- Operations whose flags overlap clash. -/
theorem Remote.clash_of_flags {op op' : Remote} {f f' : Flag} (h : op.flag? = some f)
    (h' : op'.flag? = some f') (hover : Overlapping f f') : op.Clash op' := by
  obtain ⟨htarget, hsave⟩ := isSave_of_flag h
  obtain ⟨htarget', -⟩ := isSave_of_flag h'
  exact ⟨⟨f.1, f.2, f'.2, htarget, by rw [htarget', hover.1], hover.2⟩, Or.inl hsave⟩

/-- A task waits for the reply to an operation. -/
def Store.Awaits (s : Store) (n : Nat) (op : Remote) : Prop :=
  ∃ t number lock goal, s.tasks[n]? = some t ∧ t.phase = .requesting number op lock goal

/-- Whoever holds up a flag waits for the reply to its save. -/
theorem Store.phase_flag?_iff {s : Store} {n : Nat} {f : Flag} :
    (s.ledger.phase n).flag? = some f ↔ ∃ op, op.flag? = some f ∧ s.Awaits n op := by
  simp only [Ledger.phase, ledger, List.getElem?_map, Awaits]
  cases s.tasks[n]? with
  | none => simp [Phase.flag?]
  | some t => cases hphase : t.phase <;> simp [hphase, Phase.flag?]

/-- A task waits for the reply to an operation exactly while that is under way. -/
theorem Board.Chronicle.underWay_iff {s : Store} (h : s.board.Chronicle) {n : Nat} {op : Remote} :
    UnderWay s.deeds n op ↔ s.Awaits n op := (h.underWay n op).trans Store.awaited?_board

namespace Transcribed

variable {name : String} {e : Endpoints} {story : List (Option Nat × Act)} {s : Store}

/-- What a task holds up, as its phase says. -/
theorem holds_iff (h : Transcribed name e story s) {n : Nat} {f : Flag} :
    Holds story n f ↔ (s.ledger.phase n).flag? = some f := (h.transcript n).isUp_iff f

/-- A turn raises and lowers flags in order. -/
theorem flagsInOrder_turn (h : Transcribed name e story s) (tr : Transport) (n : Nat)
    (hnow : s.board.Chronicle) (hnext : Orderly (s.move (.turn tr n)).deeds)
    (hstory : FlagsInOrder story) : FlagsInOrder (story ++ s.news (none, .turn tr n)) := by
  cases hn : s.tasks[n]? with
  | none =>
    have hstay : s.news (none, .turn tr n) = [] := by
      simp [Store.news, Store.manage, Store.withTable, Store.move, Store.turn, hn]
    rwa [hstay, List.append_nil]
  | some t =>
    have hbefore := h.transcript n
    have hphase : s.ledger.phase n = t.phase := by simp [Ledger.phase, Store.ledger, hn]
    rw [hphase] at hbefore
    obtain ⟨more, done, phase, hledger, hafter⟩ := Store.Continues.turn
      (s := { s with line := s.line.erase n }) tr hn
      (h.name_eq.symm ▸ h.endpoints_eq.symm ▸ hbefore)
    have hnews : s.news (none, .turn tr n) = more.map fun a => (some n, a) := by
      have hacts : (s.manage (none, .turn tr n)).acts = s.acts ++ more :=
        congrArg Ledger.acts hledger
      rw [Store.news, hacts, List.drop_left]
      rfl
    rw [hnews]
    refine hstory.append fun pre x rest hsplit f up hx => ?_
    obtain ⟨acts, acts', rfl, rfl, hacts⟩ := List.map_eq_append_iff.mp hsplit
    obtain ⟨a, acts', rfl, rfl, rfl⟩ := List.map_eq_cons_iff.mp hacts
    obtain rfl : a = .dispatched (.setSaving f.1 f.2 up) := hx
    refine ⟨n, rfl, ?_⟩
    -- What has been said of flags when this is seen.
    have hmoves : flagMoves (actsOf n story
          ++ (acts ++ .dispatched (.setSaving f.1 f.2 up) :: acts'))
        = flagMoves (actsOf n story ++ acts) ++ (f, up) :: flagMoves acts' := by
      rw [← List.append_assoc, flagMoves_append]
      rfl
    have hbeforehand := hafter.flags_before hmoves
    have hown : actsOf n (story ++ acts.map fun a => (some n, a)) = actsOf n story ++ acts := by
      rw [actsOf_append, actsOf_map_self]
    cases up with
    | false =>
      rw [if_neg Bool.false_ne_true, Holds, hown, hbeforehand]
      simp [isUp]
    | true =>
      rw [if_pos rfl] at hbeforehand ⊢
      intro m f' hm hover
      have hne : m ≠ n := by
        rintro rfl
        rw [Holds, hown, hbeforehand] at hm
        exact Bool.false_ne_true hm
      rw [Holds, actsOf_append, actsOf_map_of_ne (fun heq => hne (Option.some.inj heq).symm),
        List.append_nil] at hm
      -- The other save waits for its reply, and this one sends its request next.
      obtain ⟨op', hflag', hawaits⟩ := Store.phase_flag?_iff.mp (h.holds_iff.mp hm)
      have hunder : UnderWay s.deeds m op' := hnow.underWay_iff.mpr hawaits
      have hraised : (f, true) ∈ flagMoves
          (actsOf n story ++ (acts ++ .dispatched (.setSaving f.1 f.2 true) :: acts')) := by
        rw [hmoves]
        simp
      rw [flagMoves_append] at hbeforehand
      obtain ⟨op, rest, hflag, hdeeds⟩ :=
        hbefore.sends_of_raises hafter (List.append_eq_nil_iff.mp hbeforehand).1 hraised
      have hsends : s.deeds ++ [.sent n op] <+: (s.move (.turn tr n)).deeds := by
        have hall : (s.move (.turn tr n)).deeds = s.deeds ++ done := congrArg Ledger.deeds hledger
        exact ⟨rest, by rw [hall, hdeeds, List.append_assoc, List.singleton_append]⟩
      exact (hnext _ _ hsends).2 m op' hunder (Remote.clash_of_flags hflag' hflag hover)

/-- A move that is no turn and sets no flag leaves flags alone. -/
theorem flagsInOrder_other {m : StoreMove} (hm : m.task? = none)
    (hset : ∀ g id up, m ≠ .dispatch (.setSaving g id up)) (hstory : FlagsInOrder story) :
    FlagsInOrder (story ++ s.news (none, m)) := by
  obtain ⟨calls, hledger⟩ := s.ledger_move hm
  have hnews : s.news (none, m) = m.acts.map fun a => (none, a) := by
    have hacts : (s.manage (none, m)).acts = s.acts ++ m.acts := congrArg Ledger.acts hledger
    rw [Store.news, hacts, List.drop_left, hm]
  rw [hnews]
  refine hstory.append fun pre x rest hsplit f up hx => ?_
  obtain ⟨a, ha, rfl⟩ : ∃ a ∈ m.acts, (none, a) = x := by
    have hmem : x ∈ pre ++ x :: rest := by simp
    rwa [← hsplit, List.mem_map] at hmem
  cases m with
  | dispatch action =>
    obtain rfl := List.mem_singleton.mp ha
    cases hx
    exact absurd rfl (hset f.1 f.2 up)
  | _ => exact absurd ha List.not_mem_nil

end Transcribed

namespace Store

/-- Where the locks are left to the store, a run is one of its own. -/
theorem afterManaged_none (s : Store) (ms : List StoreMove) :
    s.afterManaged (ms.map fun m => (none, m)) = s.after ms := by
  induction ms generalizing s with
  | nil => rfl
  | cons m ms ih => exact ih (s.move m)

end Store

/-- The flags of a run are in order, if only saves set them. -/
theorem flagsInOrder_after (name : String) (endpoints : Endpoints) {ms : List StoreMove}
    (hms : ∀ m ∈ ms, ∀ g id up, m ≠ .dispatch (.setSaving g id up)) :
    FlagsInOrder ((Store.fresh name endpoints).story (ms.map fun m => (none, m))) := by
  induction ms using List.reverseRecOn with
  | nil =>
    intro pre x hx
    exact absurd (List.prefix_nil.mp hx) (by simp)
  | append_singleton ms m ih =>
    have hstory := ih fun m' hm' => hms m' (List.mem_append_left _ hm')
    have hnow : Transcribed name endpoints _ _ := Transcribed.afterManaged name endpoints
      (ms.map fun m => (none, m))
    rw [List.map_append, List.map_singleton, Store.story_snoc]
    rw [Store.afterManaged_none] at hnow ⊢
    cases hm : m.task? with
    | none => exact Transcribed.flagsInOrder_other hm (hms m (by simp)) hstory
    | some n =>
      cases m with
      | turn tr n =>
        have hnext := (Board.custody_and_chronicle name endpoints (ms ++ [.turn tr n])).2.orderly
        have hlast : (Store.fresh name endpoints).after (ms ++ [.turn tr n])
            = ((Store.fresh name endpoints).after ms).move (.turn tr n) := List.foldl_append
        rw [hlast] at hnext
        exact hnow.flagsInOrder_turn tr n (Board.custody_and_chronicle name endpoints ms).2 hnext
          hstory
      | _ => cases hm

/-! ### Flags are exact -/

/-- What is known of the tasks once a run has been seen: whoever has held up a flag has sent the
request of a save with that flag. -/
theorem Transcribed.exists_sent {name : String} {e : Endpoints}
    {story pre : List (Option Nat × Act)}
    {s : Store} (h : Transcribed name e story s) (hpre : pre <+: story) {n : Nat} {f : Flag}
    (hn : Holds pre n f) : ∃ op, op.flag? = some f ∧ .sent n op ∈ s.deeds := by
  obtain ⟨rest, rfl⟩ := hpre
  have hraised : (f, true) ∈ flagMoves (actsOf n (pre ++ rest)) := by
    rw [actsOf_append, flagMoves_append]
    exact List.mem_append_left _ (raised_of_isUp hn)
  obtain ⟨op, more, hflag, hdeeds⟩ := (h.transcript n).sent_iff.mp hraised
  refine ⟨op, hflag, List.mem_of_mem_filter (p := (·.task = n)) ?_⟩
  rw [hdeeds]
  exact List.mem_cons_self

/-- **Saving flags are exact.**  After any run in which only saves set flags, whatever calls are
made and cancelled, in whatever order tasks take their turns, and whatever is answered:

* at every moment, whatever clocks have said, a flag is up exactly if a save that has raised it has
  not lowered it, and flags of the same settings are not up for two saves; and whoever lowers a flag
  has held it up itself;
* between turns, a setting's flag is up exactly if a save of the setting waits for its reply, and a
  group's flag exactly if a batch save of the group does;
* the flag of a group and the flag of one of its settings are never up together;
* when no save is under way, no flag is up. -/
theorem saving_flags_are_exact (name : String) (endpoints : Endpoints) (ms : List StoreMove)
    (hms : ∀ m ∈ ms, ∀ g id up, m ≠ .dispatch (.setSaving g id up)) :
    let s := (Store.fresh name endpoints).after ms
    let story := (Store.fresh name endpoints).story (ms.map fun m => (none, m))
    story.map (·.2) = s.acts ∧
    (∀ pre, pre <+: story → ∀ applied : List (Nat × Action),
      applied.map (·.2) = actionsIn (pre.map (·.2)) →
        (∀ f, (State.empty.reduceAll applied).flag f = true ↔ ∃ n, Holds pre n f) ∧
        (∀ g id, ¬((State.empty.reduceAll applied).isGroupSaving g = true ∧
          (State.empty.reduceAll applied).isSettingSaving g id = true)) ∧
        (∀ n f, Holds pre n f → (∃ op, op.flag? = some f ∧ .sent n op ∈ s.deeds) ∧
          ∀ m f', Holds pre m f' → Overlapping f f' → m = n ∧ f' = f) ∧
        ∀ who g id, pre ++ [(who, .dispatched (.setSaving g id false))] <+: story →
          ∃ n, who = some n ∧ Holds pre n (g, id)) ∧
    (∀ g id, s.state.isSettingSaving g id = true ↔
      ∃ n value, s.Awaits n (.saveSetting g id value)) ∧
    (∀ g, s.state.isGroupSaving g = true ↔ ∃ n updates, s.Awaits n (.saveBatch g updates)) ∧
    (∀ g id, ¬(s.state.isGroupSaving g = true ∧ s.state.isSettingSaving g id = true)) ∧
    ((∀ n op, op.isSave = true → ¬UnderWay s.deeds n op) → ∀ f, s.state.flag f = false) := by
  intro s story
  have hfree : (Store.fresh name endpoints).afterManaged (ms.map fun m => (none, m)) = s :=
    Store.afterManaged_none _ ms
  have h : Transcribed name endpoints story s :=
    hfree ▸ Transcribed.afterManaged name endpoints (ms.map fun m => (none, m))
  have horder : FlagsInOrder story := flagsInOrder_after name endpoints hms
  have hchronicle : s.board.Chronicle := (Board.custody_and_chronicle name endpoints ms).2
  have hholds : ∀ f, s.state.flag f = true ↔ ∃ n, Holds story n f := by
    intro f
    rw [Store.flag_after, ← h.acts, horder.isUp_iff]
  have hawaits : ∀ f, s.state.flag f = true ↔ ∃ n op, op.flag? = some f ∧ s.Awaits n op := fun f =>
    (hholds f).trans (exists_congr fun n => h.holds_iff.trans Store.phase_flag?_iff)
  refine ⟨h.acts, fun pre hpre applied happlied => ?_, fun g id => (hawaits (g, some id)).trans ?_,
    fun g => (hawaits (g, none)).trans ?_, fun g id => horder.apart hholds, fun hnone f => ?_⟩
  · have hpreorder := horder.of_prefix hpre
    have hheld : ∀ f, (State.empty.reduceAll applied).flag f = true ↔ ∃ n, Holds pre n f := by
      intro f
      rw [State.flag_reduceAll, happlied]
      exact hpreorder.isUp_iff f
    refine ⟨hheld, fun g id => hpreorder.apart hheld, fun n f hn => ⟨h.exists_sent hpre hn,
      fun m f' hm hover => hpreorder.holder_unique hn hm hover⟩, fun who g id hlower => ?_⟩
    obtain ⟨n, hwho, hn⟩ := horder pre _ hlower (g, id) false rfl
    exact ⟨n, hwho, hn⟩
  · refine exists_congr fun n => ⟨?_, fun ⟨value, hn⟩ => ⟨_, rfl, hn⟩⟩
    rintro ⟨op, hflag, hn⟩
    cases op with
    | saveSetting g' id' value =>
      cases hflag
      exact ⟨value, hn⟩
    | _ => cases hflag
  · refine exists_congr fun n => ⟨?_, fun ⟨updates, hn⟩ => ⟨_, rfl, hn⟩⟩
    rintro ⟨op, hflag, hn⟩
    cases op with
    | saveBatch g' updates =>
      cases hflag
      exact ⟨updates, hn⟩
    | _ => cases hflag
  · rw [Bool.eq_false_iff]
    intro hup
    obtain ⟨n, op, hflag, hn⟩ := (hawaits f).mp hup
    exact hnone n op (Remote.isSave_of_flag hflag).2 (hchronicle.underWay_iff.mpr hn)

/-- In the race, the flag of the setting is up while its save waits for the reply, and the group's
flag is not; and in the end no flag is up. -/
theorem race_raises_one_flag :
    let s := (Store.fresh "s" ⟨"", "/groups"⟩).after (race.take 6)
    s.state.isSettingSaving "g" "a" = true ∧ s.state.isGroupSaving "g" = false ∧
      ∀ f, ((Store.fresh "s" ⟨"", "/groups"⟩).after race).state.flag f = false := by
  have hrace : ∀ m ∈ race, ∀ g id up, m ≠ .dispatch (.setSaving g id up) := by
    simp [race]
  obtain ⟨-, -, hsetting, -, hapart, -⟩ := saving_flags_are_exact "s" ⟨"", "/groups"⟩ (race.take 6)
    fun m hm => hrace m (List.mem_of_mem_take hm)
  obtain ⟨-, -, -, -, -, hend⟩ := saving_flags_are_exact "s" ⟨"", "/groups"⟩ race hrace
  have hup := (hsetting "g" "a").mpr ⟨0, .bool true, _, 0, _, .save, rfl, rfl⟩
  refine ⟨hup, ?_, hend ?_⟩
  · exact Bool.eq_false_iff.mpr fun hgroup => hapart "g" "a" ⟨hgroup, hup⟩
  · have hdeeds : ((Store.fresh "s" ⟨"", "/groups"⟩).after race).deeds = raceDeeds := rfl
    rw [hdeeds]
    rintro n op hsave ⟨hsent, hcommitted, -⟩
    have hsender : n = 0 ∧ op = .saveSetting "g" "a" (.bool true) ∨
        n = 1 ∧ op = .fetchSetting "g" "b" := by simpa [raceDeeds] using hsent
    rcases hsender with ⟨rfl, rfl⟩ | ⟨rfl, rfl⟩
    · exact hcommitted _ _ (List.mem_of_getElem? (i := 2) rfl)
    · exact Bool.false_ne_true hsave

end RemoteSettings
