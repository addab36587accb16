import RemoteSettings.Proofs.State.Reachable
import RemoteSettings.State.Memo

/-!
# Histories

Actions are applied to states, and states are read, in any order: a later action may be applied to
an older state, so that states branch, and a read may go back to any state that there has been.
Whatever happens takes a moment of its own.

What an action rebuilds bears the version of the moment.  So among all the states of a history parts
that bear the same version are the same part, however the states have branched.

## Main definitions

* `HistoryMove`, `History.after` — what can happen, and the history after moves.
* `Among` — some state has a part.
* `Coherent` — parts that bear the same version are the same part.
* `History.Orderly` — the states are reachable and their parts are coherent.

## Main results

* `State.get?_settings_reduce`, `State.get?_edits_reduce`, `State.setting?_reduce_cases` — the parts
  that there are after an action were there before or are new.
* `Coherent.append` — parts that are new do not disturb the order.
* `History.orderly_after` — **a history is orderly**, whatever happens.
-/

namespace RemoteSettings

/-! ### What an action rebuilds -/

namespace State

section Branch

variable {κ α : Type} {now : Nat} {branch : Branch κ α} {g h : String}
  {p : Versioned (Keyed κ α)}

theorem get?_updateGroup_cases (hordered : branch.value.Ordered)
    {change : Keyed κ α → Keyed κ α × Bool}
    (hp : (updateGroup now branch g change).value.get? h = some p) :
    branch.value.get? h = some p ∨ g = h ∧ p.version = ⟨now, 0⟩ := by
  by_cases hg : g = h
  · rw [updateGroup_eq] at hp
    split at hp
    · split at hp
      · rw [Sorted.get?_erase hordered, if_pos hg] at hp
        cases hp
      · rw [Sorted.get?_put, if_pos hg] at hp
        cases hp
        exact Or.inr ⟨hg, rfl⟩
    · exact Or.inl hp
  · rw [get?_updateGroup_of_ne hordered hg] at hp
    exact Or.inl hp

theorem get?_dropGroup_cases (hordered : branch.value.Ordered)
    (hp : (dropGroup now branch g).value.get? h = some p) : branch.value.get? h = some p := by
  unfold dropGroup at hp
  split at hp
  · rw [Sorted.get?_erase hordered] at hp
    split at hp
    · cases hp
    · exact hp
  · exact hp

end Branch

variable {s : State} {now : Nat} {a : Action} {g h : String}

/-- The settings that a group has after an action were there before, or they are new and the action
is about the group. -/
theorem get?_settings_reduce {p : GroupSettings}
    (hp : (s.reduce now a).settings.value.get? h = some p) :
    s.settings.value.get? h = some p ∨ a.group? = some h ∧ p.version = ⟨now, 0⟩ := by
  cases a with
  | receiveSettings g xs =>
    rw [reduce, receive] at hp
    dsimp only at hp
    rw [Sorted.get?_put] at hp
    split at hp
    · next hg =>
      cases hp
      exact Or.inr ⟨congrArg some hg, rfl⟩
    · exact Or.inl hp
  | setSaving g id saving =>
    cases id with
    | none =>
      rw [reduce] at hp
      split at hp <;> exact Or.inl hp
    | some id =>
      rw [reduce] at hp
      split at hp <;> exact Or.inl hp
  | setError g id error => cases id <;> cases error <;> exact Or.inl hp
  | _ => exact Or.inl hp

/-- The edits that a group has after an action were there before, or they are new and the action is
about the group. -/
theorem get?_edits_reduce (hs : s.Kept) {q : GroupEdits}
    (hq : (s.reduce now a).edits.value.get? h = some q) :
    s.edits.value.get? h = some q ∨ a.group? = some h ∧ q.version = ⟨now, 0⟩ := by
  have hupdate : ∀ {g change},
      (updateGroup now s.edits g change).value.get? h = some q →
      s.edits.value.get? h = some q ∨ some g = some h ∧ q.version = ⟨now, 0⟩ := by
    intro g change hq
    exact (get?_updateGroup_cases hs.edits.ordered hq).imp_right fun hnew =>
      ⟨congrArg some hnew.1, hnew.2⟩
  cases a with
  | receiveGroups groups => exact Or.inl hq
  | receiveSettings g xs => exact hupdate hq
  | edit g id value => exact hupdate hq
  | editAll g us => exact hupdate hq
  | setSaving g id saving =>
    rw [edits_setSaving] at hq
    exact Or.inl hq
  | setError g id error =>
    rw [edits_setError] at hq
    exact Or.inl hq
  | revert g id => exact hupdate hq
  | revertGroup g => exact Or.inl (get?_dropGroup_cases hs.edits.ordered hq)

/-- The state has these settings of some group. -/
def HasSettings (s : State) (p : GroupSettings) : Prop := ∃ g, s.settings.value.get? g = some p

/-- The state has these edits of some group. -/
def HasEdits (s : State) (q : GroupEdits) : Prop := ∃ g, s.edits.value.get? g = some q

/-- The state has this setting in some group. -/
def HasSetting (s : State) (x : Versioned Setting) : Prop := ∃ g id, s.setting? g id = some x

end State

/-! ### Parts of several states -/

variable {α : Type} {has : State → Versioned α → Prop} {states : List State} {clock : Nat}

/-- Some state has a part. -/
def Among (has : State → Versioned α → Prop) (states : List State) (p : Versioned α) : Prop :=
  ∃ s ∈ states, has s p

theorem Among.append {p : Versioned α} (h : Among has states p) (next : State) :
    Among has (states ++ [next]) p := by
  obtain ⟨s, hs, hp⟩ := h
  exact ⟨s, List.mem_append_left _ hs, hp⟩

/-- Parts come from the past, and parts that bear the same version are the same part. -/
structure Coherent (clock : Nat) (parts : Versioned α → Prop) : Prop where
  past : ∀ p, parts p → p.version.time ≤ clock
  unique : ∀ p q, parts p → parts q → p.version = q.version → p = q

theorem Coherent.of_none {parts : Versioned α → Prop} (h : ∀ p, ¬parts p) :
    Coherent clock parts :=
  ⟨fun p hp => absurd hp (h p), fun p _ hp => absurd hp (h p)⟩

theorem Coherent.later {parts : Versioned α → Prop} (h : Coherent clock parts) :
    Coherent (clock + 1) parts where
  past p hp := Nat.le_succ_of_le (h.past p hp)
  unique := h.unique

/-- A state whose parts are parts of a state before or new ones does not disturb the order. -/
theorem Coherent.append (h : Coherent clock (Among has states)) {base next : State}
    (hbase : base ∈ states) (fresh : Versioned α → Prop)
    (hnext : ∀ p, has next p → has base p ∨ fresh p)
    (htime : ∀ p, fresh p → p.version.time = clock + 1)
    (hunique : ∀ p q, fresh p → fresh q → p.version = q.version → p = q) :
    Coherent (clock + 1) (Among has (states ++ [next])) := by
  have hsplit : ∀ p, Among has (states ++ [next]) p → Among has states p ∨ fresh p := by
    rintro p ⟨s, hs, hp⟩
    rcases List.mem_append.mp hs with hs | hs
    · exact Or.inl ⟨s, hs, hp⟩
    · rw [List.mem_singleton.mp hs] at hp
      exact (hnext p hp).imp_left fun hp => ⟨base, hbase, hp⟩
  refine ⟨fun p hp => ?_, fun p q hp hq hversion => ?_⟩
  · rcases hsplit p hp with hold | hnew
    · exact Nat.le_succ_of_le (h.past p hold)
    · exact Nat.le_of_eq (htime p hnew)
  · -- A new part bears a moment that no part before could bear.
    rcases hsplit p hp with hp | hp <;> rcases hsplit q hq with hq | hq
    · exact h.unique p q hp hq hversion
    · have hpast := h.past p hp
      rw [hversion, htime q hq] at hpast
      omega
    · have hpast := h.past q hq
      rw [← hversion, htime p hp] at hpast
      omega
    · exact hunique p q hp hq hversion

/-- An action that rebuilds the part of its own group only does not disturb the order. -/
theorem Coherent.append_parts (parts : State → Sorted (Versioned α))
    (h : Coherent clock (Among (fun s p => ∃ g, (parts s).get? g = some p) states))
    {base next : State} (hbase : base ∈ states) {group : Option String}
    (hnext : ∀ g p, (parts next).get? g = some p →
      (parts base).get? g = some p ∨ group = some g ∧ p.version = ⟨clock + 1, 0⟩) :
    Coherent (clock + 1)
      (Among (fun s p => ∃ g, (parts s).get? g = some p) (states ++ [next])) := by
  refine h.append hbase (fun p => ∃ g, group = some g ∧ p.version = ⟨clock + 1, 0⟩ ∧
    (parts next).get? g = some p) ?_ ?_ ?_
  · rintro p ⟨g, hp⟩
    exact (hnext g p hp).imp (fun hold => ⟨g, hold⟩) fun hnew => ⟨g, hnew.1, hnew.2, hp⟩
  · rintro p ⟨_, -, hversion, -⟩
    rw [hversion]
  · -- Both are the part of the one group.
    rintro p q ⟨g, hg, -, hp⟩ ⟨g', hg', -, hq⟩ -
    cases Option.some.inj (hg.symm.trans hg')
    exact Option.some.inj (hp.symm.trans hq)

/-! ### Histories -/

/-- What can happen: an action is applied to a state, or a state is read.  States are named by their
number, and a number that no state has names the state of a store that has done nothing. -/
inductive HistoryMove
  | reduce (base : Nat) (action : Action)
  | readSettings (base : Nat) (group : String) (withEdits : Bool)
  | readSetting (base : Nat) (group id : String) (withEdits : Bool)
  | readEditedIds (base : Nat) (group : String)

/-- No object in an action that is applied names a field twice. -/
def HistoryMove.proper : HistoryMove → Bool
  | .reduce _ a => a.proper
  | _ => true

/-- All states that there have been, and what has been remembered. -/
structure History where
  clock : Nat := 0
  states : List State := [.empty]
  memo : Memo := {}

namespace History

/-- The state of a number. -/
def state (h : History) (n : Nat) : State := h.states.getD n .empty

/-- The history after a move. -/
def move (h : History) : HistoryMove → History
  | .reduce base a =>
    { h with
      clock := h.clock + 1
      states := h.states ++ [(h.state base).reduce (h.clock + 1) a] }
  | .readSettings base g withEdits =>
    { h with
      clock := h.clock + 1
      memo := (h.memo.readSettings (h.clock + 1) (h.state base) g withEdits).2 }
  | .readSetting base g id withEdits =>
    { h with
      clock := h.clock + 1
      memo := (h.memo.readSetting (h.clock + 1) (h.state base) g id withEdits).2 }
  | .readEditedIds base g =>
    { h with
      clock := h.clock + 1
      memo := (h.memo.readEditedIds (h.clock + 1) (h.state base) g).2 }

/-- The history after moves one after another. -/
def after (moves : List HistoryMove) : History := moves.foldl move {}

/-- What every proper move preserves holds after proper moves. -/
theorem after_induction {P : History → Prop} (start : P {})
    (move : ∀ h m, m.proper = true → P h → P (h.move m)) (moves : List HistoryMove)
    (hmoves : ∀ m ∈ moves, m.proper = true) : P (after moves) := by
  have hrun : ∀ (ms : List HistoryMove) h, (∀ m ∈ ms, m.proper = true) → P h →
      P (ms.foldl History.move h) := by
    intro ms
    induction ms with
    | nil => exact fun _ _ h => h
    | cons m ms ih =>
      intro h hms hP
      exact ih _ (fun m' hm' => hms m' (List.mem_cons_of_mem m hm'))
        (move h m (hms m List.mem_cons_self) hP)
  exact hrun moves {} hmoves start

/-- The states are reachable, and their parts are coherent. -/
structure Orderly (h : History) : Prop where
  starts : .empty ∈ h.states
  reachable : ∀ s ∈ h.states, s.Reachable
  settings : Coherent h.clock (Among State.HasSettings h.states)
  edits : Coherent h.clock (Among State.HasEdits h.states)
  setting : Coherent h.clock (Among State.HasSetting h.states)

variable {h : History}

theorem state_mem_of_empty (hempty : .empty ∈ h.states) (n : Nat) : h.state n ∈ h.states := by
  rw [state, List.getD_eq_getElem?_getD]
  cases hn : h.states[n]? with
  | none => exact hempty
  | some s => exact List.mem_of_getElem? hn

theorem Orderly.state_mem (ho : h.Orderly) (n : Nat) : h.state n ∈ h.states :=
  state_mem_of_empty ho.starts n

/-- A read changes no state. -/
theorem Orderly.later (ho : h.Orderly) (memo : Memo) :
    Orderly { h with clock := h.clock + 1, memo } where
  starts := ho.starts
  reachable := ho.reachable
  settings := ho.settings.later
  edits := ho.edits.later
  setting := ho.setting.later

/-- An action rebuilds what is its own. -/
theorem Orderly.reduce (ho : h.Orderly) (base : Nat) {a : Action} (ha : a.proper = true) :
    (h.move (.reduce base a)).Orderly := by
  have hbase := ho.state_mem base
  have hreachable := ho.reachable _ hbase
  refine ⟨List.mem_append_left _ ho.starts, ?_, ?_, ?_, ?_⟩
  · intro s hs
    rcases List.mem_append.mp hs with hs | hs
    · exact ho.reachable s hs
    · rw [List.mem_singleton.mp hs]
      exact hreachable.reduce _ ha
  · exact ho.settings.append_parts (fun s => s.settings.value) hbase fun g p hp =>
      State.get?_settings_reduce hp
  · exact ho.edits.append_parts (fun s => s.edits.value) hbase fun g q hq =>
      State.get?_edits_reduce hreachable.kept hq
  · -- New settings are numbered by their place in the report.
    refine ho.setting.append hbase
      (fun x => ∃ g xs i, a = .receiveSettings g xs ∧ x.version = ⟨h.clock + 1, i⟩ ∧
        xs[i]? = some x.value) ?_ ?_ ?_
    · rintro x ⟨g, id, hx⟩
      rcases State.setting?_reduce_cases hx with hold | ⟨xs, i, hnew⟩
      · exact Or.inl ⟨g, id, hold⟩
      · exact Or.inr ⟨g, xs, i, hnew⟩
    · rintro x ⟨_, _, _, -, hversion, -⟩
      rw [hversion]
    · rintro ⟨v, x⟩ ⟨w, y⟩ ⟨g, xs, i, rfl, hv, hx⟩ ⟨g', ys, j, ha', hw, hy⟩ hversion
      cases ha'
      cases hv.symm.trans (hversion.trans hw)
      cases Option.some.inj (hx.symm.trans hy)
      rw [show v = w from hversion]

theorem Orderly.move (ho : h.Orderly) {m : HistoryMove} (hm : m.proper = true) :
    (h.move m).Orderly := by
  cases m with
  | reduce base a => exact ho.reduce base hm
  | readSettings base g withEdits => exact ho.later _
  | readSetting base g id withEdits => exact ho.later _
  | readEditedIds base g => exact ho.later _

theorem Orderly.start : Orderly {} := by
  have hempty : ∀ s ∈ ({} : History).states, s = .empty := fun s hs => List.mem_singleton.mp hs
  refine ⟨List.mem_singleton_self _, fun s hs => hempty s hs ▸ .empty, .of_none ?_, .of_none ?_,
    .of_none ?_⟩
  · rintro p ⟨s, hs, g, hp⟩
    cases hempty s hs
    cases hp
  · rintro q ⟨s, hs, g, hq⟩
    cases hempty s hs
    cases hq
  · rintro x ⟨s, hs, g, id, hx⟩
    cases hempty s hs
    cases hx

/-- **A history is orderly**, whatever happens. -/
theorem orderly_after (moves : List HistoryMove) (hmoves : ∀ m ∈ moves, m.proper = true) :
    (after moves).Orderly :=
  after_induction Orderly.start (fun _ _ hm ho => ho.move hm) moves hmoves

end History

end RemoteSettings
