import RemoteSettings.Proofs.State.Transparency
import RemoteSettings.Proofs.State.Visits

/-!
# How the state is kept

The parts of a state are well kept whatever happens: a group has edits or errors only while there
are some, each key stands once in its part, and a setting stands under the id that it bears.  So a
group has edits exactly if it has a part among them, and the ids that are read off that part are
those of the settings that are edited.

## Main definitions

* `State.Pruned` — no group has an empty part.
* `State.Labelled` — each setting stands under the id that it bears.
* `State.Changed` — a branch is the old one, or the part of one group has been changed or dropped.
* `State.Regular` — a state is kept as it should be.
* `Memo.Tracks` — what has been remembered of edited ids belongs to regular states.

## Main results

* `edits_reduce`, `errors_reduce`, `settings_reduce`, `savingGroups_reduce`, `savingSettings_reduce`
  — what an action does to each branch.
* `Regular.reduce`, `Regular.reduceAll` — actions leave a state regular.
* `History.parts_are_regular` — **every state is kept as it should be**, whatever happens.
-/

namespace RemoteSettings

namespace State

section Branch

variable {κ α : Type} {now : Nat} {branch : Branch κ α} {g : String}

/-! ### What an action does to a branch -/

/-- A branch is the old one, or the part of one group has been changed or dropped. -/
inductive Changed (now : Nat) (branch : Branch κ α) : Branch κ α → Prop
  | same : Changed now branch branch
  | updated (g : String) (change : Keyed κ α → Keyed κ α × Bool) :
    Changed now branch (updateGroup now branch g change)
  | dropped (g : String) : Changed now branch (dropGroup now branch g)

/-- An action changes the edits of one group, or drops them. -/
theorem edits_reduce (s : State) (now : Nat) (a : Action) :
    Changed now s.edits (s.reduce now a).edits := by
  cases a with
  | receiveGroups groups => exact .same
  | receiveSettings g xs => exact .updated g _
  | edit g id value => exact .updated g (applyEdit (s.settings.value.get? g) id value)
  | editAll g us => exact .updated g _
  | setSaving g id saving =>
    rw [edits_setSaving]
    exact .same
  | setError g id error =>
    rw [edits_setError]
    exact .same
  | revert g id => exact .updated g (remove id)
  | revertGroup g => exact .dropped g

/-- An action changes the errors of one group, or drops them. -/
theorem errors_reduce (s : State) (now : Nat) (a : Action) :
    Changed now s.errors (s.reduce now a).errors := by
  cases a with
  | receiveSettings g xs => exact .updated g _
  | setSaving g id saving =>
    cases id with
    | none =>
      rw [reduce]
      split <;> exact .same
    | some id =>
      rw [reduce]
      split <;> exact .same
  | setError g id error =>
    cases id with
    | none =>
      cases error with
      | none => exact .dropped g
      | some e => exact .updated g (record ErrorKey.all e)
    | some id =>
      cases error with
      | none => exact .updated g (remove (ErrorKey.setting id))
      | some e => exact .updated g (record (ErrorKey.setting id) e)
  | revert g id => exact .updated g (remove (ErrorKey.setting id))
  | revertGroup g => exact .dropped g
  | _ => exact .same

/-- Only a report changes the settings. -/
theorem settings_reduce (s : State) (now : Nat) (a : Action) :
    (s.reduce now a).settings = s.settings ∨
      ∃ g xs, a = .receiveSettings g xs ∧
        (s.reduce now a).settings = receive now s.settings g xs := by
  cases a with
  | receiveSettings g xs => exact Or.inr ⟨g, xs, rfl, rfl⟩
  | setSaving g id saving =>
    refine Or.inl ?_
    cases id with
    | none =>
      rw [reduce]
      split <;> rfl
    | some id =>
      rw [reduce]
      split <;> rfl
  | setError g id error => cases id <;> cases error <;> exact Or.inl rfl
  | _ => exact Or.inl rfl

/-- Only the flag of a group changes the flags of groups. -/
theorem savingGroups_reduce (s : State) (now : Nat) (a : Action) :
    (s.reduce now a).savingGroups = s.savingGroups ∨
      ∃ g saving, a = .setSaving g none saving ∧
        (s.reduce now a).savingGroups = ⟨⟨now, 0⟩, s.savingGroups.value.put g saving⟩ := by
  cases a with
  | setSaving g id saving =>
    cases id with
    | none =>
      rw [reduce]
      split
      · exact Or.inl rfl
      · exact Or.inr ⟨g, saving, rfl, rfl⟩
    | some id =>
      rw [reduce]
      split <;> exact Or.inl rfl
  | setError g id error => cases id <;> cases error <;> exact Or.inl rfl
  | _ => exact Or.inl rfl

/-- Only the flag of a setting changes the flags of settings. -/
theorem savingSettings_reduce (s : State) (now : Nat) (a : Action) :
    (s.reduce now a).savingSettings = s.savingSettings ∨
      ∃ g id saving, a = .setSaving g (some id) saving ∧
        (s.reduce now a).savingSettings
          = ⟨⟨now, 0⟩, s.savingSettings.value.put g
              ⟨⟨now, 0⟩, (part s.savingSettings g).put id saving⟩⟩ := by
  cases a with
  | setSaving g id saving =>
    cases id with
    | none =>
      rw [reduce]
      split <;> exact Or.inl rfl
    | some id =>
      rw [reduce]
      split
      · exact Or.inl rfl
      · exact Or.inr ⟨g, id, saving, rfl, rfl⟩
  | setError g id error => cases id <;> cases error <;> exact Or.inl rfl
  | _ => exact Or.inl rfl

/-! ### Empty parts are left out -/

/-- No group has an empty part. -/
def Pruned (branch : Branch κ α) : Prop :=
  ∀ g p, branch.value.get? g = some p → p.value ≠ []

theorem Pruned.updateGroup (hb : Pruned branch) (hordered : branch.value.Ordered)
    (change : Keyed κ α → Keyed κ α × Bool) : Pruned (updateGroup now branch g change) := by
  intro h p hp
  rw [updateGroup_eq] at hp
  split at hp
  · split at hp
    · rw [Sorted.get?_erase hordered] at hp
      split at hp
      · cases hp
      · exact hb h p hp
    · next hempty =>
      rw [Sorted.get?_put] at hp
      split at hp
      · cases hp
        simpa using hempty
      · exact hb h p hp
  · exact hb h p hp

theorem Pruned.dropGroup (hb : Pruned branch) (hordered : branch.value.Ordered) :
    Pruned (dropGroup now branch g) :=
  fun h p hp => hb h p (get?_dropGroup_cases hordered hp)

theorem Pruned.changed (hb : Pruned branch) (hordered : branch.value.Ordered)
    {branch' : Branch κ α} (h : Changed now branch branch') : Pruned branch' := by
  cases h with
  | same => exact hb
  | updated g change => exact hb.updateGroup hordered change
  | dropped g => exact hb.dropGroup hordered

/-- Where empty parts are left out, a group has a part exactly if there is something in it. -/
theorem Pruned.isSome_iff (hb : Pruned branch) :
    (branch.value.get? g).isSome = true ↔ part branch g ≠ [] := by
  cases hp : branch.value.get? g with
  | none => simp [part_of_get?_eq_none hp]
  | some p => simpa [part_of_get? hp] using hb g p hp

end Branch

/-! ### Settings stand under their ids -/

/-- Each setting stands under the id that it bears. -/
def Labelled (branch : Versioned (Sorted GroupSettings)) : Prop :=
  ∀ g, ∀ e ∈ part branch g, e.2.value.id = e.1

theorem labelled_addSettings {m : Keyed String (Versioned Setting)}
    (hm : ∀ e ∈ m, e.2.value.id = e.1) (now slot : Nat) (xs : List Setting) :
    ∀ e ∈ addSettings now slot xs m, e.2.value.id = e.1 := by
  induction xs generalizing slot m with
  | nil => exact hm
  | cons x xs ih =>
    refine ih (fun e he => ?_) _
    rcases Keyed.mem_of_mem_put he with rfl | he
    · rfl
    · exact hm e he

theorem Labelled.receive {branch : Versioned (Sorted GroupSettings)} (hb : Labelled branch)
    (now : Nat) (g : String) (xs : List Setting) : Labelled (receive now branch g xs) := by
  intro h
  rw [part_receive]
  split
  · exact labelled_addSettings (hb g) now 0 xs
  · exact hb h

/-! ### Regular states -/

/-- A state is kept as it should be: the groups of each branch stand in order and each key once in
its part, empty parts of edits and errors are left out, and settings stand under their ids. -/
structure Regular (s : State) : Prop where
  kept : s.Kept
  savingGroups : s.savingGroups.value.Ordered
  savingSettings : WellKept s.savingSettings
  edits : Pruned s.edits
  errors : Pruned s.errors
  settings : Labelled s.settings

variable {s : State} {g : String}

theorem Regular.empty : Regular .empty where
  kept := Kept.empty
  savingGroups := Sorted.Ordered.nil
  savingSettings := WellKept.initial
  edits _ _ hp := nomatch hp
  errors _ _ hp := nomatch hp
  settings _ _ he := nomatch he

/-- **Actions leave a state regular.** -/
theorem Regular.reduce (hs : s.Regular) (now : Nat) (a : Action) : (s.reduce now a).Regular where
  kept := hs.kept.reduce now a
  savingGroups := by
    rcases savingGroups_reduce s now a with hsame | ⟨g, saving, -, hput⟩
    · exact hsame ▸ hs.savingGroups
    · exact hput ▸ hs.savingGroups.put g saving
  savingSettings := by
    rcases savingSettings_reduce s now a with hsame | ⟨g, id, saving, -, hput⟩
    · exact hsame ▸ hs.savingSettings
    · exact hput ▸ hs.savingSettings.put _ (Keyed.nodup_keys_put (hs.savingSettings.distinct g) _ _)
  edits := hs.edits.changed hs.kept.edits.ordered (edits_reduce s now a)
  errors := hs.errors.changed hs.kept.errors.ordered (errors_reduce s now a)
  settings := by
    rcases settings_reduce s now a with hsame | ⟨g, xs, -, hreceive⟩
    · exact hsame ▸ hs.settings
    · exact hreceive ▸ hs.settings.receive now g xs

theorem Regular.reduceAll (hs : s.Regular) (actions : List (Nat × Action)) :
    (s.reduceAll actions).Regular := by
  induction actions generalizing s with
  | nil => exact hs
  | cons a rest ih => exact ih (hs.reduce a.1 a.2)

/-- A group has edits exactly if it has a part among them. -/
theorem Regular.hasEdits_iff (hs : s.Regular) :
    s.hasEdits g = true ↔ (s.edits.value.get? g).isSome = true := by
  rw [hasEdits]
  cases hp : s.edits.value.get? g with
  | none => simp
  | some p => simpa using hs.edits g p hp

/-- The keys of a group's edits are the ids of its settings that are edited. -/
theorem mem_keys_edits {id : String} :
    id ∈ (part s.edits g).keys ↔ s.isEdited g id = true := by
  rw [isEdited, edit?_eq, Option.isSome_iff_ne_none, ne_eq, Keyed.get?_eq_none_iff, not_not]

end State

/-! ### What is remembered of edited ids -/

namespace Memo

variable {m : Memo} {clock : Nat} {states : List State} {s : State}

/-- What has been remembered of edited ids was taken from some of the states, which are regular and
in which parts that bear the same version are the same part. -/
structure Tracks (m : Memo) (clock : Nat) (states : List State) : Prop where
  regular : ∀ s ∈ states, s.Regular
  edits : Coherent clock (Among State.HasEdits states)
  ids : m.IdsSound states

theorem Tracks.start : Tracks {} 0 [.empty] where
  regular s hs := by
    rw [List.mem_singleton.mp hs]
    exact State.Regular.empty
  edits := .of_none fun p ⟨s, hs, g, hp⟩ => by
    rw [List.mem_singleton.mp hs] at hp
    cases hp
  ids _ he := nomatch he

/-- Time passes, and other things are read. -/
theorem Tracks.later {m' : Memo} {clock' : Nat} (hm : m.Tracks clock states)
    (hle : clock ≤ clock') (hids : m'.editedIds = m.editedIds) : m'.Tracks clock' states where
  regular := hm.regular
  edits := ⟨fun p hp => Nat.le_trans (hm.edits.past p hp) hle, hm.edits.unique⟩
  ids := by
    rw [IdsSound, hids]
    exact hm.ids

/-- An action leads to one more state. -/
theorem Tracks.reduce (hm : m.Tracks clock states) (hs : s ∈ states) (a : Action) :
    m.Tracks (clock + 1) (states ++ [s.reduce (clock + 1) a]) where
  regular := by
    intro t ht
    rcases List.mem_append.mp ht with ht | ht
    · exact hm.regular t ht
    · rw [List.mem_singleton.mp ht]
      exact (hm.regular s hs).reduce _ a
  edits := hm.edits.append_parts (fun s => s.edits.value) hs fun _ _ hq =>
    State.get?_edits_reduce (hm.regular s hs).kept hq
  ids := hm.ids.append _

theorem Tracks.readEditedIds (hm : m.Tracks clock states) (hs : s ∈ states) (g : String) :
    (m.readEditedIds (clock + 1) s g).2.Tracks (clock + 1) states where
  regular := hm.regular
  edits := hm.edits.later
  ids := hm.ids.readEditedIds hs _ g

/-- The ids that are read are those of the settings that are edited. -/
theorem Tracks.readEditedIds_value (hm : m.Tracks clock states) (hs : s ∈ states) (now : Nat)
    (g : String) : (m.readEditedIds now s g).1.value = (State.part s.edits g).keys :=
  readEditedIds_of_coherent hm.edits hm.ids hs now g

end Memo

namespace History

/-- A move keeps the first state, and keeps track of what is remembered. -/
theorem tracks_move {h : History} (hempty : .empty ∈ h.states)
    (ht : h.memo.Tracks h.clock h.states) (move : HistoryMove) :
    .empty ∈ (h.move move).states ∧
      (h.move move).memo.Tracks (h.move move).clock (h.move move).states := by
  have hbase : ∀ n, h.state n ∈ h.states := fun n => state_mem_of_empty hempty n
  cases move with
  | reduce base a => exact ⟨List.mem_append_left _ hempty, ht.reduce (hbase base) a⟩
  | readSettings base g withEdits =>
    exact ⟨hempty, ht.later (Nat.le_succ _) (Memo.readSettings_frame ..).2.1⟩
  | readSetting base g id withEdits =>
    exact ⟨hempty, ht.later (Nat.le_succ _) (Memo.readSetting_frame ..).2.1⟩
  | readEditedIds base g => exact ⟨hempty, ht.readEditedIds (hbase base) g⟩

/-- What is remembered of edited ids belongs to the states of the history, whatever happens. -/
theorem tracks_after (moves : List HistoryMove) :
    .empty ∈ (after moves).states ∧
      (after moves).memo.Tracks (after moves).clock (after moves).states := by
  have hrun : ∀ (ms : List HistoryMove) (h : History), .empty ∈ h.states →
      h.memo.Tracks h.clock h.states →
      .empty ∈ (ms.foldl move h).states ∧
        (ms.foldl move h).memo.Tracks (ms.foldl move h).clock (ms.foldl move h).states := by
    intro ms
    induction ms with
    | nil => exact fun _ hempty ht => ⟨hempty, ht⟩
    | cons m ms ih =>
      intro h hempty ht
      obtain ⟨hempty', ht'⟩ := tracks_move hempty ht m
      exact ih _ hempty' ht'
  exact hrun moves {} (List.mem_singleton_self _) Memo.Tracks.start

/-- **Every state is kept as it should be**, whatever happens: groups have edits or errors only
while there are some, each key stands once in its part, and each setting stands under its id.  A
group has edits exactly if it has a part among them, and the ids that are read are those of the
settings that are edited. -/
theorem parts_are_regular (moves : List HistoryMove) (n now : Nat) (g : String) :
    let s := (after moves).state n
    let ids := ((after moves).memo.readEditedIds now s g).1.value
    (∀ h p, s.edits.value.get? h = some p → p.value ≠ []) ∧
      (∀ h p, s.errors.value.get? h = some p → p.value ≠ []) ∧
      State.WellKept s.settings ∧ State.WellKept s.edits ∧ State.WellKept s.errors ∧
      s.savingGroups.value.Ordered ∧ State.WellKept s.savingSettings ∧
      (∀ h id x, s.setting? h id = some x → x.value.id = id) ∧
      (s.hasEdits g = true ↔ (s.edits.value.get? g).isSome = true) ∧
      (s.hasEdits g = true ↔ ids ≠ []) ∧
      ∀ id, id ∈ ids ↔ s.isEdited g id = true := by
  intro s ids
  obtain ⟨hempty, ht⟩ := tracks_after moves
  have hs : s ∈ (after moves).states := state_mem_of_empty hempty n
  have hregular : s.Regular := ht.regular s hs
  have hids : ids = (State.part s.edits g).keys := ht.readEditedIds_value hs now g
  refine ⟨hregular.edits, hregular.errors, hregular.kept.settings, hregular.kept.edits,
    hregular.kept.errors, hregular.savingGroups, hregular.savingSettings, ?_,
    hregular.hasEdits_iff, ?_, ?_⟩
  · intro h id x hx
    rw [State.setting?_eq] at hx
    exact hregular.settings h (id, x) (Keyed.mem_of_get? hx)
  · rw [hregular.hasEdits_iff, hregular.edits.isSome_iff, hids]
    simp [Keyed.keys]
  · intro id
    rw [hids]
    exact State.mem_keys_edits

end History

end RemoteSettings
