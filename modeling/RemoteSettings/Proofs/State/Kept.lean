import RemoteSettings.Proofs.State.Lookup

/-!
# Well-kept states

Actions keep the branches of settings, edits and errors in order, with each key once in each part.
In a well-kept state an action does to look-ups what it says, and to nothing else.

## Main definitions

* `State.Kept` — settings, edits and errors are well kept.
* `State.SameOf` — two states have the same settings, edits and errors of a group.
* `State.reduceAll` — the state after actions one after another.

## Main results

* `Kept.reduce` — actions keep states well.
* `setting?_receiveSettings`, `edit?_receiveSettings`, `error?_receiveSettings`, `error?_setError` —
  what can be looked up after settings are reported and after an error is set.
* `sameOf_reduce` — **an action on one group leaves all others as they are.**
-/

namespace RemoteSettings

/-- The group that an action is about. -/
def Action.group? : Action → Option String
  | receiveGroups _ => none
  | receiveSettings group _ => some group
  | edit group _ _ => some group
  | editAll group _ => some group
  | setSaving group _ _ => some group
  | setError group _ _ => some group
  | revert group _ => some group
  | revertGroup group => some group

/-- An action brings no setting of a group under an id. -/
def Action.Spares (group id : String) : Action → Prop
  | receiveSettings g settings => g = group → ∀ x ∈ settings, x.id ≠ id
  | _ => True

namespace State

/-! ### Well-kept states -/

/-- Settings, edits and errors are well kept. -/
structure Kept (s : State) : Prop where
  settings : WellKept s.settings
  edits : WellKept s.edits
  errors : WellKept s.errors

theorem Kept.empty : Kept .empty := ⟨WellKept.initial, WellKept.initial, WellKept.initial⟩

theorem nodup_keys_applyEdit {reported : Option GroupSettings} {id : String} {value : Value}
    {m : Keyed String Value} (h : m.keys.Nodup) :
    (applyEdit reported id value m).1.keys.Nodup := by
  rw [applyEdit]
  split
  · exact Keyed.nodup_keys_erase h id
  · split
    · exact h
    · exact Keyed.nodup_keys_put h id value

theorem nodup_keys_applyEdits {reported : Option GroupSettings} {updates : List Update}
    {m : Keyed String Value} (h : m.keys.Nodup) :
    (applyEdits reported updates m).1.keys.Nodup := by
  induction updates generalizing m with
  | nil => exact h
  | cons u us ih => exact ih (nodup_keys_applyEdit h)

theorem nodup_keys_record {κ α : Type} [DecidableEq κ] (key : κ) (value : α) (m : Keyed κ α)
    (h : m.keys.Nodup) : (record key value m).1.keys.Nodup := Keyed.nodup_keys_put h key value

theorem nodup_keys_remove {κ α : Type} [DecidableEq κ] (key : κ) (m : Keyed κ α)
    (h : m.keys.Nodup) : (remove key m).1.keys.Nodup := Keyed.nodup_keys_erase h key

/-- Actions keep branches well. -/
theorem Kept.reduce {s : State} (h : s.Kept) (now : Nat) (a : Action) : (s.reduce now a).Kept := by
  cases a with
  | receiveGroups groups => exact ⟨h.settings, h.edits, h.errors⟩
  | receiveSettings g settings =>
    exact ⟨h.settings.receive settings, h.edits.updateGroup fun _ hm => nodup_keys_removeAll hm _,
      h.errors.updateGroup fun _ hm => nodup_keys_removeAll hm _⟩
  | edit g id value =>
    exact ⟨h.settings, h.edits.updateGroup fun _ hm => nodup_keys_applyEdit hm, h.errors⟩
  | editAll g updates =>
    exact ⟨h.settings, h.edits.updateGroup fun _ hm => nodup_keys_applyEdits hm, h.errors⟩
  | setSaving g id saving =>
    cases id with
    | none =>
      rw [State.reduce]
      split
      · exact h
      · exact ⟨h.settings, h.edits, h.errors⟩
    | some id =>
      rw [State.reduce]
      split
      · exact h
      · exact ⟨h.settings, h.edits, h.errors⟩
  | setError g id error =>
    cases id with
    | none =>
      cases error with
      | none => exact ⟨h.settings, h.edits, h.errors.dropGroup⟩
      | some e =>
        exact ⟨h.settings, h.edits, h.errors.updateGroup (nodup_keys_record ErrorKey.all e)⟩
    | some id =>
      cases error with
      | none =>
        exact ⟨h.settings, h.edits,
          h.errors.updateGroup (nodup_keys_remove (ErrorKey.setting id))⟩
      | some e =>
        exact ⟨h.settings, h.edits,
          h.errors.updateGroup (nodup_keys_record (ErrorKey.setting id) e)⟩
  | revert g id =>
    exact ⟨h.settings, h.edits.updateGroup (nodup_keys_remove id),
      h.errors.updateGroup (nodup_keys_remove (ErrorKey.setting id))⟩
  | revertGroup g => exact ⟨h.settings, h.edits.dropGroup, h.errors.dropGroup⟩

/-! ### Look-ups after actions -/

variable {s : State} {now : Nat} {g h : String}

/-- What an error is about: a setting, or the group as a whole. -/
def errorKey : Option String → ErrorKey
  | none => .all
  | some id => .setting id

/-- The last setting that is reported under an id takes the place of any other. -/
theorem setting?_receiveSettings (s : State) (now : Nat) (g h : String) (xs : List Setting)
    (id : String) :
    ((s.reduce now (.receiveSettings g xs)).setting? h id).map (·.value)
      = if g = h then (xs.findRev? (·.id == id)).or ((s.setting? h id).map (·.value))
        else (s.setting? h id).map (·.value) := by
  rw [setting?_eq, setting?_eq, reduce, part_receive]
  split
  · next hg => rw [hg, get?_addSettings]
  · rfl

/-- Settings that an action does not bring stay the same parts. -/
theorem setting?_reduce {a : Action} {group id : String} (h : a.Spares group id)
    (now : Nat) (s : State) : (s.reduce now a).setting? group id = s.setting? group id := by
  cases a with
  | receiveSettings g settings =>
    rw [setting?_eq, setting?_eq, reduce, part_receive]
    split
    · next hg => rw [hg, get?_addSettings_of_not_mem (h hg)]
    · rfl
  | setSaving g i saving =>
    cases i with
    | none =>
      rw [reduce]
      split <;> rfl
    | some i =>
      rw [reduce]
      split <;> rfl
  | setError g i error => cases i <;> cases error <;> rfl
  | _ => rfl

/-- Settings that are reported have no edits any more. -/
theorem edit?_receiveSettings (hs : s.Kept) (xs : List Setting) (id : String) :
    (s.reduce now (.receiveSettings g xs)).edit? h id
      = if g = h ∧ id ∈ xs.map (·.id) then none else s.edit? h id := by
  rw [edit?_eq, edit?_eq]
  exact get?_part_removeAll hs.edits _ id

/-- Settings that are reported have no errors any more; that of the group stays. -/
theorem error?_receiveSettings (hs : s.Kept) (xs : List Setting) (key : ErrorKey) :
    (s.reduce now (.receiveSettings g xs)).error? h key
      = if g = h ∧ key ∈ xs.map (fun x => .setting x.id) then none else s.error? h key := by
  have hkeys : xs.map (fun x => ErrorKey.setting x.id) = (xs.map (·.id)).map .setting :=
    (List.map_map ..).symm
  rw [error?_eq, error?_eq, hkeys]
  exact get?_part_removeAll hs.errors _ key

/-- An error is set for what it is about, and for nothing else. -/
theorem error?_setError (hs : s.Kept) (id : Option String) (e : Failure) (key : ErrorKey) :
    (s.reduce now (.setError g id (some e))).error? h key
      = if g = h ∧ errorKey id = key then some e else s.error? h key := by
  have hreduce : s.reduce now (.setError g id (some e))
      = { s with errors := updateGroup now s.errors g (record (errorKey id) e) } := by
    cases id <;> rfl
  rw [error?_eq, error?_eq, hreduce]
  exact get?_part_record hs.errors (errorKey id) key e

/-! ### Other groups -/

/-- Two states have the same settings, edits and errors of a group. -/
structure SameOf (h : String) (s s' : State) : Prop where
  settings : s'.settings.value.get? h = s.settings.value.get? h
  edits : s'.edits.value.get? h = s.edits.value.get? h
  errors : s'.errors.value.get? h = s.errors.value.get? h

theorem SameOf.refl (h : String) (s : State) : SameOf h s s := ⟨rfl, rfl, rfl⟩

theorem SameOf.trans {s' s'' : State} (hs : SameOf h s s') (hs' : SameOf h s' s'') :
    SameOf h s s'' where
  settings := hs'.settings.trans hs.settings
  edits := hs'.edits.trans hs.edits
  errors := hs'.errors.trans hs.errors

/-- **An action on one group leaves all others as they are.** -/
theorem sameOf_reduce (hs : s.Kept) {a : Action} (hne : a.group? ≠ some h) :
    SameOf h s (s.reduce now a) := by
  have hne' : ∀ g, a.group? = some g → g ≠ h := by
    rintro g hg rfl
    exact hne hg
  have hrefl := SameOf.refl h s
  cases a with
  | receiveGroups groups => exact ⟨rfl, rfl, rfl⟩
  | receiveSettings g xs =>
    have hg := hne' g rfl
    refine ⟨?_, get?_updateGroup_of_ne hs.edits.ordered hg _,
      get?_updateGroup_of_ne hs.errors.ordered hg _⟩
    exact (Sorted.get?_put h g _ _).trans (if_neg hg)
  | edit g id value =>
    exact { hrefl with edits := get?_updateGroup_of_ne hs.edits.ordered (hne' g rfl) _ }
  | editAll g updates =>
    exact { hrefl with edits := get?_updateGroup_of_ne hs.edits.ordered (hne' g rfl) _ }
  | setSaving g id saving =>
    cases id with
    | none =>
      rw [reduce]
      split
      · exact hrefl
      · exact ⟨rfl, rfl, rfl⟩
    | some id =>
      rw [reduce]
      split
      · exact hrefl
      · exact ⟨rfl, rfl, rfl⟩
  | setError g id error =>
    have hg := hne' g rfl
    cases id with
    | none =>
      cases error with
      | none => exact { hrefl with errors := get?_dropGroup_of_ne hs.errors.ordered hg }
      | some e =>
        exact { hrefl with errors := get?_updateGroup_of_ne hs.errors.ordered hg (record .all e) }
    | some id =>
      cases error with
      | none =>
        exact { hrefl with
          errors := get?_updateGroup_of_ne hs.errors.ordered hg (remove (.setting id)) }
      | some e =>
        exact { hrefl with
          errors := get?_updateGroup_of_ne hs.errors.ordered hg (record (.setting id) e) }
  | revert g id =>
    have hg := hne' g rfl
    exact { hrefl with
      edits := get?_updateGroup_of_ne hs.edits.ordered hg (remove id)
      errors := get?_updateGroup_of_ne hs.errors.ordered hg (remove (.setting id)) }
  | revertGroup g =>
    have hg := hne' g rfl
    exact { hrefl with
      edits := get?_dropGroup_of_ne hs.edits.ordered hg
      errors := get?_dropGroup_of_ne hs.errors.ordered hg }

/-- The state after actions one after another, each at its moment. -/
def reduceAll (s : State) (actions : List (Nat × Action)) : State :=
  actions.foldl (fun s a => s.reduce a.1 a.2) s

theorem sameOf_reduceAll (hs : s.Kept) {actions : List (Nat × Action)}
    (hne : ∀ a ∈ actions, a.2.group? ≠ some h) : SameOf h s (s.reduceAll actions) := by
  induction actions generalizing s with
  | nil => exact SameOf.refl h s
  | cons a rest ih =>
    obtain ⟨ha, hrest⟩ := List.forall_mem_cons.mp hne
    exact (sameOf_reduce hs ha).trans (ih (hs.reduce a.1 a.2) hrest)

end State

end RemoteSettings
