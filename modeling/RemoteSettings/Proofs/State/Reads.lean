import Mathlib.Data.List.Forall2
import RemoteSettings.Proofs.State.Lookup
import RemoteSettings.State.Memo

/-!
# Reads

A read of settings, of a setting or of the edited ids finds nothing to build and forgets, or gives
what is there without looking at what was remembered, or gives what was remembered, or builds and
remembers.

## Main definitions

* `Memo.SettingsRead`, `Memo.SettingRead`, `Memo.IdsRead` — the ways in which a read can go.
* `Memo.contents` — the settings of a group without their versions.
* `State.settingsWith`, `State.settingWith` — what a read gives that has nothing to remember.

## Main results

* `Memo.settingsRead`, `Memo.settingRead`, `Memo.idsRead` — every read goes in one of these ways.
* `Memo.forall₂_merge` — **with their edits, settings stand as they stood**, and only the value of
  those is replaced that have an edit.
* `Memo.contents_merge` — what is built does not depend on the moment.
-/

namespace RemoteSettings

namespace Memo

/-! ### The ways in which a read can go -/

section Ways

variable (now : Nat) (m : Memo) (s : State) (group id : String)

/-- The ways in which a read of the settings of a group can go. -/
inductive SettingsRead : Bool → GroupSettings × Memo → Prop
  /-- There are no settings. -/
  | absent {withEdits : Bool} : s.settings.value.get? group = none →
      SettingsRead withEdits (noSettings, { m with settings := m.settings.erase group })
  /-- There are no edits. -/
  | unedited {withEdits : Bool} {p : GroupSettings} : s.settings.value.get? group = some p →
      s.edits.value.get? group = none →
      SettingsRead withEdits (p, { m with settings := m.settings.erase group })
  /-- Edits do not count. -/
  | plain {p : GroupSettings} {q : GroupEdits} : s.settings.value.get? group = some p →
      s.edits.value.get? group = some q → SettingsRead false (p, m)
  | known {p : GroupSettings} {q : GroupEdits} {k : MergedSettings} :
      s.settings.value.get? group = some p → s.edits.value.get? group = some q →
      m.settings.get? group = some k → k.settings = p.version ∧ k.edits = q.version →
      SettingsRead true (k.merged, m)
  | built {p : GroupSettings} {q : GroupEdits} : s.settings.value.get? group = some p →
      s.edits.value.get? group = some q →
      (∀ k, m.settings.get? group = some k → ¬(k.settings = p.version ∧ k.edits = q.version)) →
      SettingsRead true (⟨⟨now, 0⟩, merge now p.value q.value⟩,
        { m with
          settings := m.settings.put group
            ⟨p.version, q.version, ⟨⟨now, 0⟩, merge now p.value q.value⟩⟩ })

/-- The ways in which a read of a setting can go. -/
inductive SettingRead : Bool → Option (Versioned Setting) × Memo → Prop
  /-- There is no setting. -/
  | absent {withEdits : Bool} : s.setting? group id = none →
      SettingRead withEdits (none, { m with setting := m.setting.erase (group, id) })
  /-- There is no edit. -/
  | unedited {withEdits : Bool} {x : Versioned Setting} : s.setting? group id = some x →
      s.edit? group id = none →
      SettingRead withEdits (some x, { m with setting := m.setting.erase (group, id) })
  /-- Edits do not count. -/
  | plain {x : Versioned Setting} {e : Value} : s.setting? group id = some x →
      s.edit? group id = some e → SettingRead false (some x, m)
  | known {x : Versioned Setting} {e : Value} {k : MergedSetting} :
      s.setting? group id = some x → s.edit? group id = some e →
      m.setting.get? (group, id) = some k → k.setting = x.version ∧ (k.edit == e) = true →
      SettingRead true (some k.merged, m)
  | built {x : Versioned Setting} {e : Value} : s.setting? group id = some x →
      s.edit? group id = some e →
      (∀ k, m.setting.get? (group, id) = some k → ¬(k.setting = x.version ∧ (k.edit == e) = true)) →
      SettingRead true (some ⟨⟨now, 0⟩, x.value.withValue e⟩,
        { m with
          setting := m.setting.put (group, id)
            ⟨x.version, e, ⟨⟨now, 0⟩, x.value.withValue e⟩⟩ })

/-- The ways in which a read of the edited ids of a group can go. -/
inductive IdsRead : Versioned (List String) × Memo → Prop
  /-- There are no edits. -/
  | absent : s.edits.value.get? group = none →
      IdsRead (noIds, { m with editedIds := m.editedIds.erase group })
  | known {q : GroupEdits} {k : EditedIds} : s.edits.value.get? group = some q →
      m.editedIds.get? group = some k → k.edits = q.version → IdsRead (k.ids, m)
  | built {q : GroupEdits} : s.edits.value.get? group = some q →
      (∀ k, m.editedIds.get? group = some k → k.edits ≠ q.version) →
      IdsRead (⟨⟨now, 0⟩, q.value.keys⟩,
        { m with editedIds := m.editedIds.put group ⟨q.version, ⟨⟨now, 0⟩, q.value.keys⟩⟩ })

/-- **Every read of settings goes in one of these ways.** -/
theorem settingsRead (withEdits : Bool) :
    SettingsRead now m s group withEdits (m.readSettings now s group withEdits) := by
  unfold readSettings
  cases hp : s.settings.value.get? group with
  | none => exact .absent hp
  | some p =>
    cases hq : s.edits.value.get? group with
    | none => exact .unedited hp hq
    | some q =>
      cases withEdits with
      | false => exact .plain hp hq
      | true =>
        dsimp only
        rw [if_neg (by simp)]
        cases hk : m.settings.get? group with
        | none => exact .built hp hq fun k h => nomatch hk.symm.trans h
        | some k =>
          dsimp only
          split
          · next hsame => exact .known hp hq hk hsame
          · next hother =>
            refine .built hp hq fun k' h => ?_
            cases hk.symm.trans h
            exact hother

/-- **Every read of a setting goes in one of these ways.** -/
theorem settingRead (withEdits : Bool) :
    SettingRead now m s group id withEdits (m.readSetting now s group id withEdits) := by
  unfold readSetting
  cases hx : s.setting? group id with
  | none => exact .absent hx
  | some x =>
    cases he : s.edit? group id with
    | none => exact .unedited hx he
    | some e =>
      cases withEdits with
      | false => exact .plain hx he
      | true =>
        dsimp only
        rw [if_neg (by simp)]
        cases hk : m.setting.get? (group, id) with
        | none => exact .built hx he fun k h => nomatch hk.symm.trans h
        | some k =>
          dsimp only
          split
          · next hsame => exact .known hx he hk hsame
          · next hother =>
            refine .built hx he fun k' h => ?_
            cases hk.symm.trans h
            exact hother

/-- **Every read of edited ids goes in one of these ways.** -/
theorem idsRead : IdsRead now m s group (m.readEditedIds now s group) := by
  unfold readEditedIds
  cases hq : s.edits.value.get? group with
  | none => exact .absent hq
  | some q =>
    cases hk : m.editedIds.get? group with
    | none => exact .built hq fun k h => nomatch hk.symm.trans h
    | some k =>
      dsimp only
      split
      · next hsame => exact .known hq hk hsame
      · next hother =>
        refine .built hq fun k' h => ?_
        cases hk.symm.trans h
        exact hother

end Ways

/-! ### Settings with their edits -/

variable {now : Nat} {p : Keyed String (Versioned Setting)} {q : Keyed String Value}

/-- The settings of a group without their versions. -/
def contents (m : Keyed String (Versioned Setting)) : Keyed String Setting :=
  m.map fun e => (e.1, e.2.value)

/-- With their edits, settings stand under the ids and in the order in which they stood.  A setting
with an edit has its value replaced; any other is the very setting that it was. -/
theorem forall₂_merge (now : Nat) (p : Keyed String (Versioned Setting))
    (q : Keyed String Value) :
    List.Forall₂ (fun x y => x.1 = y.1 ∧
        match q.get? x.1 with
        | some e => y.2.value = { x.2.value with value := e }
        | none => y.2 = x.2)
      p (merge now p q) := by
  refine List.forall₂_iff_get.mpr ⟨by simp [merge], fun i hi hi' => ?_⟩
  simp only [List.get_eq_getElem, merge, List.getElem_mapIdx, mergeOne]
  cases q.get? p[i].1 <;> exact ⟨rfl, rfl⟩

/-- Where there are no edits, nothing is replaced. -/
theorem merge_nil (now : Nat) (p : Keyed String (Versioned Setting)) : merge now p [] = p :=
  List.ext_getElem (by simp [merge]) fun i _ _ => by simp [merge, mergeOne]

/-- What is built does not depend on the moment. -/
theorem contents_merge (now : Nat) (p : Keyed String (Versioned Setting))
    (q : Keyed String Value) :
    contents (merge now p q)
      = p.map fun x => (x.1, ((q.get? x.1).map x.2.value.withValue).getD x.2.value) := by
  refine List.ext_getElem (by simp [contents, merge]) fun i _ hi => ?_
  have hi' : i < p.length := by simpa using hi
  simp only [contents, merge, List.getElem_map, List.getElem_mapIdx, mergeOne]
  cases q.get? p[i].1 <;> rfl

end Memo

/-! ### What there is to read -/

namespace State

/-- The settings of a group, with their edits if they count, built at a given moment. -/
def settingsWith (now : Nat) (s : State) (group : String) (withEdits : Bool) :
    Keyed String (Versioned Setting) :=
  if withEdits then Memo.merge now (part s.settings group) (part s.edits group)
  else part s.settings group

/-- A setting, with its edit if it counts. -/
def settingWith (s : State) (group id : String) (withEdits : Bool) : Option Setting :=
  (s.setting? group id).map fun x =>
    ((if withEdits then s.edit? group id else none).map x.value.withValue).getD x.value

variable {s : State} {g id : String} {x : Versioned Setting}

theorem settingWith_eq_none (hx : s.setting? g id = none) (withEdits : Bool) :
    s.settingWith g id withEdits = none := by
  rw [settingWith, hx, Option.map_none]

theorem settingWith_false (hx : s.setting? g id = some x) :
    s.settingWith g id false = some x.value := by
  rw [settingWith, hx]
  rfl

theorem settingWith_of_unedited (hx : s.setting? g id = some x) (he : s.edit? g id = none)
    (withEdits : Bool) : s.settingWith g id withEdits = some x.value := by
  rw [settingWith, hx, he, ite_self]
  rfl

theorem settingWith_of_edit? {e : Value} (hx : s.setting? g id = some x)
    (he : s.edit? g id = some e) : s.settingWith g id true = some (x.value.withValue e) := by
  rw [settingWith, hx, he]
  rfl

end State

end RemoteSettings
