import RemoteSettings.State.Basic

/-!
# Remembered reads

Reads that build something new remember it together with the parts that it was built from.  While
these are the same parts, the next read gives the same result; once there is nothing to build, it
is forgotten.

## Main definitions

* `Memo` — what has been remembered.
* `Memo.settings` — the settings of a group, with their edits if they count.
* `Memo.setting` — a setting, with its edit if it counts.
* `Memo.editedIds` — the ids of the settings that have edits.
-/

namespace RemoteSettings

/-- The settings of a group with their edits, and what they were built from. -/
structure MergedSettings where
  settings : Version
  edits : Version
  merged : GroupSettings

/-- A setting with its edit, and what it was built from. -/
structure MergedSetting where
  setting : Version
  edit : Value
  merged : Versioned Setting

/-- The ids of the settings with edits, and the edits that they were taken from. -/
structure EditedIds where
  edits : Version
  ids : Versioned (List String)

/-- What has been remembered: the last results for each group, and for each setting. -/
structure Memo where
  settings : Keyed String MergedSettings := []
  setting : Keyed (String × String) MergedSetting := []
  editedIds : Keyed String EditedIds := []
  deriving Inhabited

namespace Memo

/-- A group without settings. -/
def noSettings : GroupSettings := .initial []

/-- No ids. -/
def noIds : Versioned (List String) := .initial []

/-- A setting with its edit, if it has one. -/
def mergeOne (now slot : Nat) (edits : Keyed String Value)
    (entry : String × Versioned Setting) : String × Versioned Setting :=
  match edits.get? entry.1 with
  | some value => (entry.1, ⟨⟨now, slot⟩, entry.2.value.withValue value⟩)
  | none => entry

/-- The settings of a group with their edits; the new settings are numbered by their place. -/
def merge (now : Nat) (settings : Keyed String (Versioned Setting)) (edits : Keyed String Value) :
    Keyed String (Versioned Setting) :=
  settings.mapIdx fun slot entry => mergeOne now slot edits entry

/-- The settings of a group, with their edits if they count, read at a given moment. -/
def readSettings (now : Nat) (m : Memo) (s : State) (group : String) (withEdits : Bool) :
    GroupSettings × Memo :=
  match s.settings.value.get? group, s.edits.value.get? group with
  | none, _ => (noSettings, { m with settings := m.settings.erase group })
  | some settings, none => (settings, { m with settings := m.settings.erase group })
  | some settings, some edits =>
    if !withEdits then (settings, m)
    else
      let build : GroupSettings × Memo :=
        let merged : GroupSettings := ⟨⟨now, 0⟩, merge now settings.value edits.value⟩
        (merged,
          { m with settings := m.settings.put group ⟨settings.version, edits.version, merged⟩ })
      -- The same versions mean the same parts.
      match m.settings.get? group with
      | some known =>
        if known.settings = settings.version ∧ known.edits = edits.version then (known.merged, m)
        else build
      | none => build

/-- A setting, with its edit if it counts, read at a given moment. -/
def readSetting (now : Nat) (m : Memo) (s : State) (group id : String) (withEdits : Bool) :
    Option (Versioned Setting) × Memo :=
  match s.setting? group id, s.edit? group id with
  -- To read without edits forgets nothing: the next read with edits may still use it.
  | some setting, some edit =>
    if !withEdits then (some setting, m)
    else
      let build : Option (Versioned Setting) × Memo :=
        let merged : Versioned Setting := ⟨⟨now, 0⟩, setting.value.withValue edit⟩
        (some merged,
          { m with setting := m.setting.put (group, id) ⟨setting.version, edit, merged⟩ })
      match m.setting.get? (group, id) with
      | some known =>
        if known.setting = setting.version ∧ known.edit == edit then (some known.merged, m)
        else build
      | none => build
  -- Nothing is to be built, so what was built before is forgotten.
  | setting, _ => (setting, { m with setting := m.setting.erase (group, id) })

/-- The ids of a group's settings with edits, in the order of the edits, read at a given moment. -/
def readEditedIds (now : Nat) (m : Memo) (s : State) (group : String) :
    Versioned (List String) × Memo :=
  match s.edits.value.get? group with
  | none => (noIds, { m with editedIds := m.editedIds.erase group })
  | some edits =>
    let build : Versioned (List String) × Memo :=
      let ids : Versioned (List String) := ⟨⟨now, 0⟩, edits.value.keys⟩
      (ids, { m with editedIds := m.editedIds.put group ⟨edits.version, ids⟩ })
    match m.editedIds.get? group with
    | some known => if known.edits = edits.version then (known.ids, m) else build
    | none => build

end Memo

end RemoteSettings
