import RemoteSettings.State.Basic
import RemoteSettings.Update

/-!
# Actions on the state

An action rebuilds the branches that it changes and leaves the others as they are.  What it rebuilds
gets the version of the moment at which it is applied.

## Main definitions

* `Action` — what can happen to the state.
* `State.reduce` — the state after an action.
* `State.receive`, `State.updateGroup`, `State.dropGroup` — the changes that actions consist of.
-/

namespace RemoteSettings

/-- What can happen to the state. -/
inductive Action
  /-- The service reports all groups. -/
  | receiveGroups (groups : List Group)
  /-- The service reports settings of a group. -/
  | receiveSettings (group : String) (settings : List Setting)
  | edit (group id : String) (value : Value)
  | editAll (group : String) (updates : List Update)
  /-- Raises or lowers the flag of a setting, or of the group as a whole. -/
  | setSaving (group : String) (id : Option String) (saving : Bool)
  /-- Sets or clears the error of a setting.  Of the group as a whole an error is set; clearing
  takes all errors of the group away. -/
  | setError (group : String) (id : Option String) (error : Option Failure)
  /-- Forgets the edit and the error of a setting. -/
  | revert (group id : String)
  /-- Forgets all edits and errors of a group. -/
  | revertGroup (group : String)

namespace State

variable {κ α : Type} [DecidableEq κ]

/-- Adds reported settings to a group, numbering them from `slot` on. -/
def addSettings (now slot : Nat) :
    List Setting → Keyed String (Versioned Setting) → Keyed String (Versioned Setting)
  | [], m => m
  | s :: rest, m => addSettings now (slot + 1) rest (m.put s.id ⟨⟨now, slot⟩, s⟩)

/-- Adds reported settings to the group of the branch of settings. -/
def receive (now : Nat) (branch : Versioned (Sorted GroupSettings)) (group : String)
    (settings : List Setting) : Versioned (Sorted GroupSettings) :=
  let known := ((branch.value.get? group).map (·.value)).getD []
  ⟨⟨now, 0⟩, branch.value.put group ⟨⟨now, 0⟩, addSettings now 0 settings known⟩⟩

/-- Changes a group's part of a branch.  Nothing is rebuilt if the change reports none; a group
that ends up empty is left out. -/
def updateGroup (now : Nat) (branch : Versioned (Sorted (Versioned (Keyed κ α)))) (group : String)
    (change : Keyed κ α → Keyed κ α × Bool) : Versioned (Sorted (Versioned (Keyed κ α))) :=
  let (part, changed) := change (((branch.value.get? group).map (·.value)).getD [])
  if changed then
    if part.isEmpty then ⟨⟨now, 0⟩, branch.value.erase group⟩
    else ⟨⟨now, 0⟩, branch.value.put group ⟨⟨now, 0⟩, part⟩⟩
  else branch

/-- Leaves a group out of a branch. -/
def dropGroup (now : Nat) (branch : Versioned (Sorted α)) (group : String) :
    Versioned (Sorted α) :=
  if branch.value.has group then ⟨⟨now, 0⟩, branch.value.erase group⟩ else branch

/-- Removes an entry, and says whether there was one. -/
def remove (key : κ) (m : Keyed κ α) : Keyed κ α × Bool := (m.erase key, m.has key)

/-- Removes entries one after another, and says whether there was any. -/
def removeAll : List κ → Keyed κ α → Keyed κ α × Bool
  | [], m => (m, false)
  | key :: keys, m =>
    let (rest, changed) := removeAll keys (m.erase key)
    (rest, m.has key || changed)

/-- Sets an entry. -/
def record (key : κ) (value : α) (m : Keyed κ α) : Keyed κ α × Bool := (m.put key value, true)

/-- Records an edit, and says whether anything changed.  An edit to the reported value is none, and
takes the place of any other. -/
def applyEdit (reported : Option GroupSettings) (id : String) (value : Value)
    (edits : Keyed String Value) : Keyed String Value × Bool :=
  let canonical := (reported.bind fun g => g.value.get? id).map (·.value.value)
  if canonical == some value then remove id edits
  else if edits.get? id == some value then (edits, false)
  else record id value edits

/-- Records edits one after another, and says whether anything changed. -/
def applyEdits (reported : Option GroupSettings) :
    List Update → Keyed String Value → Keyed String Value × Bool
  | [], edits => (edits, false)
  | u :: us, edits =>
    let (edits, first) := applyEdit reported u.id u.value edits
    let (edits, more) := applyEdits reported us edits
    (edits, first || more)

/-- The state after an action that is applied at a given moment. -/
def reduce (now : Nat) (s : State) : Action → State
  | .receiveGroups groups => { s with groups := ⟨⟨now, 0⟩, groups⟩ }
  | .receiveSettings group settings =>
    -- What the service has just reported is neither edited nor wrong any more.
    let ids := settings.map (·.id)
    { s with
      settings := receive now s.settings group settings
      edits := updateGroup now s.edits group (removeAll ids)
      errors := updateGroup now s.errors group (removeAll (ids.map .setting)) }
  | .edit group id value =>
    { s with
      edits := updateGroup now s.edits group (applyEdit (s.settings.value.get? group) id value) }
  | .editAll group updates =>
    { s with
      edits := updateGroup now s.edits group (applyEdits (s.settings.value.get? group) updates) }
  | .setSaving group none saving =>
    if s.savingGroups.value.get? group = some saving then s
    else { s with savingGroups := ⟨⟨now, 0⟩, s.savingGroups.value.put group saving⟩ }
  | .setSaving group (some id) saving =>
    let flags : Keyed String Bool := ((s.savingSettings.value.get? group).map (·.value)).getD []
    if flags.get? id = some saving then s
    else
      { s with
        savingSettings :=
          ⟨⟨now, 0⟩, s.savingSettings.value.put group ⟨⟨now, 0⟩, flags.put id saving⟩⟩ }
  | .setError group none none => { s with errors := dropGroup now s.errors group }
  | .setError group none (some e) =>
    { s with errors := updateGroup now s.errors group (record .all e) }
  | .setError group (some id) none =>
    { s with errors := updateGroup now s.errors group (remove (.setting id)) }
  | .setError group (some id) (some e) =>
    { s with errors := updateGroup now s.errors group (record (.setting id) e) }
  | .revert group id =>
    { s with
      edits := updateGroup now s.edits group (remove id)
      errors := updateGroup now s.errors group (remove (.setting id)) }
  | .revertGroup group =>
    { s with
      edits := dropGroup now s.edits group
      errors := dropGroup now s.errors group }

end State

end RemoteSettings
