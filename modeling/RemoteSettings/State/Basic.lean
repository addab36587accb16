import RemoteSettings.Group
import RemoteSettings.Failure
import RemoteSettings.Setting

/-!
# The state of the store

The state has six branches.  Each branch, each group's part of a branch and each setting carries a
*version*, which is new whenever it is rebuilt; a part with the same version is the same part.

## Main definitions

* `Versioned` — a part and its version.
* `State` — the groups, and for each group its settings, edits, errors and saving flags.
* `State.sameAs` — whether no branch has been rebuilt.
-/

namespace RemoteSettings

/-- When a part was built, and its number among the parts built then. -/
structure Version where
  time : Nat
  slot : Nat := 0
  deriving DecidableEq, Repr, Inhabited

/-- A part and its version. -/
structure Versioned (α : Type) where
  version : Version
  value : α
  deriving Inhabited

/-- Whether two parts are the same part. -/
def Versioned.same {α : Type} (a b : Versioned α) : Bool := a.version == b.version

/-- A part that is there from the beginning. -/
def Versioned.initial {α : Type} (value : α) : Versioned α := ⟨⟨0, 0⟩, value⟩

/-- What an error of a group is about. -/
inductive ErrorKey
  /-- The group as a whole. -/
  | all
  | setting (id : String)
  deriving DecidableEq, Repr

/-- The settings of a group as the service last reported them. -/
abbrev GroupSettings := Versioned (Keyed String (Versioned Setting))

/-- The edits of a group that have not been saved, in the order in which they were begun. -/
abbrev GroupEdits := Versioned (Keyed String Value)

/-- The errors of a group. -/
abbrev GroupErrors := Versioned (Keyed ErrorKey Failure)

/-- The settings of a group that are or were being saved. -/
abbrev GroupFlags := Versioned (Keyed String Bool)

/-- The state of the store. -/
structure State where
  groups : Versioned (List Group)
  settings : Versioned (Sorted GroupSettings)
  edits : Versioned (Sorted GroupEdits)
  errors : Versioned (Sorted GroupErrors)
  /-- Whether a group is being saved as a whole. -/
  savingGroups : Versioned (Sorted Bool)
  /-- Whether a setting is being saved by itself. -/
  savingSettings : Versioned (Sorted GroupFlags)
  deriving Inhabited

namespace State

/-- The state of a store that has done nothing. -/
def empty : State :=
  ⟨.initial [], .initial [], .initial [], .initial [], .initial [], .initial []⟩

/-- Whether every branch of two states is the same part. -/
def sameAs (a b : State) : Bool :=
  a.groups.same b.groups && a.settings.same b.settings && a.edits.same b.edits
    && a.errors.same b.errors && a.savingGroups.same b.savingGroups
    && a.savingSettings.same b.savingSettings

/-- A setting of a group. -/
def setting? (s : State) (group id : String) : Option (Versioned Setting) :=
  (s.settings.value.get? group).bind fun g => g.value.get? id

/-- The edit of a setting. -/
def edit? (s : State) (group id : String) : Option Value :=
  (s.edits.value.get? group).bind fun g => g.value.get? id

/-- An error of a group. -/
def error? (s : State) (group : String) (key : ErrorKey) : Option Failure :=
  (s.errors.value.get? group).bind fun g => g.value.get? key

/-- The group of an id, the first if there are several. -/
def group? (s : State) (id : String) : Option Group := s.groups.value.find? (·.id == id)

/-- Whether a setting has an edit. -/
def isEdited (s : State) (group id : String) : Bool := (s.edit? group id).isSome

/-- The value of a setting: its edit, if edits count and there is one, else the reported value. -/
def value? (s : State) (group id : String) (withEdits : Bool) : Option Value :=
  let reported := (s.setting? group id).map (·.value.value)
  if withEdits then (s.edit? group id).or reported else reported

/-- Whether a group is being saved as a whole. -/
def isGroupSaving (s : State) (group : String) : Bool :=
  (s.savingGroups.value.get? group).getD false

/-- Whether a setting is being saved by itself. -/
def isSettingSaving (s : State) (group id : String) : Bool :=
  ((s.savingSettings.value.get? group).bind fun g => g.value.get? id).getD false

/-- Whether a group has edits. -/
def hasEdits (s : State) (group : String) : Bool :=
  match s.edits.value.get? group with
  | some g => !g.value.isEmpty
  | none => false

end State

end RemoteSettings
