import RemoteSettings.Store.Remote

/-!
# Calls to the store

## Main definitions

* `ResolverKey` — what is fetched once, on first use.
* `Followup` — what a caller wants once a key is resolved.
* `Call` — what can be asked of the store.
* `Answer` — what a call gives.
-/

namespace RemoteSettings

/-- What is fetched once, on first use. -/
inductive ResolverKey
  | groups
  | settings (group : String)
  /-- A setting, for reads of its value too. -/
  | setting (group id : String)
  deriving DecidableEq, Repr, Inhabited

namespace ResolverKey

/-- The key as it is displayed. -/
def text : ResolverKey → String
  | groups => "getGroups()"
  | settings group => "getSettings(" ++ group ++ ")"
  | setting group id => "getSetting(" ++ group ++ ", " ++ id ++ ")"

/-- The operation that resolves a key. -/
def remote : ResolverKey → Remote
  | groups => .fetchGroups
  | settings group => .fetchSettings group
  | setting group id => .fetchSetting group id

end ResolverKey

/-- What a caller wants once a key is resolved. -/
inductive Followup
  | groups
  | settings (group : String) (withEdits : Bool)
  | setting (group id : String) (withEdits : Bool)
  | value (group id : String) (withEdits : Bool)
  | edit (group id : String) (value : Value)
  | editAll (group : String) (updates : List Update)
  /-- Nothing: the key is resolved in the background. -/
  | nothing (key : ResolverKey)
  deriving Inhabited

/-- The key that has to be resolved first. -/
def Followup.key : Followup → ResolverKey
  | groups => .groups
  | settings group _ => .settings group
  | setting group id _ => .setting group id
  | value group id _ => .setting group id
  | edit group id _ => .setting group id
  | editAll group _ => .settings group
  | nothing key => key

/-- What can be asked of the store. -/
inductive Call
  | resolveGroups
  | resolveSettings (group : String) (withEdits : Bool)
  | resolveSetting (group id : String) (withEdits : Bool)
  | resolveValue (group id : String) (withEdits : Bool)
  | editSetting (group id : String) (value : Value)
  | editSettings (group : String) (updates : Updates)
  | saveSetting (group id : String) (value : Value)
  | saveSettings (group : String) (updates : Updates)
  | saveEditedSetting (group id : String)
  | saveEditedSettings (group : String)
  /-- Resolves a key for nobody in particular. -/
  | background (key : ResolverKey)
  /-- Fails as soon as it begins. -/
  | refuse (failure : Failure)
  deriving Inhabited

/-- What a call gives. -/
inductive Answer
  | groups (groups : List Group)
  | settings (settings : Keyed String (Versioned Setting))
  | setting (setting : Option Setting)
  | value (value : Option Value)
  | saved (settings : List Setting)
  | nothing
  deriving Inhabited

end RemoteSettings
