import RemoteSettings.Text.Percent

/-!
# Endpoints of the service

## Main definitions

* `Endpoints` — where the service keeps its settings.
* `Endpoints.group`, `Endpoints.setting`, `Endpoints.batch` — the paths of its resources.
-/

namespace RemoteSettings

/-- Where the service keeps its settings. -/
structure Endpoints where
  /-- The path above all settings, without slashes at its end. -/
  root : String
  /-- The path of the list of groups. -/
  groups : String
  deriving DecidableEq

namespace Endpoints

/-- A text without the slashes at its end. -/
def dropSlashes (s : String) : String :=
  String.ofList (s.toList.reverse.dropWhile (· == '/')).reverse

/-- The endpoints below a path that may end with slashes. -/
def below (root groups : String) : Endpoints := ⟨dropSlashes root, groups⟩

/-- The path of a group's settings. -/
def group (e : Endpoints) (group : String) : String :=
  e.root ++ "/settings/" ++ Percent.encode group

/-- The path of a setting. -/
def setting (e : Endpoints) (group setting : String) : String :=
  e.group group ++ "/" ++ Percent.encode setting

/-- The path to which a batch of a group's settings is sent. -/
def batch (e : Endpoints) (group : String) : String := e.group group ++ "/batch"

end Endpoints

end RemoteSettings
