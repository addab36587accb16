import RemoteSettings.Failure
import RemoteSettings.Endpoint

/-!
# Configuration of the store

## Main definitions

* `Config` — where the service is, and how it is talked to.
* `Config.record`, `Config.toJson` — the written form; fields left out keep their defaults.
* `Config.validate` — refuses what cannot work.
-/

namespace RemoteSettings

/-- Where the service is, and how it is talked to. -/
structure Config where
  /-- The origin of the service, with or without a path. -/
  baseUrl : String := "http://localhost:8080"
  /-- The path above all settings. -/
  root : String := "/wc-admin"
  /-- The path of the list of groups. -/
  groupsPath : String := "/wc/v3/settings"
  /-- The name under which locks are taken. -/
  storeName : String := "wc/admin/setting-options"
  /-- How long an answer may take. -/
  timeout : Duration := .ofSeconds 30
  userAgent : String := "setting-options/0.1.0"
  deriving DecidableEq, Inhabited

namespace Config

/-- Reads a duration in words. -/
def decodeDuration (j : Json) : Except Complaint Duration := do
  (Duration.ofWords (← Decode.text j)).mapError .badDuration

/-- How a configuration is read. -/
def record : Record Config where
  name := "SettingOptionsConfig"
  fields := ["base_url", "namespace", "groups_path", "store_name", "request_timeout", "user_agent"]
  strict := true
  blank := {}
  set c
    | "base_url", j => do return { c with baseUrl := ← Decode.text j }
    | "namespace", j => do return { c with root := ← Decode.text j }
    | "groups_path", j => do return { c with groupsPath := ← Decode.text j }
    | "store_name", j => do return { c with storeName := ← Decode.text j }
    | "request_timeout", j => do return { c with timeout := ← decodeDuration j }
    | "user_agent", j => do return { c with userAgent := ← Decode.text j }
    | _, _ => return c

/-- Reads a configuration. -/
def decode (j : Json) : Except Complaint Config := record.decode j

/-- Writes a configuration. -/
def toJson (c : Config) : Json :=
  .object
    [("base_url", .string c.baseUrl), ("namespace", .string c.root),
      ("groups_path", .string c.groupsPath), ("store_name", .string c.storeName),
      ("request_timeout", .string c.timeout.words), ("user_agent", .string c.userAgent)]

/-- Why a configuration cannot work. -/
inductive Problem
  | emptyBaseUrl
  | rootNotAbsolute (root : String)
  | groupsPathNotAbsolute (path : String)
  | noTime
  deriving DecidableEq, Repr

/-- The words for a problem. -/
def Problem.message : Problem → String
  | .emptyBaseUrl => "base_url must not be empty"
  | .rootNotAbsolute root => "namespace must start with '/', got '" ++ root ++ "'"
  | .groupsPathNotAbsolute path => "groups_path must start with '/', got '" ++ path ++ "'"
  | .noTime => "request_timeout must be greater than zero"

/-- The failure that a problem is. -/
def Problem.toFailure (p : Problem) : Failure := .config p.message

/-- Refuses the first field that cannot work. -/
def validate (c : Config) : Except Problem Unit :=
  if c.baseUrl.toList.all Blank.isBlank then .error .emptyBaseUrl
  else if c.root.toList.head? ≠ some '/' then .error (.rootNotAbsolute c.root)
  else if c.groupsPath.toList.head? ≠ some '/' then .error (.groupsPathNotAbsolute c.groupsPath)
  else if c.timeout.isZero then .error .noTime
  else .ok ()

/-- The service's endpoints. -/
def endpoints (c : Config) : Endpoints := .below c.root c.groupsPath

end Config

end RemoteSettings
