import RemoteSettings.Config.Basic
import RemoteSettings.Config.Environment
import RemoteSettings.Config.Logging
import RemoteSettings.Yaml.Document

/-!
# Configuration of the whole program

The configuration is put together from layers: the defaults, a file, and the environment, each laid
over those before it.  An address given on the command line replaces the one that comes out.

## Main definitions

* `Setup` — the configuration of the store and of the log.
* `Setup.ofLayers` — what layers over the defaults say.
* `Setup.load` — reads a file's text and the environment.
* `Setup.withBaseUrl` — an address given on the command line.
* `Setup.yaml` — the configuration in force, as a file would give it.
-/

namespace RemoteSettings

/-- The configuration of the store and of the log. -/
structure Setup where
  service : Config := {}
  logging : Logging := {}
  deriving DecidableEq, Inhabited

namespace Setup

/-- How the configuration is read. -/
def record : Record Setup where
  name := "AppConfig"
  fields := ["api", "logging"]
  strict := true
  blank := {}
  set s
    | "api", j => do return { s with service := ← Config.record.decodeLoosely j }
    | "logging", j => do return { s with logging := ← Logging.decodeLoosely j }
    | _, _ => return s

/-- Reads the configuration. -/
def decode (j : Json) : Except Complaint Setup := record.decode j

/-- Writes the configuration. -/
def toJson (s : Setup) : Json :=
  .object [("api", s.service.toJson), ("logging", s.logging.toJson)]

/-- Why there is no configuration. -/
inductive Problem
  | noSuchFile (path : String)
  /-- A file is no YAML mapping, or the layers say something that does not fit. -/
  | invalid
  deriving DecidableEq, Repr

/-- The words for a problem. -/
def Problem.message : Problem → String
  | .noSuchFile path => "config file does not exist: " ++ path
  | .invalid => "invalid configuration"

/-- What layers say, each laid over those before it and the first over the defaults. -/
def ofLayers (layers : List Json) : Except Problem Setup :=
  (decode (layers.foldl Json.overlay (toJson {}))).mapError fun _ => .invalid

/-- The layer that the text of a file is. -/
def fileLayer (text : String) : Except Problem Json :=
  match Yaml.read text with
  | some fields => .ok (.object fields)
  | none => .error .invalid

/-- The configuration that a file, if there is one, and the environment give. -/
def load (file : Option String) (environment : Keyed String String) : Except Problem Setup := do
  let fileLayers ← file.toList.mapM fileLayer
  ofLayers (fileLayers ++ [Environment.layer environment])

/-- The configuration with the address given on the command line, if one is given. -/
def withBaseUrl (url : Option String) (s : Setup) : Setup :=
  match url with
  | some url => { s with service := { s.service with baseUrl := url } }
  | none => s

/-- The sections of the written configuration. -/
def sections (s : Setup) : Yaml.Sections :=
  [("api",
      [("base_url", s.service.baseUrl), ("namespace", s.service.root),
        ("groups_path", s.service.groupsPath), ("store_name", s.service.storeName),
        ("request_timeout", s.service.timeout.words), ("user_agent", s.service.userAgent)]),
    ("logging", [("level", s.logging.level), ("format", s.logging.format.name)])]

/-- The configuration as a file would give it. -/
def yaml (s : Setup) : String := Yaml.write s.sections

end Setup

end RemoteSettings
