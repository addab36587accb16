import RemoteSettings.Json.Basic

/-!
# Layers of configuration

A layer says something about some fields.  Laid over another, it wins wherever both speak, field by
field and at every depth.

## Main definitions

* `Json.overlay` — one layer under another.
-/

namespace RemoteSettings.Json

mutual

/-- What two layers say together: two objects are joined field by field, and in everything else the
second layer wins. -/
def overlay : Json → Json → Json
  | .object base, .object top => .object (overlayFields base top)
  | _, top => top

/-- Lays fields over others, one after another. -/
def overlayFields : Keyed String Json → List (String × Json) → Keyed String Json
  | base, [] => base
  | base, (key, value) :: rest =>
    let joined := match Keyed.get? key base with
      | some under => overlay under value
      | none => value
    overlayFields (Keyed.put key joined base) rest

end

end RemoteSettings.Json
