import RemoteSettings.Json.Decode

/-!
# Groups of settings

## Main definitions

* `Group` — a named collection of settings, possibly with groups below it.
* `Group.record`, `Group.toJson` — the wire format.
-/

namespace RemoteSettings

/-- A named collection of settings. -/
structure Group where
  id : String
  label : String := ""
  description : String := ""
  parent : Option String := none
  subgroups : List String := []
  /-- Links that the service attaches, kept as they are. -/
  links : Option Json := none
  deriving Inhabited

namespace Group

/-- How a group is read. -/
def record : Record Group where
  name := "SettingsGroup"
  fields := ["id", "label", "description", "parent_id", "sub_groups", "_links"]
  required := ["id"]
  blank := { id := "" }
  set g
    | "id", j => do return { g with id := ← Decode.text j }
    | "label", j => do return { g with label := ← Decode.text j }
    | "description", j => do return { g with description := ← Decode.text j }
    | "parent_id", j => do return { g with parent := ← Decode.nullable Decode.text j }
    | "sub_groups", j => do return { g with subgroups := ← Decode.list Decode.text j }
    | "_links", j => do return { g with links := ← Decode.nullable pure j }
    | _, _ => return g

/-- Reads a group. -/
def decode (j : Json) : Except Complaint Group := record.decode j

/-- Writes a group. -/
def toJson (g : Group) : Json :=
  .object <|
    [("id", .string g.id), ("label", .string g.label), ("description", .string g.description)]
      ++ Json.optionalField "parent_id" Json.string g.parent
      ++ [("sub_groups", .array (g.subgroups.map .string))]
      ++ Json.optionalField "_links" (fun j => j) g.links

/-- Equality of groups. -/
def equals (a b : Group) : Bool :=
  a.id == b.id && a.label == b.label && a.description == b.description && a.parent == b.parent
    && a.subgroups == b.subgroups && Json.equalOptional Json.equals a.links b.links

instance : BEq Group := ⟨equals⟩

end Group

end RemoteSettings
