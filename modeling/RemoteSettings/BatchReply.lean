import RemoteSettings.Failure
import RemoteSettings.Setting

/-!
# Replies to a batch save

## Main definitions

* `BatchReply.Entry` — a setting as it was saved, or why it was not.
* `BatchReply` — an entry for each setting of the batch.
-/

namespace RemoteSettings

/-- What became of one setting of a batch. -/
inductive BatchReply.Entry
  | updated (setting : Setting)
  | failed (setting : RejectedSetting)

/-- What became of the settings of a batch. -/
structure BatchReply where
  entries : List BatchReply.Entry := []

namespace BatchReply

/-- Reads an entry, which has failed if it has an object under the name of an error.  A failed
entry whose id is not a text counts as one with an empty id. -/
def Entry.decode (j : Json) : Except Complaint Entry :=
  match (j.get? "error").filter Json.isObject with
  | some error => do
    let rejection ← Rejection.decode error
    return .failed ⟨((j.get? "id").bind Json.string?).getD "", rejection⟩
  | none => .updated <$> Setting.decode j

/-- Equality of entries. -/
def Entry.equals : Entry → Entry → Bool
  | .updated a, .updated b => a == b
  | .failed a, .failed b => a == b
  | _, _ => false

instance : BEq Entry := ⟨Entry.equals⟩

/-- How a reply is read. -/
def record : Record BatchReply where
  name := "BatchUpdateResponse"
  fields := ["update"]
  blank := {}
  set r
    | "update", j => do return { r with entries := ← Decode.list Entry.decode j }
    | _, _ => return r

/-- Reads a reply. -/
def decode (j : Json) : Except Complaint BatchReply := record.decode j

/-- The settings that were saved. -/
def updated (r : BatchReply) : List Setting :=
  r.entries.filterMap fun
    | .updated s => some s
    | .failed _ => none

/-- The settings that were not saved. -/
def failed (r : BatchReply) : List RejectedSetting :=
  r.entries.filterMap fun
    | .updated _ => none
    | .failed s => some s

instance : BEq BatchReply := ⟨fun a b => a.entries == b.entries⟩

end BatchReply

end RemoteSettings
