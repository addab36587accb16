import RemoteSettings.Failure
import RemoteSettings.Value

/-!
# Updates

Several settings are edited or saved at once by a list of updates or by a map from ids to values.

## Main definitions

* `Update` — an id and the value that it is to have.
* `Updates` — several updates, as a list or as a map.
* `Updates.ofJson` — reads either form.
* `Updates.validate` — refuses empty ids.
* `Updates.toList` — the updates in their order.
-/

namespace RemoteSettings

/-- A setting's id and the value that it is to have. -/
structure Update where
  id : String
  value : Value
  deriving Inhabited

namespace Update

/-- How an update is read. -/
def record : Record Update where
  name := "SettingUpdate"
  fields := ["id", "value"]
  required := ["id", "value"]
  blank := ⟨"", .absent⟩
  set u
    | "id", j => do return { u with id := ← Decode.text j }
    | "value", j => return { u with value := .ofJson j }
    | _, _ => return u

/-- Reads an update. -/
def decode (j : Json) : Except Complaint Update := record.decode j

/-- Writes an update. -/
def toJson (u : Update) : Json := .object [("id", .string u.id), ("value", u.value.toJson)]

/-- Equality of updates. -/
def equals (a b : Update) : Bool := a.id == b.id && a.value == b.value

instance : BEq Update := ⟨equals⟩

end Update

/-- Several updates, as a list or as a map from ids to values. -/
inductive Updates
  | list (entries : List Update)
  /-- Each id stands once; the order is that of the first appearance. -/
  | map (entries : Keyed String Value)
  deriving Inhabited

namespace Updates

/-- Why updates are refused. -/
inductive Problem
  | notAContainer (found : Json)
  | notAnObject (index : Nat)
  | badId (index : Nat)
  | noValue (id : String)
  | emptyId (index : Nat)

/-- The words for a problem. -/
def Problem.message : Problem → String
  | .notAContainer found => "setting updates must be an array or an object, got " ++ found.text
  | .notAnObject index => "setting update at index " ++ toString index ++ " is not an object"
  | .badId index =>
    "setting update at index " ++ toString index ++ " has a missing or empty id"
  | .noValue id => "setting update `" ++ id ++ "` has no value"
  | .emptyId index => "setting update at index " ++ toString index ++ " has an empty id"

/-- The failure that a problem is. -/
def Problem.toFailure (p : Problem) : Failure := .validation p.message

/-- Reads an entry of a list: an object with a non-empty id and a value. -/
def entry (index : Nat) : Json → Except Problem Update
  | .object fields =>
    match Keyed.get? "id" fields with
    | some (.string id) =>
      if id = "" then .error (.badId index)
      else
        match Keyed.get? "value" fields with
        | some value => .ok ⟨id, .ofJson value⟩
        | none => .error (.noValue id)
    | _ => .error (.badId index)
  | _ => .error (.notAnObject index)

/-- Reads the entries of a list, the first of which has a given index. -/
def entries (index : Nat) : List Json → Except Problem (List Update)
  | [] => .ok []
  | j :: rest => do
    let u ← entry index j
    let us ← entries (index + 1) rest
    .ok (u :: us)

/-- The ids in their order. -/
def ids : Updates → List String
  | .list us => us.map (·.id)
  | .map vs => vs.map (·.1)

/-- Refuses the first empty id. -/
def validate (us : Updates) : Except Problem Unit :=
  match us.ids.findIdx? (· == "") with
  | some index => .error (.emptyId index)
  | none => .ok ()

/-- Reads updates: a list of entries, or a map without an empty id. -/
def ofJson : Json → Except Problem Updates
  | .array items => .list <$> entries 0 items
  | .object fields => do
    let us := Updates.map (fields.map fun f => (f.1, .ofJson f.2))
    us.validate
    .ok us
  | j => .error (.notAContainer j)

/-- The updates in their order. -/
def toList : Updates → List Update
  | .list us => us
  | .map vs => vs.map fun v => ⟨v.1, v.2⟩

/-- Whether there is nothing to update. -/
def isEmpty (us : Updates) : Bool := us.toList.isEmpty

/-- Updates given as a map, later values of an id overriding earlier ones. -/
def ofPairs (pairs : List (String × Value)) : Updates := .map (Keyed.ofPairs pairs)

/-- Equality of updates: lists item by item, maps without regard to order. -/
def equals : Updates → Updates → Bool
  | .list a, .list b => a == b
  | .map a, .map b =>
    a.length == b.length && a.all fun (id, value) => (Keyed.get? id b).any (value == ·)
  | _, _ => false

/-- The body of a batch save. -/
def batchBody (us : List Update) : Json := .object [("update", .array (us.map Update.toJson))]

end Updates

end RemoteSettings
