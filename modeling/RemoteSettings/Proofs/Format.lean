import RemoteSettings.Proofs.Equality

/-!
# Values in any format

What is written need not become JSON: it may become text at once.  A format says what becomes of
each form of JSON once its parts have been written.  A value is written as what it stands for, so it
makes no difference, in any format, whether it is turned into JSON before.

## Main definitions

* `Format` — what becomes of each form of JSON; `Format.json` and `Format.compact` are examples.
* `Json.write`, `Value.write` — what becomes of JSON and of a value.
* `Value.Plain` — a value in the form in which JSON is read.

## Main results

* `Json.write_json`, `Json.write_compact` — JSON becomes itself, or its compact text.
* `Value.write_toJson` — **a value is written as its JSON is**.
* `Value.toJson_ofJson`, `Value.Plain.ofJson_toJson` — values come back as they went.
-/

namespace RemoteSettings

variable {α : Type}

/-- What becomes of each form of JSON, given what has become of its parts. -/
structure Format (α : Type) where
  null : α
  bool : Bool → α
  number : Number → α
  string : String → α
  array : List α → α
  object : List (String × α) → α

namespace Format

/-- JSON as it is. -/
def json : Format Json := ⟨.null, .bool, .number, .string, .array, .object⟩

/-- The compact text, in which commas separate the parts. -/
def compact : Format (List Char) where
  null := Json.print .null
  bool b := Json.print (.bool b)
  number n := n.text
  string := Json.quote
  array items := '[' :: List.intercalate [','] items ++ [']']
  object fields :=
    '{' :: List.intercalate [','] (fields.map fun e => Json.quote e.1 ++ ':' :: e.2) ++ ['}']

end Format

/-! ### JSON -/

namespace Json

mutual

/-- What becomes of JSON in a format. -/
def write (f : Format α) : Json → α
  | .null => f.null
  | .bool b => f.bool b
  | .number n => f.number n
  | .string s => f.string s
  | .array items => f.array (writeItems f items)
  | .object fields => f.object (writeFields f fields)

/-- What becomes of the items of an array. -/
def writeItems (f : Format α) : List Json → List α
  | [] => []
  | item :: rest => item.write f :: writeItems f rest

/-- What becomes of the fields of an object. -/
def writeFields (f : Format α) : List (String × Json) → List (String × α)
  | [] => []
  | (key, value) :: rest => (key, value.write f) :: writeFields f rest

end

theorem writeItems_eq (f : Format α) (items : List Json) :
    writeItems f items = items.map (write f) := by
  induction items with
  | nil => rfl
  | cons item rest ih => rw [writeItems, ih, List.map_cons]

theorem writeFields_eq (f : Format α) (fields : List (String × Json)) :
    writeFields f fields = fields.map fun e => (e.1, e.2.write f) := by
  induction fields with
  | nil => rfl
  | cons e rest ih => rw [writeFields, ih, List.map_cons]

/-- JSON becomes itself. -/
theorem write_json (j : Json) : j.write .json = j := by
  induction j using Json.induction with
  | array items ih =>
    rw [write, writeItems_eq, List.map_congr_left ih, List.map_id']
    rfl
  | object fields ih =>
    have hfields : fields.map (fun e => (e.1, e.2.write .json)) = fields := by
      refine (List.map_congr_left fun e he => ?_).trans (List.map_id' fields)
      rw [ih e he]
    rw [write, writeFields_eq, hfields]
    rfl
  | _ => rfl

theorem printItemsAfter_eq (items : List Json) :
    printItemsAfter items = (items.map print).flatMap (',' :: ·) := by
  induction items with
  | nil => rfl
  | cons item rest ih => rw [printItemsAfter, ih, List.map_cons, List.flatMap_cons]

theorem printFieldsAfter_eq (fields : List (String × Json)) :
    printFieldsAfter fields
      = (fields.map fun e => quote e.1 ++ ':' :: e.2.print).flatMap (',' :: ·) := by
  induction fields with
  | nil => rfl
  | cons e rest ih =>
    rw [printFieldsAfter, ih, List.map_cons, List.flatMap_cons]
    rfl

/-- Commas stand before all parts but the first. -/
theorem intercalate_comma (part : List Char) (rest : List (List Char)) :
    List.intercalate [','] (part :: rest) = part ++ rest.flatMap (',' :: ·) := by
  induction rest generalizing part with
  | nil => simp
  | cons next rest ih =>
    rw [List.intercalate_cons_of_ne_nil (List.cons_ne_nil next rest), ih, List.flatMap_cons]
    simp

/-- JSON becomes its compact text. -/
theorem write_compact (j : Json) : j.write .compact = j.print := by
  induction j using Json.induction with
  | array items ih =>
    rw [write, writeItems_eq, List.map_congr_left ih, print]
    cases items with
    | nil => rfl
    | cons item rest =>
      rw [printItems, printItemsAfter_eq, ← intercalate_comma, ← List.map_cons]
      rfl
  | object fields ih =>
    have hfields : fields.map (fun e => (e.1, e.2.write .compact))
        = fields.map fun e => (e.1, e.2.print) :=
      List.map_congr_left fun e he => by rw [ih e he]
    rw [write, writeFields_eq, hfields, print]
    cases fields with
    | nil => rfl
    | cons e rest =>
      have hparts := intercalate_comma (quote e.1 ++ ':' :: e.2.print)
        (rest.map fun e => quote e.1 ++ ':' :: e.2.print)
      rw [printFields, printFieldsAfter_eq, ← hparts, ← List.map_cons (f := fun e : String × Json =>
        quote e.1 ++ ':' :: e.2.print)]
      simp only [Format.compact, List.map_map]
      rfl
  | _ => rfl

end Json

/-! ### Values -/

namespace Value

/-- What becomes of a value in a format: it is written as what it stands for. -/
def write (f : Format α) : Value → α
  | .bool flag => f.bool flag
  | .number n => f.number n
  | .text s => f.string s
  | .list items => f.array (items.map f.string)
  | .other j => j.write f

/-- **A value is written as its JSON is**, in any format. -/
theorem write_toJson (f : Format α) (v : Value) : v.toJson.write f = v.write f := by
  cases v with
  | list items =>
    rw [toJson, Json.write, Json.writeItems_eq, List.map_map]
    rfl
  | _ => rfl

theorem eq_of_texts? {items : List Json} {ss : List String} (h : texts? items = some ss) :
    items = ss.map .string := by
  induction items generalizing ss with
  | nil =>
    cases h
    rfl
  | cons j rest ih =>
    cases j with
    | string s =>
      obtain ⟨rest', hrest, rfl⟩ := Option.map_eq_some_iff.mp h
      rw [ih hrest]
      rfl
    | _ => cases h

theorem texts?_map_string (ss : List String) : texts? (ss.map .string) = some ss := by
  induction ss with
  | nil => rfl
  | cons s rest ih => rw [List.map_cons, texts?, ih, Option.map_some]

/-- What is written is what was read. -/
theorem toJson_ofJson (j : Json) : (ofJson j).toJson = j := by
  cases j with
  | array items =>
    rw [ofJson]
    cases htexts : texts? items with
    | none => rfl
    | some ss => rw [eq_of_texts? htexts, toJson]
  | _ => rfl

/-- A value in the form in which JSON is read. -/
def Plain (v : Value) : Prop := ∃ j, v = ofJson j

/-- A plain value is read as it was written. -/
theorem Plain.ofJson_toJson {v : Value} (hv : v.Plain) : ofJson v.toJson = v := by
  obtain ⟨j, rfl⟩ := hv
  rw [toJson_ofJson]

/-- A truth value that is kept as other JSON is not plain: it comes back as a truth value. -/
example : ofJson (Value.other (.bool true)).toJson = .bool true := rfl

end Value

end RemoteSettings
