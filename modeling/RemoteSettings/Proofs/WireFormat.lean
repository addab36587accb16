import RemoteSettings.Group
import RemoteSettings.Proofs.Format
import RemoteSettings.Proofs.Reading
import RemoteSettings.Update

/-!
# What is written can be read again

A record is written with all its fields but those that are optional and have nothing in them; a
reader starts from the record in which all such fields are empty.  So nothing is lost, provided that
an optional field never holds a null, as that would be read as nothing, and that values are in the
form in which JSON is read.  Whatever was read satisfies both, in whatever order its fields stood.

## Main definitions

* `RoundTrips` — what was read is read again of what is written.
* `Setting.Clean`, `Group.Clean`, `Rejection.Clean` — no optional field holds a null, and values are
  plain.
* `Value.Converted` — the values made of a text, a truth value, a whole number, a list or JSON.

## Main results

* `BuiltIn.name_of_ofName?` — the names of the kinds that have a meaning are read as they are
  written.
* `Setting.decode_toJson`, `Group.decode_toJson`, `Rejection.decode_toJson` — clean records are read
  as they were written.
* `Setting.clean_of_decode`, `Group.clean_of_decode`, `Rejection.clean_of_decode` — what is read is
  clean.
* `wire_format_round_trips` — **all that the service is told or tells can be read again**.
-/

namespace RemoteSettings

variable {α β : Type}

/-- What was read is read again of what is written. -/
def RoundTrips (decode : Json → Except Complaint α) (toJson : α → Json) : Prop :=
  ∀ j a, decode j = .ok a → decode (toJson a) = .ok a

/-! ### Fields -/

namespace Decode

/-- Something that may be null and is not is read as it would be otherwise. -/
theorem nullable_of_ne_null {read : Json → Except Complaint α} {j : Json} (h : j ≠ .null) :
    nullable read j = some <$> read j := by
  cases j <;> first | rfl | exact absurd rfl h

/-- Nothing is read of a null. -/
theorem ne_null_of_nullable {read : Json → Except Complaint α} {j : Json} {a : α}
    (h : nullable read j = .ok (some a)) : j ≠ .null := by
  rintro rfl
  cases h

/-- Whatever is read of JSON that may be null is no null. -/
theorem ne_null_of_nullable_pure {j : Json} {o : Option Json} (h : nullable pure j = .ok o) :
    o ≠ some .null := by
  cases j <;> cases h <;> rintro ⟨⟩

theorem list_text (ss : List String) : list text (.array (ss.map .string)) = .ok ss := by
  show (ss.map Json.string).mapM text = .ok ss
  induction ss with
  | nil => rfl
  | cons s rest ih =>
    rw [List.map_cons, List.mapM_cons, ih]
    rfl

end Decode

namespace Record

variable {r : Record α}

/-- A record is read of an object with all fields that must be given. -/
theorem decode_object {members : List (String × Json)} {a : α} (hset : r.setAll members = .ok a)
    (hmissing : r.missing? members = none) : r.decode (.object members) = .ok a := by
  rw [decode, hset, hmissing]
  rfl

/-- A field that is written only when it is there is read only then. -/
theorem foldlM_optionalField {name : String} {write : β → Json} {o : Option β} {a b : α}
    (absent : o = none → a = b)
    (present : ∀ x, o = some x → r.setMember a (name, write x) = .ok b) :
    (Json.optionalField name write o).foldlM r.setMember a = .ok b := by
  cases o with
  | none => exact congrArg Except.ok (absent rfl)
  | some x =>
    rw [Json.optionalField, List.foldlM_cons, present x rfl]
    rfl

theorem foldlM_singleton (a : α) (m : String × Json) :
    [m].foldlM r.setMember a = r.setMember a m := by
  rw [List.foldlM_cons]
  exact bind_pure _

/-- Members are read one list after another. -/
theorem foldlM_append {front back : List (String × Json)} {a b c : α}
    (hfront : front.foldlM r.setMember a = .ok b) (hback : back.foldlM r.setMember b = .ok c) :
    (front ++ back).foldlM r.setMember a = .ok c := by
  rw [List.foldlM_append, hfront]
  exact hback

end Record

/-! ### Kinds -/

theorem BuiltIn.name_of_ofName? {s : String} {b : BuiltIn} (h : ofName? s = some b) :
    b.name = s := by
  unfold ofName? at h
  split at h <;> cases h <;> rfl

/-- The word for a kind is its name, whether the name has a meaning or not. -/
theorem Kind.word_eq (k : Kind) : k.word = k.name := by
  unfold word meaning?
  cases h : BuiltIn.ofName? k.name with
  | none => rfl
  | some b => exact BuiltIn.name_of_ofName? h

theorem Kind.decode_toJson (k : Kind) : decode k.toJson = .ok k := by
  rw [toJson, k.word_eq]
  rfl

/-! ### Settings -/

namespace Setting

/-- No optional field holds a null, and values are plain. -/
structure Clean (s : Setting) : Prop where
  value : s.value.Plain
  fallback : ∀ v, s.fallback = some v → v.Plain ∧ v.toJson ≠ .null
  options : s.options ≠ some .null

/-- What is read is clean. -/
theorem clean_of_decode {j : Json} {s : Setting} (h : decode j = .ok s) : s.Clean := by
  have hblank : record.blank.Clean :=
    { value := ⟨.null, rfl⟩, fallback := by rintro v ⟨⟩, options := by rintro ⟨⟩ }
  refine Record.decode_induction hblank ?_ h
  intro x name i y hx _ h
  simp only [record] at h
  split at h
  case h_5 =>
    cases h
    exact { hx with value := ⟨i, rfl⟩ }
  case h_6 =>
    obtain ⟨fallback, hread, h⟩ := bind_eq_ok h
    cases h
    refine { hx with fallback := fun v hv => ?_ }
    cases hv
    have hv : Value.ofJson i = v := Except.ok.inj (Decode.nullable_eq_ok hread v rfl)
    refine ⟨⟨i, hv.symm⟩, ?_⟩
    rw [← hv, Value.toJson_ofJson]
    exact Decode.ne_null_of_nullable hread
  case h_7 =>
    obtain ⟨options, hread, h⟩ := bind_eq_ok h
    cases h
    exact { hx with options := Decode.ne_null_of_nullable_pure hread }
  case h_10 =>
    cases h
    exact hx
  -- Of the other fields nothing is asked.
  all_goals
    obtain ⟨_, -, h⟩ := bind_eq_ok h
    cases h
    exact ⟨hx.value, hx.fallback, hx.options⟩

/-- A clean setting is read as it was written. -/
theorem decode_toJson {s : Setting} (hs : s.Clean) : decode s.toJson = .ok s := by
  -- The fields that are always written, then the optional ones in their order.
  have hfirst : ([("id", .string s.id), ("label", .string s.label),
      ("description", .string s.description), ("type", s.kind.toJson),
      ("value", s.value.toJson)]).foldlM record.setMember record.blank
      = .ok { s with fallback := none, options := none, tip := none, placeholder := none } := by
    have hvalue := hs.value.ofJson_toJson
    rw [Kind.toJson, s.kind.word_eq]
    show Except.ok { s with
      value := .ofJson s.value.toJson
      fallback := none, options := none, tip := none, placeholder := none } = _
    rw [hvalue]
  have hdefault : (Json.optionalField "default" Value.toJson s.fallback).foldlM record.setMember
      { s with fallback := none, options := none, tip := none, placeholder := none }
      = .ok { s with options := none, tip := none, placeholder := none } := by
    refine Record.foldlM_optionalField (fun h => by rw [h]) fun v hv => ?_
    obtain ⟨hplain, hne⟩ := hs.fallback v hv
    show (do return { s with
      fallback := ← Decode.nullable (pure ∘ Value.ofJson) v.toJson
      options := none, tip := none, placeholder := none }) = _
    rw [Decode.nullable_of_ne_null hne, Function.comp_apply, hplain.ofJson_toJson, hv]
    rfl
  have hoptions : (Json.optionalField "options" (fun j => j) s.options).foldlM record.setMember
      { s with options := none, tip := none, placeholder := none }
      = .ok { s with tip := none, placeholder := none } := by
    refine Record.foldlM_optionalField (fun h => by rw [h]) fun j hj => ?_
    have hne : j ≠ .null := by
      rintro rfl
      exact hs.options hj
    show (do return { s with
      options := ← Decode.nullable pure j, tip := none, placeholder := none }) = _
    rw [Decode.nullable_of_ne_null hne, hj]
    rfl
  have htip : (Json.optionalField "tip" Json.string s.tip).foldlM record.setMember
      { s with tip := none, placeholder := none } = .ok { s with placeholder := none } :=
    Record.foldlM_optionalField (fun h => by rw [h]) fun v hv => by rw [hv]; rfl
  have hplaceholder : (Json.optionalField "placeholder" Json.string s.placeholder).foldlM
      record.setMember { s with placeholder := none } = .ok s :=
    Record.foldlM_optionalField (fun h => by rw [← h]) fun v hv => by
      show Except.ok { s with placeholder := some v } = _
      rw [← hv]
  refine Record.decode_object ?_ rfl
  exact Record.foldlM_append (Record.foldlM_append (Record.foldlM_append
    (Record.foldlM_append hfirst hdefault) hoptions) htip) hplaceholder

/-- A new setting is clean if its value is plain. -/
theorem clean_new (id : String) {v : Value} (hv : v.Plain) : Clean { id, value := v } :=
  { value := hv, fallback := by rintro w ⟨⟩, options := by rintro ⟨⟩ }

end Setting

/-! ### Groups -/

namespace Group

/-- The links are no null. -/
def Clean (g : Group) : Prop := g.links ≠ some .null

/-- What is read is clean. -/
theorem clean_of_decode {j : Json} {g : Group} (h : decode j = .ok g) : g.Clean := by
  have hblank : record.blank.Clean := by rintro ⟨⟩
  refine Record.decode_induction hblank ?_ h
  intro x name i y hx _ h
  simp only [record] at h
  split at h
  case h_6 =>
    obtain ⟨links, hread, h⟩ := bind_eq_ok h
    cases h
    exact Decode.ne_null_of_nullable_pure hread
  case h_7 =>
    cases h
    exact hx
  all_goals
    obtain ⟨_, -, h⟩ := bind_eq_ok h
    cases h
    exact hx

/-- A clean group is read as it was written. -/
theorem decode_toJson {g : Group} (hg : g.Clean) : decode g.toJson = .ok g := by
  have hfirst : ([("id", .string g.id), ("label", .string g.label),
      ("description", .string g.description)]).foldlM record.setMember record.blank
      = .ok { g with parent := none, subgroups := [], links := none } := rfl
  have hparent : (Json.optionalField "parent_id" Json.string g.parent).foldlM record.setMember
      { g with parent := none, subgroups := [], links := none }
      = .ok { g with subgroups := [], links := none } :=
    Record.foldlM_optionalField (fun h => by rw [h]) fun v hv => by rw [hv]; rfl
  have hsubgroups : ([("sub_groups", Json.array (g.subgroups.map .string))]).foldlM
        record.setMember { g with subgroups := [], links := none }
      = .ok { g with links := none } := by
    rw [Record.foldlM_singleton]
    show (do return { g with
      subgroups := ← Decode.list Decode.text (.array (g.subgroups.map .string))
      links := none }) = _
    rw [Decode.list_text]
    rfl
  have hlinks : (Json.optionalField "_links" (fun j => j) g.links).foldlM record.setMember
      { g with links := none } = .ok g := by
    refine Record.foldlM_optionalField (fun h => by rw [← h]) fun j hj => ?_
    have hne : j ≠ .null := by
      rintro rfl
      exact hg hj
    show (do return { g with links := ← Decode.nullable pure j }) = _
    rw [Decode.nullable_of_ne_null hne]
    show Except.ok { g with links := some j } = _
    rw [← hj]
  refine Record.decode_object ?_ rfl
  exact Record.foldlM_append (Record.foldlM_append (Record.foldlM_append hfirst hparent) hsubgroups)
    hlinks

end Group

/-! ### Rejections -/

namespace Rejection

/-- The data are no null. -/
def Clean (r : Rejection) : Prop := r.data ≠ some .null

/-- What is read is clean. -/
theorem clean_of_decode {j : Json} {r : Rejection} (h : decode j = .ok r) : r.Clean := by
  have hblank : record.blank.Clean := by rintro ⟨⟩
  refine Record.decode_induction hblank ?_ h
  intro x name i y hx _ h
  simp only [record] at h
  split at h
  case h_3 =>
    obtain ⟨data, hread, h⟩ := bind_eq_ok h
    cases h
    exact Decode.ne_null_of_nullable_pure hread
  case h_4 =>
    cases h
    exact hx
  all_goals
    obtain ⟨_, -, h⟩ := bind_eq_ok h
    cases h
    exact hx

/-- A clean rejection is read as it was written. -/
theorem decode_toJson {r : Rejection} (hr : r.Clean) : decode r.toJson = .ok r := by
  have hfirst : ([("code", .string r.code), ("message", .string r.message)]).foldlM
      record.setMember record.blank = .ok { r with data := none } := rfl
  have hdata : (Json.optionalField "data" (fun j => j) r.data).foldlM record.setMember
      { r with data := none } = .ok r := by
    refine Record.foldlM_optionalField (fun h => by rw [← h]) fun j hj => ?_
    have hne : j ≠ .null := by
      rintro rfl
      exact hr hj
    show (do return { r with data := ← Decode.nullable pure j }) = _
    rw [Decode.nullable_of_ne_null hne]
    show Except.ok { r with data := some j } = _
    rw [← hj]
  exact Record.decode_object (Record.foldlM_append hfirst hdata) rfl

end Rejection

namespace RejectedSetting

theorem clean_of_decode {j : Json} {r : RejectedSetting} (h : decode j = .ok r) :
    r.rejection.Clean := by
  have hblank : record.blank.rejection.Clean := by rintro ⟨⟩
  refine Record.decode_induction (P := fun r => r.rejection.Clean) hblank ?_ h
  intro x name i y hx _ h
  simp only [record] at h
  split at h
  · obtain ⟨_, -, h⟩ := bind_eq_ok h
    cases h
    exact hx
  · obtain ⟨rejection, hread, h⟩ := bind_eq_ok h
    cases h
    exact Rejection.clean_of_decode hread
  · cases h
    exact hx

theorem decode_toJson {r : RejectedSetting} (hr : r.rejection.Clean) : decode r.toJson = .ok r := by
  have hid : [("id", Json.string r.id)].foldlM record.setMember record.blank
      = .ok { r with rejection := {} } := rfl
  have herror : [("error", r.rejection.toJson)].foldlM record.setMember { r with rejection := {} }
      = .ok r := by
    rw [Record.foldlM_singleton]
    show (do return { r with rejection := ← Rejection.decode r.rejection.toJson }) = _
    rw [Rejection.decode_toJson hr]
    rfl
  exact Record.decode_object (Record.foldlM_append hid herror) rfl

end RejectedSetting

/-! ### Updates -/

namespace Update

theorem plain_of_decode {j : Json} {u : Update} (h : decode j = .ok u) : u.value.Plain := by
  refine Record.decode_induction (P := fun u => u.value.Plain) ⟨.null, rfl⟩ ?_ h
  intro x name i y hx _ h
  simp only [record] at h
  split at h
  · obtain ⟨_, -, h⟩ := bind_eq_ok h
    cases h
    exact hx
  · cases h
    exact ⟨i, rfl⟩
  · cases h
    exact hx

theorem decode_toJson {u : Update} (hu : u.value.Plain) : decode u.toJson = .ok u := by
  refine Record.decode_object ?_ rfl
  show Except.ok { u with value := Value.ofJson u.value.toJson } = _
  rw [hu.ofJson_toJson]

end Update

/-! ### Values that are made here -/

/-- The values that are made of a text, a truth value, a whole number, a list of texts or JSON. -/
inductive Value.Converted : Value → Prop
  | text (s : String) : Converted (.text s)
  | bool (flag : Bool) : Converted (.bool flag)
  | whole (n : Whole) : Converted (.ofWhole n)
  | list (items : List String) : Converted (.list items)
  | json (j : Json) : Converted (.ofJson j)

/-- A value that is made here is plain. -/
theorem Value.Converted.plain {v : Value} (hv : v.Converted) : v.Plain := by
  cases hv with
  | text s => exact ⟨.string s, rfl⟩
  | bool flag => exact ⟨.bool flag, rfl⟩
  | whole n => exact ⟨.number (.whole n), rfl⟩
  | list items =>
    refine ⟨.array (items.map .string), ?_⟩
    rw [ofJson, texts?_map_string]
  | json j => exact ⟨j, rfl⟩

/-- **All that the service is told or tells can be read again**, and is the same then: numbers in
the form in which they were read, and objects with their fields in that order.

* This holds of groups, settings, kinds, rejections, rejected settings, updates and values, whether
  they were read from objects or from arrays.
* It holds of a new setting, whatever its value was made of.
* Of a value or of a kind nothing is lost: what is written is the JSON that was read.
* A value is written as its JSON is, in any format; so the JSON is what a value becomes as JSON, and
  its compact text is that of the value. -/
theorem wire_format_round_trips :
    (RoundTrips Group.decode Group.toJson ∧ RoundTrips Setting.decode Setting.toJson
      ∧ RoundTrips Kind.decode Kind.toJson ∧ RoundTrips Rejection.decode Rejection.toJson
      ∧ RoundTrips RejectedSetting.decode RejectedSetting.toJson
      ∧ RoundTrips Update.decode Update.toJson
      ∧ RoundTrips (fun j => .ok (Value.ofJson j)) Value.toJson)
    ∧ (∀ (id : String) (v : Value), v.Converted →
      Setting.decode (Setting.toJson { id, value := v }) = .ok { id, value := v })
    ∧ (∀ j : Json, (Value.ofJson j).toJson = j)
    ∧ (∀ s : String, Kind.toJson <$> Kind.decode (.string s) = .ok (.string s))
    ∧ ∀ v : Value, (∀ {α : Type} (f : Format α), v.write f = v.toJson.write f)
      ∧ v.write .json = v.toJson ∧ v.write .compact = v.toJson.print := by
  refine ⟨⟨?_, ?_, ?_, ?_, ?_, ?_, ?_⟩, ?_, Value.toJson_ofJson, ?_, ?_⟩
  · exact fun j g h => Group.decode_toJson (Group.clean_of_decode h)
  · exact fun j s h => Setting.decode_toJson (Setting.clean_of_decode h)
  · exact fun j k _ => k.decode_toJson
  · exact fun j r h => Rejection.decode_toJson (Rejection.clean_of_decode h)
  · exact fun j r h => RejectedSetting.decode_toJson (RejectedSetting.clean_of_decode h)
  · exact fun j u h => Update.decode_toJson (Update.plain_of_decode h)
  · rintro j v h
    have hv : v.Plain := ⟨j, (Except.ok.inj h).symm⟩
    exact congrArg Except.ok hv.ofJson_toJson
  · exact fun id v hv => Setting.decode_toJson (Setting.clean_new id hv.plain)
  · intro s
    show Except.ok (Kind.toJson ⟨s⟩) = _
    rw [Kind.toJson, Kind.word_eq]
  · intro v
    refine ⟨fun f => (v.write_toJson f).symm, ?_, ?_⟩
    · rw [← Value.write_toJson, Json.write_json]
    · rw [← Value.write_toJson, Json.write_compact]

/-- A setting whose fields are out of order, one of them unknown and one of them null. -/
def Setting.shuffled : Json :=
  .object [("value", .array [.string "a", .string "b"]), ("nonsense", .bool true), ("tip", .null),
    ("type", .string "multiselect"), ("default", .number .placeholder), ("id", .string "x")]

/-- A setting that is read from an object, a group that is read from an array and a new setting are
read again. -/
theorem Setting.shuffled_round_trips :
    (∃ s : Setting, decode shuffled = .ok s ∧ s.value = .list ["a", "b"] ∧ s.tip = none
      ∧ s.toJson ≠ shuffled ∧ decode s.toJson = .ok s)
    ∧ Group.decode (.array [.string "g"]) = .ok { id := "g" }
    ∧ Group.decode (Group.toJson { id := "g" }) = .ok { id := "g" }
    ∧ Value.Converted (.text "v")
    ∧ decode (toJson { id := "x", value := .text "v" })
        = .ok { id := "x", value := .text "v" } := by
  obtain ⟨⟨hgroup, hsetting, -⟩, hnew, -⟩ := wire_format_round_trips
  have hread : decode shuffled = .ok
      { id := "x", kind := ⟨"multiselect"⟩, value := .list ["a", "b"],
        fallback := some (.number .placeholder) } := rfl
  have harray : Group.decode (.array [.string "g"]) = .ok { id := "g" } := rfl
  refine ⟨⟨_, hread, rfl, rfl, ?_, hsetting _ _ hread⟩, harray, hgroup _ _ harray, .text "v",
    hnew "x" _ (.text "v")⟩
  -- What is written begins with the id.
  intro h
  have hfirst := congrArg Prod.fst (List.cons.inj (Json.object.inj h)).1
  exact absurd hfirst (by decide)

end RemoteSettings
