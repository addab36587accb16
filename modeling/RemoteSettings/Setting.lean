import RemoteSettings.Json.Decode
import RemoteSettings.Value

/-!
# Settings

## Main definitions

* `Kind` — the kind of field in which a setting is edited, known by its name.
* `BuiltIn` — the kinds that have a meaning here.
* `Setting` — a setting as the service reports it.
* `Setting.record`, `Setting.toJson` — the wire format.
-/

namespace RemoteSettings

/-- The kinds of field that have a meaning here. -/
inductive BuiltIn
  | text
  | email
  | number
  | color
  | password
  | textarea
  | title
  | select
  | multiselect
  | radio
  | imageWidth
  | checkbox
  | url
  | relativeDateSelector
  | singleSelectPage
  | singleSelectPageWithSearch
  | singleSelectCountry
  | multiSelectCountries
  | sectionEnd
  | slotfillPlaceholder
  deriving DecidableEq, Repr

namespace BuiltIn

/-- The name of a kind. -/
def name : BuiltIn → String
  | text => "text"
  | email => "email"
  | number => "number"
  | color => "color"
  | password => "password"
  | textarea => "textarea"
  | title => "title"
  | select => "select"
  | multiselect => "multiselect"
  | radio => "radio"
  | imageWidth => "image_width"
  | checkbox => "checkbox"
  | url => "url"
  | relativeDateSelector => "relative_date_selector"
  | singleSelectPage => "single_select_page"
  | singleSelectPageWithSearch => "single_select_page_with_search"
  | singleSelectCountry => "single_select_country"
  | multiSelectCountries => "multi_select_countries"
  | sectionEnd => "sectionend"
  | slotfillPlaceholder => "slotfill_placeholder"

/-- The kind of a name, if the name has a meaning here. -/
def ofName? : String → Option BuiltIn
  | "text" => some text
  | "email" => some email
  | "number" => some number
  | "color" => some color
  | "password" => some password
  | "textarea" => some textarea
  | "title" => some title
  | "select" => some select
  | "multiselect" => some multiselect
  | "radio" => some radio
  | "image_width" => some imageWidth
  | "checkbox" => some checkbox
  | "url" => some url
  | "relative_date_selector" => some relativeDateSelector
  | "single_select_page" => some singleSelectPage
  | "single_select_page_with_search" => some singleSelectPageWithSearch
  | "single_select_country" => some singleSelectCountry
  | "multi_select_countries" => some multiSelectCountries
  | "sectionend" => some sectionEnd
  | "slotfill_placeholder" => some slotfillPlaceholder
  | _ => none

end BuiltIn

/-- The kind of field in which a setting is edited.  Any name is accepted. -/
structure Kind where
  name : String
  deriving DecidableEq

namespace Kind

/-- What the kind means here, if anything. -/
def meaning? (k : Kind) : Option BuiltIn := BuiltIn.ofName? k.name

/-- Whether the kind has a meaning here. -/
def isBuiltIn (k : Kind) : Bool := k.meaning?.isSome

/-- The word for a kind: the name of its meaning, or its own where it has none. -/
def word (k : Kind) : String := k.meaning?.elim k.name BuiltIn.name

/-- The kind of a setting that none was given for: a line of text. -/
def plain : Kind := ⟨"text"⟩

instance : Inhabited Kind := ⟨plain⟩

/-- Reads a kind. -/
def decode (j : Json) : Except Complaint Kind := Kind.mk <$> Decode.text j

/-- Writes a kind. -/
def toJson (k : Kind) : Json := .string k.word

end Kind

/-- A setting as the service reports it. -/
structure Setting where
  id : String
  label : String := ""
  description : String := ""
  kind : Kind := .plain
  value : Value := .absent
  /-- The value that the service would reset the setting to. -/
  fallback : Option Value := none
  /-- The choices that the service offers. -/
  options : Option Json := none
  tip : Option String := none
  placeholder : Option String := none
  deriving Inhabited

namespace Setting

/-- How a setting is read. -/
def record : Record Setting where
  name := "Setting"
  fields := ["id", "label", "description", "type", "value", "default", "options", "tip",
    "placeholder"]
  required := ["id"]
  blank := { id := "" }
  set s
    | "id", j => do return { s with id := ← Decode.text j }
    | "label", j => do return { s with label := ← Decode.text j }
    | "description", j => do return { s with description := ← Decode.text j }
    | "type", j => do return { s with kind := ← Kind.decode j }
    | "value", j => return { s with value := .ofJson j }
    | "default", j => do return { s with fallback := ← Decode.nullable (pure ∘ .ofJson) j }
    | "options", j => do return { s with options := ← Decode.nullable pure j }
    | "tip", j => do return { s with tip := ← Decode.nullable Decode.text j }
    | "placeholder", j => do return { s with placeholder := ← Decode.nullable Decode.text j }
    | _, _ => return s

/-- Reads a setting. -/
def decode (j : Json) : Except Complaint Setting := record.decode j

/-- Writes a setting. -/
def toJson (s : Setting) : Json :=
  .object <|
    [("id", .string s.id), ("label", .string s.label), ("description", .string s.description),
      ("type", s.kind.toJson), ("value", s.value.toJson)]
      ++ Json.optionalField "default" Value.toJson s.fallback
      ++ Json.optionalField "options" (fun j => j) s.options
      ++ Json.optionalField "tip" Json.string s.tip
      ++ Json.optionalField "placeholder" Json.string s.placeholder

/-- Equality of settings, their values compared as values. -/
def equals (a b : Setting) : Bool :=
  a.id == b.id && a.label == b.label && a.description == b.description && a.kind == b.kind
    && a.value.equals b.value && Json.equalOptional Value.equals a.fallback b.fallback
    && Json.equalOptional Json.equals a.options b.options && a.tip == b.tip
    && a.placeholder == b.placeholder

instance : BEq Setting := ⟨equals⟩

/-- The setting with another value. -/
def withValue (s : Setting) (value : Value) : Setting := { s with value }

end Setting

end RemoteSettings
