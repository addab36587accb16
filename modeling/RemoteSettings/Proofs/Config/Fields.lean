import RemoteSettings.Config.Setup
import RemoteSettings.Proofs.Config.Overlay
import RemoteSettings.Proofs.Reading

/-!
# The fields of the configuration

Each field is read, found and set for itself: setting one leaves the others as they were, and a
field is set to nothing but what is read of the value that stands under its name.  So the members of
an object are read into a record exactly if each of them names a field and has a value that can be
read, and then the record has in each field what was read, or what was there before.

## Main definitions

* `Record.Layout` — the fields of a record, each for itself.
* `Config.Field`, `Logging.Field`, `Setup.Field` — the fields of the configuration.
* `Config.layout`, `Logging.layout`, `Setup.layout` — how they make up the records.

## Main results

* `Record.Layout.exists_setAll_iff` — what can be read into a record.
* `Record.Layout.read_of_setAll`, `Record.Layout.get_of_setAll` — what is in its fields then.
-/

namespace RemoteSettings

section Layout

variable {α ι : Type} {Content : ι → Type}

/-- The fields of a record that complains about all other names and needs none to be given.  Each
field is read, found and set for itself. -/
structure Record.Layout (r : Record α) (ι : Type) (Content : ι → Type) where
  name : ι → String
  read : (i : ι) → Json → Except Complaint (Content i)
  get : (i : ι) → α → Content i
  put : (i : ι) → Content i → α → α
  name_injective : ∀ i k, name i = name k → i = k
  mem_fields : ∀ key, key ∈ r.fields ↔ ∃ i, name i = key
  set_name : ∀ a i j, r.set a (name i) j = do return put i (← read i j) a
  get_put : ∀ i x a, get i (put i x a) = x
  get_put_of_ne : ∀ i k x a, i ≠ k → get k (put i x a) = get k a
  strict : r.strict = true
  required : r.required = []

namespace Record.Layout

variable {r : Record α} (L : r.Layout ι Content)

/-- A member can be read that names a field and has a value that can be read, and then this is what
the field is set to. -/
theorem setMember_eq_ok_iff {a b : α} {m : String × Json} :
    r.setMember a m = .ok b
      ↔ ∃ i x, L.name i = m.1 ∧ L.read i m.2 = .ok x ∧ L.put i x a = b := by
  unfold setMember
  by_cases hm : m.1 ∈ r.fields
  · obtain ⟨i, hi⟩ := (L.mem_fields m.1).mp hm
    rw [if_pos (List.contains_iff_mem.mpr hm), ← hi, L.set_name]
    constructor
    · intro h
      obtain ⟨x, hx, h⟩ := bind_eq_ok h
      exact ⟨i, x, rfl, hx, Except.ok.inj h⟩
    · rintro ⟨k, x, hk, hx, rfl⟩
      obtain rfl := L.name_injective k i hk
      rw [hx]
      rfl
  · rw [if_neg (fun h => hm (List.contains_iff_mem.mp h)), if_pos L.strict]
    constructor
    · intro h
      cases h
    · rintro ⟨i, -, hi, -⟩
      exact absurd ((L.mem_fields m.1).mpr ⟨i, hi⟩) hm

theorem exists_foldlM_iff {members : List (String × Json)} {a : α} :
    (∃ b, members.foldlM r.setMember a = .ok b)
      ↔ ∀ m ∈ members, ∃ i x, L.name i = m.1 ∧ L.read i m.2 = .ok x := by
  induction members generalizing a with
  | nil => exact ⟨fun _ => List.forall_mem_nil _, fun _ => ⟨a, rfl⟩⟩
  | cons m rest ih =>
    rw [List.forall_mem_cons]
    constructor
    · rintro ⟨b, h⟩
      rw [List.foldlM_cons] at h
      obtain ⟨c, hc, h⟩ := bind_eq_ok h
      obtain ⟨i, x, hi, hx, -⟩ := L.setMember_eq_ok_iff.mp hc
      exact ⟨⟨i, x, hi, hx⟩, ih.mp ⟨b, h⟩⟩
    · rintro ⟨⟨i, x, hi, hx⟩, hrest⟩
      obtain ⟨b, hb⟩ := ih (a := L.put i x a).mpr hrest
      refine ⟨b, ?_⟩
      rw [List.foldlM_cons, L.setMember_eq_ok_iff.mpr ⟨i, x, hi, hx, rfl⟩]
      exact hb

/-- What stands in a field that no member names is left. -/
theorem get_of_foldlM {members : List (String × Json)} {a b : α} {i : ι}
    (h : members.foldlM r.setMember a = .ok b) (hi : Keyed.get? (L.name i) members = none) :
    L.get i b = L.get i a := by
  induction members generalizing a with
  | nil =>
    cases h
    rfl
  | cons m rest ih =>
    rw [List.foldlM_cons] at h
    obtain ⟨c, hc, hmembers⟩ := bind_eq_ok h
    obtain ⟨k, x, hk, -, rfl⟩ := L.setMember_eq_ok_iff.mp hc
    obtain ⟨key, value⟩ := m
    rw [Keyed.get?_cons] at hi
    split at hi
    · cases hi
    · next hne => rw [ih hmembers hi, L.get_put_of_ne k i x a fun hki => hne (hki ▸ hk).symm]

/-- What is read of a member is in its field, if no other member names the field. -/
theorem read_of_foldlM {members : List (String × Json)} {a b : α} {i : ι} {j : Json}
    (h : members.foldlM r.setMember a = .ok b) (hnodup : (Keyed.keys members).Nodup)
    (hi : Keyed.get? (L.name i) members = some j) : L.read i j = .ok (L.get i b) := by
  induction members generalizing a with
  | nil => cases hi
  | cons m rest ih =>
    rw [List.foldlM_cons] at h
    obtain ⟨c, hc, hmembers⟩ := bind_eq_ok h
    obtain ⟨k, x, hk, hx, rfl⟩ := L.setMember_eq_ok_iff.mp hc
    obtain ⟨key, value⟩ := m
    obtain ⟨hkey, hrest⟩ := List.nodup_cons.mp hnodup
    rw [Keyed.get?_cons] at hi
    split at hi
    · next heq =>
      -- The members behind this one do not name the field again.
      cases hi
      obtain rfl := L.name_injective k i (hk.trans heq)
      rw [L.get_of_foldlM hmembers (Keyed.get?_eq_none_iff.mpr (heq ▸ hkey)), L.get_put]
      exact hx
    · exact ih hmembers hrest hi

include L in
/-- An object is read member by member. -/
theorem decode_object (members : List (String × Json)) :
    r.decode (.object members) = members.foldlM r.setMember r.blank := by
  have hmissing : r.missing? members = none := by rw [missing?, L.required, List.find?_nil]
  rw [decode, hmissing, setAll]
  cases members.foldlM r.setMember r.blank <;> rfl

/-- Only objects and arrays are read. -/
theorem isObject_or_array {j : Json} {a : α} (h : r.decodeLoosely j = .ok a) :
    j.isObject = true ∨ ∃ items, j = .array items := by
  cases j with
  | object => exact Or.inl rfl
  | array items => exact Or.inr ⟨items, rfl⟩
  | _ => cases h

end Record.Layout

end Layout

/-! ### The store -/

namespace Config

/-- The fields of the configuration of the store. -/
inductive Field
  | baseUrl
  | root
  | groupsPath
  | storeName
  | timeout
  | userAgent
  deriving DecidableEq

namespace Field

/-- What stands in a field. -/
def Content : Field → Type
  | timeout => Duration
  | baseUrl | root | groupsPath | storeName | userAgent => String

/-- The name under which a field is written. -/
def name : Field → String
  | baseUrl => "base_url"
  | root => "namespace"
  | groupsPath => "groups_path"
  | storeName => "store_name"
  | timeout => "request_timeout"
  | userAgent => "user_agent"

/-- How a field is read. -/
def read : (f : Field) → Json → Except Complaint f.Content
  | timeout => decodeDuration
  | baseUrl | root | groupsPath | storeName | userAgent => Decode.text

def get : (f : Field) → Config → f.Content
  | baseUrl, c => c.baseUrl
  | root, c => c.root
  | groupsPath, c => c.groupsPath
  | storeName, c => c.storeName
  | timeout, c => c.timeout
  | userAgent, c => c.userAgent

def put : (f : Field) → f.Content → Config → Config
  | baseUrl, x, c => { c with baseUrl := x }
  | root, x, c => { c with root := x }
  | groupsPath, x, c => { c with groupsPath := x }
  | storeName, x, c => { c with storeName := x }
  | timeout, x, c => { c with timeout := x }
  | userAgent, x, c => { c with userAgent := x }

end Field

/-- The configuration of the store is made up of its fields. -/
def layout : record.Layout Field Field.Content where
  name := Field.name
  read := Field.read
  get := Field.get
  put := Field.put
  name_injective i k h := by cases i <;> cases k <;> first | rfl | exact absurd h (by decide)
  mem_fields key := by
    constructor
    · intro h
      simp only [record, List.mem_cons, List.not_mem_nil, or_false] at h
      rcases h with rfl | rfl | rfl | rfl | rfl | rfl
      exacts [⟨.baseUrl, rfl⟩, ⟨.root, rfl⟩, ⟨.groupsPath, rfl⟩, ⟨.storeName, rfl⟩,
        ⟨.timeout, rfl⟩, ⟨.userAgent, rfl⟩]
    · rintro ⟨f, rfl⟩
      cases f <;> decide
  set_name _ f _ := by cases f <;> rfl
  get_put f _ _ := by cases f <;> rfl
  get_put_of_ne f g _ _ h := by cases f <;> cases g <;> first | rfl | exact absurd rfl h
  strict := rfl
  required := rfl

end Config

/-! ### The log -/

namespace Logging

/-- The fields of the configuration of the log. -/
inductive Field
  | level
  | format
  deriving DecidableEq

namespace Field

/-- What stands in a field. -/
def Content : Field → Type
  | level => String
  | format => LogFormat

/-- The name under which a field is written. -/
def name : Field → String
  | level => "level"
  | format => "format"

/-- How a field is read. -/
def read : (f : Field) → Json → Except Complaint f.Content
  | level => Decode.text
  | format => LogFormat.decodeLoosely

def get : (f : Field) → Logging → f.Content
  | level, c => c.level
  | format, c => c.format

def put : (f : Field) → f.Content → Logging → Logging
  | level, x, c => { c with level := x }
  | format, x, c => { c with format := x }

end Field

/-- The configuration of the log is made up of its fields. -/
def layout : (recordWith LogFormat.decodeLoosely).Layout Field Field.Content where
  name := Field.name
  read := Field.read
  get := Field.get
  put := Field.put
  name_injective i k h := by cases i <;> cases k <;> first | rfl | exact absurd h (by decide)
  mem_fields key := by
    constructor
    · intro h
      simp only [recordWith, List.mem_cons, List.not_mem_nil, or_false] at h
      rcases h with rfl | rfl
      exacts [⟨.level, rfl⟩, ⟨.format, rfl⟩]
    · rintro ⟨f, rfl⟩
      cases f <;> decide
  set_name _ f _ := by cases f <;> rfl
  get_put f _ _ := by cases f <;> rfl
  get_put_of_ne f g _ _ h := by cases f <;> cases g <;> first | rfl | exact absurd rfl h
  strict := rfl
  required := rfl

end Logging

namespace LogFormat

theorem mem_of_first? {members : List (String × Json)} {e : String × Json}
    (h : first? members = some e) : e ∈ members := by
  induction members with
  | nil => cases h
  | cons m rest ih =>
    rw [first?] at h
    split at h
    · next other hother =>
      split at h
      · cases h
        exact List.mem_cons_of_mem m (ih hother)
      · cases h
        exact List.mem_cons_self
    · cases h
      exact List.mem_cons_self

/-- A format that is read from a mapping has a null in it. -/
theorem exists_null_of_decodeLoosely {members : List (String × Json)} {format : LogFormat}
    (h : decodeLoosely (.object members) = .ok format) : ∃ e ∈ members, e.2 = .null := by
  rw [decodeLoosely] at h
  cases hfirst : first? members with
  | none =>
    rw [hfirst] at h
    cases h
  | some e =>
    refine ⟨e, mem_of_first? hfirst, ?_⟩
    obtain ⟨name, content⟩ := e
    rw [hfirst] at h
    obtain ⟨_, -, h⟩ := bind_eq_ok h
    cases content with
    | null => rfl
    | _ => cases h

end LogFormat

/-! ### The whole configuration -/

namespace Setup

/-- The sections of the configuration. -/
inductive Part
  | service
  | log
  deriving DecidableEq

namespace Part

/-- What stands in a section. -/
def Content : Part → Type
  | service => Config
  | log => Logging

/-- The name under which a section is written. -/
def name : Part → String
  | service => "api"
  | log => "logging"

/-- How a section is read. -/
def record : (p : Part) → Record p.Content
  | service => Config.record
  | log => Logging.recordWith LogFormat.decodeLoosely

def get : (p : Part) → Setup → p.Content
  | service, s => s.service
  | log, s => s.logging

def put : (p : Part) → p.Content → Setup → Setup
  | service, c, s => { s with service := c }
  | log, c, s => { s with logging := c }

/-- The fields of a section. -/
def Field : Part → Type
  | service => Config.Field
  | log => Logging.Field

/-- What stands in a field of a section. -/
def FieldContent : (p : Part) → p.Field → Type
  | service => Config.Field.Content
  | log => Logging.Field.Content

/-- A section is made up of its fields. -/
def layout : (p : Part) → p.record.Layout p.Field p.FieldContent
  | service => Config.layout
  | log => Logging.layout

end Part

/-- The configuration is made up of its sections. -/
def layout : record.Layout Part Part.Content where
  name := Part.name
  read p := p.record.decodeLoosely
  get := Part.get
  put := Part.put
  name_injective i k h := by cases i <;> cases k <;> first | rfl | exact absurd h (by decide)
  mem_fields key := by
    constructor
    · intro h
      simp only [record, List.mem_cons, List.not_mem_nil, or_false] at h
      rcases h with rfl | rfl
      exacts [⟨.service, rfl⟩, ⟨.log, rfl⟩]
    · rintro ⟨p, rfl⟩
      cases p <;> decide
  set_name _ p _ := by cases p <;> rfl
  get_put p _ _ := by cases p <;> rfl
  get_put_of_ne p q _ _ h := by cases p <;> cases q <;> first | rfl | exact absurd rfl h
  strict := rfl
  required := rfl

/-- A field of a section of the configuration. -/
structure Field where
  part : Part
  field : part.Field

namespace Field

/-- What stands in a field. -/
def Content (f : Field) : Type := f.part.FieldContent f.field

/-- The name of the section and the name of the field in it. -/
def path (f : Field) : List String := [f.part.name, f.part.layout.name f.field]

/-- How a field is read. -/
def read (f : Field) : Json → Except Complaint f.Content := f.part.layout.read f.field

def get (f : Field) (s : Setup) : f.Content := f.part.layout.get f.field (f.part.get s)

/-- Whether a value can be read as that of a field. -/
def Fits (f : Field) (j : Json) : Prop := ∃ x, f.read j = .ok x

/-- The address of the service. -/
def baseUrl : Field := ⟨.service, Config.Field.baseUrl⟩

end Field

/-- No two fields have the same path. -/
theorem Field.path_injective {f g : Field} (h : f.path = g.path) : f = g := by
  obtain ⟨p, f⟩ := f
  obtain ⟨q, g⟩ := g
  obtain ⟨hpart, hname⟩ := List.cons.inj h
  obtain rfl := layout.name_injective p q hpart
  obtain rfl := p.layout.name_injective f g (List.cons.inj hname).1
  rfl

/-- Each section has a field. -/
theorem exists_field (p : Part) : ∃ f : Field, f.part = p := by
  cases p with
  | service => exact ⟨.baseUrl, rfl⟩
  | log => exact ⟨⟨.log, Logging.Field.level⟩, rfl⟩

/-- A field is found in what is written of the defaults, as something that is no mapping. -/
theorem Field.at?_toJson (f : Field) : ∃ j, (toJson {}).at? f.path = some j ∧
    j.isObject = false ∧ f.read j = .ok (f.get {}) := by
  obtain ⟨p, f⟩ := f
  cases p with
  | service => cases f <;> exact ⟨_, rfl, rfl, rfl⟩
  | log => cases f <;> exact ⟨_, rfl, rfl, rfl⟩

end Setup

end RemoteSettings
