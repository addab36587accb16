import RemoteSettings.Proofs.Config.Environment
import RemoteSettings.Proofs.Config.File
import RemoteSettings.Proofs.Config.Regular

/-!
# The configuration field by field

The file is laid over the defaults, and the environment over both.  Where they name only fields,
each field is what the last of them says that says something of it.  A key that is no field is
noticed wherever it is left once all layers are joined, and it is left unless a section is replaced
as a whole.

## Main definitions

* `Setup.NamesFields`, `Setup.SetsFields` — files and environments that name only fields.
* `Setup.Field.setBy?` — what a variable sets a field to.
* `Setup.Field.Gets` — what a field gets from a file and an environment.
* `Setup.NamesNoField` — a place at which there is no field.
* `Setup.JoinedByField` — what it is for a configuration to be put together field by field.

## Main results

* `Setup.exists_load` — a configuration is loaded, and what its fields get.
* `Setup.load_eq_invalid_of_file`, `Setup.load_eq_invalid_of_environment` — a key that is no field.
* `Setup.layers_are_joined_by_field` — **the configuration is put together field by field.**
-/

namespace RemoteSettings.Setup

/-! ### The file -/

/-- What a file says; where there is no file it says nothing. -/
def fileFields : Option String → Option (Keyed String Json)
  | none => some []
  | some text => Yaml.read text

/-- The file is laid over the defaults, and the environment over both. -/
theorem load_eq {file : Option String} {yaml : Keyed String Json}
    (hfile : fileFields file = some yaml) (environment : Keyed String String) :
    load file environment = (decode (Json.overlay (Json.overlay (toJson {}) (.object yaml))
      (Environment.layer environment))).mapError fun _ => .invalid := by
  cases file with
  | none =>
    cases hfile
    rw [toJson, Json.overlay_object, Json.overlayFields_nil]
    rfl
  | some text =>
    have hlayer : fileLayer text = .ok (.object yaml) := by
      rw [fileLayer, show Yaml.read text = some yaml from hfile]
    rw [load, Option.toList_some, List.mapM_cons, hlayer]
    rfl

/-- Where there is no configuration that the layers make up, nothing is loaded. -/
theorem load_eq_invalid {file : Option String} {yaml : Keyed String Json}
    (hfile : fileFields file = some yaml) {environment : Keyed String String}
    (h : ∀ s, decode (Json.overlay (Json.overlay (toJson {}) (.object yaml))
      (Environment.layer environment)) ≠ .ok s) : load file environment = .error .invalid := by
  rw [load_eq hfile]
  cases hdecode : decode _ with
  | error e => rfl
  | ok s => exact absurd hdecode (h s)

/-- A mapping that names only fields, each in its section and with a value that fits. -/
def NamesFields (yaml : Keyed String Json) : Prop :=
  ∀ e ∈ yaml, ∃ (p : Part) (members : List (String × Json)), p.name = e.1 ∧
    e.2 = .object members ∧ ∀ m ∈ members, ∃ f : Field, f.path = [e.1, m.1] ∧ f.Fits m.2

theorem NamesFields.fits {yaml : Keyed String Json} (h : NamesFields yaml) {f : Field} {j : Json}
    (hj : (Json.object yaml).at? f.path = some j) : f.Fits j := by
  obtain ⟨part, hpart, hj⟩ := exists_part_of_at? hj
  obtain ⟨p, members, hp, rfl, hmembers⟩ := h _ (Keyed.mem_of_get? hpart)
  obtain ⟨g, hg, hfits⟩ := hmembers _ (Keyed.mem_of_get? hj)
  exact Field.path_injective hg ▸ hfits

/-- A mapping that names only fields is regular, if no key stands twice in it nor in a section. -/
theorem NamesFields.regular {fields : Keyed String Json} (h : NamesFields fields)
    (hnodup : (Keyed.keys fields).Nodup)
    (hinner : ∀ e ∈ fields, ∀ inner, e.2 = .object inner → (Keyed.keys inner).Nodup) :
    Regular (.object fields) := by
  refine ⟨fields, rfl, hnodup, fun e he => ?_⟩
  obtain ⟨p, members, hp, hmembers, hnames⟩ := h e he
  refine ⟨p, members, hp, hmembers, hinner e he members hmembers, fun m hm => ?_⟩
  obtain ⟨⟨q, g⟩, hg, -⟩ := hnames m hm
  obtain ⟨hq, hname⟩ := List.cons.inj hg
  obtain rfl := layout.name_injective q p (hq.trans hp.symm)
  exact ⟨g, (List.cons.inj hname).1⟩

/-- No key stands twice in a file, nor in a mapping in it. -/
theorem nodup_keys_of_fileFields {file : Option String} {yaml : Keyed String Json}
    (hfile : fileFields file = some yaml) : (Keyed.keys yaml).Nodup ∧
      ∀ e ∈ yaml, ∀ inner, e.2 = .object inner → (Keyed.keys inner).Nodup := by
  cases file with
  | none =>
    cases hfile
    exact ⟨List.nodup_nil, List.forall_mem_nil _⟩
  | some text => exact Yaml.nodup_keys_of_read hfile

/-! ### The environment -/

/-- What a variable, given by its name and its value, sets a field to.  It names the field, or gives
as a mapping what the field stands in. -/
def Field.setBy? (f : Field) (entry : String × String) : Option Json :=
  (Environment.saying? entry).bind (·.at? f.path)

/-- Variables that name only fields, no two of them the same, and set them to values that fit; other
variables are passed over. -/
structure SetsFields (environment : Keyed String String) : Prop where
  named : ∀ e ∈ environment, ∀ said, Environment.saying? e = some (.object said) →
    NamesFields said
  once : ∀ e ∈ environment, ∀ other ∈ environment, ∀ f : Field, (f.setBy? e).isSome = true →
    (f.setBy? other).isSome = true → e = other

/-- A variable sets a field to no mapping, as there would have to be a null in it. -/
theorem Field.isObject_of_told {f : Field} {j : Json} (hfits : f.Fits j)
    (htold : Environment.Told j) : j.isObject = false := by
  cases j with
  | object members =>
    obtain ⟨x, hx⟩ := hfits
    obtain ⟨p, f⟩ := f
    cases p with
    | service => cases f <;> cases hx
    | log =>
      cases f with
      | level => cases hx
      | format =>
        obtain ⟨e, he, heq⟩ := LogFormat.exists_null_of_decodeLoosely hx
        exact absurd heq (htold.members.2 e he).ne_null
  | _ => rfl

namespace SetsFields

variable {environment : Keyed String String}

/-- What a variable says is regular, and what it sets a field to fits and is no mapping. -/
theorem saying (h : SetsFields environment) {e : String × String} (he : e ∈ environment)
    {said : Json} (hsaid : Environment.saying? e = some said) : Regular said ∧
      ∀ (f : Field) (j : Json), said.at? f.path = some j → f.Fits j ∧ j.isObject = false := by
  have htold := Environment.told_of_saying? hsaid
  obtain ⟨fields, rfl, hnodup⟩ := Environment.exists_of_saying? hsaid
  have hnames := h.named e he fields hsaid
  refine ⟨hnames.regular hnodup fun m hm inner hinner => ?_, fun f j hj => ?_⟩
  · exact (hinner ▸ htold.members.2 m hm : Environment.Told (.object inner)).members.1
  · exact ⟨hnames.fits hj, Field.isObject_of_told (hnames.fits hj) (htold.at? hj)⟩

/-- What a field is set to fits and is no mapping. -/
theorem setBy (h : SetsFields environment) {e : String × String} (he : e ∈ environment) {f : Field}
    {j : Json} (hj : f.setBy? e = some j) : f.Fits j ∧ j.isObject = false := by
  obtain ⟨said, hsaid, hj⟩ := Option.bind_eq_some_iff.mp hj
  exact (h.saying he hsaid).2 f j hj

/-- What variables that name only fields say together is regular, and says of a field only what one
of them sets it to. -/
theorem layer (h : SetsFields environment) : Regular (Environment.layer environment) ∧
    ∀ (f : Field) (j : Json), (Environment.layer environment).at? f.path = some j →
      ∃ e ∈ environment, f.setBy? e = some j := by
  refine Environment.foldl_overlay_induction
    (P := fun layer => Regular layer ∧ ∀ (f : Field) (j : Json), layer.at? f.path = some j →
      ∃ e ∈ environment, f.setBy? e = some j)
    ⟨⟨[], rfl, List.nodup_nil, List.forall_mem_nil _⟩, fun f j hj => nomatch hj⟩ ?_
  rintro e he said acc hsaid ⟨hregular, hacc⟩
  obtain ⟨hsaying, hset⟩ := h.saying he hsaid
  refine ⟨hregular.overlay hsaying, fun f j hj => ?_⟩
  rw [Field.path, hsaying.at?_overlay, ← Field.path] at hj
  cases hvalue : said.at? f.path with
  | none =>
    rw [hvalue, Json.overlay?_none] at hj
    exact hacc f j hj
  | some value =>
    -- A value that fits is no mapping, so nothing of what is below it is left.
    rw [hvalue, Json.overlay?_of_not_isObject (hset f value hvalue).2] at hj
    exact ⟨e, he, Option.bind_eq_some_iff.mpr ⟨said, hsaid, hvalue.trans hj⟩⟩

/-- What variables say of a field is what the variable says that sets it. -/
theorem at?_layer (h : SetsFields environment) {e : String × String} (he : e ∈ environment)
    {f : Field} {j : Json} (hj : f.setBy? e = some j) :
    (Environment.layer environment).at? f.path = some j := by
  have hsome : ((Environment.layer environment).at? f.path).isSome = true := by
    obtain ⟨said, hsaid, hat⟩ := Option.bind_eq_some_iff.mp hj
    refine Environment.isSome_at?_layer he hsaid (Option.isSome_of_eq_some hat) (Nat.le_refl _) ?_
    intro other hother upper hupper key name _ part hpart
    obtain ⟨p, members, -, rfl, -⟩ := (h.saying hother hupper).1.section_of_get? hpart
    rfl
  obtain ⟨k, hk⟩ := Option.isSome_iff_exists.mp hsome
  obtain ⟨other, hother, hset⟩ := h.layer.2 f k hk
  obtain rfl := h.once e he other hother f (Option.isSome_of_eq_some hj)
    (Option.isSome_of_eq_some hset)
  rw [hk, ← hset, hj]

end SetsFields

/-! ### Field by field -/

/-- What a field gets: what is read of the value that a variable sets it to, else of what the file
says of it, else its default. -/
structure Field.Gets (f : Field) (yaml : Keyed String Json) (environment : Keyed String String)
    (x : f.Content) : Prop where
  set : ∀ e ∈ environment, ∀ j, f.setBy? e = some j → f.read j = .ok x
  file : (∀ e ∈ environment, f.setBy? e = none) →
    ∀ j, (Json.object yaml).at? f.path = some j → f.read j = .ok x
  unset : (∀ e ∈ environment, f.setBy? e = none) →
    (Json.object yaml).at? f.path = none → x = f.get {}

/-- The value that counts for a field: the one that a variable sets it to, else that of the file,
else one that its default is read from. -/
inductive Field.Source (f : Field) (yaml : Keyed String Json)
    (environment : Keyed String String) : Json → Prop
  | set {e : String × String} {j : Json} (mem : e ∈ environment) (set : f.setBy? e = some j) :
    f.Source yaml environment j
  | file {j : Json} (notSet : ∀ e ∈ environment, f.setBy? e = none)
    (said : (Json.object yaml).at? f.path = some j) : f.Source yaml environment j
  | unset {j : Json} (notSet : ∀ e ∈ environment, f.setBy? e = none)
    (notSaid : (Json.object yaml).at? f.path = none) (default : f.read j = .ok (f.get {})) :
    f.Source yaml environment j

section Load

variable {file : Option String} {yaml : Keyed String Json} {environment : Keyed String String}

/-- The value that counts for a field fits. -/
theorem Field.Source.fits {f : Field} {j : Json} (h : f.Source yaml environment j)
    (hyaml : NamesFields yaml) (henv : SetsFields environment) : f.Fits j := by
  cases h with
  | set he hset => exact (henv.setBy he hset).1
  | file _ hsaid => exact hyaml.fits hsaid
  | unset _ _ hdefault => exact ⟨_, hdefault⟩

/-- A field gets what is read of the value that counts. -/
theorem Field.Source.gets {f : Field} {j : Json} {x : f.Content} (h : f.Source yaml environment j)
    (henv : SetsFields environment) (hread : f.read j = .ok x) : f.Gets yaml environment x := by
  cases h with
  | @set e _ he hset =>
    have hnotNone : ¬∀ e ∈ environment, f.setBy? e = none := fun hnone =>
      Option.some_ne_none j (hset.symm.trans (hnone e he))
    refine ⟨fun other hother k hk => ?_, fun hnone => absurd hnone hnotNone,
      fun hnone => absurd hnone hnotNone⟩
    have hlayer := henv.at?_layer hother hk
    rw [henv.at?_layer he hset] at hlayer
    rw [← Option.some.inj hlayer, hread]
  | file hnone hsaid =>
    refine ⟨fun e he k hk => ?_, fun _ k hk => ?_, fun _ hk => ?_⟩
    · exact absurd (hk.symm.trans (hnone e he)) (Option.some_ne_none k)
    · rw [Option.some.inj (hk.symm.trans hsaid), hread]
    · exact absurd (hsaid.symm.trans hk) (Option.some_ne_none j)
  | unset hnone hnotSaid hdefault =>
    refine ⟨fun e he k hk => ?_, fun _ k hk => ?_, fun _ _ => ?_⟩
    · exact absurd (hk.symm.trans (hnone e he)) (Option.some_ne_none k)
    · exact absurd (hk.symm.trans hnotSaid) (Option.some_ne_none k)
    · exact Except.ok.inj (hread.symm.trans hdefault)

/-- All layers together say of a field the value that counts. -/
theorem exists_source (hyaml : Regular (.object yaml)) (henv : SetsFields environment) (f : Field) :
    ∃ j, (Json.overlay (Json.overlay (toJson {}) (.object yaml))
      (Environment.layer environment)).at? f.path = some j ∧ f.Source yaml environment j := by
  obtain ⟨hregular, hset⟩ := henv.layer
  obtain ⟨d, hd, hobject, hdefault⟩ := f.at?_toJson
  rw [Field.path, hregular.at?_overlay, hyaml.at?_overlay, ← Field.path, hd]
  cases hupper : (Environment.layer environment).at? f.path with
  | some j =>
    obtain ⟨e, he, hj⟩ := hset f j hupper
    exact ⟨j, Json.overlay?_of_not_isObject (henv.setBy he hj).2 _, .set he hj⟩
  | none =>
    have hnone : ∀ e ∈ environment, f.setBy? e = none := by
      intro e he
      refine Option.eq_none_iff_forall_ne_some.mpr fun j hj => ?_
      exact absurd ((henv.at?_layer he hj).symm.trans hupper) (Option.some_ne_none j)
    cases hlower : (Json.object yaml).at? f.path with
    | some j =>
      refine ⟨j, ?_, .file hnone hlower⟩
      exact congrArg some (Json.overlay_of_base_not_isObject hobject j)
    | none => exact ⟨d, rfl, .unset hnone hlower hdefault⟩

/-- Layers that name only fields are loaded, each field from the last layer that names it. -/
theorem exists_load (hfile : fileFields file = some yaml) (hyaml : NamesFields yaml)
    (henv : SetsFields environment) : ∃ s, load file environment = .ok s ∧
      ∀ f : Field, f.Gets yaml environment (f.get s) := by
  obtain ⟨hnodup, hinner⟩ := nodup_keys_of_fileFields hfile
  have hregular := hyaml.regular hnodup hinner
  have hsource := exists_source hregular henv
  have hlayers := (regular_toJson.overlay hregular).overlay henv.layer.1
  obtain ⟨s, hs, hread⟩ := hlayers.exists_decode fun f j hj => by
    obtain ⟨k, hk, hcounts⟩ := hsource f
    obtain rfl := Option.some.inj (hj.symm.trans hk)
    exact hcounts.fits hyaml henv
  refine ⟨s, ?_, fun f => ?_⟩
  · rw [load_eq hfile, hs]
    rfl
  · obtain ⟨j, hj, hcounts⟩ := hsource f
    exact hcounts.gets henv (hread f j hj)

/-! ### Keys that are no fields -/

/-- A place at one of the two levels of a layer, at or below which there is no field. -/
def NamesNoField (path : List String) : Prop :=
  path.length ≤ 2 ∧ ∀ f : Field, ¬path <+: f.path

/-- No configuration is read of a layer with a key that is no field. -/
theorem ne_ok_of_namesNoField {layer : Json} {path : List String} (hpath : NamesNoField path)
    (h : (layer.at? path).isSome = true) (s : Setup) : decode layer ≠ .ok s := by
  intro hdecode
  match path with
  | [] => exact hpath.2 .baseUrl (List.nil_prefix)
  | [key] =>
    rw [Json.at?_singleton] at h
    obtain ⟨parts, rfl, hkey⟩ := Json.exists_of_isSome_get? h
    obtain ⟨e, he, rfl⟩ := List.mem_map.mp hkey
    obtain ⟨p, hp, -⟩ := section_of_decode hdecode e he
    obtain ⟨f, rfl⟩ := exists_field p
    refine hpath.2 f ⟨[f.part.layout.name f.field], ?_⟩
    rw [Field.path, hp]
    rfl
  | [key, name] =>
    rw [Json.at?_pair] at h
    cases hpart : layer.get? key with
    | none =>
      rw [hpart] at h
      cases h
    | some part =>
      rw [hpart] at h
      obtain ⟨members, rfl, hname⟩ := Json.exists_of_isSome_get? h
      obtain ⟨m, hm, rfl⟩ := List.mem_map.mp hname
      obtain ⟨parts, rfl, -⟩ := Json.exists_of_isSome_get? (Option.isSome_of_eq_some hpart)
      obtain ⟨p, hp, hpart'⟩ := section_of_decode hdecode _ (Keyed.mem_of_get? hpart)
      rcases hpart' with ⟨items, hitems⟩ | ⟨members', hmembers', hnames⟩
      · cases hitems
      · cases hmembers'
        obtain ⟨f, hf⟩ := hnames m hm
        refine hpath.2 ⟨p, f⟩ ⟨[], ?_⟩
        rw [Field.path, hp, hf]
        rfl
  | _ :: _ :: _ :: _ => exact absurd hpath.1 (by simp)

/-- The environment gives the section that a place lies in as a list. -/
def GivenAsList (environment : Keyed String String) (path : List String) : Prop :=
  ∃ key name items, path = [key, name] ∧
    (Environment.layer environment).get? key = some (.array items)

/-- A variable gives the section that a place lies in as a whole, and not as a mapping. -/
def Replaced (environment : Keyed String String) (path : List String) : Prop :=
  ∃ e ∈ environment, ∃ key name, path = [key, name] ∧ Environment.path? e.1 = some [key] ∧
    (Environment.value e.2).isObject = false

/-- What a variable says of a section is a mapping, unless it replaces the section. -/
theorem isObject_of_not_replaced {key name : String} (h : ¬Replaced environment [key, name])
    {e : String × String} (he : e ∈ environment) {said part : Json}
    (hsaid : Environment.saying? e = some said) (hpart : said.get? key = some part) :
    part.isObject = true := by
  obtain ⟨path, hpath, rfl⟩ := Option.map_eq_some_iff.mp hsaid
  match path with
  | [] => exact absurd rfl (Environment.ne_nil_of_path? hpath)
  | [step] =>
    obtain ⟨rfl, rfl⟩ := Prod.mk.inj (List.mem_singleton.mp (Keyed.mem_of_get? hpart))
    by_contra hobject
    exact h ⟨e, he, _, name, rfl, hpath, Bool.eq_false_iff.mpr hobject⟩
  | step :: inner :: rest =>
    obtain ⟨-, rfl⟩ := Prod.mk.inj (List.mem_singleton.mp (Keyed.mem_of_get? hpart))
    rfl

/-- Nothing is loaded if the environment has a key that is no field. -/
theorem load_eq_invalid_of_environment (hfile : fileFields file = some yaml) {path : List String}
    (hpath : NamesNoField path) (h : ((Environment.layer environment).at? path).isSome = true) :
    load file environment = .error .invalid := by
  refine load_eq_invalid hfile (ne_ok_of_namesNoField hpath ?_)
  obtain ⟨parts, hparts, hnodup⟩ := Environment.exists_layer_eq environment
  rw [hparts] at h ⊢
  exact Json.isSome_at?_overlay_right hnodup hpath.1 h _

/-- Nothing is loaded if the file has a key that is no field, unless it stands in a section that the
environment gives as a list. -/
theorem load_eq_invalid_of_file (hfile : fileFields file = some yaml) {path : List String}
    (hpath : NamesNoField path) (h : ((Json.object yaml).at? path).isSome = true)
    (hlist : ¬GivenAsList environment path) : load file environment = .error .invalid := by
  refine load_eq_invalid hfile fun s => ?_
  obtain ⟨parts, hparts, hnodup⟩ := Environment.exists_layer_eq environment
  rw [GivenAsList, hparts] at hlist
  rw [hparts]
  have hlower :=
    Json.isSome_at?_overlay_right (nodup_keys_of_fileFields hfile).1 hpath.1 h (toJson {})
  by_cases hwhole : ∀ key name, path = [key, name] → ∀ part, Keyed.get? key parts = some part →
      part.isObject = true
  · exact ne_ok_of_namesNoField hpath (Json.isSome_at?_overlay_left hnodup hpath.1 hlower hwhole) s
  · -- The section is replaced by what is neither a mapping nor a list.
    intro hdecode
    obtain ⟨key, name, rfl, part, hpart, hobject⟩ : ∃ key name, path = [key, name] ∧
        ∃ part, Keyed.get? key parts = some part ∧ part.isObject ≠ true := by
      simpa only [not_forall, exists_prop] using hwhole
    have hpart' : (Json.overlay (Json.overlay (toJson {}) (.object yaml)) (.object parts)).get? key
        = some part := by
      rw [Json.get?_overlay hnodup, hpart]
      exact Json.overlay?_of_not_isObject (Bool.eq_false_iff.mpr hobject) _
    obtain ⟨all, hall, -⟩ := Json.exists_of_isSome_get? (Option.isSome_of_eq_some hpart')
    rw [hall] at hdecode hpart'
    obtain ⟨p, -, ⟨items, hitems⟩ | ⟨members, hmembers, -⟩⟩ :=
      section_of_decode hdecode _ (Keyed.mem_of_get? hpart')
    · exact hlist ⟨key, name, items, rfl, hpart.trans (congrArg some hitems)⟩
    · exact hobject (congrArg Json.isObject hmembers)

end Load

/-! ### The command line -/

/-- An address that is given on the command line replaces no other field. -/
theorem Field.get_withBaseUrl {f : Field} (h : f ≠ .baseUrl) (url : Option String) (s : Setup) :
    f.get (s.withBaseUrl url) = f.get s := by
  obtain ⟨p, f⟩ := f
  cases url with
  | none => rfl
  | some url =>
    cases p with
    | service => cases f <;> first | rfl | exact absurd rfl h
    | log => rfl

/-- A variable sets a field to its value if it is called by the opening, the section and the field,
in whatever case. -/
theorem setBy?_of_toLower {f : Field} {name : String}
    (h : name.toLower = "setting_options__" ++ "__".intercalate f.path) (raw : String) :
    f.setBy? (name, raw) = some (Environment.value raw) := by
  have hpath : Environment.path? name = some f.path := by
    rw [← Environment.path?_toLower, h]
    obtain ⟨p, f⟩ := f
    cases p with
    | service => cases f <;> decide +kernel
    | log => cases f <;> decide +kernel
  rw [Field.setBy?, Environment.saying?, hpath]
  exact Environment.at?_nest f.path (Environment.value raw)

/-- What is loaded of a file and an environment is put together field by field. -/
structure JoinedByField (file : Option String) (yaml : Keyed String Json)
    (environment : Keyed String String) : Prop where
  /-- Where the file and the environment name only fields, each with a value that fits, and no two
  variables name the same field, a configuration is loaded.  Each field gets what the environment
  says of it, else what the file says of it, else its default, whatever is said of other fields.
  An address given on the command line replaces the address and nothing else. -/
  loaded : NamesFields yaml → SetsFields environment →
    ∃ s, load file environment = .ok s ∧ (∀ f : Field, f.Gets yaml environment (f.get s)) ∧
      ∀ url, (s.withBaseUrl url).service.baseUrl = url.getD s.service.baseUrl ∧
        ∀ f : Field, f ≠ .baseUrl → f.get (s.withBaseUrl url) = f.get s
  /-- A variable names a field by the opening, its section and its name with two underscores between
  them. -/
  named : ∀ (f : Field) (name raw : String),
    name.toLower = "setting_options__" ++ "__".intercalate f.path →
    f.setBy? (name, raw) = some (Environment.value raw)
  /-- The case of a variable's name does not count. -/
  anyCase : ∀ name other raw : String, name.toLower = other.toLower →
    Environment.saying? (name, raw) = Environment.saying? (other, raw)
  /-- Nothing is loaded where the file or the environment has a key that is no field, among the
  sections or in one of them, unless the key stands in a section of the file that the environment
  gives as a list, which nothing is joined to. -/
  refused : ∀ path, NamesNoField path →
    ((Json.object yaml).at? path).isSome = true ∧ ¬GivenAsList environment path ∨
      ((Environment.layer environment).at? path).isSome = true →
    load file environment = .error .invalid
  /-- The keys that the environment has are those of what its variables say, unless another variable
  gives the section of a key as a whole and not as a mapping. -/
  kept : ∀ e ∈ environment, ∀ said, Environment.saying? e = some said →
    ∀ path, (said.at? path).isSome = true → path.length ≤ 2 → ¬Replaced environment path →
    ((Environment.layer environment).at? path).isSome = true

/-- **The configuration is put together field by field**, from the defaults, a file, the environment
and the command line, and a key that is no field is noticed unless a list hides it. -/
theorem layers_are_joined_by_field {file : Option String} {yaml : Keyed String Json}
    (hfile : fileFields file = some yaml) (environment : Keyed String String) :
    JoinedByField file yaml environment where
  loaded := by
    intro hyaml henv
    obtain ⟨s, hs, hgets⟩ := exists_load hfile hyaml henv
    refine ⟨s, hs, hgets, fun url => ⟨?_, fun f hf => Field.get_withBaseUrl hf url s⟩⟩
    cases url <;> rfl
  named f name raw h := setBy?_of_toLower h raw
  anyCase := by
    intro name other raw h
    rw [Environment.saying?, Environment.saying?, ← Environment.path?_toLower, h,
      Environment.path?_toLower]
  refused := by
    rintro path hpath (⟨h, hlist⟩ | h)
    · exact load_eq_invalid_of_file hfile hpath h hlist
    · exact load_eq_invalid_of_environment hfile hpath h
  kept := by
    intro e he said hsaid path hpath hlength hwhole
    refine Environment.isSome_at?_layer he hsaid hpath hlength ?_
    rintro other hother upper hupper key name rfl part hpart
    exact isObject_of_not_replaced hwhole hother hupper hpart

/-- There is no field at the place of a key that is misspelt. -/
theorem namesNoField_base : NamesNoField ["api", "base"] := by
  refine ⟨Nat.le_refl _, ?_⟩
  rintro ⟨p, f⟩
  cases p with
  | service => cases f <;> decide
  | log => cases f <;> decide

/-- A file with a key that is misspelt. -/
def misspeltFile : String := "api:\n  base: x\n"

theorem exists_base_of_misspeltFile : ∃ yaml, fileFields (some misspeltFile) = some yaml ∧
    ((Json.object yaml).at? ["api", "base"]).isSome = true := by
  have hbase : ((fileFields (some misspeltFile)).bind fun yaml =>
      (Json.object yaml).at? ["api", "base"]).isSome = true := by decide +kernel
  obtain ⟨j, hj⟩ := Option.isSome_iff_exists.mp hbase
  obtain ⟨yaml, hyaml, hj⟩ := Option.bind_eq_some_iff.mp hj
  exact ⟨yaml, hyaml, Option.isSome_of_eq_some hj⟩

/-- That a key that is no field always makes loading fail does not hold.  Only what the layers make
up together is read, so a misspelt key goes unnoticed where the environment gives as a list the
section of the file in which it stands: the defaults are loaded. -/
theorem list_hides_misspelt_key :
    ¬∀ (file : Option String) (yaml : Keyed String Json) (environment : Keyed String String)
      (path : List String), fileFields file = some yaml → NamesNoField path →
      ((Json.object yaml).at? path).isSome = true ∨
        ((Environment.layer environment).at? path).isSome = true →
      ∃ p, load file environment = .error p := by
  intro h
  obtain ⟨yaml, hyaml, hbase⟩ := exists_base_of_misspeltFile
  have hload : load (some misspeltFile) [("SETTING_OPTIONS__API", "[]")] = .ok {} := by
    decide +kernel
  obtain ⟨p, hp⟩ := h _ yaml [("SETTING_OPTIONS__API", "[]")] _ hyaml namesNoField_base
    (Or.inl hbase)
  exact nomatch hload.symm.trans hp

/-- A file that sets a path, the time for an answer and, as a mapping, the format of the log. -/
def shopFile : String :=
  "api:\n  namespace: /shop\n  request_timeout: 5s\nlogging:\n  format:\n    json:\n"

/-- What the file says. -/
def shopFields : Keyed String Json :=
  [("api", .object [("namespace", .string "/shop"), ("request_timeout", .string "5s")]),
    ("logging", .object [("format", .object [("json", .null)])])]

theorem fileFields_shopFile : fileFields (some shopFile) = some shopFields := by decide +kernel

theorem shopFields_nameFields : NamesFields shopFields := by
  unfold NamesFields shopFields
  rw [List.forall_mem_cons, List.forall_mem_singleton]
  refine ⟨⟨.service, _, rfl, rfl, ?_⟩, ⟨.log, _, rfl, rfl, ?_⟩⟩
  · rw [List.forall_mem_cons, List.forall_mem_singleton]
    exact ⟨⟨⟨.service, Config.Field.root⟩, rfl, "/shop", rfl⟩,
      ⟨⟨.service, Config.Field.timeout⟩, rfl, Duration.ofSeconds 5, rfl⟩⟩
  · rw [List.forall_mem_singleton]
    exact ⟨⟨.log, Logging.Field.format⟩, rfl, LogFormat.json, rfl⟩

/-- Variables of which one sets what the file sets, one gives a section with a field that the file
leaves, and one is another program's. -/
def shopVariables : Keyed String String :=
  [("Setting_Options__Api__Namespace", "/staging"), ("SETTING_OPTIONS__LOGGING", "{level=debug}"),
    ("PATH", "/bin")]

theorem saying?_logging : Environment.saying? ("SETTING_OPTIONS__LOGGING", "{level=debug}")
    = some (.object [("logging", .object [("level", .string "debug")])]) := by decide +kernel

theorem shopVariables_setFields : SetsFields shopVariables where
  named := by
    intro e he said hsaid
    simp only [shopVariables, List.mem_cons, List.not_mem_nil, or_false] at he
    rcases he with rfl | rfl | rfl
    · have hroot : Environment.saying? ("Setting_Options__Api__Namespace", "/staging")
          = some (.object [("api", .object [("namespace", .string "/staging")])]) := by decide +kernel
      cases hroot.symm.trans hsaid
      refine List.forall_mem_singleton.mpr ⟨.service, _, rfl, rfl, ?_⟩
      exact List.forall_mem_singleton.mpr ⟨⟨.service, Config.Field.root⟩, rfl, "/staging", rfl⟩
    · cases saying?_logging.symm.trans hsaid
      refine List.forall_mem_singleton.mpr ⟨.log, _, rfl, rfl, ?_⟩
      exact List.forall_mem_singleton.mpr ⟨⟨.log, Logging.Field.level⟩, rfl, "debug", rfl⟩
    · have hnone : Environment.saying? ("PATH", "/bin") = none := by decide +kernel
      exact absurd (hsaid.symm.trans hnone) (Option.some_ne_none _)
  once := by
    have honce : ∀ p : Part, ∀ f : p.Field, ∀ e ∈ shopVariables, ∀ other ∈ shopVariables,
        (Field.setBy? ⟨p, f⟩ e).isSome = true → (Field.setBy? ⟨p, f⟩ other).isSome = true →
        e = other := by
      intro p f
      cases p with
      | service => cases f <;> decide +kernel
      | log => cases f <;> decide +kernel
    exact fun e he other hother f => honce f.part f.field e he other hother

/-- The file, the environment and the command line each set fields of one section, a misspelt key is
noticed in the file and in the environment, and the case of a variable's name does not count. -/
theorem shop_is_joined_by_field :
    (∃ s, load (some shopFile) shopVariables = .ok s ∧
      s.service.root = "/staging" ∧ s.service.timeout = .ofSeconds 5 ∧
      s.service.baseUrl = "http://localhost:8080" ∧ s.logging = ⟨"debug", .json⟩ ∧
      (s.withBaseUrl (some "http://127.0.0.1")).service.baseUrl = "http://127.0.0.1" ∧
      (s.withBaseUrl (some "http://127.0.0.1")).service.root = "/staging")
    ∧ load (some misspeltFile) [] = .error .invalid
    ∧ load none [("SETTING_OPTIONS__API__BASE", "x")] = .error .invalid
    ∧ Environment.saying? ("SETTING_OPTIONS__API__BASE", "x")
      = Environment.saying? ("Setting_Options__Api__Base", "x") := by
  refine ⟨?_, ?_, ?_⟩
  · have hjoined := layers_are_joined_by_field fileFields_shopFile shopVariables
    obtain ⟨s, hs, hgets, hurl⟩ := hjoined.loaded shopFields_nameFields shopVariables_setFields
    have hroot : s.service.root = "/staging" := by
      have hset := hjoined.named ⟨.service, Config.Field.root⟩ "Setting_Options__Api__Namespace" "/staging"
        (by decide +kernel)
      have h := (hgets ⟨.service, Config.Field.root⟩).set _ List.mem_cons_self _ hset
      have hvalue : Environment.value "/staging" = .string "/staging" := by decide +kernel
      rw [hvalue] at h
      exact Except.ok.inj (h.symm.trans rfl)
    have htimeout : s.service.timeout = .ofSeconds 5 := by
      have h := (hgets ⟨.service, Config.Field.timeout⟩).file (by decide +kernel) (.string "5s") rfl
      exact Except.ok.inj (h.symm.trans rfl)
    have hbaseUrl : s.service.baseUrl = "http://localhost:8080" :=
      (hgets .baseUrl).unset (by decide +kernel) rfl
    have hlevel : s.logging.level = "debug" := by
      have hset : Field.setBy? ⟨.log, Logging.Field.level⟩
          ("SETTING_OPTIONS__LOGGING", "{level=debug}") = some (.string "debug") := by
        rw [Field.setBy?, saying?_logging]
        rfl
      have h := (hgets ⟨.log, Logging.Field.level⟩).set _
        (List.mem_cons_of_mem _ List.mem_cons_self) _ hset
      exact Except.ok.inj (h.symm.trans rfl)
    have hformat : s.logging.format = .json := by
      have h := (hgets ⟨.log, Logging.Field.format⟩).file (by decide +kernel) _ rfl
      exact Except.ok.inj (h.symm.trans rfl)
    obtain ⟨hgiven, hothers⟩ := hurl (some "http://127.0.0.1")
    refine ⟨s, hs, hroot, htimeout, hbaseUrl, ?_, hgiven, ?_⟩
    · rw [← hlevel, ← hformat]
    · exact (hothers ⟨.service, Config.Field.root⟩ (by rintro ⟨⟩)).trans hroot
  · obtain ⟨yaml, hyaml, hbase⟩ := exists_base_of_misspeltFile
    refine (layers_are_joined_by_field hyaml []).refused _ namesNoField_base
      (Or.inl ⟨hbase, ?_⟩)
    rintro ⟨key, name, items, -, hlist⟩
    cases hlist
  · have hfile : fileFields none = some [] := rfl
    have hjoined := layers_are_joined_by_field hfile [("SETTING_OPTIONS__API__BASE", "x")]
    have hupper : "SETTING_OPTIONS__API__BASE".toLower = "setting_options__api__base" := by
      decide +kernel
    have hmixed : "Setting_Options__Api__Base".toLower = "setting_options__api__base" := by
      decide +kernel
    refine ⟨hjoined.refused _ namesNoField_base (Or.inr ?_),
      hjoined.anyCase _ _ "x" (hupper.trans hmixed.symm)⟩
    have hsaid : Environment.saying? ("SETTING_OPTIONS__API__BASE", "x")
        = some (.object [("api", .object [("base", .string "x")])]) := by decide +kernel
    refine hjoined.kept _ List.mem_cons_self _ hsaid _ rfl (Nat.le_refl _) ?_
    rintro ⟨e, he, key, name, -, hpath, -⟩
    obtain rfl := List.mem_singleton.mp he
    have hbase : Environment.path? "SETTING_OPTIONS__API__BASE" = some ["api", "base"] := by
      decide +kernel
    cases hbase.symm.trans hpath

end RemoteSettings.Setup
