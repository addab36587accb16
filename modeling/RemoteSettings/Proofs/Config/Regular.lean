import RemoteSettings.Proofs.Config.Fields

/-!
# Layers that name only fields

A layer is regular if it maps names of sections to mappings of names of their fields.  A regular
layer over another is regular, and says of each field what the two say of that field, whatever they
say of others.  A regular layer is read field by field.

## Main definitions

* `Setup.Regular` — a layer that names only fields.

## Main results

* `Setup.Regular.overlay`, `Setup.Regular.at?_overlay` — a regular layer over another.
* `Setup.Regular.exists_decode` — a regular layer is read if its values fit.
* `Setup.section_of_decode` — what is read is regular but for sections that are lists.
-/

namespace RemoteSettings.Setup

/-- A layer that maps names of sections to mappings of names of their fields, and no name twice. -/
def Regular (layer : Json) : Prop :=
  ∃ parts, layer = .object parts ∧ (Keyed.keys parts).Nodup ∧
    ∀ e ∈ parts, ∃ (p : Part) (members : Keyed String Json), p.name = e.1 ∧ e.2 = .object members ∧
      (Keyed.keys members).Nodup ∧ ∀ m ∈ members, ∃ f : p.Field, p.layout.name f = m.1

/-- What a regular layer says of a section, if it says something of it. -/
theorem Regular.section_of_get? {layer part : Json} {key : String} (h : Regular layer)
    (hpart : layer.get? key = some part) : ∃ (p : Part) (members : Keyed String Json),
      p.name = key ∧ part = .object members ∧ (Keyed.keys members).Nodup ∧
      ∀ m ∈ members, ∃ f : p.Field, p.layout.name f = m.1 := by
  obtain ⟨parts, rfl, -, hparts⟩ := h
  exact hparts _ (Keyed.mem_of_get? hpart)

/-- A layer over another says of each field what both say of it. -/
theorem Regular.at?_overlay {top : Json} (htop : Regular top) (base : Json) (key name : String) :
    (Json.overlay base top).at? [key, name]
      = Json.overlay? (base.at? [key, name]) (top.at? [key, name]) := by
  have htop' := htop
  obtain ⟨parts, rfl, hnodup, -⟩ := htop'
  rw [Json.at?_pair, Json.at?_pair, Json.at?_pair, Json.get?_overlay hnodup]
  cases hupper : (Json.object parts).get? key with
  | none =>
    change Keyed.get? key parts = none at hupper
    rw [hupper, Json.overlay?_none, Option.bind_none, Json.overlay?_none]
  | some upper =>
    obtain ⟨p, members, -, rfl, hmembers, -⟩ := htop.section_of_get? hupper
    change Keyed.get? key parts = some _ at hupper
    rw [hupper]
    cases hlower : base.get? key with
    | none => rw [Json.none_overlay?, Option.bind_none, Json.none_overlay?]
    | some lower => exact Json.get?_overlay hmembers lower name

/-- A regular layer over another is regular. -/
theorem Regular.overlay {base top : Json} (hbase : Regular base) (htop : Regular top) :
    Regular (Json.overlay base top) := by
  have hbase' := hbase
  have htop' := htop
  obtain ⟨under, rfl, hunder, -⟩ := hbase'
  obtain ⟨parts, rfl, hparts, -⟩ := htop'
  rw [Json.overlay_object]
  have hnodup := Json.nodup_keys_overlayFields hunder parts
  refine ⟨_, rfl, hnodup, fun e he => ?_⟩
  have hget := Keyed.get?_of_mem hnodup (show (e.1, e.2) ∈ _ from he)
  rw [Json.get?_overlayFields hparts] at hget
  cases hupper : Keyed.get? e.1 parts with
  | none =>
    rw [hupper, Json.overlay?_none] at hget
    exact hbase.section_of_get? hget
  | some upper =>
    obtain ⟨p, members, hp, rfl, hmembers, hnames⟩ := htop.section_of_get? hupper
    cases hlower : Keyed.get? e.1 under with
    | none =>
      rw [hupper, hlower, Json.none_overlay?] at hget
      exact htop.section_of_get? (hupper.trans hget)
    | some lower =>
      obtain ⟨q, members', hq, rfl, hmembers', hnames'⟩ := hbase.section_of_get? hlower
      obtain rfl := layout.name_injective p q (hp.trans hq.symm)
      rw [hupper, hlower] at hget
      refine ⟨p, _, hp, (Option.some.inj hget).symm.trans (Json.overlay_object _ _),
        Json.nodup_keys_overlayFields hmembers' members, fun m hm => ?_⟩
      rcases Json.mem_keys_overlayFields.mp (List.mem_map_of_mem hm) with hm | hm
      · obtain ⟨m', hm', hname⟩ := List.mem_map.mp hm
        exact hname ▸ hnames' m' hm'
      · obtain ⟨m', hm', hname⟩ := List.mem_map.mp hm
        exact hname ▸ hnames m' hm'

/-- A field is found where its section and its name lead to. -/
theorem exists_part_of_at? {layer j : Json} {f : Field} (h : layer.at? f.path = some j) :
    ∃ part, layer.get? f.part.name = some part ∧
      part.get? (f.part.layout.name f.field) = some j := by
  rw [Field.path, Json.at?_pair] at h
  exact Option.bind_eq_some_iff.mp h

/-- A regular layer whose values fit is read, each field from the value that stands there. -/
theorem Regular.exists_decode {layer : Json} (h : Regular layer)
    (hfits : ∀ (f : Field) (j : Json), layer.at? f.path = some j → f.Fits j) :
    ∃ s, decode layer = .ok s ∧
      ∀ (f : Field) (j : Json), layer.at? f.path = some j → f.read j = .ok (f.get s) := by
  have hlayer := h
  obtain ⟨parts, rfl, hparts, hsections⟩ := hlayer
  have hsection : ∀ e ∈ parts, ∃ (p : Part) (c : p.Content), p.name = e.1 ∧
      p.record.decodeLoosely e.2 = .ok c := by
    intro e he
    obtain ⟨p, members, hp, hmembers, hnodup, hnames⟩ := hsections e he
    have hread : ∀ m ∈ members, ∃ (f : p.Field) (x : p.FieldContent f), p.layout.name f = m.1 ∧
        p.layout.read f m.2 = .ok x := by
      intro m hm
      obtain ⟨f, hf⟩ := hnames m hm
      have hat : (Json.object parts).at? (Field.path ⟨p, f⟩) = some m.2 := by
        have hget : Keyed.get? e.1 parts = some e.2 := Keyed.get?_of_mem hparts he
        rw [Field.path, Json.at?_pair, Json.get?, hp, hget, hmembers, Option.bind_some, hf]
        exact Keyed.get?_of_mem hnodup hm
      obtain ⟨x, hx⟩ := hfits ⟨p, f⟩ m.2 hat
      exact ⟨f, x, hf, hx⟩
    obtain ⟨c, hc⟩ := (p.layout.exists_foldlM_iff (a := p.record.blank)).mpr hread
    refine ⟨p, c, hp, ?_⟩
    rw [hmembers]
    exact (p.layout.decode_object members).trans hc
  obtain ⟨s, hs⟩ := (layout.exists_foldlM_iff (a := record.blank)).mpr hsection
  refine ⟨s, (layout.decode_object parts).trans hs, fun f j hj => ?_⟩
  obtain ⟨part, hpart, hj⟩ := exists_part_of_at? hj
  obtain ⟨p, members, hp, rfl, hnodup, -⟩ := h.section_of_get? hpart
  have hread := layout.read_of_foldlM hs hparts hpart
  exact f.part.layout.read_of_foldlM ((f.part.layout.decode_object members).symm.trans hread) hnodup
    hj

/-- Where a configuration is read, each key is a section, and each section is a list or a mapping of
names of its fields. -/
theorem section_of_decode {parts : Keyed String Json} {s : Setup}
    (h : decode (.object parts) = .ok s) : ∀ e ∈ parts, ∃ p : Part, p.name = e.1 ∧
      ((∃ items, e.2 = .array items) ∨ ∃ members, e.2 = .object members ∧
        ∀ m ∈ members, ∃ f : p.Field, p.layout.name f = m.1) := by
  intro e he
  have hread := layout.exists_foldlM_iff.mp ⟨s, (layout.decode_object parts).symm.trans h⟩
  obtain ⟨p, c, hp, hc⟩ := hread e he
  refine ⟨p, hp, ?_⟩
  rcases Record.Layout.isObject_or_array hc with hobject | harray
  · right
    obtain ⟨key, part⟩ := e
    cases part with
    | object members =>
      refine ⟨members, rfl, fun m hm => ?_⟩
      replace hc := (p.layout.decode_object members).symm.trans hc
      obtain ⟨f, -, hf, -⟩ := p.layout.exists_foldlM_iff.mp ⟨c, hc⟩ m hm
      exact ⟨f, hf⟩
    | _ => cases hobject
  · exact Or.inl harray

theorem regular_toJson : Regular (toJson {}) := by
  refine ⟨_, rfl, by decide, ?_⟩
  rw [List.forall_mem_cons, List.forall_mem_singleton]
  refine ⟨⟨.service, _, rfl, rfl, by decide, ?_⟩, ⟨.log, _, rfl, rfl, by decide, ?_⟩⟩
  · exact fun m hm => (Config.layout.mem_fields m.1).mp (List.mem_map_of_mem hm)
  · exact fun m hm => (Logging.layout.mem_fields m.1).mp (List.mem_map_of_mem hm)

end RemoteSettings.Setup
