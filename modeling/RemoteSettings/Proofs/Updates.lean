import Mathlib.Data.List.Forall2
import RemoteSettings.Proofs.Format
import RemoteSettings.Proofs.Reading

/-!
# Which updates are accepted

Updates are a list of entries or a map from ids to values.  They are accepted exactly if they are
well formed: an entry has an id that is not empty and a value, and no id of a map is empty.  Of a
list that is refused the first entry is named in which something is wrong, and what is wrong there.

## Main definitions

* `Updates.WellFormed` — a JSON value is a list of entries or a map from ids to values.
* `Updates.Entry`, `Updates.Lists` — an entry stands for an update, a JSON value for several.
* `Updates.Flaw` — what is wrong with a JSON value that is no entry.

## Main results

* `Updates.entry_eq_ok_iff` — how an entry is read.
* `Updates.entries_eq_ok_iff`, `Updates.entries_eq_error_iff` — how the entries of a list are read.
* `Updates.accepted_iff_wellFormed` — **updates are accepted exactly if they are well formed**, and
  those that are sent are read as they were.
-/

namespace RemoteSettings.Updates

/-! ### What is accepted, and what is wrong -/

/-- A JSON value has an id that is not empty, and a value, which may be null. -/
def IsEntry (j : Json) : Prop :=
  ∃ id value, j.get? "id" = some (.string id) ∧ id ≠ "" ∧ j.get? "value" = some value

/-- A JSON value is a list of entries, or a map in which no id is empty. -/
def WellFormed : Json → Prop
  | .array items => ∀ j ∈ items, IsEntry j
  | .object fields => "" ∉ Keyed.keys fields
  | _ => False

/-- An entry stands for the update of its id to its value. -/
def Entry (j : Json) (u : Update) : Prop :=
  u.id ≠ "" ∧ j.get? "id" = some (.string u.id) ∧
    ∃ value, j.get? "value" = some value ∧ u.value = .ofJson value

/-- The updates for which a JSON value stands, one for each entry and in their order. -/
def Lists : Json → List Update → Prop
  | .array items, us => List.Forall₂ Entry items us
  | .object fields, us => us = fields.map fun f => ⟨f.1, .ofJson f.2⟩
  | _, _ => False

/-- What is wrong with a JSON value that stands at an index and is no entry. -/
inductive Flaw (index : Nat) : Json → Problem → Prop
  | notAnObject {j : Json} : j.isObject = false → Flaw index j (.notAnObject index)
  | badId {fields : List (String × Json)} :
    (∀ id, Keyed.get? "id" fields = some (.string id) → id = "") →
      Flaw index (.object fields) (.badId index)
  | noValue {fields : List (String × Json)} {id : String} :
    Keyed.get? "id" fields = some (.string id) → id ≠ "" → Keyed.get? "value" fields = none →
      Flaw index (.object fields) (.noValue id)

theorem isEntry_iff {j : Json} : IsEntry j ↔ ∃ u, Entry j u := by
  constructor
  · rintro ⟨id, value, hid, hne, hvalue⟩
    exact ⟨⟨id, .ofJson value⟩, hne, hid, value, hvalue, rfl⟩
  · rintro ⟨u, hne, hid, value, hvalue, -⟩
    exact ⟨u.id, value, hid, hne, hvalue⟩

/-! ### Entries -/

variable {index : Nat} {j : Json} {u : Update} {p : Problem}

theorem Entry.read (h : Entry j u) (index : Nat) : entry index j = .ok u := by
  obtain ⟨hne, hid, value, hvalue, hu⟩ := h
  cases j with
  | object fields =>
    have hid' : Keyed.get? "id" fields = some (.string u.id) := hid
    have hvalue' : Keyed.get? "value" fields = some value := hvalue
    rw [entry, hid']
    dsimp only
    rw [if_neg hne, hvalue']
    exact congrArg (fun v => Except.ok (⟨u.id, v⟩ : Update)) hu.symm
  | _ => cases hid

theorem Flaw.read (h : Flaw index j p) : entry index j = .error p := by
  cases h with
  | notAnObject hj =>
    cases j with
    | object fields => cases hj
    | _ => rfl
  | badId hbad =>
    rw [entry]
    split
    · next id hid => exact if_pos (hbad id hid)
    · rfl
  | noValue hid hne hvalue =>
    rw [entry, hid]
    dsimp only
    rw [if_neg hne, hvalue]

/-- A JSON value is read as an entry, or there is something wrong with it. -/
theorem entry_or_flaw (index : Nat) (j : Json) : (∃ u, Entry j u) ∨ ∃ p, Flaw index j p := by
  cases j with
  | object fields =>
    by_cases hid : ∃ id, Keyed.get? "id" fields = some (.string id) ∧ id ≠ ""
    · obtain ⟨id, hid, hne⟩ := hid
      cases hvalue : Keyed.get? "value" fields with
      | none => exact Or.inr ⟨_, .noValue hid hne hvalue⟩
      | some value => exact Or.inl ⟨⟨id, .ofJson value⟩, hne, hid, value, hvalue, rfl⟩
    · refine Or.inr ⟨_, .badId fun id hid' => ?_⟩
      by_contra hne
      exact hid ⟨id, hid', hne⟩
  | _ => exact Or.inr ⟨_, .notAnObject rfl⟩

/-- A JSON value is read as the update for which it stands as an entry. -/
theorem entry_eq_ok_iff : entry index j = .ok u ↔ Entry j u := by
  refine ⟨fun h => ?_, fun h => h.read index⟩
  rcases entry_or_flaw index j with ⟨v, hv⟩ | ⟨p, hp⟩
  · cases (hv.read index).symm.trans h
    exact hv
  · cases hp.read.symm.trans h

/-! ### Lists of entries -/

variable {items : List Json} {us : List Update}

/-- A list is read as the updates for which its entries stand. -/
theorem entries_eq_ok_iff : entries index items = .ok us ↔ List.Forall₂ Entry items us := by
  induction items generalizing index us with
  | nil =>
    rw [entries, Except.ok.injEq, List.forall₂_nil_left_iff, eq_comm]
  | cons j rest ih =>
    constructor
    · intro h
      obtain ⟨u, hu, h⟩ := bind_eq_ok h
      obtain ⟨vs, hvs, h⟩ := bind_eq_ok h
      cases h
      exact .cons (entry_eq_ok_iff.mp hu) (ih.mp hvs)
    · intro h
      cases h with
      | cons hu hvs =>
        rw [entries, entry_eq_ok_iff.mpr hu]
        dsimp only [bind, Except.bind]
        rw [ih.mpr hvs]

/-- A list is refused for what is wrong with the first that is no entry. -/
theorem entries_eq_error_iff : entries index items = .error p ↔
    ∃ before bad after, items = before ++ bad :: after ∧ (∀ i ∈ before, IsEntry i) ∧
      Flaw (index + before.length) bad p := by
  induction items generalizing index with
  | nil =>
    refine iff_of_false (fun h => nomatch h) ?_
    rintro ⟨before, bad, after, heq, -⟩
    exact List.append_ne_nil_of_right_ne_nil before (List.cons_ne_nil bad after) heq.symm
  | cons j rest ih =>
    rcases entry_or_flaw index j with ⟨u, hu⟩ | ⟨q, hq⟩
    · -- What is wrong is wrong further on, where entries have an index that is greater by one.
      have hrest : entries index (j :: rest) = .error p ↔ entries (index + 1) rest = .error p := by
        rw [entries, hu.read index]
        dsimp only [bind, Except.bind]
        cases entries (index + 1) rest <;> simp
      rw [hrest, ih]
      constructor
      · rintro ⟨before, bad, after, rfl, hbefore, hflaw⟩
        refine ⟨j :: before, bad, after, rfl,
          List.forall_mem_cons.mpr ⟨isEntry_iff.mpr ⟨u, hu⟩, hbefore⟩, ?_⟩
        rwa [List.length_cons, Nat.add_comm before.length, ← Nat.add_assoc]
      · rintro ⟨before, bad, after, heq, hbefore, hflaw⟩
        cases before with
        | nil =>
          cases heq
          cases (hu.read index).symm.trans hflaw.read
        | cons i before =>
          cases heq
          refine ⟨before, bad, after, rfl, (List.forall_mem_cons.mp hbefore).2, ?_⟩
          rwa [Nat.add_assoc, Nat.add_comm 1]
    · have hfirst : entries index (j :: rest) = .error q := by
        rw [entries, hq.read]
        rfl
      rw [hfirst, Except.error.injEq]
      constructor
      · rintro rfl
        exact ⟨[], j, rest, rfl, fun i hi => absurd hi List.not_mem_nil, hq⟩
      · rintro ⟨before, bad, after, heq, hbefore, hflaw⟩
        cases before with
        | nil =>
          cases heq
          cases hq.read.symm.trans hflaw.read
          rfl
        | cons i before =>
          cases heq
          obtain ⟨u, hu⟩ := isEntry_iff.mp (hbefore j List.mem_cons_self)
          cases hq.read.symm.trans (hu.read index)

/-! ### Updates -/

/-- Updates are valid exactly if no id is empty. -/
theorem validate_eq_ok_iff {us : Updates} : us.validate = .ok () ↔ "" ∉ us.ids := by
  rw [validate]
  split
  · next i hi =>
    obtain ⟨hlt, hempty, -⟩ := List.findIdx?_eq_some_iff_getElem.mp hi
    refine iff_of_false (fun h => nomatch h) fun hnot => hnot ?_
    rw [← eq_of_beq hempty]
    exact List.getElem_mem hlt
  · next hi =>
    refine iff_of_true rfl fun hmem => ?_
    cases List.findIdx?_eq_none_iff.mp hi "" hmem

/-- Updates that are not valid are refused for the first id that is empty. -/
theorem validate_eq_error_iff {us : Updates} : us.validate = .error p ↔
    ∃ before after, us.ids = before ++ "" :: after ∧ "" ∉ before ∧ p = .emptyId before.length := by
  rw [validate]
  constructor
  · intro h
    split at h
    · next i hi =>
      cases h
      obtain ⟨hlt, hempty, hbefore⟩ := List.findIdx?_eq_some_iff_getElem.mp hi
      refine ⟨us.ids.take i, us.ids.drop (i + 1), ?_, fun hmem => ?_, ?_⟩
      · rw [← eq_of_beq hempty, ← List.drop_eq_getElem_cons hlt, List.take_append_drop]
      · obtain ⟨k, hk, hvalue⟩ := List.mem_take_iff_getElem.mp hmem
        exact hbefore k (Nat.lt_of_lt_of_le hk (Nat.min_le_left ..)) (beq_iff_eq.mpr hvalue)
      · rw [List.length_take, Nat.min_eq_left (Nat.le_of_lt hlt)]
    · cases h
  · rintro ⟨before, after, hids, hbefore, rfl⟩
    have hnone : before.findIdx? (· == "") = none :=
      List.findIdx?_eq_none_iff.mpr fun id hid => beq_eq_false_iff_ne.mpr fun hempty =>
        hbefore (hempty ▸ hid)
    rw [hids, List.findIdx?_append, hnone, List.findIdx?_cons]
    simp

/-- An entry stands for an update whose id is not empty. -/
theorem ids_of_entries (h : List.Forall₂ Entry items us) : "" ∉ (Updates.list us).ids := by
  induction h with
  | nil => exact List.not_mem_nil
  | cons hu _ ih => exact List.not_mem_cons_of_ne_of_not_mem (Ne.symm hu.1) ih

theorem wellFormed_array_iff : WellFormed (.array items) ↔ ∃ us, List.Forall₂ Entry items us := by
  refine ⟨fun h => ?_, ?_⟩
  · cases hread : entries 0 items with
    | ok us => exact ⟨us, entries_eq_ok_iff.mp hread⟩
    | error p =>
      -- What is wrong would be wrong with one of the entries.
      obtain ⟨before, bad, after, rfl, -, hflaw⟩ := entries_eq_error_iff.mp hread
      obtain ⟨u, hu⟩ := isEntry_iff.mp (h bad (List.mem_append_right before List.mem_cons_self))
      cases hflaw.read.symm.trans (hu.read _)
  · rintro ⟨us, h⟩
    induction h with
    | nil => exact fun i hi => absurd hi List.not_mem_nil
    | cons hu _ ih => exact List.forall_mem_cons.mpr ⟨isEntry_iff.mpr ⟨_, hu⟩, ih⟩

/-- A list is read as the updates for which its entries stand. -/
theorem ofJson_array_eq_ok_iff {read : Updates} : ofJson (.array items) = .ok read ↔
    ∃ us, read = .list us ∧ List.Forall₂ Entry items us := by
  rw [ofJson]
  constructor
  · intro h
    cases hread : entries 0 items with
    | ok us =>
      rw [hread] at h
      exact ⟨us, (Except.ok.inj h).symm, entries_eq_ok_iff.mp hread⟩
    | error p =>
      rw [hread] at h
      cases h
  · rintro ⟨us, rfl, h⟩
    rw [entries_eq_ok_iff.mpr h]
    rfl

/-- A list is refused for what is wrong with the first that is no entry. -/
theorem ofJson_array_eq_error_iff : ofJson (.array items) = .error p ↔
    ∃ before bad after, items = before ++ bad :: after ∧ (∀ i ∈ before, IsEntry i) ∧
      Flaw before.length bad p := by
  have hentries : ofJson (.array items) = .error p ↔ entries 0 items = .error p := by
    rw [ofJson]
    cases entries 0 items with
    | ok us => exact iff_of_false (by rintro ⟨⟩) (by rintro ⟨⟩)
    | error q =>
      exact ⟨fun h => congrArg Except.error (Except.error.inj h),
        fun h => congrArg Except.error (Except.error.inj h)⟩
  simp only [hentries, entries_eq_error_iff, Nat.zero_add]

variable {fields : List (String × Json)}

theorem ids_map (fields : List (String × Json)) :
    (Updates.map (fields.map fun f => (f.1, .ofJson f.2))).ids = Keyed.keys fields :=
  Keyed.keys_map Value.ofJson fields

/-- A map is read as its entries, if no id is empty. -/
theorem ofJson_object_eq_ok_iff {read : Updates} : ofJson (.object fields) = .ok read ↔
    read = .map (fields.map fun f => (f.1, .ofJson f.2)) ∧ "" ∉ Keyed.keys fields := by
  rw [← ids_map, ← validate_eq_ok_iff, ofJson]
  cases (Updates.map (fields.map fun f => (f.1, .ofJson f.2))).validate with
  | ok u => exact ⟨fun h => ⟨(Except.ok.inj h).symm, rfl⟩, fun h => congrArg Except.ok h.1.symm⟩
  | error q => exact iff_of_false (by rintro ⟨⟩) (by rintro ⟨-, ⟨⟩⟩)

/-- A map is refused for the first id that is empty. -/
theorem ofJson_object_eq_error_iff : ofJson (.object fields) = .error p ↔
    ∃ before after, Keyed.keys fields = before ++ "" :: after ∧ "" ∉ before ∧
      p = .emptyId before.length := by
  rw [← ids_map, ← validate_eq_error_iff, ofJson]
  cases (Updates.map (fields.map fun f => (f.1, .ofJson f.2))).validate with
  | ok u => exact iff_of_false (by rintro ⟨⟩) (by rintro ⟨⟩)
  | error q =>
    exact ⟨fun h => congrArg Except.error (Except.error.inj h),
      fun h => congrArg Except.error (Except.error.inj h)⟩

theorem accepted_iff : (∃ read, ofJson j = .ok read) ↔ WellFormed j := by
  cases j with
  | array items =>
    rw [wellFormed_array_iff]
    simp only [ofJson_array_eq_ok_iff]
    exact ⟨fun ⟨_, us, _, h⟩ => ⟨us, h⟩, fun ⟨us, h⟩ => ⟨_, us, rfl, h⟩⟩
  | object fields =>
    simp only [ofJson_object_eq_ok_iff, exists_eq_left]
    exact Iff.rfl
  | _ => exact iff_of_false (by rintro ⟨_, ⟨⟩⟩) id

/-- What is read is valid, and lists the updates for which the JSON value stands. -/
theorem valid_of_ofJson {read : Updates} (h : ofJson j = .ok read) :
    read.validate = .ok () ∧ Lists j read.toList := by
  cases j with
  | array items =>
    obtain ⟨us, rfl, hus⟩ := ofJson_array_eq_ok_iff.mp h
    exact ⟨validate_eq_ok_iff.mpr (ids_of_entries hus), hus⟩
  | object fields =>
    obtain ⟨rfl, hids⟩ := ofJson_object_eq_ok_iff.mp h
    refine ⟨validate_eq_ok_iff.mpr ?_, List.map_map⟩
    rwa [ids_map]
  | _ => cases h

/-! ### Updates that are sent -/

/-- An update is sent as an entry that stands for it. -/
theorem entry_toJson (hid : u.id ≠ "") (hu : u.value.Plain) : Entry u.toJson u :=
  ⟨hid, rfl, u.value.toJson, rfl, hu.ofJson_toJson.symm⟩

theorem entries_toJson (hus : ∀ u ∈ us, u.id ≠ "" ∧ u.value.Plain) :
    List.Forall₂ Entry (us.map Update.toJson) us := by
  induction us with
  | nil => exact .nil
  | cons u us ih =>
    obtain ⟨⟨hid, hu⟩, hus⟩ := List.forall_mem_cons.mp hus
    exact .cons (entry_toJson hid hu) (ih hus)

/-- **Updates are accepted exactly if they are well formed.**

* They are accepted if and only if they are a list of entries, or a map in which no id is empty.
* What is accepted is valid, and lists the updates for which the JSON value stands: one for each
  entry and in the order of the entries, whether an id comes again or not.
* A list that is refused is refused for what is wrong with the first that is no entry, and a map for
  the first id that is empty.
* The updates of a batch save are accepted as the list that was sent, if no id is empty and the
  values are plain. -/
theorem accepted_iff_wellFormed (j : Json) :
    ((∃ read, ofJson j = .ok read) ↔ WellFormed j) ∧
    (∀ read, ofJson j = .ok read → read.validate = .ok () ∧ Lists j read.toList) ∧
    (∀ items p, j = .array items → (ofJson j = .error p ↔
      ∃ before bad after, items = before ++ bad :: after ∧ (∀ i ∈ before, IsEntry i) ∧
        Flaw before.length bad p)) ∧
    (∀ fields p, j = .object fields → (ofJson j = .error p ↔
      ∃ before after, Keyed.keys fields = before ++ "" :: after ∧ "" ∉ before ∧
        p = .emptyId before.length)) ∧
    ∀ us : List Update, (∀ u ∈ us, u.id ≠ "" ∧ u.value.Plain) →
      ∃ body, (batchBody us).get? "update" = some body ∧ ofJson body = .ok (.list us) := by
  refine ⟨accepted_iff, fun read => valid_of_ofJson, ?_, ?_, fun us hus => ?_⟩
  · rintro items p rfl
    exact ofJson_array_eq_error_iff
  · rintro fields p rfl
    exact ofJson_object_eq_error_iff
  · exact ⟨.array (us.map Update.toJson), rfl,
      ofJson_array_eq_ok_iff.mpr ⟨us, rfl, entries_toJson hus⟩⟩

/-- A list that names one id twice, once with null, and then has an entry without a value. -/
def unfinished : Json :=
  .array [.object [("id", .string "a"), ("value", .null)],
    .object [("value", .bool true), ("id", .string "a")], .object [("id", .string "b")]]

/-- The entry without a value is the first that is refused; what comes before it is accepted, and is
accepted again as it is sent. -/
theorem unfinished_is_refused :
    ofJson unfinished = .error (.noValue "b") ∧ ¬WellFormed unfinished ∧
    ∃ us, us = [⟨"a", .absent⟩, ⟨"a", .bool true⟩] ∧
      ofJson ((batchBody us).get? "update" |>.getD .null) = .ok (.list us) ∧
      ofJson (.object [("", .null)]) = .error (.emptyId 0) := by
  obtain ⟨haccepted, -, hlist, -, hsent⟩ := accepted_iff_wellFormed unfinished
  obtain ⟨-, -, -, hmap, -⟩ := accepted_iff_wellFormed (.object [("", .null)])
  have hfirst : IsEntry (.object [("id", .string "a"), ("value", .null)]) :=
    ⟨"a", .null, rfl, by decide, rfl⟩
  have hsecond : IsEntry (.object [("value", .bool true), ("id", .string "a")]) :=
    ⟨"a", .bool true, rfl, by decide, rfl⟩
  have hrefused : ofJson unfinished = .error (.noValue "b") := by
    refine (hlist _ _ rfl).mpr ⟨[_, _], _, [], rfl, ?_, .noValue rfl (by decide) rfl⟩
    exact List.forall_mem_cons.mpr ⟨hfirst, List.forall_mem_singleton.mpr hsecond⟩
  refine ⟨hrefused, fun h => ?_, _, rfl, ?_,
    (hmap _ _ rfl).mpr ⟨[], [], rfl, List.not_mem_nil, rfl⟩⟩
  · obtain ⟨read, hread⟩ := haccepted.mpr h
    cases hrefused.symm.trans hread
  · obtain ⟨body, hbody, hread⟩ := hsent [⟨"a", .absent⟩, ⟨"a", .bool true⟩] (by
      rintro u hu
      rcases List.mem_pair.mp hu with rfl | rfl
      · exact ⟨by decide, .null, rfl⟩
      · exact ⟨by decide, .bool true, rfl⟩)
    rw [hbody]
    exact hread

end RemoteSettings.Updates
