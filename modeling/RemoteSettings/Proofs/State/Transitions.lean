import RemoteSettings.Proofs.State.Reachable
import RemoteSettings.Proofs.State.View

/-!
# Actions follow the table

An action rebuilds parts, leaves groups out that have become empty, and spares itself changes that
would change nothing.  None of this can be seen: what can be looked up afterwards is what the table
of transitions says.  Only an edit that is equal to the one that stands there is not recorded, so
edits are compared as values.

## Main results

* `view_receiveSettings`, `view_setSaving`, `view_setError`, `view_revert`, `view_revertGroup` —
  actions that follow the table to the letter.
* `agrees_editAll` — edits follow it up to equality of values.
* `reduce_follows_table` — **every action follows the table and changes nothing else.**
-/

namespace RemoteSettings

theorem View.Agrees.of_eq {v w : View}
    (hproper : ∀ g id e, w.edit g id = some e → e.proper = true) (h : v = w) : v.Agrees w := by
  subst h
  refine ⟨rfl, fun _ _ => rfl, fun g id => ?_, fun _ _ => rfl, fun _ => rfl, fun _ _ => rfl⟩
  cases he : v.edit g id with
  | none => exact .none
  | some e => exact .some (Value.equals_self (hproper g id e he))

namespace State

variable {s : State}

/-! ### Actions that follow the table to the letter -/

theorem view_receiveSettings (hs : s.Kept) (now : Nat) (g : String) (xs : List Setting) :
    (s.reduce now (.receiveSettings g xs)).view = s.view.apply (.receiveSettings g xs) := by
  have hrest := View.sameBut_receiveAll s.view g xs
  apply View.ext
  · exact (hrest.groups nofun).symm
  · funext h id
    exact (setting?_receiveSettings s now g h xs id).trans
      (View.receiveAll_setting s.view g h id xs).symm
  · funext h id
    exact (edit?_receiveSettings hs xs id).trans (View.receiveAll_edit s.view g h id xs).symm
  · funext h key
    exact (error?_receiveSettings hs xs key).trans (View.receiveAll_error s.view g h key xs).symm
  · funext h
    exact (hrest.savingGroup h nofun).symm
  · funext h id
    exact (hrest.savingSetting h id nofun).symm

/-- A flag that stands already is set all the same. -/
theorem view_setSaving (s : State) (now : Nat) (g : String) (id : Option String) (saving : Bool) :
    (s.reduce now (.setSaving g id saving)).view = s.view.apply (.setSaving g id saving) := by
  cases id with
  | none =>
    rw [reduce]
    split
    · next hsame =>
      refine View.ext rfl rfl rfl rfl (funext fun h => ?_) rfl
      change s.savingGroups.value.get? h
        = if g = h then some saving else s.savingGroups.value.get? h
      split
      · next hg => rw [← hg, hsame]
      · rfl
    · refine View.ext rfl rfl rfl rfl (funext fun h => ?_) rfl
      exact Sorted.get?_put h g saving _
  | some id =>
    have hview : s.view.savingSetting = fun h x => (part s.savingSettings h).get? x := by
      funext h x
      exact (get?_part _ _ _).symm
    rw [reduce]
    split
    · next hsame =>
      refine View.ext rfl rfl rfl rfl rfl (funext fun h => funext fun x => ?_)
      change s.view.savingSetting h x = View.replace s.view.savingSetting g id (some saving) h x
      rw [hview, View.replace]
      split
      · next hboth =>
        rw [← hboth.1, ← hboth.2]
        exact hsame
      · rfl
    · refine View.ext rfl rfl rfl rfl rfl (funext fun h => funext fun x => ?_)
      refine (get?_part _ _ _).symm.trans ?_
      change _ = View.replace s.view.savingSetting g id (some saving) h x
      rw [hview, part_put, View.replace]
      by_cases hg : g = h
      · rw [if_pos hg, Keyed.get?_put, hg]
        simp [part]
      · rw [if_neg hg, if_neg fun hboth => hg hboth.1]

theorem view_setError (hs : s.Kept) (now : Nat) (g : String) (id : Option String)
    (error : Option Failure) :
    (s.reduce now (.setError g id error)).view = s.view.apply (.setError g id error) := by
  cases error with
  | some e =>
    have herror : (s.reduce now (.setError g id (some e))).error?
        = View.replace s.view.error g (errorKey id) (some e) := by
      funext h key
      exact error?_setError hs id e key
    cases id <;> exact View.ext rfl rfl rfl herror rfl rfl
  | none =>
    cases id with
    | none =>
      refine View.ext rfl rfl rfl (funext fun h => funext fun key => ?_) rfl rfl
      change error? _ h key = View.clear s.error? g h key
      rw [error?_eq, View.clear, error?_eq]
      exact get?_part_dropGroup hs.errors key
    | some id =>
      refine View.ext rfl rfl rfl (funext fun h => funext fun key => ?_) rfl rfl
      change error? _ h key = View.replace s.error? g (.setting id) none h key
      rw [error?_eq, View.replace, error?_eq]
      exact get?_part_remove hs.errors (.setting id) key

theorem view_revert (hs : s.Kept) (now : Nat) (g id : String) :
    (s.reduce now (.revert g id)).view = s.view.apply (.revert g id) := by
  refine View.ext rfl rfl ?_ ?_ rfl rfl
  · funext h x
    exact edit?_revert hs g h id x
  · funext h key
    change error? _ h key = View.replace s.error? g (.setting id) none h key
    rw [error?_eq, View.replace, error?_eq]
    exact get?_part_remove hs.errors (.setting id) key

theorem view_revertGroup (hs : s.Kept) (now : Nat) (g : String) :
    (s.reduce now (.revertGroup g)).view = s.view.apply (.revertGroup g) := by
  refine View.ext rfl rfl ?_ ?_ rfl rfl
  · funext h x
    exact edit?_revertGroup hs g h x
  · funext h key
    change error? _ h key = View.clear s.error? g h key
    rw [error?_eq, View.clear, error?_eq]
    exact get?_part_dropGroup hs.errors key

/-! ### Edits -/

/-- One edit is a list of one edit. -/
theorem reduce_edit (s : State) (now : Nat) (g id : String) (value : Value) :
    s.reduce now (.edit g id value) = s.reduce now (.editAll g [⟨id, value⟩]) := by
  have hchange : ∀ reported, applyEdit reported id value = applyEdits reported [⟨id, value⟩] := by
    intro reported
    funext m
    simp [applyEdits]
  rw [reduce, hchange, reduce]

/-- What is left of an edit is what the table says, up to equality of values. -/
theorem rel_remainingEdit {reported : Option GroupSettings} {id : String} {value : Value}
    (hvalue : value.proper = true) (old : Option Value) :
    Option.Rel (fun a b => (a == b) = true) (remainingEdit reported id value old)
      (if isReported reported id value then none else some value) := by
  rw [remainingEdit]
  split
  · exact .none
  · split
    · next hold =>
      cases old with
      | none => cases hold
      | some e => exact .some hold
    · exact .some (Value.equals_self hvalue)

/-- Edits that agree with the table before edits are recorded agree with it afterwards. -/
theorem agrees_applyEdits {reported : Option GroupSettings} {g : String} {us : List Update}
    {m : Keyed String Value} {v : View} (hm : m.keys.Nodup)
    (hproper : ∀ u ∈ us, u.value.proper = true)
    (hreported : ∀ id value,
      isReported reported id value = (v.setting g id).any (·.value.equals value))
    (h : ∀ x, Option.Rel (fun a b => (a == b) = true) (m.get? x) (v.edit g x)) (x : String) :
    Option.Rel (fun a b => (a == b) = true) ((applyEdits reported us m).1.get? x)
      ((v.recordAll g us).edit g x) := by
  induction us generalizing m v with
  | nil => exact h x
  | cons u us ih =>
    have hstep : ∀ y, Option.Rel (fun a b => (a == b) = true)
        ((applyEdit reported u.id u.value m).1.get? y)
        ((v.recordEdit g u.id u.value).edit g y) := by
      intro y
      change Option.Rel _ _ (View.replace v.edit g u.id _ g y)
      rw [get?_applyEdit hm, View.replace, ← hreported]
      by_cases hy : u.id = y
      · rw [if_pos hy, if_pos ⟨rfl, hy⟩]
        exact rel_remainingEdit (hproper u List.mem_cons_self) _
      · rw [if_neg hy, if_neg fun hboth => hy hboth.2]
        exact h y
    have hlater : ∀ w ∈ us, w.value.proper = true :=
      fun w hw => hproper w (List.mem_cons_of_mem u hw)
    exact ih (nodup_keys_applyEdit hm) hlater hreported hstep

/-- What edits make of an edit follows the table, up to equality of values. -/
theorem rel_editAll (hs : s.Kept)
    (hproper : ∀ g id e, s.edit? g id = some e → e.proper = true) (now : Nat) (g : String)
    {us : List Update} (hus : ∀ u ∈ us, u.value.proper = true) (h x : String) :
    Option.Rel (fun a b => (a == b) = true) ((s.reduce now (.editAll g us)).edit? h x)
      ((s.view.recordAll g us).edit h x) := by
  have hself : s.view.Agrees s.view := .of_eq hproper rfl
  rw [edit?_editAll hs]
  split
  · next hg =>
    subst hg
    refine agrees_applyEdits (hs.edits.distinct g) hus ?_ ?_ x
    · intro id value
      rw [isReported_of_setting?]
      change _ = ((s.setting? g id).map (·.value)).any _
      rw [Option.any_map]
    · intro y
      rw [← edit?_eq]
      exact hself.edit g y
  · next hg =>
    have hsame : (s.view.recordAll g us).edit h x = s.edit? h x := by
      refine (View.sameBut_recordAll s.view g us).edit h x fun hnamed => ?_
      cases hnamed
      exact hg rfl
    rw [hsame]
    exact hself.edit h x

/-- **Edits follow the table**, up to equality of values. -/
theorem agrees_editAll (hs : s.Kept) (hproper : s.Proper) (now : Nat) (g : String)
    {us : List Update} (hus : ∀ u ∈ us, u.value.proper = true) :
    (s.reduce now (.editAll g us)).view.Agrees (s.view.apply (.editAll g us)) := by
  have hrest := View.sameBut_recordAll s.view g us
  exact ⟨(hrest.groups nofun).symm, fun h id => (hrest.setting h id nofun).symm,
    rel_editAll hs hproper.edits now g hus, fun h key => (hrest.error h key nofun).symm,
    fun h => (hrest.savingGroup h nofun).symm, fun h id => (hrest.savingSetting h id nofun).symm⟩

/-- Edits change no look-up of a setting that they do not name. -/
theorem sameBut_editAll (hs : s.Kept) (now : Nat) (g : String) (us : List Update) :
    s.view.SameBut (Action.editAll g us).Names (s.reduce now (.editAll g us)).view := by
  refine { View.SameBut.refl _ s.view with edit := ?_ }
  intro h x hnot
  change (s.reduce now (.editAll g us)).edit? h x = s.edit? h x
  rw [edit?_editAll hs]
  split
  · next hg =>
    subst hg
    rw [get?_applyEdits_of_not_mem (fun hx => hnot (.editAll hx)) (hs.edits.distinct g), edit?_eq]
  · rfl

/-! ### The whole table -/

/-- An action whose outcome is the one of the table follows it and changes nothing else. -/
theorem follows_of_view_eq {now : Nat} {a : Action} (hs : (s.reduce now a).Proper)
    (h : (s.reduce now a).view = s.view.apply a) :
    (s.reduce now a).view.Agrees (s.view.apply a) ∧
      s.view.SameBut a.Names (s.reduce now a).view := by
  rw [h]
  refine ⟨.of_eq ?_ rfl, s.view.sameBut_apply a⟩
  rw [← h]
  exact hs.edits

/-- **Actions follow the table.**  What can be looked up after an action on a reachable state is
what the table says, edits being compared as values, and what the action is not about is as it was.
In particular, once settings are reported, the last one under each id is there and has neither edit
nor error; the errors of groups and all other edits stay. -/
theorem reduce_follows_table (hs : s.Reachable) (now : Nat) {a : Action} (ha : a.proper = true) :
    (s.reduce now a).view.Agrees (s.view.apply a) ∧
      s.view.SameBut a.Names (s.reduce now a).view ∧
      ∀ g xs, a = .receiveSettings g xs →
        (∀ id ∈ xs.map (·.id),
          (∃ x, xs.findRev? (·.id == id) = some x ∧
            (s.reduce now a).view.setting g id = some x) ∧
          (s.reduce now a).view.edit g id = none ∧
          (s.reduce now a).view.error g (.setting id) = none) ∧
        (∀ h, (s.reduce now a).view.error h .all = s.view.error h .all) ∧
        ∀ h id, ¬(g = h ∧ id ∈ xs.map (·.id)) →
          (s.reduce now a).view.edit h id = s.view.edit h id := by
  have hkept := hs.kept
  have hproper := (hs.reduce now ha).proper
  have hfollows : (s.reduce now a).view.Agrees (s.view.apply a) ∧
      s.view.SameBut a.Names (s.reduce now a).view := by
    cases a with
    | receiveGroups groups => exact follows_of_view_eq hproper rfl
    | receiveSettings g xs =>
      exact follows_of_view_eq hproper (view_receiveSettings hkept now g xs)
    | edit g id value =>
      rw [reduce_edit]
      have hus : ∀ u ∈ [(⟨id, value⟩ : Update)], u.value.proper = true := by
        intro u hu
        rw [List.mem_singleton.mp hu]
        exact ha
      refine ⟨agrees_editAll hkept hs.proper now g hus, ?_⟩
      have hsame := sameBut_editAll hkept now g [⟨id, value⟩]
      refine { View.SameBut.refl _ s.view with edit := fun h x hnot => hsame.edit h x ?_ }
      intro hnamed
      cases hnamed with
      | editAll hx => exact hnot (List.mem_singleton.mp hx ▸ .edit)
    | editAll g us =>
      have hus : ∀ u ∈ us, u.value.proper = true := List.all_eq_true.mp ha
      exact ⟨agrees_editAll hkept hs.proper now g hus, sameBut_editAll hkept now g us⟩
    | setSaving g id saving => exact follows_of_view_eq hproper (view_setSaving s now g id saving)
    | setError g id error => exact follows_of_view_eq hproper (view_setError hkept now g id error)
    | revert g id => exact follows_of_view_eq hproper (view_revert hkept now g id)
    | revertGroup g => exact follows_of_view_eq hproper (view_revertGroup hkept now g)
  refine ⟨hfollows.1, hfollows.2, ?_⟩
  rintro g xs rfl
  rw [view_receiveSettings hkept]
  refine ⟨fun id hid => ⟨?_, ?_, ?_⟩, fun h => ?_, fun h id hnot => ?_⟩
  · obtain ⟨x, hx⟩ := exists_findRev?_of_mem hid
    refine ⟨x, hx, ?_⟩
    exact (View.receiveAll_setting s.view g g id xs).trans (by rw [if_pos rfl, hx, Option.some_or])
  · exact (View.receiveAll_edit s.view g g id xs).trans (if_pos ⟨rfl, hid⟩)
  · refine (View.receiveAll_error s.view g g (.setting id) xs).trans (if_pos ⟨rfl, ?_⟩)
    obtain ⟨x, hx, rfl⟩ := List.mem_map.mp hid
    exact List.mem_map.mpr ⟨x, hx, rfl⟩
  · refine (View.receiveAll_error s.view g h .all xs).trans (if_neg ?_)
    simp
  · exact (View.receiveAll_edit s.view g h id xs).trans (if_neg hnot)

/-- Two objects with the same fields. -/
def twoFields : Value := .other (.object [("x", .null), ("y", .null)])

@[inherit_doc twoFields]
def turnedFields : Value := .other (.object [("y", .null), ("x", .null)])

/-- One setting is asked for twice, with equal objects, and another to be what is reported. -/
def equalEdits : Action :=
  .editAll "g" [⟨"b", twoFields⟩, ⟨"b", turnedFields⟩, ⟨"a", wholeOne⟩]

/-- Of two equal objects the first is kept where the table has the second, and the edit that is
equal to what is reported is gone; of two reports of a setting the second counts. -/
theorem twiceEdited_follows_table :
    (twiceEdited.reduce 4 equalEdits).edit? "g" "b" = some twoFields ∧
      (twiceEdited.view.apply equalEdits).edit "g" "b" = some turnedFields ∧
      (twiceEdited.reduce 4 equalEdits).edit? "g" "a" = none ∧
      (twiceEdited.reduce 4 equalEdits).view.Agrees (twiceEdited.view.apply equalEdits) ∧
      twiceEdited.view.SameBut equalEdits.Names (twiceEdited.reduce 4 equalEdits).view ∧
      (∃ x, [{ id := "a", value := .bool false }, { id := "a", value := .text "y" }].findRev?
          (fun x : Setting => x.id == "a") = some x ∧
        (twiceEdited.reduce 4 (.receiveSettings "g"
          [{ id := "a", value := .bool false }, { id := "a", value := .text "y" }])).view.setting
            "g" "a" = some x) := by
  obtain ⟨hagrees, hframe, -⟩ :=
    reduce_follows_table reachable_twiceEdited 4 (a := equalEdits) rfl
  obtain ⟨-, -, hreported⟩ := reduce_follows_table reachable_twiceEdited 4
    (a := .receiveSettings "g"
      [{ id := "a", value := .bool false }, { id := "a", value := .text "y" }]) rfl
  exact ⟨rfl, rfl, rfl, hagrees, hframe, ((hreported "g" _ rfl).1 "a" (by decide)).1⟩

end State

end RemoteSettings
