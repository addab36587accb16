import RemoteSettings.Proofs.State.Lookup

/-!
# The table of transitions

What an action does, said of what can be looked up in a state and of nothing else: neither how the
entries are kept nor in which order, and without the ways by which an action spares itself a change.

## Main definitions

* `View`, `State.view` — what can be looked up.
* `View.apply` — the table: what can be looked up after an action.
* `View.Agrees` — two views are the same, edits being compared as values.
* `Lookup`, `Action.Names` — the look-ups, and those that an action is about.
* `View.SameBut` — two views are the same but for some look-ups.

## Main results

* `View.receiveAll_setting`, `View.receiveAll_edit`, `View.receiveAll_error` — settings that are
  reported one after another.
* `View.sameBut_apply` — the table changes only what an action is about.
-/

namespace RemoteSettings

/-- What can be looked up in a state. -/
@[ext]
structure View where
  groups : List Group
  setting : String → String → Option Setting
  edit : String → String → Option Value
  error : String → ErrorKey → Option Failure
  savingGroup : String → Option Bool
  savingSetting : String → String → Option Bool

/-- What can be looked up in the state. -/
def State.view (s : State) : View where
  groups := s.groups.value
  setting g id := (s.setting? g id).map (·.value)
  edit := s.edit?
  error := s.error?
  savingGroup g := s.savingGroups.value.get? g
  savingSetting g id := (s.savingSettings.value.get? g).bind fun flags => flags.value.get? id

namespace View

section Tables

variable {κ α : Type} [DecidableEq κ]

/-- A table after the entry of a group and a key has been replaced. -/
def replace (f : String → κ → Option α) (g : String) (k : κ) (a : Option α) :
    String → κ → Option α :=
  fun h x => if g = h ∧ k = x then a else f h x

/-- A table after all entries of a group have been taken away. -/
def clear (f : String → κ → Option α) (g : String) : String → κ → Option α :=
  fun h x => if g = h then none else f h x

end Tables

/-- A setting that is reported takes the place of the one before, and has neither edit nor error. -/
def receive (v : View) (g : String) (x : Setting) : View :=
  { v with
    setting := replace v.setting g x.id (some x)
    edit := replace v.edit g x.id none
    error := replace v.error g (.setting x.id) none }

/-- A value that is asked for becomes the edit, or takes the edit away if it is equal to the value
that was reported. -/
def recordEdit (v : View) (g id : String) (value : Value) : View :=
  { v with
    edit := replace v.edit g id
      (if (v.setting g id).any (·.value.equals value) then none else some value) }

/-- Settings that are reported one after another. -/
def receiveAll (g : String) (xs : List Setting) (v : View) : View :=
  xs.foldl (fun v x => v.receive g x) v

/-- Values that are asked for one after another. -/
def recordAll (g : String) (us : List Update) (v : View) : View :=
  us.foldl (fun v u => v.recordEdit g u.id u.value) v

/-- The table of transitions. -/
def apply (v : View) : Action → View
  | .receiveGroups groups => { v with groups }
  | .receiveSettings g xs => v.receiveAll g xs
  | .edit g id value => v.recordEdit g id value
  | .editAll g us => v.recordAll g us
  | .setSaving g none saving =>
    { v with savingGroup := fun h => if g = h then some saving else v.savingGroup h }
  | .setSaving g (some id) saving =>
    { v with savingSetting := replace v.savingSetting g id (some saving) }
  | .setError g none none => { v with error := clear v.error g }
  | .setError g none (some e) => { v with error := replace v.error g .all (some e) }
  | .setError g (some id) e => { v with error := replace v.error g (.setting id) e }
  | .revert g id =>
    { v with
      edit := replace v.edit g id none
      error := replace v.error g (.setting id) none }
  | .revertGroup g =>
    { v with
      edit := clear v.edit g
      error := clear v.error g }

/-- Two views are the same, edits being compared as values. -/
structure Agrees (v w : View) : Prop where
  groups : v.groups = w.groups
  setting : ∀ g id, v.setting g id = w.setting g id
  edit : ∀ g id, Option.Rel (fun a b => (a == b) = true) (v.edit g id) (w.edit g id)
  error : ∀ g key, v.error g key = w.error g key
  savingGroup : ∀ g, v.savingGroup g = w.savingGroup g
  savingSetting : ∀ g id, v.savingSetting g id = w.savingSetting g id

end View

/-! ### What an action is about -/

/-- What can be looked up. -/
inductive Lookup
  | groups
  | setting (group id : String)
  | edit (group id : String)
  | error (group : String) (key : ErrorKey)
  | savingGroup (group : String)
  | savingSetting (group id : String)

/-- The look-ups that an action is about. -/
inductive Action.Names : Action → Lookup → Prop
  | groups {gs : List Group} : Names (.receiveGroups gs) .groups
  | received {g id : String} {xs : List Setting} : id ∈ xs.map (·.id) →
      Names (.receiveSettings g xs) (.setting g id)
  | receivedEdit {g id : String} {xs : List Setting} : id ∈ xs.map (·.id) →
      Names (.receiveSettings g xs) (.edit g id)
  | receivedError {g id : String} {xs : List Setting} : id ∈ xs.map (·.id) →
      Names (.receiveSettings g xs) (.error g (.setting id))
  | edit {g id : String} {value : Value} : Names (.edit g id value) (.edit g id)
  | editAll {g id : String} {us : List Update} : id ∈ us.map (·.id) →
      Names (.editAll g us) (.edit g id)
  | savingGroup {g : String} {saving : Bool} : Names (.setSaving g none saving) (.savingGroup g)
  | savingSetting {g id : String} {saving : Bool} :
      Names (.setSaving g (some id) saving) (.savingSetting g id)
  | clearErrors {g : String} {key : ErrorKey} : Names (.setError g none none) (.error g key)
  | groupError {g : String} {e : Failure} : Names (.setError g none (some e)) (.error g .all)
  | settingError {g id : String} {e : Option Failure} :
      Names (.setError g (some id) e) (.error g (.setting id))
  | revertEdit {g id : String} : Names (.revert g id) (.edit g id)
  | revertError {g id : String} : Names (.revert g id) (.error g (.setting id))
  | revertEdits {g id : String} : Names (.revertGroup g) (.edit g id)
  | revertErrors {g : String} {key : ErrorKey} : Names (.revertGroup g) (.error g key)

namespace View

variable {v w : View} {named : Lookup → Prop} {g h : String}

/-- Two views are the same but for some look-ups. -/
structure SameBut (named : Lookup → Prop) (v w : View) : Prop where
  groups : ¬named .groups → w.groups = v.groups
  setting : ∀ g id, ¬named (.setting g id) → w.setting g id = v.setting g id
  edit : ∀ g id, ¬named (.edit g id) → w.edit g id = v.edit g id
  error : ∀ g key, ¬named (.error g key) → w.error g key = v.error g key
  savingGroup : ∀ g, ¬named (.savingGroup g) → w.savingGroup g = v.savingGroup g
  savingSetting : ∀ g id, ¬named (.savingSetting g id) → w.savingSetting g id = v.savingSetting g id

theorem SameBut.refl (named : Lookup → Prop) (v : View) : SameBut named v v where
  groups _ := rfl
  setting _ _ _ := rfl
  edit _ _ _ := rfl
  error _ _ _ := rfl
  savingGroup _ _ := rfl
  savingSetting _ _ _ := rfl

theorem SameBut.trans {u : View} (huv : SameBut named u v) (hvw : SameBut named v w) :
    SameBut named u w where
  groups h := (hvw.groups h).trans (huv.groups h)
  setting g id h := (hvw.setting g id h).trans (huv.setting g id h)
  edit g id h := (hvw.edit g id h).trans (huv.edit g id h)
  error g key h := (hvw.error g key h).trans (huv.error g key h)
  savingGroup g h := (hvw.savingGroup g h).trans (huv.savingGroup g h)
  savingSetting g id h := (hvw.savingSetting g id h).trans (huv.savingSetting g id h)

/-! ### The table changes what an action is about -/

/-- What no step of a list changes, the list does not change. -/
theorem sameBut_foldl {β : Type} {step : View → β → View} {xs : List β}
    (hstep : ∀ x ∈ xs, ∀ v, SameBut named v (step v x)) (v : View) :
    SameBut named v (xs.foldl step v) := by
  induction xs generalizing v with
  | nil => exact SameBut.refl named v
  | cons x xs ih =>
    have hfirst := hstep x List.mem_cons_self v
    exact hfirst.trans (ih (fun y hy => hstep y (List.mem_cons_of_mem x hy)) (step v x))

theorem sameBut_receive {x : Setting} (hsetting : named (.setting g x.id))
    (hedit : named (.edit g x.id)) (herror : named (.error g (.setting x.id))) (v : View) :
    SameBut named v (v.receive g x) :=
  { SameBut.refl named v with
    setting := by
      intro h id hnot
      refine if_neg ?_
      rintro ⟨rfl, rfl⟩
      exact hnot hsetting
    edit := by
      intro h id hnot
      refine if_neg ?_
      rintro ⟨rfl, rfl⟩
      exact hnot hedit
    error := by
      intro h key hnot
      refine if_neg ?_
      rintro ⟨rfl, rfl⟩
      exact hnot herror }

theorem sameBut_recordEdit {id : String} (hedit : named (.edit g id)) (value : Value) (v : View) :
    SameBut named v (v.recordEdit g id value) :=
  { SameBut.refl named v with
    edit := by
      intro h x hnot
      refine if_neg ?_
      rintro ⟨rfl, rfl⟩
      exact hnot hedit }

theorem sameBut_receiveAll (v : View) (g : String) (xs : List Setting) :
    SameBut (Action.receiveSettings g xs).Names v (v.receiveAll g xs) := by
  refine sameBut_foldl (fun x hx v => ?_) v
  have hid : x.id ∈ xs.map (·.id) := List.mem_map_of_mem hx
  exact sameBut_receive (.received hid) (.receivedEdit hid) (.receivedError hid) v

theorem sameBut_recordAll (v : View) (g : String) (us : List Update) :
    SameBut (Action.editAll g us).Names v (v.recordAll g us) := by
  refine sameBut_foldl (fun u hu v => ?_) v
  have hid : u.id ∈ us.map (·.id) := List.mem_map_of_mem hu
  exact sameBut_recordEdit (.editAll hid) u.value v

/-- **The table changes only what an action is about.** -/
theorem sameBut_apply (v : View) (a : Action) : v.SameBut a.Names (v.apply a) := by
  have hrefl := SameBut.refl a.Names v
  cases a with
  | receiveGroups groups => exact { hrefl with groups := fun hnot => absurd .groups hnot }
  | receiveSettings g xs => exact sameBut_receiveAll v g xs
  | edit g id value => exact sameBut_recordEdit .edit value v
  | editAll g us => exact sameBut_recordAll v g us
  | setSaving g id saving =>
    cases id with
    | none =>
      refine { hrefl with savingGroup := fun h hnot => if_neg ?_ }
      rintro rfl
      exact hnot .savingGroup
    | some id =>
      refine { hrefl with savingSetting := fun h x hnot => if_neg ?_ }
      rintro ⟨rfl, rfl⟩
      exact hnot .savingSetting
  | setError g id error =>
    cases id with
    | none =>
      cases error with
      | none =>
        refine { hrefl with error := fun h key hnot => if_neg ?_ }
        rintro rfl
        exact hnot .clearErrors
      | some e =>
        refine { hrefl with error := fun h key hnot => if_neg ?_ }
        rintro ⟨rfl, rfl⟩
        exact hnot .groupError
    | some id =>
      refine { hrefl with error := fun h key hnot => if_neg ?_ }
      rintro ⟨rfl, rfl⟩
      exact hnot .settingError
  | revert g id =>
    refine { hrefl with
      edit := fun h x hnot => if_neg ?_
      error := fun h key hnot => if_neg ?_ }
    · rintro ⟨rfl, rfl⟩
      exact hnot .revertEdit
    · rintro ⟨rfl, rfl⟩
      exact hnot .revertError
  | revertGroup g =>
    refine { hrefl with
      edit := fun h x hnot => if_neg ?_
      error := fun h key hnot => if_neg ?_ }
    · rintro rfl
      exact hnot .revertEdits
    · rintro rfl
      exact hnot .revertErrors

/-! ### Settings that are reported one after another -/

/-- The last setting that is reported under an id takes the place of any other. -/
theorem receiveAll_setting (v : View) (g h id : String) (xs : List Setting) :
    (v.receiveAll g xs).setting h id
      = if g = h then (xs.findRev? (·.id == id)).or (v.setting h id) else v.setting h id := by
  induction xs generalizing v with
  | nil =>
    rw [List.findRev?, Option.none_or, ite_self]
    rfl
  | cons x xs ih =>
    have hfirst : (v.receive g x).setting h id
        = if g = h ∧ x.id = id then some x else v.setting h id := rfl
    refine (ih (v.receive g x)).trans ?_
    rw [State.findRev?_cons, hfirst, Option.or_assoc]
    by_cases hg : g = h <;> by_cases hid : x.id = id <;> simp [hg, hid]

/-- Settings that are reported have no edits any more. -/
theorem receiveAll_edit (v : View) (g h id : String) (xs : List Setting) :
    (v.receiveAll g xs).edit h id
      = if g = h ∧ id ∈ xs.map (·.id) then none else v.edit h id := by
  induction xs generalizing v with
  | nil => simp [receiveAll]
  | cons x xs ih =>
    have hfirst : (v.receive g x).edit h id
        = if g = h ∧ x.id = id then none else v.edit h id := rfl
    refine (ih (v.receive g x)).trans ?_
    rw [hfirst]
    by_cases hg : g = h <;> by_cases hid : x.id = id <;> simp [hg, hid, eq_comm (a := id)]

/-- Settings that are reported have no errors any more. -/
theorem receiveAll_error (v : View) (g h : String) (key : ErrorKey) (xs : List Setting) :
    (v.receiveAll g xs).error h key
      = if g = h ∧ key ∈ xs.map (fun x => .setting x.id) then none else v.error h key := by
  induction xs generalizing v with
  | nil => simp [receiveAll]
  | cons x xs ih =>
    have hfirst : (v.receive g x).error h key
        = if g = h ∧ .setting x.id = key then none else v.error h key := rfl
    refine (ih (v.receive g x)).trans ?_
    rw [hfirst]
    by_cases hg : g = h <;> by_cases hid : ErrorKey.setting x.id = key <;>
      simp [hg, hid, eq_comm (a := key)]

end View

end RemoteSettings
