import RemoteSettings.Proofs.Equality
import RemoteSettings.Proofs.State.Kept

/-!
# What actions do to edits

An edit is compared with the reported value when it is recorded: an equal one takes the place of any
other and is itself none.  An edit that is equal to the one that stands there changes nothing, so
what stands there may differ from what was asked for, but not in value.

## Main definitions

* `State.isReported` — a value is equal to the reported one.
* `State.remainingEdit` — the edit that is left once a value has been asked for.
* `Action.Edits` — an action asks for a value.

## Main results

* `get?_applyEdit`, `get?_applyEdits_of_not_mem` — the edits after edits are recorded.
* `edit?_edit`, `edit?_revert`, `edit?_revertGroup` — what can be looked up after an action.
* `edit?_reduce_cases` — **an edit was there before, or has just been asked for and differs from
  what was reported.**
-/

namespace RemoteSettings

/-- An action asks for a value of a setting. -/
inductive Action.Edits (group id : String) (value : Value) : Action → Prop
  | edit : Edits group id value (.edit group id value)
  | editAll {us : List Update} : ⟨id, value⟩ ∈ us → Edits group id value (.editAll group us)

namespace State

/-! ### Recording edits -/

variable {reported : Option GroupSettings} {m : Keyed String Value}

/-- Whether a value is equal to the one that was reported. -/
def isReported (reported : Option GroupSettings) (id : String) (value : Value) : Bool :=
  (reported.bind fun g => g.value.get? id).any (·.value.value.equals value)

theorem isReported_eq (reported : Option GroupSettings) (id : String) (value : Value) :
    (((reported.bind fun g => g.value.get? id).map (·.value.value)) == some value)
      = isReported reported id value := by
  rw [isReported]
  cases reported.bind fun g => g.value.get? id <;> rfl

/-- The edit that is left once a value has been asked for: none if it is the reported one, the edit
that was there if it is equal, and else the value. -/
def remainingEdit (reported : Option GroupSettings) (id : String) (value : Value)
    (old : Option Value) : Option Value :=
  if isReported reported id value then none
  else if old == some value then old
  else some value

/-- An edit of one setting changes that of no other. -/
theorem get?_applyEdit (hm : m.keys.Nodup) (id x : String) (value : Value) :
    (applyEdit reported id value m).1.get? x
      = if id = x then remainingEdit reported id value (m.get? id) else m.get? x := by
  rw [applyEdit, isReported_eq, remainingEdit]
  split
  · rw [remove, Keyed.get?_erase hm]
  · split
    · split
      · next hid => rw [hid]
      · rfl
    · rw [record, Keyed.get?_put]

theorem get?_applyEdits_of_not_mem {us : List Update} {x : String} (hx : x ∉ us.map (·.id))
    (hm : m.keys.Nodup) : (applyEdits reported us m).1.get? x = m.get? x := by
  induction us generalizing m with
  | nil => rfl
  | cons u us ih =>
    rw [List.map_cons, List.mem_cons, not_or] at hx
    rw [applyEdits]
    dsimp only
    rw [ih hx.2 (nodup_keys_applyEdit hm), get?_applyEdit hm, if_neg (Ne.symm hx.1)]

theorem faithful_applyEdit (id : String) (value : Value) :
    Faithful (applyEdit reported id value) := by
  intro m hm
  rw [applyEdit] at hm ⊢
  split
  · next hreported =>
    rw [if_pos hreported] at hm
    exact faithful_remove id m hm
  · next hreported =>
    rw [if_neg hreported] at hm
    split
    · rfl
    · next hnew =>
      rw [if_neg hnew] at hm
      exact faithful_record id value m hm

theorem faithful_applyEdits (us : List Update) : Faithful (applyEdits reported us) := by
  induction us with
  | nil => exact fun _ _ => rfl
  | cons u us ih =>
    intro m hm
    obtain ⟨hfirst, hmore⟩ : (applyEdit reported u.id u.value m).2 = false ∧
        (applyEdits reported us (applyEdit reported u.id u.value m).1).2 = false :=
      Bool.or_eq_false_iff.mp hm
    exact (ih _ hmore).trans (faithful_applyEdit u.id u.value m hfirst)

/-! ### Where edits come from -/

/-- What is left is the edit that was there, or the value, and that is not the reported one. -/
theorem remainingEdit_eq_some {id : String} {value e : Value} {old : Option Value}
    (h : remainingEdit reported id value old = some e) :
    old = some e ∨ e = value ∧ isReported reported id e = false := by
  unfold remainingEdit at h
  split at h
  · cases h
  · next hnot =>
    split at h
    · exact Or.inl h
    · cases h
      exact Or.inr ⟨rfl, Bool.eq_false_iff.mpr hnot⟩

theorem get?_applyEdits_eq_some {us : List Update} {x : String} {e : Value} (hm : m.keys.Nodup)
    (h : (applyEdits reported us m).1.get? x = some e) :
    m.get? x = some e ∨ ⟨x, e⟩ ∈ us ∧ isReported reported x e = false := by
  induction us generalizing m with
  | nil => exact Or.inl h
  | cons u us ih =>
    rcases ih (nodup_keys_applyEdit hm) h with hone | ⟨hmem, hnot⟩
    · rw [get?_applyEdit hm] at hone
      split at hone
      · next hx =>
        subst hx
        rcases remainingEdit_eq_some hone with hold | ⟨rfl, hnot⟩
        · exact Or.inl hold
        · exact Or.inr ⟨List.mem_cons_self, hnot⟩
      · exact Or.inl hone
    · exact Or.inr ⟨List.mem_cons_of_mem u hmem, hnot⟩

/-! ### Look-ups after actions -/

variable {s : State} {now : Nat} {g h id : String}

theorem edit?_edit (hs : s.Kept) (g h id x : String) (value : Value) :
    (s.reduce now (.edit g id value)).edit? h x
      = if g = h ∧ id = x then remainingEdit (s.settings.value.get? g) id value (s.edit? g id)
        else s.edit? h x := by
  rw [edit?_eq, edit?_eq, edit?_eq]
  exact get?_part_updateGroup hs.edits.ordered (faithful_applyEdit id value)
    (get?_applyEdit (hs.edits.distinct g) id x value)

theorem edit?_editAll (hs : s.Kept) (g h x : String) (us : List Update) :
    (s.reduce now (.editAll g us)).edit? h x
      = if g = h then ((applyEdits (s.settings.value.get? g) us (part s.edits g)).1).get? x
        else s.edit? h x := by
  rw [edit?_eq, edit?_eq, reduce]
  dsimp only
  rw [part_updateGroup hs.edits.ordered (faithful_applyEdits us)]
  split <;> rfl

theorem edit?_revert (hs : s.Kept) (g h id x : String) :
    (s.reduce now (.revert g id)).edit? h x
      = if g = h ∧ id = x then none else s.edit? h x := by
  rw [edit?_eq, edit?_eq]
  exact get?_part_remove hs.edits id x

theorem edit?_revertGroup (hs : s.Kept) (g h x : String) :
    (s.reduce now (.revertGroup g)).edit? h x = if g = h then none else s.edit? h x := by
  rw [edit?_eq, edit?_eq]
  exact get?_part_dropGroup hs.edits x

theorem edits_setSaving (s : State) (now : Nat) (g : String) (id : Option String) (saving : Bool) :
    (s.reduce now (.setSaving g id saving)).edits = s.edits := by
  cases id with
  | none =>
    rw [reduce]
    split <;> rfl
  | some id =>
    rw [reduce]
    split <;> rfl

theorem edits_setError (s : State) (now : Nat) (g : String) (id : Option String)
    (error : Option Failure) : (s.reduce now (.setError g id error)).edits = s.edits := by
  cases id <;> cases error <;> rfl

/-- Whether a value is equal to the reported one, said of the state. -/
theorem isReported_of_setting? {s : State} (g id : String) (value : Value) :
    isReported (s.settings.value.get? g) id value
      = (s.setting? g id).any (·.value.value.equals value) := rfl

/-- **Where edits come from.**  An edit that there is after an action was there before, or the
action has asked for it, and then it differs from what is reported; and the action has reported
nothing about its setting. -/
theorem edit?_reduce_cases (hs : s.Kept) {a : Action} {e : Value}
    (he : (s.reduce now a).edit? g id = some e) :
    a.Spares g id ∧ (s.edit? g id = some e ∨
      a.Edits g id e ∧ (s.setting? g id).any (·.value.value.equals e) = false) := by
  cases a with
  | receiveGroups groups => exact ⟨trivial, Or.inl he⟩
  | receiveSettings h xs =>
    rw [edit?_receiveSettings hs] at he
    split at he
    · cases he
    · next hnot =>
      refine ⟨fun hg x hx hid => hnot ⟨hg, ?_⟩, Or.inl he⟩
      exact hid ▸ List.mem_map_of_mem hx
  | edit h x value =>
    rw [edit?_edit hs] at he
    refine ⟨trivial, ?_⟩
    split at he
    · next hboth =>
      obtain ⟨rfl, rfl⟩ := hboth
      rcases remainingEdit_eq_some he with hold | ⟨rfl, hnot⟩
      · exact Or.inl hold
      · exact Or.inr ⟨.edit, hnot⟩
    · exact Or.inl he
  | editAll h us =>
    rw [edit?_editAll hs] at he
    refine ⟨trivial, ?_⟩
    split at he
    · next hg =>
      subst hg
      rcases get?_applyEdits_eq_some (hs.edits.distinct h) he with hold | ⟨hmem, hnot⟩
      · exact Or.inl (by rwa [edit?_eq])
      · exact Or.inr ⟨.editAll hmem, hnot⟩
    · exact Or.inl he
  | setSaving h i saving =>
    rw [edit?, edits_setSaving] at he
    exact ⟨trivial, Or.inl he⟩
  | setError h i error =>
    rw [edit?, edits_setError] at he
    exact ⟨trivial, Or.inl he⟩
  | revert h x =>
    rw [edit?_revert hs] at he
    split at he
    · cases he
    · exact ⟨trivial, Or.inl he⟩
  | revertGroup h =>
    rw [edit?_revertGroup hs] at he
    split at he
    · cases he
    · exact ⟨trivial, Or.inl he⟩

end State

end RemoteSettings
