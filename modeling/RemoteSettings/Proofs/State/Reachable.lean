import RemoteSettings.Proofs.State.Edits

/-!
# Reachable states

A state is reachable if actions lead to it from the state of a store that has done nothing, at
whatever moments they are applied.  In an action, as in all that is read from a text, no object
names a field twice.

In a reachable state an edit is never equal to the value that is reported: an equal one is not
recorded, and a setting that is reported anew loses its edit.

## Main definitions

* `Action.proper` — no object in an action names a field twice.
* `State.Reachable` — actions lead to a state.
* `State.Proper` — no object in a state names a field twice.
* `State.Differs` — no edit is equal to the reported value.

## Main results

* `Reachable.kept`, `Reachable.proper`, `Reachable.differs` — what holds in reachable states.
* `edits_differ` — **an edit differs from the reported value.**
-/

namespace RemoteSettings

/-- No object in an action names a field twice. -/
def Action.proper : Action → Bool
  | .receiveSettings _ xs => xs.all Setting.proper
  | .edit _ _ value => value.proper
  | .editAll _ us => us.all fun u => u.value.proper
  | _ => true

theorem Action.Edits.proper {g id : String} {value : Value} {a : Action} (h : a.Edits g id value)
    (ha : a.proper = true) : value.proper = true := by
  cases h with
  | edit => exact ha
  | editAll hmem => exact List.all_eq_true.mp ha _ hmem

namespace State

/-- Actions lead to a state, one after another, from the state of a store that has done nothing. -/
inductive Reachable : State → Prop
  | empty : Reachable .empty
  | reduce {s : State} (now : Nat) {a : Action} :
      Reachable s → a.proper = true → Reachable (s.reduce now a)

variable {s : State} {g id : String}

theorem Reachable.kept (h : s.Reachable) : s.Kept := by
  induction h with
  | empty => exact Kept.empty
  | reduce now _ _ ih => exact ih.reduce now _

/-! ### Proper states -/

/-- No object in the settings and edits names a field twice. -/
structure Proper (s : State) : Prop where
  settings : ∀ g id x, s.setting? g id = some x → x.value.proper = true
  edits : ∀ g id e, s.edit? g id = some e → e.proper = true

/-- A setting that there is after an action was there before, as the very same part, or it has just
been reported; then its version is numbered by its place in the report. -/
theorem setting?_reduce_cases {a : Action} {now : Nat} {x : Versioned Setting}
    (hx : (s.reduce now a).setting? g id = some x) :
    s.setting? g id = some x ∨
      ∃ xs i, a = .receiveSettings g xs ∧ x.version = ⟨now, i⟩ ∧ xs[i]? = some x.value := by
  by_cases hspares : a.Spares g id
  · rw [setting?_reduce hspares] at hx
    exact Or.inl hx
  · cases a with
    | receiveSettings h xs =>
      obtain ⟨rfl, -⟩ : h = g ∧ id ∈ xs.map (·.id) := by
        simpa [Action.Spares] using hspares
      rw [setting?_eq, reduce, part_receive, if_pos rfl] at hx
      rcases get?_addSettings_cases hx with hold | ⟨i, hversion, hi⟩
      · exact Or.inl (by rwa [setting?_eq])
      · rw [Nat.zero_add] at hversion
        exact Or.inr ⟨xs, i, rfl, hversion, hi⟩
    | _ => exact absurd trivial hspares

theorem Proper.reduce (h : s.Proper) (hs : s.Kept) (now : Nat) {a : Action}
    (ha : a.proper = true) : (s.reduce now a).Proper where
  settings := by
    intro g id x hx
    rcases setting?_reduce_cases hx with hold | ⟨xs, i, rfl, -, hi⟩
    · exact h.settings g id x hold
    · exact List.all_eq_true.mp ha _ (List.mem_of_getElem? hi)
  edits := by
    intro g id e he
    obtain ⟨-, hold | ⟨hedits, -⟩⟩ := edit?_reduce_cases hs he
    · exact h.edits g id e hold
    · exact hedits.proper ha

theorem Reachable.proper (h : s.Reachable) : s.Proper := by
  induction h with
  | empty => exact ⟨fun _ _ _ hx => (nomatch hx), fun _ _ _ he => (nomatch he)⟩
  | reduce now hs ha ih => exact ih.reduce hs.kept now ha

/-! ### Edits differ from what is reported -/

/-- No edit is equal to the value that is reported. -/
def Differs (s : State) : Prop :=
  ∀ g id e, s.edit? g id = some e → (s.setting? g id).any (·.value.value.equals e) = false

theorem Differs.reduce (h : s.Differs) (hs : s.Kept) (now : Nat) (a : Action) :
    (s.reduce now a).Differs := by
  intro g id e he
  -- Where an edit is left, the action has not touched the setting.
  obtain ⟨hspares, hfrom⟩ := edit?_reduce_cases hs he
  rw [setting?_reduce hspares]
  rcases hfrom with hold | ⟨-, hdiffers⟩
  · exact h g id e hold
  · exact hdiffers

theorem Reachable.differs (h : s.Reachable) : s.Differs := by
  induction h with
  | empty => exact fun _ _ _ he => (nomatch he)
  | reduce now hs _ ih => exact ih.reduce hs.kept now _

/-- **Edits differ from what is reported.**  In a reachable state:

* an edit is not equal to the value that is reported;
* a setting that is reported is edited exactly if its values with and without edits are not equal;
* after an edit to a value that is equal to the reported one, whatever edits there were before, the
  setting has no edit. -/
theorem edits_differ (hs : s.Reachable) (g id : String) (x : Versioned Setting)
    (hx : s.setting? g id = some x) :
    (∀ e, s.edit? g id = some e → (e == x.value.value) = false) ∧
      (s.isEdited g id = true ↔ (s.value? g id true == s.value? g id false) = false) ∧
      ∀ now value, value.proper = true → (value == x.value.value) = true →
        (s.reduce now (.edit g id value)).edit? g id = none := by
  have hproper : x.value.value.proper = true := by
    have := hs.proper.settings g id x hx
    simp only [Setting.proper, Bool.and_eq_true] at this
    exact this.1.1
  have hdiffers : ∀ e, s.edit? g id = some e → (e == x.value.value) = false := by
    intro e he
    have hany := hs.differs g id e he
    rw [hx, Option.any_some, Value.equals_comm hproper (hs.proper.edits g id e he)] at hany
    exact hany
  have hvalue : s.value? g id false = some x.value.value := by simp [value?, hx]
  refine ⟨hdiffers, ?_, ?_⟩
  · cases he : s.edit? g id with
    | none =>
      have hsame : (x.value.value == x.value.value) = true := Value.equals_self hproper
      simp [isEdited, value?, hx, he, hsame]
    | some e =>
      have hwith : s.value? g id true = some e := by simp [value?, he]
      rw [hwith, hvalue, Option.some_beq_some, hdiffers e he]
      simp [isEdited, he]
  · intro now value hvalue hequals
    have hreported : isReported (s.settings.value.get? g) id value = true := by
      rw [isReported_of_setting?, hx, Option.any_some, Value.equals_comm hproper hvalue]
      exact hequals
    rw [edit?_edit hs.kept, if_pos ⟨rfl, rfl⟩, remainingEdit, if_pos hreported]

/-- The whole number one, and the binary number that is equal to it. -/
def wholeOne : Value := .number (.whole ⟨1, by decide, by decide⟩)

@[inherit_doc wholeOne]
def binaryOne : Value := .number (.real ⟨false, 1023 <<< 52, by decide⟩)

/-- A setting is reported to be one, and is edited twice. -/
def twiceEdited : State :=
  ((State.empty.reduce 1 (.receiveSettings "g" [{ id := "a", value := wholeOne }])).reduce 2
    (.edit "g" "a" (.text "x"))).reduce 3 (.edit "g" "a" (.bool true))

theorem reachable_twiceEdited : twiceEdited.Reachable :=
  .reduce 3 (.reduce 2 (.reduce 1 .empty rfl) rfl) rfl

/-- The second edit stands, and the setting is edited; an edit to the binary number takes it
away. -/
theorem twiceEdited_back :
    twiceEdited.edit? "g" "a" = some (.bool true) ∧ (Value.bool true == wholeOne) = false ∧
      (twiceEdited.value? "g" "a" true == twiceEdited.value? "g" "a" false) = false ∧
      (binaryOne == wholeOne) = true ∧
      (twiceEdited.reduce 4 (.edit "g" "a" binaryOne)).edit? "g" "a" = none := by
  have hedit : twiceEdited.edit? "g" "a" = some (.bool true) := rfl
  have hequals : (binaryOne == wholeOne) = true := by decide +kernel
  obtain ⟨hdiffers, hedited, hback⟩ :=
    edits_differ reachable_twiceEdited "g" "a" ⟨⟨1, 0⟩, { id := "a", value := wholeOne }⟩ rfl
  exact ⟨hedit, hdiffers _ hedit, hedited.mp rfl, hequals, hback 4 binaryOne rfl hequals⟩

end State

end RemoteSettings
