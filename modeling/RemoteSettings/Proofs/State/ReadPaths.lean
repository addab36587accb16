import RemoteSettings.Proofs.State.Visits

/-!
# Three ways to read a value

The value of a setting is read with the setting, with all settings of its group, or by itself.  The
last two give the very value that is to be shown.  A setting that has been built with its edit is
given again while its edit compares equal to the one that it was built with; but values that compare
equal may be written differently, as `1` and `1.0` are.  So the setting may bear an edit that there
was before, which is equal to the present one and has another text.

## Main definitions

* `State.shown` — the value of a setting that is to be shown.
* `Memo.Reworded` — what is remembered of a setting bears an equal edit with another text.
* `Memo.Sourced` — what is remembered of settings was built from edits that there have been.

## Main results

* `State.value?_eq_shown`, `Memo.readSettings_shown`, `Memo.readSetting_shown` — what is read.
* `History.sourced_after` — after any history, what is remembered has such a source.
* `History.read_paths_agree` — **the ways to read a value agree**, unless its edit was reworded.
-/

namespace RemoteSettings

/-- Where values are changed by their keys, a look-up finds the changed value. -/
theorem Keyed.get?_mapKeyed {κ α β : Type} [DecidableEq κ] (f : κ → α → β) (k : κ)
    (m : Keyed κ α) : get? k (m.map fun e => (e.1, f e.1 e.2)) = (m.get? k).map (f k) := by
  induction m with
  | nil => rfl
  | cons e m ih =>
    rw [List.map_cons, get?_cons, get?, ih]
    split
    · next hk => rw [hk, Option.map_some]
    · rfl

theorem Setting.proper_value {s : Setting} (h : s.proper = true) : s.value.proper = true := by
  simp only [proper, Bool.and_eq_true] at h
  exact h.1.1

namespace State

variable {s : State} {g id : String} {x : Versioned Setting}

/-- The value of a setting that is to be shown: its edit, if edits count and there is one, else the
value that was reported. -/
def shown (s : State) (group id : String) (withEdits : Bool) (x : Versioned Setting) : Value :=
  (if withEdits then s.edit? group id else none).getD x.value.value

theorem shown_of_edit? {e : Value} (he : s.edit? g id = some e) : s.shown g id true x = e := by
  rw [shown, if_pos rfl, he, Option.getD_some]

theorem shown_of_unedited (he : s.edit? g id = none) (withEdits : Bool) :
    s.shown g id withEdits x = x.value.value := by
  rw [shown, he, ite_self, Option.getD_none]

/-- A value that is read by itself is the one that is to be shown. -/
theorem value?_eq_shown (hx : s.setting? g id = some x) (withEdits : Bool) :
    s.value? g id withEdits = some (s.shown g id withEdits x) := by
  rw [value?, shown, hx]
  cases withEdits <;> cases s.edit? g id <;> rfl

/-- Settings that are built with their edits bear the values that are to be shown. -/
theorem exists_get?_settingsWith (hx : s.setting? g id = some x) (t : Nat) (withEdits : Bool) :
    ∃ y, Keyed.get? id (s.settingsWith t g withEdits) = some y ∧
      y.value.value = s.shown g id withEdits x := by
  rw [setting?_eq] at hx
  cases withEdits with
  | false => exact ⟨x, hx, rfl⟩
  | true =>
    have hmerged := congrArg (Keyed.get? id)
      (Memo.contents_merge t (part s.settings g) (part s.edits g))
    rw [Memo.contents, Keyed.get?_map, Keyed.get?_mapKeyed (fun i (x : Versioned Setting) =>
      (((part s.edits g).get? i).map x.value.withValue).getD x.value), hx] at hmerged
    obtain ⟨y, hy, hvalue⟩ := Option.map_eq_some_iff.mp hmerged
    refine ⟨y, hy, ?_⟩
    rw [hvalue, ← edit?_eq]
    cases he : s.edit? g id with
    | none => exact (shown_of_unedited he true).symm
    | some e => exact (shown_of_edit? he).symm

end State

namespace Memo

variable {m : Memo} {states : List State} {s : State} {g id : String} {x : Versioned Setting}

/-- What is remembered of a setting was built from the setting as it is, but with an edit that
compares equal to the present one and has another text. -/
def Reworded (m : Memo) (s : State) (group id : String) : Prop :=
  ∃ k x e, m.setting.get? (group, id) = some k ∧ s.setting? group id = some x ∧
    s.edit? group id = some e ∧ k.setting = x.version ∧ k.edit.equals e = true ∧
    k.edit.toJson.text ≠ e.toJson.text

/-- What is remembered of settings was built from settings and edits that stand together in one of
the states. -/
def Sourced (m : Memo) (states : List State) : Prop :=
  ∀ r ∈ m.setting, ∃ s ∈ states, ∃ x, s.setting? r.1.1 r.1.2 = some x ∧ r.2.setting = x.version ∧
    s.edit? r.1.1 r.1.2 = some r.2.edit

theorem Sourced.append (hm : m.Sourced states) (next : State) : m.Sourced (states ++ [next]) := by
  intro r hr
  obtain ⟨s, hs, hsource⟩ := hm r hr
  exact ⟨s, List.mem_append_left _ hs, hsource⟩

/-- What is built is remembered with its source. -/
theorem Sourced.readSetting (hm : m.Sourced states) (hs : s ∈ states) (now : Nat) (g id : String)
    (withEdits : Bool) : (m.readSetting now s g id withEdits).2.Sourced states := by
  have hread := m.settingRead now s g id withEdits
  generalize m.readSetting now s g id withEdits = r at hread ⊢
  cases hread with
  | absent | unedited => exact fun r hr => hm r (Keyed.mem_of_mem_erase hr)
  | plain | known => exact hm
  | built hx he _ =>
    intro r hr
    rcases Keyed.mem_of_mem_put hr with rfl | hr
    · exact ⟨s, hs, _, hx, rfl, he⟩
    · exact hm r hr

/-- If the remembered edit of a setting is another text of the present one, then it was the edit of
the same setting in some state. -/
theorem Reworded.exists_source {h : History} (ho : h.Orderly) (hm : m.Sourced h.states)
    (hs : s ∈ h.states) (hx : s.setting? g id = some x) (hr : m.Reworded s g id) :
    ∃ s' ∈ h.states, ∃ e e', s'.setting? g id = some x ∧ s.edit? g id = some e ∧
      s'.edit? g id = some e' ∧ e'.equals e = true ∧ e'.toJson.text ≠ e.toJson.text := by
  obtain ⟨k, y, e, hk, hy, he, hversion, hequals, htext⟩ := hr
  cases hx.symm.trans hy
  obtain ⟨s', hs', x', hx', hversion', he'⟩ := hm _ (Keyed.mem_of_get? hk)
  have hsame : x' = x := ho.setting.unique _ _ ⟨s', hs', g, id, hx'⟩ ⟨s, hs, g, id, hx⟩
    (hversion'.symm.trans hversion)
  exact ⟨s', hs', e, k.edit, hsame ▸ hx', he, he', hequals, htext⟩

section Values

variable {h : History} (ho : h.Orderly) (hm : m.Sound h.states) (hs : s ∈ h.states)
  (hx : s.setting? g id = some x)

include ho hm hs hx

/-- Among the settings of its group, a setting bears the value that is to be shown. -/
theorem readSettings_shown (now : Nat) (withEdits : Bool) :
    ∃ y, (m.readSettings now s g withEdits).1.value.get? id = some y ∧
      y.value.value = s.shown g id withEdits x := by
  obtain ⟨t, ht⟩ := readSettings_value ho hm hs now g withEdits
  rw [ht]
  exact State.exists_get?_settingsWith hx t withEdits

/-- A setting bears a value that compares equal to the one that is to be shown, and it bears its
text unless what is remembered of it is reworded. -/
theorem readSetting_shown (now : Nat) (withEdits : Bool) :
    ∃ z, (m.readSetting now s g id withEdits).1 = some z ∧
      z.value.value.equals (s.shown g id withEdits x) = true ∧
      (z.value.value.toJson.text = (s.shown g id withEdits x).toJson.text ↔
        ¬(withEdits = true ∧ m.Reworded s g id)) := by
  have hproper := (ho.reachable s hs).proper
  have hself : x.value.value.equals x.value.value = true :=
    Value.equals_self (Setting.proper_value (hproper.settings _ _ _ hx))
  have hread := m.settingRead now s g id withEdits
  generalize m.readSetting now s g id withEdits = r at hread ⊢
  cases hread with
  | absent hy => cases hx.symm.trans hy
  | unedited hy he =>
    cases hx.symm.trans hy
    rw [State.shown_of_unedited he]
    refine ⟨x, rfl, hself, iff_of_true rfl ?_⟩
    rintro ⟨-, _, _, _, -, -, he', -⟩
    cases he.symm.trans he'
  | plain hy _ =>
    cases hx.symm.trans hy
    exact ⟨x, rfl, hself, iff_of_true rfl fun hboth => nomatch hboth.1⟩
  | @known y e k hy he hk hsame =>
    cases hx.symm.trans hy
    obtain ⟨x', hx', hversion, hmerged⟩ := hm.setting _ (Keyed.mem_of_get? hk)
    have hvalue : k.merged.value.value = k.edit := by
      rw [show k.merged.value = _ from hmerged]
      rfl
    rw [State.shown_of_edit? he]
    refine ⟨k.merged, rfl, hvalue ▸ hsame.2, ?_⟩
    rw [hvalue]
    constructor
    · -- Nothing else is remembered of the setting, so another text would be that of this edit.
      rintro htext ⟨-, k', y', e', hk', hy', he', -, -, hother⟩
      cases hk.symm.trans hk'
      cases he.symm.trans he'
      exact hother htext
    · intro hnot
      by_contra htext
      exact hnot ⟨rfl, k, x, e, hk, hx, he, hsame.1, hsame.2, htext⟩
  | @built y e hy he hnew =>
    cases hx.symm.trans hy
    rw [State.shown_of_edit? he]
    refine ⟨_, rfl, Value.equals_self (hproper.edits _ _ _ he), iff_of_true rfl ?_⟩
    rintro ⟨-, k, y', e', hk, hy', he', hversion, hequals, -⟩
    cases hx.symm.trans hy'
    cases he.symm.trans he'
    exact hnew k hk ⟨hversion, hequals⟩

end Values

end Memo

namespace History

/-- What is remembered of settings was built from edits that there have been, whatever happens. -/
theorem sourced_after (moves : List HistoryMove) (hmoves : ∀ m ∈ moves, m.proper = true) :
    (after moves).memo.Sourced (after moves).states := by
  have hrun : (after moves).Orderly ∧ (after moves).memo.Sourced (after moves).states := by
    refine after_induction (P := fun h => h.Orderly ∧ h.memo.Sourced h.states)
      ⟨Orderly.start, fun r hr => absurd hr List.not_mem_nil⟩ ?_ moves hmoves
    rintro h m hm ⟨ho, hsourced⟩
    refine ⟨ho.move hm, ?_⟩
    cases m with
    | reduce base a => exact hsourced.append _
    | readSettings base g withEdits =>
      rw [move, Memo.Sourced, (Memo.readSettings_frame ..).1]
      exact hsourced
    | readSetting base g id withEdits =>
      exact hsourced.readSetting (ho.state_mem base) _ g id withEdits
    | readEditedIds base g =>
      rw [move, Memo.Sourced, (Memo.readEditedIds_frame ..).2.1]
      exact hsourced
  exact hrun.2

/-- **The ways to read a value agree**, unless its edit was reworded.  Whatever has been read
before, and from whichever states: by itself and among the settings of its group, the value of a
setting is read as it is to be shown.  With the setting, a value is read that compares equal to it.
It has the same text unless edits count and what is remembered of the setting is reworded; then an
edit of the setting that compares equal and has another text was there in some state before. -/
theorem read_paths_agree (moves : List HistoryMove) (hmoves : ∀ m ∈ moves, m.proper = true)
    {s : State} (hs : s ∈ (after moves).states) (now : Nat) {g id : String}
    {x : Versioned Setting} (hx : s.setting? g id = some x) (withEdits : Bool) :
    let m := (after moves).memo
    let v := s.shown g id withEdits x
    s.value? g id withEdits = some v ∧
      (∃ y, (m.readSettings now s g withEdits).1.value.get? id = some y ∧ y.value.value = v) ∧
      (∃ z, (m.readSetting now s g id withEdits).1 = some z ∧ z.value.value.equals v = true ∧
        (z.value.value.toJson.text = v.toJson.text ↔
          ¬(withEdits = true ∧ m.Reworded s g id))) ∧
      (m.Reworded s g id → ∃ s' ∈ (after moves).states, ∃ e e', s'.setting? g id = some x ∧
        s.edit? g id = some e ∧ s'.edit? g id = some e' ∧ e'.equals e = true ∧
        e'.toJson.text ≠ e.toJson.text) := by
  intro m v
  obtain ⟨ho, hsound⟩ := sound_after moves hmoves
  exact ⟨State.value?_eq_shown hx withEdits,
    Memo.readSettings_shown ho hsound hs hx now withEdits,
    Memo.readSetting_shown ho hsound hs hx now withEdits,
    Memo.Reworded.exists_source ho (sourced_after moves hmoves) hs hx⟩

/-- The whole number ten. -/
def ten : Value := .ofWhole ⟨10, by decide, by decide⟩

/-- The binary number ten, which is written with a point. -/
def tenPointZero : Value := .number (.real ⟨false, 4105 <<< 50, by decide⟩)

/-- A setting is edited to be ten and is read; the edit is taken back, and ten is typed again with a
point. -/
def retyped : List HistoryMove :=
  [.reduce 0 (.receiveSettings "g" [{ id := "a", value := .text "five" }]),
    .reduce 1 (.edit "g" "a" ten), .readSetting 2 "g" "a" true, .reduce 2 (.revert "g" "a"),
    .reduce 3 (.edit "g" "a" tenPointZero)]

/-- By itself and among the settings of its group the value is read as it was typed last, and with
the setting as it was typed first. -/
theorem retyped_edit_reads_in_two_ways :
    (after retyped).state 4 ∈ (after retyped).states ∧
      ((after retyped).state 4).edit? "g" "a" = some tenPointZero ∧
      (((after retyped).state 4).value? "g" "a" true).map (·.toJson.text) = some "10.0" ∧
      (((after retyped).memo.readSettings 9 ((after retyped).state 4) "g" true).1.value.get?
        "a").map (·.value.value.toJson.text) = some "10.0" ∧
      (((after retyped).memo.readSetting 9 ((after retyped).state 4) "g" "a" true).1).map
        (·.value.value.toJson.text) = some "10" := by
  refine ⟨(orderly_after retyped (List.all_eq_true.mp rfl)).state_mem 4, ?_, ?_, ?_, ?_⟩
  · rfl
  · decide +kernel
  · decide +kernel
  · decide +kernel

/-- In the state in which the setting was read, all ways to read it still agree; in the last state
it is reworded, and its source is that state. -/
theorem first_edit_reads_as_typed :
    let m := (after retyped).memo
    (∃ y z, (m.readSettings 9 ((after retyped).state 2) "g" true).1.value.get? "a" = some y ∧
        (m.readSetting 9 ((after retyped).state 2) "g" "a" true).1 = some z ∧
        y.value.value = ten ∧ z.value.value.toJson.text = ten.toJson.text) ∧
      ∃ s' ∈ (after retyped).states, ∃ e', s'.edit? "g" "a" = some e' ∧
        e'.equals tenPointZero = true ∧ e'.toJson.text ≠ tenPointZero.toJson.text := by
  intro m
  have hmoves : ∀ m ∈ retyped, m.proper = true := List.all_eq_true.mp rfl
  have hstate : ∀ n, (after retyped).state n ∈ (after retyped).states :=
    (orderly_after retyped hmoves).state_mem
  have hsecond : ((after retyped).state 2).setting? "g" "a" = some _ := rfl
  have hfourth : ((after retyped).state 4).setting? "g" "a" = some _ := rfl
  obtain ⟨-, ⟨y, hy, hshown⟩, ⟨z, hz, -, htext⟩, -⟩ :=
    read_paths_agree retyped hmoves (hstate 2) 9 hsecond true
  obtain ⟨-, -, -, hsource⟩ := read_paths_agree retyped hmoves (hstate 4) 9 hfourth true
  refine ⟨⟨y, z, hy, hz, hshown, htext.mpr ?_⟩, ?_⟩
  · rintro ⟨-, k, x, e, hk, -, he, -, -, hother⟩
    cases hk
    cases he
    exact hother rfl
  · obtain ⟨s', hs', e, e', -, he, he', hequals, hother⟩ :=
      hsource ⟨_, _, _, rfl, rfl, rfl, rfl, by decide +kernel, by decide +kernel⟩
    cases he
    exact ⟨s', hs', e', he', hequals, hother⟩

end History

end RemoteSettings
