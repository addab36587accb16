import RemoteSettings.Proofs.State.History
import RemoteSettings.Proofs.State.Reads

/-!
# What is remembered is what would be built

What has been remembered outlives the states that it was built from.  Each result stands beside the
versions of the parts that it was built from, and in a history a version stands for one part only.
So a result that is found again is the one that would be built anew: settings with edits and edited
ids by the same versions, a setting with an edit by the same version and an equal edit, and then it
is equal to what would be built.

## Main definitions

* `Memo.Sound` — what has been remembered was built from parts of some of the states.
* `Memo.IdsSound` — the edited ids among it were.

## Main results

* `Memo.Sound.readSettings`, `Memo.Sound.readSetting`, `Memo.Sound.readEditedIds` — reads remember
  what is sound.
* `Memo.readSettings_value`, `Memo.readSetting_value`, `Memo.readEditedIds_value` — what reads give.
* `History.reads_are_transparent` — **to remember makes no difference** to what is read.
-/

namespace RemoteSettings

namespace Memo

variable {m : Memo} {states : List State} {s : State} {now : Nat} {g id : String}
  {withEdits : Bool}

/-- The edited ids that have been remembered were taken from edits of some of the states. -/
def IdsSound (m : Memo) (states : List State) : Prop :=
  ∀ e ∈ m.editedIds, ∃ q, Among State.HasEdits states q ∧ e.2.edits = q.version ∧
    e.2.ids.value = q.value.keys

/-- What has been remembered was built from parts of some of the states. -/
structure Sound (m : Memo) (states : List State) : Prop where
  settings : ∀ e ∈ m.settings, ∃ p q now, Among State.HasSettings states p ∧
    Among State.HasEdits states q ∧ e.2.settings = p.version ∧ e.2.edits = q.version ∧
    e.2.merged.value = merge now p.value q.value
  setting : ∀ e ∈ m.setting, ∃ x, Among State.HasSetting states x ∧ e.2.setting = x.version ∧
    e.2.merged.value = x.value.withValue e.2.edit
  editedIds : m.IdsSound states

theorem Sound.empty (states : List State) : ({} : Memo).Sound states where
  settings _ he := absurd he List.not_mem_nil
  setting _ he := absurd he List.not_mem_nil
  editedIds _ he := absurd he List.not_mem_nil

theorem IdsSound.append (hm : m.IdsSound states) (next : State) :
    m.IdsSound (states ++ [next]) := by
  intro e he
  obtain ⟨q, hq, hrest⟩ := hm e he
  exact ⟨q, hq.append next, hrest⟩

/-- More states do no harm. -/
theorem Sound.append (hm : m.Sound states) (next : State) : m.Sound (states ++ [next]) := by
  refine ⟨fun e he => ?_, fun e he => ?_, hm.editedIds.append next⟩
  · obtain ⟨p, q, now, hp, hq, hrest⟩ := hm.settings e he
    exact ⟨p, q, now, hp.append next, hq.append next, hrest⟩
  · obtain ⟨x, hx, hrest⟩ := hm.setting e he
    exact ⟨x, hx.append next, hrest⟩

/-! ### Reads remember what is sound -/

theorem Sound.readSettings (hm : m.Sound states) (hs : s ∈ states) (now : Nat) (g : String)
    (withEdits : Bool) : (m.readSettings now s g withEdits).2.Sound states := by
  have hread := m.settingsRead now s g withEdits
  generalize m.readSettings now s g withEdits = r at hread ⊢
  cases hread with
  | absent | unedited =>
    exact { hm with settings := fun e he => hm.settings e (Keyed.mem_of_mem_erase he) }
  | plain | known => exact hm
  | built hp hq _ =>
    refine { hm with settings := fun e he => ?_ }
    rcases Keyed.mem_of_mem_put he with rfl | he
    · exact ⟨_, _, now, ⟨s, hs, g, hp⟩, ⟨s, hs, g, hq⟩, rfl, rfl, rfl⟩
    · exact hm.settings e he

theorem Sound.readSetting (hm : m.Sound states) (hs : s ∈ states) (now : Nat) (g id : String)
    (withEdits : Bool) : (m.readSetting now s g id withEdits).2.Sound states := by
  have hread := m.settingRead now s g id withEdits
  generalize m.readSetting now s g id withEdits = r at hread ⊢
  cases hread with
  | absent | unedited =>
    exact { hm with setting := fun e he => hm.setting e (Keyed.mem_of_mem_erase he) }
  | plain | known => exact hm
  | built hx he _ =>
    refine { hm with setting := fun e he => ?_ }
    rcases Keyed.mem_of_mem_put he with rfl | he
    · exact ⟨_, ⟨s, hs, g, id, hx⟩, rfl, rfl⟩
    · exact hm.setting e he

theorem IdsSound.readEditedIds (hm : m.IdsSound states) (hs : s ∈ states) (now : Nat)
    (g : String) : (m.readEditedIds now s g).2.IdsSound states := by
  have hread := m.idsRead now s g
  generalize m.readEditedIds now s g = r at hread ⊢
  cases hread with
  | absent => exact fun e he => hm e (Keyed.mem_of_mem_erase he)
  | known => exact hm
  | built hq _ =>
    intro e he
    rcases Keyed.mem_of_mem_put he with rfl | he
    · exact ⟨_, ⟨s, hs, g, hq⟩, rfl, rfl⟩
    · exact hm e he

theorem Sound.readEditedIds (hm : m.Sound states) (hs : s ∈ states) (now : Nat) (g : String) :
    (m.readEditedIds now s g).2.Sound states := by
  have hids := hm.editedIds.readEditedIds hs now g
  have hread := m.idsRead now s g
  generalize m.readEditedIds now s g = r at hread hids ⊢
  -- Nothing else that has been remembered is touched.
  cases hread <;> exact { hm with editedIds := hids }

/-! ### What reads give -/

/-- A read gives the ids of the edits that there are, where parts that bear the same version are the
same part. -/
theorem readEditedIds_of_coherent {clock : Nat}
    (hedits : Coherent clock (Among State.HasEdits states)) (hm : m.IdsSound states)
    (hs : s ∈ states) (now : Nat) (g : String) :
    (m.readEditedIds now s g).1.value = (State.part s.edits g).keys := by
  have hread := m.idsRead now s g
  generalize m.readEditedIds now s g = r at hread ⊢
  cases hread with
  | absent hq =>
    rw [State.part_of_get?_eq_none hq]
    rfl
  | known hq hk hsame =>
    obtain ⟨q, hq', hversion, hids⟩ := hm _ (Keyed.mem_of_get? hk)
    have hpart := hedits.unique _ _ hq' ⟨s, hs, g, hq⟩ (hversion.symm.trans hsame)
    rw [State.part_of_get? hq, hids, hpart]
  | built hq _ => rw [State.part_of_get? hq]

section Values

variable {h : History} (ho : h.Orderly) (hm : m.Sound h.states) (hs : s ∈ h.states)

include ho hm hs

/-- A read gives the settings that would be built at some moment. -/
theorem readSettings_value (now : Nat) (g : String) (withEdits : Bool) :
    ∃ t, (m.readSettings now s g withEdits).1.value = s.settingsWith t g withEdits := by
  have hread := m.settingsRead now s g withEdits
  generalize m.readSettings now s g withEdits = r at hread ⊢
  cases hread with
  | absent hp =>
    refine ⟨now, ?_⟩
    rw [State.settingsWith, State.part_of_get?_eq_none hp]
    split <;> rfl
  | unedited hp hq =>
    refine ⟨now, ?_⟩
    rw [State.settingsWith, State.part_of_get? hp, State.part_of_get?_eq_none hq, merge_nil,
      ite_self]
  | plain hp _ => exact ⟨now, (State.part_of_get? hp).symm⟩
  | known hp hq hk hsame =>
    -- The versions are those of the parts from which the result was built.
    obtain ⟨p, q, t, hp', hq', hversion, hversion', hmerged⟩ :=
      hm.settings _ (Keyed.mem_of_get? hk)
    have hpart := ho.settings.unique _ _ hp' ⟨s, hs, g, hp⟩ (hversion.symm.trans hsame.1)
    have hpart' := ho.edits.unique _ _ hq' ⟨s, hs, g, hq⟩ (hversion'.symm.trans hsame.2)
    refine ⟨t, ?_⟩
    rw [State.settingsWith, if_pos rfl, State.part_of_get? hp, State.part_of_get? hq, hmerged,
      hpart, hpart']
  | built hp hq _ =>
    refine ⟨now, ?_⟩
    rw [State.settingsWith, if_pos rfl, State.part_of_get? hp, State.part_of_get? hq]

/-- A read gives the ids of the edits that there are. -/
theorem readEditedIds_value (now : Nat) (g : String) :
    (m.readEditedIds now s g).1.value = (State.part s.edits g).keys :=
  readEditedIds_of_coherent ho.edits hm.editedIds hs now g

/-- A read gives a setting that is equal to the one that would be built. -/
theorem readSetting_value (now : Nat) (g id : String) (withEdits : Bool) :
    Option.Rel (fun x y => x.value.equals y = true) (m.readSetting now s g id withEdits).1
      (s.settingWith g id withEdits) := by
  have hproper := (ho.reachable s hs).proper
  have hread := m.settingRead now s g id withEdits
  generalize m.readSetting now s g id withEdits = r at hread ⊢
  cases hread with
  | absent hx =>
    rw [State.settingWith_eq_none hx]
    exact .none
  | unedited hx he =>
    rw [State.settingWith_of_unedited hx he]
    exact .some (Setting.equals_self (hproper.settings _ _ _ hx))
  | plain hx _ =>
    rw [State.settingWith_false hx]
    exact .some (Setting.equals_self (hproper.settings _ _ _ hx))
  | known hx he hk hsame =>
    -- The edit may be another one than that of the result, but it is equal to it.
    obtain ⟨x, hx', hversion, hmerged⟩ := hm.setting _ (Keyed.mem_of_get? hk)
    have hpart := ho.setting.unique _ _ hx' ⟨s, hs, g, id, hx⟩ (hversion.symm.trans hsame.1)
    rw [State.settingWith_of_edit? hx he]
    refine .some ?_
    rw [hmerged, hpart]
    exact Setting.equals_withValue (hproper.settings _ _ _ hx) hsame.2
  | built hx he _ =>
    rw [State.settingWith_of_edit? hx he]
    exact .some (Setting.equals_withValue (hproper.settings _ _ _ hx)
      (Value.equals_self (hproper.edits _ _ _ he)))

end Values

/-- Where nothing has been remembered, a read gives what there is to read. -/
theorem readSetting_empty (now : Nat) (s : State) (g id : String) (withEdits : Bool) :
    (({} : Memo).readSetting now s g id withEdits).1.map (·.value)
      = s.settingWith g id withEdits := by
  have hread := ({} : Memo).settingRead now s g id withEdits
  generalize ({} : Memo).readSetting now s g id withEdits = r at hread ⊢
  cases hread with
  | absent hx => exact (State.settingWith_eq_none hx withEdits).symm
  | unedited hx he => exact (State.settingWith_of_unedited hx he withEdits).symm
  | plain hx _ => exact (State.settingWith_false hx).symm
  | known _ _ hk _ => cases hk
  | built hx he _ => exact (State.settingWith_of_edit? hx he).symm

end Memo

namespace State

variable {s : State}

/-- What is built does not depend on the moment. -/
theorem contents_settingsWith (t t' : Nat) (g : String) (withEdits : Bool) :
    Memo.contents (s.settingsWith t g withEdits)
      = Memo.contents (s.settingsWith t' g withEdits) := by
  cases withEdits with
  | false => rfl
  | true => exact (Memo.contents_merge t _ _).trans (Memo.contents_merge t' _ _).symm

/-- No object in what is built names a field twice. -/
theorem proper_settingsWith (hs : s.Kept) (hproper : s.Proper) (t : Nat) (g : String)
    (withEdits : Bool) :
    ∀ c ∈ Memo.contents (s.settingsWith t g withEdits), c.2.proper = true := by
  have hpart : ∀ x ∈ part s.settings g, x.2.value.proper = true := by
    intro x hx
    refine hproper.settings g x.1 x.2 ?_
    rw [setting?_eq]
    exact Keyed.get?_of_mem (hs.settings.distinct g) hx
  intro c hc
  cases withEdits with
  | false =>
    obtain ⟨x, hx, rfl⟩ := List.mem_map.mp hc
    exact hpart x hx
  | true =>
    rw [settingsWith, if_pos rfl, Memo.contents_merge] at hc
    obtain ⟨x, hx, rfl⟩ := List.mem_map.mp hc
    cases he : (part s.edits g).get? x.1 with
    | none => exact hpart x hx
    | some e =>
      rw [← edit?_eq] at he
      exact Setting.proper_withValue (hpart x hx) (hproper.edits g x.1 e he)

end State

/-- Proper settings with the same contents are equal one by one. -/
theorem Memo.forall₂_of_contents_eq {p p' : Keyed String (Versioned Setting)}
    (h : contents p = contents p') (hproper : ∀ c ∈ contents p, c.2.proper = true) :
    List.Forall₂ (fun x y => x.1 = y.1 ∧ x.2.value.equals y.2.value = true) p p' := by
  induction p generalizing p' with
  | nil =>
    cases p' with
    | nil => exact .nil
    | cons y p' => cases h
  | cons x p ih =>
    cases p' with
    | nil => cases h
    | cons y p' =>
      obtain ⟨hhead, htail⟩ := List.cons.inj h
      obtain ⟨hid, hvalue⟩ := Prod.mk.inj hhead
      obtain ⟨hx, hp⟩ := List.forall_mem_cons.mp hproper
      exact .cons ⟨hid, hvalue ▸ Setting.equals_self hx⟩ (ih htail hp)

namespace History

/-- **What has been remembered is sound**, whatever happens. -/
theorem sound_after (moves : List HistoryMove) (hmoves : ∀ m ∈ moves, m.proper = true) :
    (after moves).Orderly ∧ (after moves).memo.Sound (after moves).states := by
  refine after_induction (P := fun h => h.Orderly ∧ h.memo.Sound h.states) ?_ ?_ moves hmoves
  · exact ⟨Orderly.start, Memo.Sound.empty _⟩
  · rintro h m hm ⟨ho, hsound⟩
    refine ⟨ho.move hm, ?_⟩
    cases m with
    | reduce base a => exact hsound.append _
    | readSettings base g withEdits =>
      exact hsound.readSettings (ho.state_mem base) _ g withEdits
    | readSetting base g id withEdits =>
      exact hsound.readSetting (ho.state_mem base) _ g id withEdits
    | readEditedIds base g => exact hsound.readEditedIds (ho.state_mem base) _ g

/-- **To remember makes no difference.**  Whatever has been read before, and from whichever states,
any state of a history reads as it would if nothing had been remembered: the settings of a group
stand under the same ids in the same order and are equal, a setting is equal, and the edited ids are
the same.  With their edits, settings stand as they stand in the state: the value of a setting that
has an edit is replaced, and any other is the very setting of the state. -/
theorem reads_are_transparent (moves : List HistoryMove)
    (hmoves : ∀ m ∈ moves, m.proper = true) {s : State} (hs : s ∈ (after moves).states)
    (now now' : Nat) (g : String) :
    (∀ withEdits, List.Forall₂ (fun x y => x.1 = y.1 ∧ x.2.value.equals y.2.value = true)
        ((after moves).memo.readSettings now s g withEdits).1.value
        (({} : Memo).readSettings now' s g withEdits).1.value) ∧
      (∀ id withEdits, Option.Rel (fun x y => x.value.equals y.value = true)
        ((after moves).memo.readSetting now s g id withEdits).1
        (({} : Memo).readSetting now' s g id withEdits).1) ∧
      ((after moves).memo.readEditedIds now s g).1.value
        = (({} : Memo).readEditedIds now' s g).1.value ∧
      List.Forall₂ (fun x y => x.1 = y.1 ∧
          match s.edit? g x.1 with
          | some e => y.2.value = { x.2.value with value := e }
          | none => y.2 = x.2)
        (State.part s.settings g) ((after moves).memo.readSettings now s g true).1.value := by
  obtain ⟨ho, hsound⟩ := sound_after moves hmoves
  have hfresh := Memo.Sound.empty (after moves).states
  have hreachable := ho.reachable s hs
  refine ⟨fun withEdits => ?_, fun id withEdits => ?_, ?_, ?_⟩
  · obtain ⟨t, ht⟩ := Memo.readSettings_value ho hsound hs now g withEdits
    obtain ⟨t', ht'⟩ := Memo.readSettings_value ho hfresh hs now' g withEdits
    rw [ht, ht']
    exact Memo.forall₂_of_contents_eq (s.contents_settingsWith t t' g withEdits)
      (s.proper_settingsWith hreachable.kept hreachable.proper t g withEdits)
  · have hvalue := Memo.readSetting_value ho hsound hs now g id withEdits
    rw [← Memo.readSetting_empty now' s g id withEdits] at hvalue
    generalize (({} : Memo).readSetting now' s g id withEdits).1 = built at hvalue ⊢
    generalize ((after moves).memo.readSetting now s g id withEdits).1 = found at hvalue ⊢
    cases built with
    | none =>
      cases hvalue
      exact .none
    | some y =>
      cases hvalue with
      | some hequals => exact .some hequals
  · rw [Memo.readEditedIds_value ho hsound hs now g, Memo.readEditedIds_value ho hfresh hs now' g]
  · obtain ⟨t, ht⟩ := Memo.readSettings_value ho hsound hs now g true
    rw [ht]
    have hmerge := Memo.forall₂_merge t (State.part s.settings g) (State.part s.edits g)
    simp only [← State.edit?_eq] at hmerge
    exact hmerge

/-- Two settings are reported; from there one of them is edited in two ways, and both ways are
read. -/
def branches : List HistoryMove :=
  [.reduce 0 (.receiveSettings "g"
      [{ id := "a", value := .bool false }, { id := "b", value := .text "x" }]),
    .reduce 1 (.edit "g" "a" (.bool true)), .readSettings 2 "g" true, .readSetting 2 "g" "a" true,
    .readEditedIds 2 "g",
    .reduce 1 (.editAll "g" [⟨"b", .text "y"⟩, ⟨"c", .text "z"⟩]), .readSettings 3 "g" true,
    .readEditedIds 3 "g"]

/-- The memo holds what was read last, and the state before it still reads as it is. -/
theorem older_branch_reads_fresh :
    ((after branches).memo.settings.get? "g").isSome = true ∧
      (((after branches).memo.readSettings 9 ((after branches).state 2) "g" true).1.value.map
        (·.1)) = ["a", "b"] ∧
      List.Forall₂ (fun x y => x.1 = y.1 ∧ x.2.value.equals y.2.value = true)
        ((after branches).memo.readSettings 9 ((after branches).state 2) "g" true).1.value
        (({} : Memo).readSettings 9 ((after branches).state 2) "g" true).1.value ∧
      Option.Rel (fun x y => x.value.equals y.value = true)
        ((after branches).memo.readSetting 9 ((after branches).state 2) "g" "a" true).1
        (({} : Memo).readSetting 9 ((after branches).state 2) "g" "a" true).1 ∧
      ((after branches).memo.readEditedIds 9 ((after branches).state 2) "g").1.value = ["a"] := by
  have hmoves : ∀ m ∈ branches, m.proper = true := List.all_eq_true.mp rfl
  have hmem := (orderly_after branches hmoves).state_mem 2
  obtain ⟨hsettings, hsetting, hids, -⟩ := reads_are_transparent branches hmoves hmem 9 9 "g"
  exact ⟨rfl, rfl, hsettings true, hsetting "a" true, hids.trans rfl⟩

end History

end RemoteSettings
