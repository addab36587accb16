import Mathlib.Data.List.Induction
import RemoteSettings.Proofs.State.Transparency

/-!
# What is remembered under a key

A read of a history visits what is remembered under its key: it merges parts and leaves its result
there, or it finds nothing to merge and what was remembered is evicted.  A read for which edits do
not count, where there is something to merge, leaves everything as it is and is no visit; nor are
actions, and reads under other keys.

So what is remembered under a key tells the last visit, whatever has happened since.

## Main definitions

* `Visit` — what a read does with what is remembered under its key.
* `History.trail` — what is seen along a history.
* `History.settingsVisit?`, `History.settingVisit?`, `History.idsVisit?` — the visits under a key.
* `Visit.Turns`, `Visit.Recalls` — what one visit and what all visits leave behind.
* `Memo.Kept` — keys stand once, and what is remembered comes from the past.

## Main results

* `History.turns_settings`, `History.turns_setting`, `History.turns_ids` — what a move leaves.
* `History.recalls_after` — **what is remembered under a key tells its last visit.**
-/

namespace RemoteSettings

/-! ### Visits -/

/-- What a read does with what is remembered under its key. -/
inductive Visit (ι ρ : Type)
  /-- There is nothing to merge, and what was remembered is forgotten. -/
  | evicting
  /-- Parts are merged, and this is the result. -/
  | merging (parts : ι) (result : ρ)

namespace Visit

variable {κ ι ρ : Type} {fits : κ → ι → ρ → Prop} {entry : Option κ} {visits : List (Visit ι ρ)}

/-- What a visit, or none, leaves of what was remembered.  A result is remembered so that it fits
the parts. -/
inductive Turns (fits : κ → ι → ρ → Prop) (entry : Option κ) :
    Option (Visit ι ρ) → Option κ → Prop
  | untouched : Turns fits entry none entry
  | evicted : Turns fits entry (some .evicting) none
  | merged {k : κ} {parts : ι} {result : ρ} : fits k parts result →
      Turns fits entry (some (.merging parts result)) (some k)

/-- What is remembered is the result of the last visit; nothing is remembered if that has evicted,
or if there was none. -/
def Recalls (fits : κ → ι → ρ → Prop) (visits : List (Visit ι ρ)) : Option κ → Prop
  | some k => ∃ before parts result,
      visits = before ++ [.merging parts result] ∧ fits k parts result
  | none => ∀ before parts result, visits ≠ before ++ [.merging parts result]

theorem Recalls.nil : Recalls fits ([] : List (Visit ι ρ)) none := by
  intro before parts result h
  simp at h

theorem Recalls.turn (h : Recalls fits visits entry) {visit? : Option (Visit ι ρ)}
    {entry' : Option κ} (hturn : Turns fits entry visit? entry') :
    Recalls fits (visits ++ visit?.toList) entry' := by
  cases hturn with
  | untouched => rwa [Option.toList_none, List.append_nil]
  | evicted =>
    intro before parts result heq
    cases (List.append_inj' heq rfl).2
  | merged hfits => exact ⟨visits, _, _, rfl, hfits⟩

end Visit

/-! ### What is seen along a history -/

namespace History

variable {β : Type}

/-- What is seen of the moves of a history, each in the history before it. -/
def trail (see : History → HistoryMove → Option β) : History → List HistoryMove → List β
  | _, [] => []
  | h, m :: ms => (see h m).toList ++ trail see (h.move m) ms

theorem trail_append (see : History → HistoryMove → Option β) (h : History)
    (ms ns : List HistoryMove) :
    trail see h (ms ++ ns) = trail see h ms ++ trail see (ms.foldl move h) ns := by
  induction ms generalizing h with
  | nil => rfl
  | cons m ms ih => rw [List.cons_append, trail, trail, ih, List.append_assoc, List.foldl_cons]

theorem trail_snoc (see : History → HistoryMove → Option β) (ms : List HistoryMove)
    (m : HistoryMove) :
    trail see {} (ms ++ [m]) = trail see {} ms ++ (see (after ms) m).toList := by
  rw [trail_append, trail, trail, List.append_nil]
  rfl

theorem after_snoc (ms : List HistoryMove) (m : HistoryMove) :
    after (ms ++ [m]) = (after ms).move m := List.foldl_append

/-! ### The visits under a key -/

variable (g id : String) (h : History)

/-- The visit of a move under the settings of a group. -/
def settingsVisit? : HistoryMove → Option (Visit (GroupSettings × GroupEdits) GroupSettings)
  | .readSettings base g' withEdits =>
    if g' = g then
      match (h.state base).settings.value.get? g, (h.state base).edits.value.get? g with
      | some p, some q =>
        if withEdits then
          some (.merging (p, q) (h.memo.readSettings (h.clock + 1) (h.state base) g true).1)
        else none
      | _, _ => some .evicting
    else none
  | _ => none

/-- The visit of a move under a setting. -/
def settingVisit? : HistoryMove → Option (Visit (Versioned Setting × Value) (Versioned Setting))
  | .readSetting base g' id' withEdits =>
    if (g', id') = (g, id) then
      match (h.state base).setting? g id, (h.state base).edit? g id with
      | some x, some e =>
        if withEdits then
          (h.memo.readSetting (h.clock + 1) (h.state base) g id true).1.map fun r =>
            .merging (x, e) r
        else none
      | _, _ => some .evicting
    else none
  | _ => none

/-- The visit of a move under the edited ids of a group. -/
def idsVisit? : HistoryMove → Option (Visit GroupEdits (Versioned (List String)))
  | .readEditedIds base g' =>
    if g' = g then
      match (h.state base).edits.value.get? g with
      | some q => some (.merging q (h.memo.readEditedIds (h.clock + 1) (h.state base) g).1)
      | none => some .evicting
    else none
  | _ => none

end History

/-! ### What is remembered of the parts -/

/-- What is remembered of settings was built from the parts, and is the result. -/
def MergedSettings.Fits (k : MergedSettings) (parts : GroupSettings × GroupEdits)
    (result : GroupSettings) : Prop :=
  k.settings = parts.1.version ∧ k.edits = parts.2.version ∧ k.merged = result

/-- What is remembered of a setting was built from it, with the edit that the result shows. -/
def MergedSetting.Fits (k : MergedSetting) (parts : Versioned Setting × Value)
    (result : Versioned Setting) : Prop :=
  k.setting = parts.1.version ∧ k.edit = result.value.value ∧ k.merged = result

/-- What is remembered of ids was taken from the edits, and is the result. -/
def EditedIds.Fits (k : EditedIds) (edits : GroupEdits) (result : Versioned (List String)) :
    Prop :=
  k.edits = edits.version ∧ k.ids = result

namespace Memo

/-! ### What reads leave of other keys -/

section Frame

variable (m : Memo) (now : Nat) (s : State) (g id : String) (withEdits : Bool)

/-- A read of settings remembers and forgets nothing but settings of its group. -/
theorem readSettings_frame :
    (m.readSettings now s g withEdits).2.setting = m.setting ∧
      (m.readSettings now s g withEdits).2.editedIds = m.editedIds ∧
      ∀ g', g ≠ g' →
        (m.readSettings now s g withEdits).2.settings.get? g' = m.settings.get? g' := by
  have hread := m.settingsRead now s g withEdits
  generalize m.readSettings now s g withEdits = r at hread ⊢
  cases hread with
  | absent | unedited => exact ⟨rfl, rfl, fun g' hg => Keyed.get?_erase_of_ne hg _⟩
  | plain | known => exact ⟨rfl, rfl, fun _ _ => rfl⟩
  | built => exact ⟨rfl, rfl, fun g' hg => Keyed.get?_put_of_ne hg _ _⟩

/-- A read of a setting remembers and forgets nothing but the setting. -/
theorem readSetting_frame :
    (m.readSetting now s g id withEdits).2.settings = m.settings ∧
      (m.readSetting now s g id withEdits).2.editedIds = m.editedIds ∧
      ∀ key, (g, id) ≠ key →
        (m.readSetting now s g id withEdits).2.setting.get? key = m.setting.get? key := by
  have hread := m.settingRead now s g id withEdits
  generalize m.readSetting now s g id withEdits = r at hread ⊢
  cases hread with
  | absent | unedited => exact ⟨rfl, rfl, fun key hkey => Keyed.get?_erase_of_ne hkey _⟩
  | plain | known => exact ⟨rfl, rfl, fun _ _ => rfl⟩
  | built => exact ⟨rfl, rfl, fun key hkey => Keyed.get?_put_of_ne hkey _ _⟩

/-- A read of edited ids remembers and forgets nothing but the ids of its group. -/
theorem readEditedIds_frame :
    (m.readEditedIds now s g).2.settings = m.settings ∧
      (m.readEditedIds now s g).2.setting = m.setting ∧
      ∀ g', g ≠ g' → (m.readEditedIds now s g).2.editedIds.get? g' = m.editedIds.get? g' := by
  have hread := m.idsRead now s g
  generalize m.readEditedIds now s g = r at hread ⊢
  cases hread with
  | absent => exact ⟨rfl, rfl, fun g' hg => Keyed.get?_erase_of_ne hg _⟩
  | known => exact ⟨rfl, rfl, fun _ _ => rfl⟩
  | built => exact ⟨rfl, rfl, fun g' hg => Keyed.get?_put_of_ne hg _ _⟩

end Frame

/-- Nothing is remembered twice under a key, and what is remembered comes from the past. -/
structure Kept (m : Memo) (clock : Nat) : Prop where
  settingsKeys : m.settings.keys.Nodup
  settingKeys : m.setting.keys.Nodup
  idsKeys : m.editedIds.keys.Nodup
  settings : ∀ e ∈ m.settings, e.2.merged.version.time ≤ clock
  setting : ∀ e ∈ m.setting, e.2.merged.version.time ≤ clock ∧ e.2.edit = e.2.merged.value.value
  ids : ∀ e ∈ m.editedIds, e.2.ids.version.time ≤ clock

variable {m : Memo} {clock : Nat}

theorem Kept.empty : ({} : Memo).Kept 0 where
  settingsKeys := List.nodup_nil
  settingKeys := List.nodup_nil
  idsKeys := List.nodup_nil
  settings _ he := absurd he List.not_mem_nil
  setting _ he := absurd he List.not_mem_nil
  ids _ he := absurd he List.not_mem_nil

theorem Kept.later (h : m.Kept clock) : m.Kept (clock + 1) :=
  { h with
    settings := fun e he => Nat.le_succ_of_le (h.settings e he)
    setting := fun e he => (h.setting e he).imp_left Nat.le_succ_of_le
    ids := fun e he => Nat.le_succ_of_le (h.ids e he) }

theorem Kept.readSettings (h : m.Kept clock) (s : State) (g : String) (withEdits : Bool) :
    (m.readSettings (clock + 1) s g withEdits).2.Kept (clock + 1) := by
  have hlater := h.later
  have hread := m.settingsRead (clock + 1) s g withEdits
  generalize m.readSettings (clock + 1) s g withEdits = r at hread ⊢
  cases hread with
  | absent | unedited =>
    exact { hlater with
      settingsKeys := Keyed.nodup_keys_erase h.settingsKeys g
      settings := fun e he => hlater.settings e (Keyed.mem_of_mem_erase he) }
  | plain | known => exact hlater
  | built =>
    refine { hlater with
      settingsKeys := Keyed.nodup_keys_put h.settingsKeys g _
      settings := fun e he => ?_ }
    rcases Keyed.mem_of_mem_put he with rfl | he
    · exact Nat.le_refl _
    · exact hlater.settings e he

theorem Kept.readSetting (h : m.Kept clock) (s : State) (g id : String) (withEdits : Bool) :
    (m.readSetting (clock + 1) s g id withEdits).2.Kept (clock + 1) := by
  have hlater := h.later
  have hread := m.settingRead (clock + 1) s g id withEdits
  generalize m.readSetting (clock + 1) s g id withEdits = r at hread ⊢
  cases hread with
  | absent | unedited =>
    exact { hlater with
      settingKeys := Keyed.nodup_keys_erase h.settingKeys _
      setting := fun e he => hlater.setting e (Keyed.mem_of_mem_erase he) }
  | plain | known => exact hlater
  | built =>
    refine { hlater with
      settingKeys := Keyed.nodup_keys_put h.settingKeys _ _
      setting := fun e he => ?_ }
    rcases Keyed.mem_of_mem_put he with rfl | he
    · exact ⟨Nat.le_refl _, rfl⟩
    · exact hlater.setting e he

theorem Kept.readEditedIds (h : m.Kept clock) (s : State) (g : String) :
    (m.readEditedIds (clock + 1) s g).2.Kept (clock + 1) := by
  have hlater := h.later
  have hread := m.idsRead (clock + 1) s g
  generalize m.readEditedIds (clock + 1) s g = r at hread ⊢
  cases hread with
  | absent =>
    exact { hlater with
      idsKeys := Keyed.nodup_keys_erase h.idsKeys g
      ids := fun e he => hlater.ids e (Keyed.mem_of_mem_erase he) }
  | known => exact hlater
  | built =>
    refine { hlater with
      idsKeys := Keyed.nodup_keys_put h.idsKeys g _
      ids := fun e he => ?_ }
    rcases Keyed.mem_of_mem_put he with rfl | he
    · exact Nat.le_refl _
    · exact hlater.ids e he

end Memo

namespace History

variable {h : History}

theorem kept_move (hm : h.memo.Kept h.clock) (m : HistoryMove) :
    (h.move m).memo.Kept (h.move m).clock := by
  cases m with
  | reduce base a => exact hm.later
  | readSettings base g withEdits => exact hm.readSettings _ g withEdits
  | readSetting base g id withEdits => exact hm.readSetting _ g id withEdits
  | readEditedIds base g => exact hm.readEditedIds _ g

/-- What is remembered is well kept, whatever happens. -/
theorem kept_after (moves : List HistoryMove) : (after moves).memo.Kept (after moves).clock := by
  induction moves using List.reverseRecOn with
  | nil => exact Memo.Kept.empty
  | append_singleton moves m ih =>
    rw [after_snoc]
    exact kept_move ih m

/-! ### What a move leaves -/

/-- What a move leaves of the settings of a group. -/
theorem turns_settings (hm : h.memo.Kept h.clock) (g : String) (m : HistoryMove) :
    Visit.Turns MergedSettings.Fits (h.memo.settings.get? g) (settingsVisit? g h m)
      ((h.move m).memo.settings.get? g) := by
  cases m with
  | reduce base a => exact .untouched
  | readSetting base g' id withEdits =>
    rw [move, (h.memo.readSetting_frame _ _ _ _ _).1]
    exact .untouched
  | readEditedIds base g' =>
    rw [move, (h.memo.readEditedIds_frame _ _ _).1]
    exact .untouched
  | readSettings base g' withEdits =>
    rw [move, settingsVisit?]
    split
    · next hg =>
      subst hg
      have hread := h.memo.settingsRead (h.clock + 1) (h.state base) g' withEdits
      generalize hr : h.memo.readSettings (h.clock + 1) (h.state base) g' withEdits = r at hread ⊢
      cases hread with
      | absent hp =>
        rw [hp, Keyed.get?_erase_self hm.settingsKeys]
        exact .evicted
      | unedited hp hq =>
        rw [hp, hq, Keyed.get?_erase_self hm.settingsKeys]
        exact .evicted
      | plain hp hq =>
        rw [hp, hq]
        exact .untouched
      | known hp hq hk hsame =>
        rw [hp, hq, hr, hk]
        exact .merged ⟨hsame.1, hsame.2, rfl⟩
      | built hp hq _ =>
        rw [hp, hq, hr, Keyed.get?_put_self]
        exact .merged ⟨rfl, rfl, rfl⟩
    · next hg =>
      rw [(h.memo.readSettings_frame _ _ _ _).2.2 g hg]
      exact .untouched

/-- What a move leaves of a setting. -/
theorem turns_setting (hm : h.memo.Kept h.clock) (g id : String) (m : HistoryMove) :
    Visit.Turns MergedSetting.Fits (h.memo.setting.get? (g, id)) (settingVisit? g id h m)
      ((h.move m).memo.setting.get? (g, id)) := by
  cases m with
  | reduce base a => exact .untouched
  | readSettings base g' withEdits =>
    rw [move, (h.memo.readSettings_frame _ _ _ _).1]
    exact .untouched
  | readEditedIds base g' =>
    rw [move, (h.memo.readEditedIds_frame _ _ _).2.1]
    exact .untouched
  | readSetting base g' id' withEdits =>
    rw [move, settingVisit?]
    split
    · next hkey =>
      cases hkey
      have hread := h.memo.settingRead (h.clock + 1) (h.state base) g id withEdits
      generalize hr : h.memo.readSetting (h.clock + 1) (h.state base) g id withEdits = r at hread ⊢
      cases hread with
      | absent hx =>
        rw [hx, Keyed.get?_erase_self hm.settingKeys]
        exact .evicted
      | unedited hx he =>
        rw [hx, he, Keyed.get?_erase_self hm.settingKeys]
        exact .evicted
      | plain hx he =>
        rw [hx, he]
        exact .untouched
      | known hx he hk hsame =>
        rw [hx, he, hr, hk]
        -- The edit that was remembered need not be the one that there is, but the result shows it.
        exact .merged ⟨hsame.1, (hm.setting _ (Keyed.mem_of_get? hk)).2, rfl⟩
      | built hx he _ =>
        rw [hx, he, hr, Keyed.get?_put_self]
        exact .merged ⟨rfl, rfl, rfl⟩
    · next hkey =>
      rw [(h.memo.readSetting_frame _ _ _ _ _).2.2 (g, id) hkey]
      exact .untouched

/-- What a move leaves of the edited ids of a group. -/
theorem turns_ids (hm : h.memo.Kept h.clock) (g : String) (m : HistoryMove) :
    Visit.Turns EditedIds.Fits (h.memo.editedIds.get? g) (idsVisit? g h m)
      ((h.move m).memo.editedIds.get? g) := by
  cases m with
  | reduce base a => exact .untouched
  | readSettings base g' withEdits =>
    rw [move, (h.memo.readSettings_frame _ _ _ _).2.1]
    exact .untouched
  | readSetting base g' id withEdits =>
    rw [move, (h.memo.readSetting_frame _ _ _ _ _).2.1]
    exact .untouched
  | readEditedIds base g' =>
    rw [move, idsVisit?]
    split
    · next hg =>
      subst hg
      have hread := h.memo.idsRead (h.clock + 1) (h.state base) g'
      generalize hr : h.memo.readEditedIds (h.clock + 1) (h.state base) g' = r at hread ⊢
      cases hread with
      | absent hq =>
        rw [hq, Keyed.get?_erase_self hm.idsKeys]
        exact .evicted
      | known hq hk hsame =>
        rw [hq, hk]
        exact .merged ⟨hsame, rfl⟩
      | built hq _ =>
        rw [hq, Keyed.get?_put_self]
        exact .merged ⟨rfl, rfl⟩
    · next hg =>
      rw [(h.memo.readEditedIds_frame _ _ _).2.2 g hg]
      exact .untouched

/-- **What is remembered under a key tells its last visit**, if each move turns it as it does. -/
theorem recalls_after {κ ι ρ : Type} {fits : κ → ι → ρ → Prop}
    {visit? : History → HistoryMove → Option (Visit ι ρ)} (entry : Memo → Option κ)
    (hstart : entry {} = none)
    (hturns : ∀ h : History, h.memo.Kept h.clock → ∀ m,
      Visit.Turns fits (entry h.memo) (visit? h m) (entry (h.move m).memo))
    (moves : List HistoryMove) :
    Visit.Recalls fits (trail visit? {} moves) (entry (after moves).memo) := by
  induction moves using List.reverseRecOn with
  | nil => exact hstart ▸ Visit.Recalls.nil
  | append_singleton moves m ih =>
    rw [after_snoc, trail_snoc]
    exact ih.turn (hturns _ (kept_after moves) m)

end History

end RemoteSettings
