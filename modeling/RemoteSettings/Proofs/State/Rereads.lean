import RemoteSettings.Proofs.State.Sharing
import RemoteSettings.Proofs.State.Transitions

/-!
# Reading again

What a read gives depends on the parts of the state under its key, and on what is remembered under
it.  A read that is made again gives the same result, whatever else has been read in between, and
whatever actions have had nothing to do with these parts.

## Main definitions

* `ReadKey`, `HistoryMove.key?` — the key under which a move reads.

## Main results

* `Memo.readSettings_again`, `Memo.readSetting_again`, `Memo.readEditedIds_again` — what is
  remembered under the key and the same parts give the same result.
* `State.edit?_reduce_of_not_names`, `State.setting?_reduce_of_not_names` — an action changes only
  what it is about.
* `History.reads_share_results` — **a result is given again exactly while it is what there is.**
-/

namespace RemoteSettings

/-! ### The same parts -/

namespace Memo

variable {m m' : Memo} {clock now now' : Nat} {s s' : State} {g id : String} {withEdits : Bool}

/-- What a read of settings has left, and the same parts, give the same settings. -/
theorem readSettings_again (hs : s.SameOf g s')
    (hentry : m'.settings.get? g = (m.readSettings now s g withEdits).2.settings.get? g) :
    (m'.readSettings now' s' g withEdits).1 = (m.readSettings now s g withEdits).1 := by
  have hread := m.settingsRead now s g withEdits
  generalize m.readSettings now s g withEdits = r at hread hentry ⊢
  have hsettings := hs.settings
  have hedits := hs.edits
  cases hread with
  | absent hp => rw [readSettings, hsettings, hp]
  | unedited hp hq => rw [readSettings, hsettings, hp, hedits, hq]
  | plain hp hq =>
    rw [readSettings, hsettings, hp, hedits, hq]
    rfl
  | known hp hq hk hsame =>
    rw [readSettings, hsettings, hp, hedits, hq, hentry, hk]
    simp [hsame]
  | built hp hq _ =>
    rw [Keyed.get?_put_self] at hentry
    rw [readSettings, hsettings, hp, hedits, hq, hentry]
    simp

/-- What a read of a setting has left, and the same setting with the same edit, give the same
result.  The edit must be equal to itself. -/
theorem readSetting_again (hsetting : s'.setting? g id = s.setting? g id)
    (hedit : s'.edit? g id = s.edit? g id)
    (hself : ∀ e, s.edit? g id = some e → (e == e) = true)
    (hentry : m'.setting.get? (g, id)
      = (m.readSetting now s g id withEdits).2.setting.get? (g, id)) :
    (m'.readSetting now' s' g id withEdits).1 = (m.readSetting now s g id withEdits).1 := by
  have hread := m.settingRead now s g id withEdits
  generalize m.readSetting now s g id withEdits = r at hread hentry ⊢
  cases hread with
  | absent hx => rw [readSetting, hsetting, hx]
  | unedited hx he => rw [readSetting, hsetting, hx, hedit, he]
  | plain hx he =>
    rw [readSetting, hsetting, hx, hedit, he]
    rfl
  | known hx he hk hsame =>
    rw [readSetting, hsetting, hx, hedit, he, hentry, hk]
    simp [hsame]
  | built hx he _ =>
    rw [Keyed.get?_put_self] at hentry
    rw [readSetting, hsetting, hx, hedit, he, hentry]
    simp [hself _ he]

/-- What a read of edited ids has left, and the same edits, give the same ids. -/
theorem readEditedIds_again (hs : s.SameOf g s')
    (hentry : m'.editedIds.get? g = (m.readEditedIds now s g).2.editedIds.get? g) :
    (m'.readEditedIds now' s' g).1 = (m.readEditedIds now s g).1 := by
  have hread := m.idsRead now s g
  generalize m.readEditedIds now s g = r at hread hentry ⊢
  have hedits := hs.edits
  cases hread with
  | absent hq => rw [readEditedIds, hedits, hq]
  | known hq hk hsame =>
    rw [readEditedIds, hedits, hq, hentry, hk]
    simp [hsame]
  | built hq _ =>
    rw [Keyed.get?_put_self] at hentry
    rw [readEditedIds, hedits, hq, hentry]
    simp

end Memo

/-! ### Actions that are about something else -/

namespace State

variable {s : State} {g id : String}

/-- A setting that an action is not about stays the same part. -/
theorem setting?_reduce_of_not_names {a : Action} (h : ¬a.Names (.setting g id)) (now : Nat)
    (s : State) : (s.reduce now a).setting? g id = s.setting? g id := by
  refine setting?_reduce ?_ now s
  cases a with
  | receiveSettings g' xs =>
    rintro rfl x hx rfl
    exact h (.received (List.mem_map_of_mem hx))
  | _ => trivial

/-- An edit that an action is not about stays as it is. -/
theorem edit?_reduce_of_not_names (hs : s.Kept) {a : Action} (h : ¬a.Names (.edit g id))
    (now : Nat) : (s.reduce now a).edit? g id = s.edit? g id := by
  cases a with
  | receiveGroups groups => rfl
  | receiveSettings g' xs =>
    rw [edit?_receiveSettings hs, if_neg]
    rintro ⟨rfl, hid⟩
    exact h (.receivedEdit hid)
  | edit g' id' value =>
    rw [edit?_edit hs, if_neg]
    rintro ⟨rfl, rfl⟩
    exact h .edit
  | editAll g' us => exact (sameBut_editAll hs now g' us).edit g id h
  | setSaving g' id' saving => rw [edit?, edits_setSaving, edit?]
  | setError g' id' error => rw [edit?, edits_setError, edit?]
  | revert g' id' =>
    rw [edit?_revert hs, if_neg]
    rintro ⟨rfl, rfl⟩
    exact h .revertEdit
  | revertGroup g' =>
    rw [edit?_revertGroup hs, if_neg]
    rintro rfl
    exact h .revertEdits

theorem setting?_reduceAll {actions : List (Nat × Action)}
    (h : ∀ a ∈ actions, ¬a.2.Names (.setting g id)) (s : State) :
    (s.reduceAll actions).setting? g id = s.setting? g id := by
  induction actions generalizing s with
  | nil => rfl
  | cons a rest ih =>
    obtain ⟨ha, hrest⟩ := List.forall_mem_cons.mp h
    exact (ih hrest _).trans (setting?_reduce_of_not_names ha a.1 s)

theorem edit?_reduceAll (hs : s.Kept) {actions : List (Nat × Action)}
    (h : ∀ a ∈ actions, ¬a.2.Names (.edit g id)) :
    (s.reduceAll actions).edit? g id = s.edit? g id := by
  induction actions generalizing s with
  | nil => rfl
  | cons a rest ih =>
    obtain ⟨ha, hrest⟩ := List.forall_mem_cons.mp h
    exact (ih (hs.reduce a.1 a.2) hrest).trans (edit?_reduce_of_not_names hs ha a.1)

end State

/-! ### Moves that read something else -/

/-- What is read: the settings of a group, one setting, or the edited ids of a group. -/
inductive ReadKey
  | settings (group : String)
  | setting (group id : String)
  | editedIds (group : String)
  deriving DecidableEq

/-- What a move reads. -/
def HistoryMove.key? : HistoryMove → Option ReadKey
  | .reduce _ _ => none
  | .readSettings _ group _ => some (.settings group)
  | .readSetting _ group id _ => some (.setting group id)
  | .readEditedIds _ group => some (.editedIds group)

namespace History

variable {h : History} {ms : List HistoryMove} {g id : String}

/-- What is remembered of the settings of a group stays until they are read. -/
theorem get?_settings_unread (hms : ∀ m ∈ ms, m.key? ≠ some (.settings g)) :
    (ms.foldl move h).memo.settings.get? g = h.memo.settings.get? g := by
  induction ms generalizing h with
  | nil => rfl
  | cons m ms ih =>
    obtain ⟨hm, hrest⟩ := List.forall_mem_cons.mp hms
    refine (ih hrest).trans ?_
    cases m with
    | reduce base a => rfl
    | readSettings base g' withEdits =>
      refine (h.memo.readSettings_frame _ _ _ _).2.2 g ?_
      rintro rfl
      exact hm rfl
    | readSetting base g' id withEdits =>
      exact congrArg (Keyed.get? g) (h.memo.readSetting_frame _ _ _ _ _).1
    | readEditedIds base g' => exact congrArg (Keyed.get? g) (h.memo.readEditedIds_frame _ _ _).1

/-- What is remembered of a setting stays until it is read. -/
theorem get?_setting_unread (hms : ∀ m ∈ ms, m.key? ≠ some (.setting g id)) :
    (ms.foldl move h).memo.setting.get? (g, id) = h.memo.setting.get? (g, id) := by
  induction ms generalizing h with
  | nil => rfl
  | cons m ms ih =>
    obtain ⟨hm, hrest⟩ := List.forall_mem_cons.mp hms
    refine (ih hrest).trans ?_
    cases m with
    | reduce base a => rfl
    | readSettings base g' withEdits =>
      exact congrArg (Keyed.get? (g, id)) (h.memo.readSettings_frame _ _ _ _).1
    | readSetting base g' id' withEdits =>
      refine (h.memo.readSetting_frame _ _ _ _ _).2.2 (g, id) ?_
      rintro ⟨⟩
      exact hm rfl
    | readEditedIds base g' =>
      exact congrArg (Keyed.get? (g, id)) (h.memo.readEditedIds_frame _ _ _).2.1

/-- What is remembered of the edited ids of a group stays until they are read. -/
theorem get?_editedIds_unread (hms : ∀ m ∈ ms, m.key? ≠ some (.editedIds g)) :
    (ms.foldl move h).memo.editedIds.get? g = h.memo.editedIds.get? g := by
  induction ms generalizing h with
  | nil => rfl
  | cons m ms ih =>
    obtain ⟨hm, hrest⟩ := List.forall_mem_cons.mp hms
    refine (ih hrest).trans ?_
    cases m with
    | reduce base a => rfl
    | readSettings base g' withEdits =>
      exact congrArg (Keyed.get? g) (h.memo.readSettings_frame _ _ _ _).2.1
    | readSetting base g' id withEdits =>
      exact congrArg (Keyed.get? g) (h.memo.readSetting_frame _ _ _ _ _).2.1
    | readEditedIds base g' =>
      refine (h.memo.readEditedIds_frame _ _ _).2.2 g ?_
      rintro rfl
      exact hm rfl

/-! ### Results of reads -/

/-- **A result is given again exactly while it is what there is.**  Whatever has been read and done
before, a read that merges parts gives the result of the last merging read under its key if that has
not been evicted and the parts are the same, and otherwise a result that no state has and no read
has given.  A read that is made again after reads under other keys, and after actions that are not
about its parts, gives the same result. -/
theorem reads_share_results (moves : List HistoryMove) (hmoves : ∀ m ∈ moves, m.proper = true)
    (base : Nat) (g : String) :
    let h := after moves
    let s := h.state base
    (∀ p q, s.settings.value.get? g = some p → s.edits.value.get? g = some q →
        Visit.Shared (trail (settingsVisit? g) {} moves)
          (fun parts _ => p.same parts.1 = true ∧ q.same parts.2 = true)
          (fun r => Among State.HasSettings h.states r ∨ r ∈ trail settingsGiven? {} moves)
          (Memo.merge (h.clock + 1) p.value q.value)
          (h.memo.readSettings (h.clock + 1) s g true).1) ∧
      (∀ id x e, s.setting? g id = some x → s.edit? g id = some e →
        ∃ r, (h.memo.readSetting (h.clock + 1) s g id true).1 = some r ∧
          Visit.Shared (trail (settingVisit? g id) {} moves)
            (fun parts r₀ => x.same parts.1 = true ∧ (r₀.value.value == e) = true)
            (fun r => Among State.HasSetting h.states r ∨ r ∈ trail settingGiven? {} moves)
            (x.value.withValue e) r) ∧
      (∀ q, s.edits.value.get? g = some q →
        Visit.Shared (trail (idsVisit? g) {} moves) (fun q₀ _ => q.same q₀ = true)
          (· ∈ trail idsGiven? {} moves) q.value.keys
          (h.memo.readEditedIds (h.clock + 1) s g).1) ∧
      ∀ (ms : List HistoryMove) (actions : List (Nat × Action)) (now : Nat),
        (∀ withEdits, (∀ m ∈ ms, m.key? ≠ some (.settings g)) →
          (∀ a ∈ actions, a.2.group? ≠ some g) →
          ((ms.foldl move (h.move (.readSettings base g withEdits))).memo.readSettings now
              (s.reduceAll actions) g withEdits).1
            = (h.memo.readSettings (h.clock + 1) s g withEdits).1) ∧
        (∀ id withEdits, (∀ m ∈ ms, m.key? ≠ some (.setting g id)) →
          (∀ a ∈ actions, ¬a.2.Names (.setting g id) ∧ ¬a.2.Names (.edit g id)) →
          ((ms.foldl move (h.move (.readSetting base g id withEdits))).memo.readSetting now
              (s.reduceAll actions) g id withEdits).1
            = (h.memo.readSetting (h.clock + 1) s g id withEdits).1) ∧
        ((∀ m ∈ ms, m.key? ≠ some (.editedIds g)) →
          (∀ a ∈ actions, a.2.group? ≠ some g) →
          ((ms.foldl move (h.move (.readEditedIds base g))).memo.readEditedIds now
              (s.reduceAll actions) g).1
            = (h.memo.readEditedIds (h.clock + 1) s g).1) := by
  intro h s
  have ho : h.Orderly := orderly_after moves hmoves
  have hs : s.Reachable := ho.reachable s (ho.state_mem base)
  refine ⟨fun p q => shared_settings hmoves, fun id x e => shared_setting hmoves,
    fun q => shared_ids hmoves, fun ms actions now => ⟨fun withEdits hms hactions => ?_,
      fun id withEdits hms hactions => ?_, fun hms hactions => ?_⟩⟩
  · exact Memo.readSettings_again (State.sameOf_reduceAll hs.kept hactions)
      (get?_settings_unread hms)
  · exact Memo.readSetting_again (State.setting?_reduceAll (fun a ha => (hactions a ha).1) s)
      (State.edit?_reduceAll hs.kept fun a ha => (hactions a ha).2)
      (fun e he => Value.equals_self (hs.proper.edits g id e he)) (get?_setting_unread hms)
  · exact Memo.readEditedIds_again (State.sameOf_reduceAll hs.kept hactions)
      (get?_editedIds_unread hms)

/-- Two settings are reported and one of them is edited; then settings are read, and read again
after the edit is gone and has come back. -/
def editedTwice : List HistoryMove :=
  [.reduce 0 (.receiveSettings "g"
      [{ id := "a", value := .bool false }, { id := "b", value := .text "x" }]),
    .reduce 1 (.edit "g" "a" (.bool true)), .readSettings 2 "g" true, .readSetting 2 "g" "a" true,
    .reduce 2 (.revert "g" "a"), .readSettings 3 "g" true,
    .reduce 3 (.edit "g" "a" (.bool true)), .readEditedIds 4 "g"]

/-- The settings of the group are built anew, since they have been evicted.  The setting is the one
that was read before, although its edit is another one, and it is read again after the settings of
the group have been read and another setting has been edited. -/
theorem editedTwice_shares :
    let h := after editedTwice
    (∀ p, Among State.HasSettings h.states p ∨ p ∈ trail settingsGiven? {} editedTwice →
        (h.memo.readSettings 9 (h.state 4) "g" true).1.same p = false) ∧
      (∃ r, (h.memo.readSetting 9 (h.state 4) "g" "a" true).1 = some r ∧ r.version = ⟨4, 0⟩) ∧
      (((h.move (.readSetting 4 "g" "a" true)).move (.readSettings 4 "g" true)).memo.readSetting 12
          ((h.state 4).reduceAll [(11, .edit "g" "b" (.text "y"))]) "g" "a" true).1
        = (h.memo.readSetting 9 (h.state 4) "g" "a" true).1 := by
  intro h
  have hmoves : ∀ m ∈ editedTwice, m.proper = true := List.all_eq_true.mp rfl
  obtain ⟨hsettings, hsetting, -, hagain⟩ := reads_share_results editedTwice hmoves 4 "g"
  refine ⟨((hsettings _ _ rfl rfl).fresh ?_).2, ?_, ?_⟩
  · rintro ⟨before, parts, r₀, hlast, -⟩
    have hevicted : (trail (settingsVisit? "g") {} editedTwice).getLast? = some .evicting := rfl
    rw [hlast, List.getLast?_concat] at hevicted
    cases hevicted
  · obtain ⟨r, hr, hshared⟩ := hsetting "a" _ _ rfl rfl
    have hsame := hshared.same_iff [] _ _ [] rfl (fun _ _ => List.not_mem_nil)
    refine ⟨r, hr, ?_⟩
    rw [hsame.2 (hsame.1.mpr ⟨List.not_mem_nil, rfl, rfl⟩)]
    rfl
  · refine (hagain [.readSettings 4 "g" true] [(11, .edit "g" "b" (.text "y"))] 12).2.1 "a" true
      ?_ ?_
    · decide
    · intro a ha
      rw [List.mem_singleton.mp ha]
      have hnamed : ∀ i, (Action.edit "g" i (.text "y")).Names (.edit "g" "a") → i = "a" := by
        rintro i ⟨⟩
        rfl
      exact ⟨nofun, fun h => absurd (hnamed "b" h) (by decide)⟩

end History

end RemoteSettings
