import RemoteSettings.Proofs.State.Representation
import RemoteSettings.Proofs.Store.Departure

/-!
# What is submitted

To save what is edited, the store reads the ids of the edits, which it may have remembered, and
looks up each of them.  What it has remembered is always up to date, so it submits the edits that
there are, in their order, and leaves none out.

## Main definitions

* `Store.Tracked` — what has been remembered of edited ids belongs to states that there have been.

## Main results

* `tracked_after` — after any run it does.
* `Tracked.submission_eq` — **the edits of a group are what is submitted.**
* `Tracked.saveOf?_saveEditedSetting`, `Tracked.saveOf?_saveEditedSettings` — the saves of edits.
-/

namespace RemoteSettings

/-- A group has edits exactly if there is something in its part. -/
theorem State.hasEdits_eq (s : State) (g : String) :
    s.hasEdits g = !(part s.edits g).isEmpty := by
  rw [hasEdits, part]
  cases s.edits.value.get? g <;> rfl

namespace Store

variable {s t : Store}

/-- What has been remembered of edited ids belongs to states that there have been, of which the
state is one. -/
def Tracked (s : Store) : Prop := ∃ states, s.state ∈ states ∧ s.memo.Tracks s.clock states

/-- Whatever changes the state by actions keeps track. -/
theorem Evolves.tracked (h : s.Evolves t) (hs : s.Tracked) : t.Tracked := by
  induction h with
  | refl => exact hs
  | @dispatch t a _ ih =>
    obtain ⟨states, hstate, htracks⟩ := ih
    refine ⟨states ++ [t.state.reduce (t.clock + 1) a], ?_, ?_⟩
    · rw [Store.dispatch]
      split
      · exact List.mem_append_left _ hstate
      · exact List.mem_append_right _ (List.mem_singleton_self _)
    · have hmemo : (t.dispatch a).memo = t.memo := by rw [dispatch_eq]
      rw [hmemo, dispatch_clock]
      exact htracks.reduce hstate a
  | readEditedIds group _ ih =>
    obtain ⟨states, hstate, htracks⟩ := ih
    exact ⟨states, hstate, htracks.readEditedIds hstate group⟩
  | frame _ hstate hclock hids _ ih =>
    obtain ⟨states, hmem, htracks⟩ := ih
    exact ⟨states, hstate ▸ hmem, htracks.later hclock hids⟩

/-- After any run, what has been remembered of edited ids belongs to states that there have been. -/
theorem tracked_after (name : String) (endpoints : Endpoints) (ms : List StoreMove) :
    ((Store.fresh name endpoints).after ms).Tracked :=
  (Evolves.after (Store.fresh name endpoints) ms).tracked
    ⟨[.empty], List.mem_singleton_self _, Memo.Tracks.start⟩

namespace Tracked

theorem regular (hs : s.Tracked) : s.state.Regular := by
  obtain ⟨states, hstate, htracks⟩ := hs
  exact htracks.regular _ hstate

/-- The ids that are read are the keys of the edits. -/
theorem readEditedIds_value (hs : s.Tracked) (g : String) :
    (s.readEditedIds g).1.value = (State.part s.state.edits g).keys := by
  obtain ⟨states, hstate, htracks⟩ := hs
  exact htracks.readEditedIds_value hstate _ g

/-- **The edits of a group are what is submitted**, in their order. -/
theorem submission_eq (hs : s.Tracked) (g : String) :
    s.submission g = (State.part s.state.edits g).map fun e => ⟨e.1, e.2⟩ := by
  have hvalue : ∀ e ∈ State.part s.state.edits g,
      ((s.state.value? g e.1 true).map fun value => (⟨e.1, value⟩ : Update)) = some ⟨e.1, e.2⟩ := by
    intro e he
    have hedit : s.state.edit? g e.1 = some e.2 := by
      rw [State.edit?_eq]
      exact Keyed.get?_of_mem (hs.regular.kept.edits.distinct g) he
    rw [State.value?, if_pos rfl, hedit]
    rfl
  rw [submission, hs.readEditedIds_value, Keyed.keys, List.filterMap_map]
  exact (List.filterMap_congr hvalue).trans (congrFun List.filterMap_eq_map _)

/-- An update is submitted exactly if it is an edit. -/
theorem mem_submission (hs : s.Tracked) (g : String) (u : Update) :
    u ∈ s.submission g ↔ s.state.edit? g u.id = some u.value := by
  rw [hs.submission_eq, List.mem_map, State.edit?_eq]
  constructor
  · rintro ⟨e, he, rfl⟩
    exact Keyed.get?_of_mem (hs.regular.kept.edits.distinct g) he
  · intro hu
    exact ⟨(u.id, u.value), Keyed.mem_of_get? hu, rfl⟩

/-- The edits of a group are saved if there are any. -/
theorem saveOf?_saveEditedSettings (hs : s.Tracked) (g : String) :
    s.saveOf? (.saveEditedSettings g)
      = if s.state.hasEdits g then some (.saveBatch g (s.submission g)) else none := by
  have hempty : (s.submission g).isEmpty = (State.part s.state.edits g).isEmpty := by
    rw [hs.submission_eq, List.isEmpty_map]
  rw [saveOf?, hempty, State.hasEdits_eq]
  cases (State.part s.state.edits g).isEmpty <;> rfl

/-- A setting is saved if it is edited. -/
theorem saveOf?_saveEditedSetting (hs : s.Tracked) (g id : String) :
    s.saveOf? (.saveEditedSetting g id) = (s.state.edit? g id).map (Remote.saveSetting g id) := by
  have hids : (s.readEditedIds g).1.value.contains id = (s.state.edit? g id).isSome := by
    rw [hs.readEditedIds_value, Bool.eq_iff_iff, List.contains_iff_mem]
    exact State.mem_keys_edits
  rw [saveOf?, hids, State.value?, if_pos rfl]
  cases hedit : s.state.edit? g id with
  | none => cases (s.state.setting? g id).map (·.value.value) <;> rfl
  | some e => rfl

end Tracked

end Store

end RemoteSettings
