import RemoteSettings.Proofs.State.Order
import RemoteSettings.Proofs.Store.Tidy

/-!
# Actions without effect

Subscribers are told of an action if it has rebuilt a branch, and whether a branch is rebuilt is
noted while the action works, entry by entry.  For a user's action on one entry this comes to the
same as whether the contents have changed.  Edits that are recorded together may undo each other:
then something was noted, and yet the contents are those from before.

## Main definitions

* `Action.IsLocal` — what a user of the store does, and no report of the service.
* `State.Noticing` — a change says that something changed whenever something did not stay.
* `Store.Ignores` — an action leaves the very state that there was, and nobody is told.

## Main results

* `noticing_applyEdits` — edits of different settings do not undo each other.
* `reduce_eq_self_of_contents` — an action of which no part is undone, and that leaves the contents
  as they are, rebuilds nothing.
* `ignored_iff_no_part_has_effect` — **an action is ignored if none of its parts has an effect.**
* `undone_edit_is_noticed` — an edit that the same action undoes is told to subscribers.
-/

namespace RemoteSettings

/-- What a user of the store does: edits and reverts, saving flags, and errors that are cleared. -/
inductive Action.IsLocal : Action → Prop
  | edit (group id : String) (value : Value) : IsLocal (.edit group id value)
  | editAll (group : String) (updates : List Update) : IsLocal (.editAll group updates)
  | setSaving (group : String) (id : Option String) (saving : Bool) :
    IsLocal (.setSaving group id saving)
  | clearError (group : String) (id : Option String) : IsLocal (.setError group id none)
  | revert (group id : String) : IsLocal (.revert group id)
  | revertGroup (group : String) : IsLocal (.revertGroup group)

namespace State

/-! ### Changes to a part -/

section Parts

variable {κ α : Type} {change : Keyed κ α → Keyed κ α × Bool} {m : Keyed κ α}

/-- A change that leaves a part as it is says that nothing changed. -/
def Noticing (change : Keyed κ α → Keyed κ α × Bool) (m : Keyed κ α) : Prop :=
  (change m).1 = m → (change m).2 = false

theorem noticing_remove [DecidableEq κ] (key : κ) (m : Keyed κ α) : Noticing (remove key) m := by
  intro hsame
  have hkeys : (m.erase key).keys = m.keys := congrArg Keyed.keys hsame
  rw [Keyed.keys_erase] at hkeys
  have hnone : m.get? key = none := by
    refine Keyed.get?_eq_none_iff.mpr fun hmem => ?_
    have hlength := List.length_erase_add_one hmem
    rw [hkeys] at hlength
    omega
  show m.has key = false
  rw [Keyed.has, hnone]
  rfl

end Parts

section Edits

variable {reported : Option GroupSettings} {m : Keyed String Value} {id : String} {value : Value}

/-- An edit that leaves the edit of its setting as it is says that nothing changed. -/
theorem snd_applyEdit_of_get? (hm : m.keys.Nodup) (hvalue : value.proper = true)
    (hsame : (applyEdit reported id value m).1.get? id = m.get? id) :
    (applyEdit reported id value m).2 = false := by
  rw [get?_applyEdit hm, if_pos rfl, remainingEdit] at hsame
  rw [applyEdit, isReported_eq]
  split
  · next hreported =>
    rw [if_pos hreported] at hsame
    show m.has id = false
    rw [Keyed.has, ← hsame]
    rfl
  · next hreported =>
    rw [if_neg hreported] at hsame
    split
    · rfl
    · next hnew =>
      -- The value would have been found equal to itself.
      rw [if_neg hnew] at hsame
      rw [← hsame] at hnew
      exact absurd (Value.equals_self hvalue) hnew

theorem noticing_applyEdit (hm : m.keys.Nodup) (hvalue : value.proper = true) :
    Noticing (applyEdit reported id value) m := fun hsame =>
  snd_applyEdit_of_get? hm hvalue (by rw [hsame])

/-- **Edits of different settings do not undo each other.** -/
theorem noticing_applyEdits {us : List Update} (hm : m.keys.Nodup)
    (hus : ∀ u ∈ us, u.value.proper = true) (hids : (us.map (·.id)).Nodup) :
    Noticing (applyEdits reported us) m := by
  induction us generalizing m with
  | nil => exact fun _ => rfl
  | cons u us ih =>
    intro hsame
    obtain ⟨hu, hrest⟩ := List.forall_mem_cons.mp hus
    obtain ⟨hid, hids⟩ := List.nodup_cons.mp hids
    have hsame' : (applyEdits reported us (applyEdit reported u.id u.value m).1).1 = m := hsame
    -- No later edit is about the first setting, so the first edit has left its edit as it was.
    have hfirst : (applyEdit reported u.id u.value m).2 = false := by
      refine snd_applyEdit_of_get? hm hu ?_
      rw [← get?_applyEdits_of_not_mem hid (nodup_keys_applyEdit hm), hsame']
    have hkept : (applyEdit reported u.id u.value m).1 = m := faithful_applyEdit _ _ m hfirst
    have hmore : (applyEdits reported us m).2 = false := by
      rw [hkept] at hsame'
      exact ih hm hrest hids hsame'
    rw [applyEdits]
    dsimp only
    rw [hfirst, hkept, hmore]
    rfl

/-- Edits say that nothing changed if each of them says so of the part that there was. -/
theorem snd_applyEdits_eq_false_iff {us : List Update} :
    (applyEdits reported us m).2 = false ↔
      ∀ u ∈ us, (applyEdit reported u.id u.value m).2 = false := by
  induction us with
  | nil => simp [applyEdits]
  | cons u us ih =>
    rw [applyEdits, List.forall_mem_cons]
    dsimp only
    rw [Bool.or_eq_false_iff]
    refine and_congr_right fun hfirst => ?_
    rw [faithful_applyEdit _ _ m hfirst, ih]

end Edits

/-! ### Changes to a branch -/

section Branch

variable {κ α : Type} {now : Nat} {branch : Branch κ α} {g : String}
  {change : Keyed κ α → Keyed κ α × Bool}

theorem updateGroup_of_snd (h : (change (part branch g)).2 = false) :
    updateGroup now branch g change = branch := by
  rw [updateGroup_eq, h, if_neg Bool.false_ne_true]

/-- A branch that has been rebuilt is not the one that there was. -/
theorem snd_of_updateGroup (hold : branch.version.time < now)
    (h : updateGroup now branch g change = branch) : (change (part branch g)).2 = false := by
  rw [Bool.eq_false_iff]
  intro hchanged
  have hversion : (updateGroup now branch g change).version = ⟨now, 0⟩ := by
    rw [updateGroup_eq, if_pos hchanged]
    split <;> rfl
  rw [h] at hversion
  rw [hversion] at hold
  exact Nat.lt_irrefl now hold

/-- A change that notices what it does rebuilds nothing if the contents are those from before. -/
theorem snd_of_bare_updateGroup (hordered : branch.value.Ordered)
    (hnotices : Noticing change (part branch g))
    (h : bare (updateGroup now branch g change) = bare branch) :
    (change (part branch g)).2 = false := by
  have hheld : held (updateGroup now branch g change) g = held branch g := by
    rw [← get?_bare, h, get?_bare]
  rw [held_updateGroup hordered] at hheld
  split at hheld
  · refine hnotices ?_
    have hpart : part branch g = (held branch g).getD [] := rfl
    rw [← hheld] at hpart
    split at hpart
    · next hempty => exact (List.isEmpty_iff.mp hempty).trans hpart.symm
    · exact hpart.symm
  · next hunchanged => exact Bool.eq_false_iff.mpr hunchanged

/-- A part that is put into a branch without changing its contents is the part that there was. -/
theorem part_of_bare_put {v : Version} {p : Versioned (Keyed κ α)}
    (h : bare ⟨v, branch.value.put g p⟩ = bare branch) : part branch g = p.value := by
  have hheld : held branch g = some p.value := by
    rw [← get?_bare, ← h, get?_bare, held_put]
  exact congrArg (·.getD []) hheld

theorem dropGroup_of_bare (hordered : branch.value.Ordered)
    (h : bare (dropGroup now branch g) = bare branch) : dropGroup now branch g = branch := by
  have hnone : held branch g = none := by
    rw [← get?_bare, ← h, get?_bare, held_dropGroup hordered]
  have hmissing : branch.value.has g = false := by
    rw [Sorted.has, Option.map_eq_none_iff.mp hnone]
    rfl
  rw [dropGroup, hmissing, if_neg Bool.false_ne_true]

end Branch

/-! ### Actions -/

variable {s : State} {now : Nat} {a : Action}

/-- What an action does to edits, flags and errors, if the contents are those from before. -/
theorem reduce_eq_self_of_contents (hs : s.Kept) (hlocal : a.IsLocal) (hproper : a.proper = true)
    (hdistinct : ∀ g, (a.edited g).Nodup) (h : (s.reduce now a).contents = s.contents) :
    s.reduce now a = s := by
  have hedits := congrArg Contents.edits h
  have herrors := congrArg Contents.errors h
  cases hlocal with
  | edit g id value =>
    have hnotices : Noticing (applyEdit (s.settings.value.get? g) id value) (part s.edits g) :=
      noticing_applyEdit (hs.edits.distinct g) hproper
    rw [reduce, updateGroup_of_snd (snd_of_bare_updateGroup hs.edits.ordered hnotices hedits)]
  | editAll g us =>
    have hids : (us.map (·.id)).Nodup := by simpa [Action.edited] using hdistinct g
    have hnotices : Noticing (applyEdits (s.settings.value.get? g) us) (part s.edits g) :=
      noticing_applyEdits (hs.edits.distinct g) (List.all_eq_true.mp hproper) hids
    rw [reduce, updateGroup_of_snd (snd_of_bare_updateGroup hs.edits.ordered hnotices hedits)]
  | setSaving g id saving =>
    cases id with
    | none =>
      have hflags := congrArg Contents.savingGroups h
      rw [reduce] at hflags ⊢
      split at hflags
      · next hsame => rw [if_pos hsame]
      · have hget : s.savingGroups.value.get? g = some saving := by
          have hput : s.savingGroups.value.put g saving = s.savingGroups.value := hflags
          rw [← hput, Sorted.get?_put, if_pos rfl]
        rw [if_pos hget]
    | some id =>
      have hflags := congrArg Contents.savingSettings h
      rw [reduce] at hflags ⊢
      split at hflags
      · next hsame => exact if_pos hsame
      · have hpart : part s.savingSettings g = Keyed.put id saving _ := part_of_bare_put hflags
        have hget : (part s.savingSettings g).get? id = some saving := by
          rw [hpart, Keyed.get?_put_self]
        exact if_pos hget
  | clearError g id =>
    cases id with
    | none => rw [reduce, dropGroup_of_bare hs.errors.ordered herrors]
    | some id =>
      have hnotices := noticing_remove (ErrorKey.setting id) (part s.errors g)
      rw [reduce, updateGroup_of_snd (snd_of_bare_updateGroup hs.errors.ordered hnotices herrors)]
  | revert g id =>
    have hedit := noticing_remove id (part s.edits g)
    have herror := noticing_remove (ErrorKey.setting id) (part s.errors g)
    rw [reduce, updateGroup_of_snd (snd_of_bare_updateGroup hs.edits.ordered hedit hedits),
      updateGroup_of_snd (snd_of_bare_updateGroup hs.errors.ordered herror herrors)]
  | revertGroup g =>
    rw [reduce, dropGroup_of_bare hs.edits.ordered hedits,
      dropGroup_of_bare hs.errors.ordered herrors]

/-- An edit by itself rebuilds nothing exactly if it says that nothing changed. -/
theorem contents_edit_iff (hs : s.Kept) {g : String} {u : Update} (hu : u.value.proper = true) :
    (s.reduce now (.edit g u.id u.value)).contents = s.contents ↔
      (applyEdit (s.settings.value.get? g) u.id u.value (part s.edits g)).2 = false := by
  constructor
  · intro h
    exact snd_of_bare_updateGroup hs.edits.ordered (noticing_applyEdit (hs.edits.distinct g) hu)
      (congrArg Contents.edits h)
  · intro h
    rw [reduce, updateGroup_of_snd h]

/-- An action rebuilds nothing exactly if each of its parts, by itself, leaves the contents as they
are. -/
theorem reduce_eq_self_iff (hs : s.Kept) (hold : s.edits.version.time < now) (hlocal : a.IsLocal)
    (hproper : a.proper = true) :
    s.reduce now a = s ↔ ∀ b ∈ a.single, (s.reduce now b).contents = s.contents := by
  -- An action of a single part edits no setting twice.
  have hone : (∀ g, (a.edited g).Nodup) → a.single = [a] →
      (s.reduce now a = s ↔ ∀ b ∈ a.single, (s.reduce now b).contents = s.contents) := by
    intro hdistinct hsingle
    rw [hsingle, List.forall_mem_singleton]
    exact ⟨congrArg contents, reduce_eq_self_of_contents hs hlocal hproper hdistinct⟩
  cases hlocal with
  | editAll g us =>
    have hus : ∀ u ∈ us, u.value.proper = true := List.all_eq_true.mp hproper
    have hparts : (∀ b ∈ (Action.editAll g us).single, (s.reduce now b).contents = s.contents) ↔
        (applyEdits (s.settings.value.get? g) us (part s.edits g)).2 = false := by
      rw [snd_applyEdits_eq_false_iff, Action.single, List.forall_mem_map]
      exact forall₂_congr fun u hu => contents_edit_iff hs (hus u hu)
    rw [hparts]
    constructor
    · intro h
      exact snd_of_updateGroup hold (congrArg State.edits h)
    · intro h
      rw [reduce, updateGroup_of_snd h]
  | edit g id value =>
    refine hone (fun h => ?_) rfl
    rw [Action.edited]
    split <;> simp
  | _ => exact hone (fun _ => List.nodup_nil) rfl

end State

/-! ### Subscribers -/

namespace Store

variable {s : Store} {a : Action}

/-- An action leaves the very state that there was, and nobody is told. -/
structure Ignores (s : Store) (a : Action) : Prop where
  state : (s.dispatch a).state = s.state
  changes : (s.dispatch a).changes = s.changes

theorem Tidy.sameAs_iff (hs : s.Tidy) :
    (s.state.reduce (s.clock + 1) a).sameAs s.state = true ↔
      s.state.reduce (s.clock + 1) a = s.state := by
  constructor
  · exact (State.rebuiltAt_reduce _ _ a).eq_of_sameAs hs.builtBy
  · intro h
    rw [h]
    simp [State.sameAs, Versioned.same]

theorem ignores_of_sameAs (h : (s.state.reduce (s.clock + 1) a).sameAs s.state = true) :
    s.Ignores a := by
  constructor <;> rw [dispatch, if_pos h]

theorem changes_of_not_sameAs (h : (s.state.reduce (s.clock + 1) a).sameAs s.state = false) :
    (s.dispatch a).changes = s.changes + 1 := by
  rw [dispatch, if_neg (Bool.eq_false_iff.mp h)]

end Store

/-- **An action is ignored if none of its parts has an effect.**  Let a user act on a store.

* If the action edits no setting twice, and the contents after it are those from before, keys in the
  same order, then no branch is rebuilt.
* No branch is rebuilt exactly if each of the edits that are recorded together, or else the action
  itself, would by itself leave the contents as they are.
* If no branch is rebuilt, the state stays the very same and nobody is told; otherwise subscribers
  are told once. -/
theorem ignored_iff_no_part_has_effect {s : Store} (hs : s.Tidy) {a : Action} (hlocal : a.IsLocal)
    (hproper : a.proper = true) :
    let next := s.state.reduce (s.clock + 1) a
    ((∀ g, (a.edited g).Nodup) → next.contents = s.state.contents → next.sameAs s.state = true) ∧
    (next.sameAs s.state = true ↔
      ∀ b ∈ a.single, (s.state.reduce (s.clock + 1) b).contents = s.state.contents) ∧
    (next.sameAs s.state = true → next = s.state ∧ s.Ignores a) ∧
    (next.sameAs s.state = false → (s.dispatch a).changes = s.changes + 1) := by
  intro next
  have hiff : next.sameAs s.state = true ↔ next = s.state := hs.sameAs_iff
  refine ⟨fun hdistinct h => ?_, ?_, fun h => ⟨hiff.mp h, Store.ignores_of_sameAs h⟩,
    Store.changes_of_not_sameAs⟩
  · exact hiff.mpr (State.reduce_eq_self_of_contents hs.kept hlocal hproper hdistinct h)
  · have hold : s.state.edits.version.time < s.clock + 1 := Nat.lt_succ_of_le hs.builtBy.edits
    exact hiff.trans (State.reduce_eq_self_iff hs.kept hold hlocal hproper)

/-- A store in which a lamp is known to be blue and is to be red. -/
def repainted : Store :=
  ((Store.fresh "s" ⟨"", "/groups"⟩).dispatch (.receiveSettings "lamps"
    [{ id := "color", value := .text "blue" }])).dispatch (.edit "lamps" "color" (.text "red"))

theorem repainted_tidy : repainted.Tidy :=
  ((Store.tidy_after "s" ⟨"", "/groups"⟩ []).dispatch _).dispatch _

/-- An edit that there is already is ignored. -/
theorem repainted_ignores_the_same_red :
    repainted.Ignores (.editAll "lamps" [⟨"color", .text "red"⟩]) := by
  have hlocal : (Action.editAll "lamps" [⟨"color", .text "red"⟩]).IsLocal := .editAll _ _
  obtain ⟨hsame, -, hignored, -⟩ := ignored_iff_no_part_has_effect repainted_tidy hlocal rfl
  refine (hignored (hsame (fun g => ?_) rfl)).2
  rw [Action.edited]
  split <;> simp

/-- **An edit that the same action undoes is told to subscribers**, though the contents are those
from before. -/
theorem undone_edit_is_noticed :
    let undone : Action := .editAll "lamps" [⟨"color", .text "green"⟩, ⟨"color", .text "red"⟩]
    let next := repainted.state.reduce (repainted.clock + 1) undone
    repainted.Tidy ∧ undone.IsLocal ∧ undone.proper = true ∧
      next.contents = repainted.state.contents ∧ next.sameAs repainted.state = false ∧
      (repainted.dispatch undone).changes = repainted.changes + 1 :=
  ⟨repainted_tidy, .editAll _ _, rfl, rfl, rfl, rfl⟩

end RemoteSettings
