import RemoteSettings.Proofs.State.Lookup

/-!
# What actions rebuild

Actions rebuild some branches, which get the moment as their version, and leave the others as they
are; as moments only grow, a branch with the same version as before is the branch from before.

## Main definitions

* `State.RebuiltAt` — each branch is the old one or was built at a given moment.
* `State.BuiltBy` — no branch was built after a given moment.

## Main results

* `rebuiltAt_reduce` — what an action rebuilds gets the moment as its version.
* `RebuiltAt.eq_of_sameAs` — **if no branch was rebuilt, the state is the one from before.**
-/

namespace RemoteSettings.State

/-! ### Rebuilt branches -/

/-- A branch is the old one or was built at a given moment. -/
def Rebuilt {α : Type} (now : Nat) (old new : Versioned α) : Prop :=
  new = old ∨ new.version = ⟨now, 0⟩

theorem rebuilt_updateGroup {κ α : Type} (now : Nat) (branch : Branch κ α) (g : String)
    (change : Keyed κ α → Keyed κ α × Bool) :
    Rebuilt now branch (updateGroup now branch g change) := by
  rw [updateGroup_eq]
  split
  · right
    split <;> rfl
  · exact Or.inl rfl

theorem rebuilt_dropGroup {α : Type} (now : Nat) (branch : Versioned (Sorted α)) (g : String) :
    Rebuilt now branch (dropGroup now branch g) := by
  unfold dropGroup
  split
  · exact Or.inr rfl
  · exact Or.inl rfl

/-- Each branch is the old one or was built at a given moment. -/
structure RebuiltAt (now : Nat) (s s' : State) : Prop where
  groups : Rebuilt now s.groups s'.groups
  settings : Rebuilt now s.settings s'.settings
  edits : Rebuilt now s.edits s'.edits
  errors : Rebuilt now s.errors s'.errors
  savingGroups : Rebuilt now s.savingGroups s'.savingGroups
  savingSettings : Rebuilt now s.savingSettings s'.savingSettings

theorem RebuiltAt.refl (now : Nat) (s : State) : RebuiltAt now s s :=
  ⟨Or.inl rfl, Or.inl rfl, Or.inl rfl, Or.inl rfl, Or.inl rfl, Or.inl rfl⟩

/-- What an action rebuilds gets the moment as its version. -/
theorem rebuiltAt_reduce (now : Nat) (s : State) (a : Action) :
    RebuiltAt now s (s.reduce now a) := by
  have hrefl := RebuiltAt.refl now s
  cases a with
  | receiveGroups groups => exact { hrefl with groups := Or.inr rfl }
  | receiveSettings g settings =>
    exact { hrefl with
      settings := Or.inr rfl
      edits := rebuilt_updateGroup _ _ _ _
      errors := rebuilt_updateGroup _ _ _ _ }
  | edit g id value =>
    exact { hrefl with
      edits := rebuilt_updateGroup now s.edits g (applyEdit (s.settings.value.get? g) id value) }
  | editAll g updates => exact { hrefl with edits := rebuilt_updateGroup _ _ _ _ }
  | setSaving g id saving =>
    cases id with
    | none =>
      rw [reduce]
      split
      · exact hrefl
      · exact { hrefl with savingGroups := Or.inr rfl }
    | some id =>
      rw [reduce]
      split
      · exact hrefl
      · exact { hrefl with savingSettings := Or.inr rfl }
  | setError g id error =>
    cases id with
    | none =>
      cases error with
      | none => exact { hrefl with errors := rebuilt_dropGroup _ _ _ }
      | some e =>
        exact { hrefl with errors := rebuilt_updateGroup now s.errors g (record .all e) }
    | some id =>
      cases error with
      | none =>
        exact { hrefl with errors := rebuilt_updateGroup now s.errors g (remove (.setting id)) }
      | some e =>
        exact { hrefl with errors := rebuilt_updateGroup now s.errors g (record (.setting id) e) }
  | revert g id =>
    exact { hrefl with
      edits := rebuilt_updateGroup now s.edits g (remove id)
      errors := rebuilt_updateGroup now s.errors g (remove (.setting id)) }
  | revertGroup g =>
    exact { hrefl with
      edits := rebuilt_dropGroup _ _ _
      errors := rebuilt_dropGroup _ _ _ }

/-- No branch was built after a given moment. -/
structure BuiltBy (clock : Nat) (s : State) : Prop where
  groups : s.groups.version.time ≤ clock
  settings : s.settings.version.time ≤ clock
  edits : s.edits.version.time ≤ clock
  errors : s.errors.version.time ≤ clock
  savingGroups : s.savingGroups.version.time ≤ clock
  savingSettings : s.savingSettings.version.time ≤ clock

theorem BuiltBy.empty (clock : Nat) : BuiltBy clock .empty where
  groups := Nat.zero_le _
  settings := Nat.zero_le _
  edits := Nat.zero_le _
  errors := Nat.zero_le _
  savingGroups := Nat.zero_le _
  savingSettings := Nat.zero_le _

theorem BuiltBy.mono {clock clock' : Nat} {s : State} (h : s.BuiltBy clock)
    (hle : clock ≤ clock') : s.BuiltBy clock' where
  groups := Nat.le_trans h.groups hle
  settings := Nat.le_trans h.settings hle
  edits := Nat.le_trans h.edits hle
  errors := Nat.le_trans h.errors hle
  savingGroups := Nat.le_trans h.savingGroups hle
  savingSettings := Nat.le_trans h.savingSettings hle

theorem Rebuilt.time_le {α : Type} {now clock : Nat} {old new : Versioned α}
    (h : Rebuilt now old new) (hold : old.version.time ≤ clock) (hnow : clock ≤ now) :
    new.version.time ≤ now := by
  rcases h with rfl | hnew
  · exact Nat.le_trans hold hnow
  · exact hnew ▸ Nat.le_refl now

theorem RebuiltAt.builtBy {now clock : Nat} {s s' : State} (h : RebuiltAt now s s')
    (hs : s.BuiltBy clock) (hnow : clock ≤ now) : s'.BuiltBy now where
  groups := h.groups.time_le hs.groups hnow
  settings := h.settings.time_le hs.settings hnow
  edits := h.edits.time_le hs.edits hnow
  errors := h.errors.time_le hs.errors hnow
  savingGroups := h.savingGroups.time_le hs.savingGroups hnow
  savingSettings := h.savingSettings.time_le hs.savingSettings hnow

/-- A branch with the version that it had before is the branch from before. -/
theorem Rebuilt.eq_of_same {α : Type} {now : Nat} {old new : Versioned α} (h : Rebuilt now old new)
    (hold : old.version.time < now) (hsame : new.same old = true) : new = old := by
  -- Were it rebuilt, its version would be later than any before.
  rcases h with heq | hnew
  · exact heq
  · have hversion : new.version = old.version := by simpa [Versioned.same] using hsame
    rw [← hversion, hnew] at hold
    exact absurd hold (Nat.lt_irrefl now)

/-- If no branch was rebuilt, the state is the one from before. -/
theorem RebuiltAt.eq_of_sameAs {clock : Nat} {s s' : State} (h : RebuiltAt (clock + 1) s s')
    (hs : s.BuiltBy clock) (hsame : s'.sameAs s = true) : s' = s := by
  simp only [sameAs, Bool.and_eq_true] at hsame
  obtain ⟨⟨⟨⟨⟨hgroups, hsettings⟩, hedits⟩, herrors⟩, hsavingGroups⟩, hsavingSettings⟩ := hsame
  have hg := h.groups.eq_of_same (Nat.lt_succ_of_le hs.groups) hgroups
  have hs' := h.settings.eq_of_same (Nat.lt_succ_of_le hs.settings) hsettings
  have he := h.edits.eq_of_same (Nat.lt_succ_of_le hs.edits) hedits
  have hr := h.errors.eq_of_same (Nat.lt_succ_of_le hs.errors) herrors
  have hsg := h.savingGroups.eq_of_same (Nat.lt_succ_of_le hs.savingGroups) hsavingGroups
  have hss := h.savingSettings.eq_of_same (Nat.lt_succ_of_le hs.savingSettings) hsavingSettings
  cases s
  cases s'
  simp_all

end RemoteSettings.State
