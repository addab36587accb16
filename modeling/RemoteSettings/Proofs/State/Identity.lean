import RemoteSettings.Proofs.State.Independence
import RemoteSettings.Proofs.State.History
import RemoteSettings.Proofs.State.Rebuild

/-!
# Identity stands for content

Whoever watches a state compares versions and never contents.  That is sound if an action shares
with the state before all that it does not touch, and builds anew whatever has other contents.  Both
are said here of all branches, of each group's part of a branch and of each setting.

Versions tell parts apart only while moments rise, so the state before an action must be older than
the moment of the action.  Then the state after it is older than every later moment.

## Main definitions

* `Field`, `Action.rebuilds` — the branches, and those that an action may rebuild.
* `State.Older` — everything in a state was built before a moment.
* `State.SharedUnless`, `State.Shares` — what becomes of a branch, and of the parts in it.
* `State.Seen` — where contents differ, versions do.

## Main results

* `Shares.updateGroup`, `Shares.dropGroup`, `Shares.put` — each change shares what it leaves.
* `Shares.seen` — a branch that is shared like that shows whether its contents have changed.
* `Older.reduceAll` — states stay older than the moments to come.
* `identity_stands_for_content` — **an action shares what it does not touch, and what has other
  contents is new.**
-/

namespace RemoteSettings

/-- The branches of a state. -/
inductive Field
  | groups
  | settings
  | edits
  | errors
  | savingGroups
  | savingSettings

/-- The branches that an action may rebuild. -/
def Action.rebuilds : Action → List Field
  | receiveGroups _ => [.groups]
  | receiveSettings _ _ => [.settings, .edits, .errors]
  | edit _ _ _ => [.edits]
  | editAll _ _ => [.edits]
  | setSaving _ none _ => [.savingGroups]
  | setSaving _ (some _) _ => [.savingSettings]
  | setError _ _ _ => [.errors]
  | revert _ _ => [.edits, .errors]
  | revertGroup _ => [.edits, .errors]

namespace State

/-! ### New parts -/

/-- What was built at a moment is nothing that was built before. -/
theorem not_same_of_time_lt {α : Type} {now : Nat} {old new : Versioned α}
    (hold : old.version.time < now) (hnew : new.version.time = now) : new.same old = false := by
  refine Bool.eq_false_iff.mpr fun hsame => ?_
  have hversion : new.version = old.version := by simpa [Versioned.same] using hsame
  rw [← hversion, hnew] at hold
  exact Nat.lt_irrefl now hold

/-- A branch is the very one from before, or the action may rebuild it and it is a new one. -/
def SharedUnless {α : Type} (now : Nat) (a : Action) (field : Field) (old new : Versioned α) :
    Prop :=
  new = old ∨ field ∈ a.rebuilds ∧ new.version = ⟨now, 0⟩ ∧ new.same old = false

theorem SharedUnless.of_rebuilt {α : Type} {now : Nat} {a : Action} {field : Field}
    {old new : Versioned α} (h : Rebuilt now old new) (hfield : field ∈ a.rebuilds)
    (hold : old.version.time < now) : SharedUnless now a field old new :=
  h.imp_right fun hnew =>
    ⟨hfield, hnew, not_same_of_time_lt hold (congrArg Version.time hnew)⟩

/-- A branch that looks the same is the same. -/
theorem SharedUnless.eq_of_same {α : Type} {now : Nat} {a : Action} {field : Field}
    {old new : Versioned α} (h : SharedUnless now a field old new) (hsame : new.same old = true) :
    new = old := by
  rcases h with heq | ⟨-, -, hnot⟩
  · exact heq
  · rw [hsame] at hnot
    cases hnot

/-- A branch whose contents are not those from before does not look the same. -/
theorem SharedUnless.not_same {α β : Type} {now : Nat} {a : Action} {field : Field}
    {old new : Versioned α} (h : SharedUnless now a field old new) (look : α → β)
    (hne : look new.value ≠ look old.value) : new.same old = false :=
  Bool.eq_false_iff.mpr fun hsame => hne (by rw [h.eq_of_same hsame])

section Branch

variable {κ α : Type} {now : Nat} {a : Action} {field : Field} {branch old new : Branch κ α}
  {g : String}

/-- A branch and the parts in it were built before a moment. -/
structure BuiltBefore (now : Nat) (branch : Branch κ α) : Prop where
  whole : branch.version.time < now
  parts : ∀ g p, branch.value.get? g = some p → p.version.time < now

/-- What becomes of a branch under an action.  Other groups have the very parts from before, and a
part that is not the one from before is none of those from before. -/
structure Shares (now : Nat) (a : Action) (field : Field) (old new : Branch κ α) : Prop where
  branch : SharedUnless now a field old new
  others : ∀ h, a.group? ≠ some h → new.value.get? h = old.value.get? h
  parts : ∀ h p, new.value.get? h = some p → old.value.get? h = some p ∨
    p.version = ⟨now, 0⟩ ∧ ∀ k q, old.value.get? k = some q → p.same q = false

theorem Shares.refl : Shares now a field branch branch where
  branch := Or.inl rfl
  others _ _ := rfl
  parts _ _ hp := Or.inl hp

theorem BuiltBefore.not_same (hb : BuiltBefore now branch) {p : Versioned (Keyed κ α)}
    (hp : p.version = ⟨now, 0⟩) :
    p.version = ⟨now, 0⟩ ∧ ∀ k q, branch.value.get? k = some q → p.same q = false :=
  ⟨hp, fun k q hq => not_same_of_time_lt (hb.parts k q hq) (congrArg Version.time hp)⟩

theorem Shares.updateGroup (hb : BuiltBefore now branch) (hordered : branch.value.Ordered)
    (hfield : field ∈ a.rebuilds) (ha : a.group? = some g)
    (change : Keyed κ α → Keyed κ α × Bool) :
    Shares now a field branch (updateGroup now branch g change) where
  branch := .of_rebuilt (rebuilt_updateGroup now branch g change) hfield hb.whole
  others _ hne :=
    get?_updateGroup_of_ne hordered (fun hg => hne (ha.trans (congrArg some hg))) change
  parts _ _ hp := (get?_updateGroup_cases hordered hp).imp_right fun hnew => hb.not_same hnew.2

theorem Shares.dropGroup (hb : BuiltBefore now branch) (hordered : branch.value.Ordered)
    (hfield : field ∈ a.rebuilds) (ha : a.group? = some g) :
    Shares now a field branch (dropGroup now branch g) where
  branch := .of_rebuilt (rebuilt_dropGroup now branch g) hfield hb.whole
  others _ hne := get?_dropGroup_of_ne hordered fun hg => hne (ha.trans (congrArg some hg))
  parts _ _ hp := Or.inl (get?_dropGroup_cases hordered hp)

theorem Shares.put (hb : BuiltBefore now branch) (hfield : field ∈ a.rebuilds)
    (ha : a.group? = some g) (m : Keyed κ α) :
    Shares now a field branch ⟨⟨now, 0⟩, branch.value.put g ⟨⟨now, 0⟩, m⟩⟩ where
  branch := .of_rebuilt (Or.inr rfl) hfield hb.whole
  others h hne := by
    rw [Sorted.get?_put, if_neg fun hg => hne (ha.trans (congrArg some hg))]
  parts h p hp := by
    rw [Sorted.get?_put] at hp
    split at hp
    · cases hp
      exact Or.inr (hb.not_same rfl)
    · exact Or.inl hp

/-- What is shared from before a moment, and what is built at it, was built before later ones. -/
theorem Shares.builtBefore (h : Shares now a field old new) (hold : BuiltBefore now old)
    {later : Nat} (hlater : now < later) : BuiltBefore later new where
  whole := by
    rcases h.branch with heq | ⟨-, hnew, -⟩
    · exact heq ▸ Nat.lt_trans hold.whole hlater
    · exact hnew ▸ hlater
  parts g p hp := by
    rcases h.parts g p hp with hp | ⟨hnew, -⟩
    · exact Nat.lt_trans (hold.parts g p hp) hlater
    · exact hnew ▸ hlater

theorem BuiltBefore.mono (hb : BuiltBefore now branch) {later : Nat} (hle : now ≤ later) :
    BuiltBefore later branch where
  whole := Nat.lt_of_lt_of_le hb.whole hle
  parts g p hp := Nat.lt_of_lt_of_le (hb.parts g p hp) hle

/-- Where the contents of a branch or of a group's part are not those from before, neither is the
version.  The contents of a part are what `look` takes from it. -/
structure Seen {β : Type} (look : Keyed κ α → β) (old new : Branch κ α) : Prop where
  branch : (bare new).map (fun e => (e.1, look e.2)) ≠ (bare old).map (fun e => (e.1, look e.2)) →
    new.same old = false
  parts : ∀ g p q, old.value.get? g = some p → new.value.get? g = some q →
    look q.value ≠ look p.value → q.same p = false

/-- **What is shared shows what has changed.** -/
theorem Shares.seen {β : Type} (h : Shares now a field old new) (look : Keyed κ α → β) :
    Seen look old new where
  branch := h.branch.not_same fun m =>
    (m.map fun e => (e.1, e.2.value)).map fun e => (e.1, look e.2)
  parts g p q hp hq hne := by
    rcases h.parts g q hq with hold | ⟨-, hnew⟩
    · -- The part is the one from before, and so are its contents.
      rw [hp] at hold
      cases hold
      exact absurd rfl hne
    · exact hnew g p hp

end Branch

/-! ### States that are older than a moment -/

/-- Everything in a state was built before a moment. -/
structure Older (now : Nat) (s : State) : Prop where
  groups : s.groups.version.time < now
  settings : BuiltBefore now s.settings
  setting : ∀ g id x, s.setting? g id = some x → x.version.time < now
  edits : BuiltBefore now s.edits
  errors : BuiltBefore now s.errors
  savingGroups : s.savingGroups.version.time < now
  savingSettings : BuiltBefore now s.savingSettings

variable {s : State} {now : Nat}

theorem shares_settings (hold : s.Older now) (a : Action) :
    Shares now a .settings s.settings (s.reduce now a).settings := by
  rcases settings_reduce s now a with hsame | ⟨g, xs, rfl, hreceive⟩
  · exact hsame ▸ .refl
  · exact hreceive ▸ .put hold.settings List.mem_cons_self rfl _

theorem shares_edits (hs : s.Kept) (hold : s.Older now) (a : Action) :
    Shares now a .edits s.edits (s.reduce now a).edits := by
  have hupdate : ∀ {g} change, .edits ∈ a.rebuilds → a.group? = some g →
      Shares now a .edits s.edits (updateGroup now s.edits g change) := fun change hfield ha =>
    .updateGroup hold.edits hs.edits.ordered hfield ha change
  cases a with
  | receiveGroups groups => exact .refl
  | receiveSettings g xs => exact hupdate _ (by simp [Action.rebuilds]) rfl
  | edit g id value => exact hupdate (applyEdit _ id value) List.mem_cons_self rfl
  | editAll g us => exact hupdate _ List.mem_cons_self rfl
  | setSaving g id saving =>
    rw [edits_setSaving]
    exact .refl
  | setError g id error =>
    rw [edits_setError]
    exact .refl
  | revert g id => exact hupdate (remove id) List.mem_cons_self rfl
  | revertGroup g => exact .dropGroup hold.edits hs.edits.ordered List.mem_cons_self rfl

theorem shares_errors (hs : s.Kept) (hold : s.Older now) (a : Action) :
    Shares now a .errors s.errors (s.reduce now a).errors := by
  have hupdate : ∀ {g} change, .errors ∈ a.rebuilds → a.group? = some g →
      Shares now a .errors s.errors (updateGroup now s.errors g change) := fun change hfield ha =>
    .updateGroup hold.errors hs.errors.ordered hfield ha change
  cases a with
  | receiveSettings g xs => exact hupdate _ (by simp [Action.rebuilds]) rfl
  | setSaving g id saving =>
    rw [(sameButFlags_setSaving s now g id saving).errors]
    exact .refl
  | setError g id error =>
    cases id with
    | none =>
      cases error with
      | none => exact .dropGroup hold.errors hs.errors.ordered List.mem_cons_self rfl
      | some e => exact hupdate (record ErrorKey.all e) List.mem_cons_self rfl
    | some id =>
      cases error with
      | none => exact hupdate (remove (ErrorKey.setting id)) List.mem_cons_self rfl
      | some e => exact hupdate (record (ErrorKey.setting id) e) List.mem_cons_self rfl
  | revert g id => exact hupdate (remove (ErrorKey.setting id)) (by simp [Action.rebuilds]) rfl
  | revertGroup g =>
    exact .dropGroup hold.errors hs.errors.ordered (by simp [Action.rebuilds]) rfl
  | _ => exact .refl

theorem shares_savingSettings (hold : s.Older now) (a : Action) :
    Shares now a .savingSettings s.savingSettings (s.reduce now a).savingSettings := by
  rcases savingSettings_reduce s now a with hsame | ⟨g, id, saving, rfl, hput⟩
  · exact hsame ▸ .refl
  · exact hput ▸ .put hold.savingSettings List.mem_cons_self rfl _

theorem shared_groups (hold : s.Older now) (a : Action) :
    SharedUnless now a .groups s.groups (s.reduce now a).groups := by
  cases a with
  | receiveGroups groups => exact .of_rebuilt (Or.inr rfl) List.mem_cons_self hold.groups
  | setSaving g id saving => exact Or.inl (sameButFlags_setSaving s now g id saving).groups
  | setError g id error => cases id <;> cases error <;> exact Or.inl rfl
  | _ => exact Or.inl rfl

theorem shared_savingGroups (hold : s.Older now) (a : Action) :
    SharedUnless now a .savingGroups s.savingGroups (s.reduce now a).savingGroups ∧
      ∀ h, a.group? ≠ some h → (s.reduce now a).savingGroups.value.get? h
        = s.savingGroups.value.get? h := by
  rcases savingGroups_reduce s now a with hsame | ⟨g, saving, rfl, hput⟩
  · rw [hsame]
    exact ⟨Or.inl rfl, fun _ _ => rfl⟩
  · rw [hput]
    refine ⟨.of_rebuilt (Or.inr rfl) List.mem_cons_self hold.savingGroups, fun h hne => ?_⟩
    rw [Sorted.get?_put, if_neg fun hg => hne (congrArg some hg)]

/-- A setting that is not the one from before has been reported, and is none of those from
before. -/
theorem setting_is_shared (hold : s.Older now) {a : Action} {g id : String}
    {x : Versioned Setting} (hx : (s.reduce now a).setting? g id = some x) :
    s.setting? g id = some x ∨
      x.version.time = now ∧ ∀ h i y, s.setting? h i = some y → x.same y = false := by
  refine (setting?_reduce_cases hx).imp_right ?_
  rintro ⟨xs, i, -, hversion, -⟩
  have htime : x.version.time = now := by rw [hversion]
  exact ⟨htime, fun h i y hy => not_same_of_time_lt (hold.setting h i y hy) htime⟩

theorem Older.empty : Older 1 .empty where
  groups := Nat.one_pos
  settings := ⟨Nat.one_pos, fun _ _ hp => (nomatch hp)⟩
  setting _ _ _ hx := nomatch hx
  edits := ⟨Nat.one_pos, fun _ _ hp => (nomatch hp)⟩
  errors := ⟨Nat.one_pos, fun _ _ hp => (nomatch hp)⟩
  savingGroups := Nat.one_pos
  savingSettings := ⟨Nat.one_pos, fun _ _ hp => (nomatch hp)⟩

theorem SharedUnless.time_lt {α : Type} {a : Action} {field : Field} {old new : Versioned α}
    (h : SharedUnless now a field old new) (hold : old.version.time < now) {later : Nat}
    (hlater : now < later) : new.version.time < later := by
  rcases h with heq | ⟨-, hnew, -⟩
  · exact heq ▸ Nat.lt_trans hold hlater
  · exact hnew ▸ hlater

/-- The state after an action is older than every later moment. -/
theorem Older.reduce (hold : s.Older now) (hs : s.Kept) (a : Action) {later : Nat}
    (hlater : now < later) : (s.reduce now a).Older later where
  groups := (shared_groups hold a).time_lt hold.groups hlater
  settings := (shares_settings hold a).builtBefore hold.settings hlater
  setting g id x hx := by
    rcases setting_is_shared hold hx with hx | ⟨htime, -⟩
    · exact Nat.lt_trans (hold.setting g id x hx) hlater
    · exact htime ▸ hlater
  edits := (shares_edits hs hold a).builtBefore hold.edits hlater
  errors := (shares_errors hs hold a).builtBefore hold.errors hlater
  savingGroups := (shared_savingGroups hold a).1.time_lt hold.savingGroups hlater
  savingSettings := (shares_savingSettings hold a).builtBefore hold.savingSettings hlater

theorem Older.mono (hold : s.Older now) {later : Nat} (hle : now ≤ later) : s.Older later where
  groups := Nat.lt_of_lt_of_le hold.groups hle
  settings := hold.settings.mono hle
  setting g id x hx := Nat.lt_of_lt_of_le (hold.setting g id x hx) hle
  edits := hold.edits.mono hle
  errors := hold.errors.mono hle
  savingGroups := Nat.lt_of_lt_of_le hold.savingGroups hle
  savingSettings := hold.savingSettings.mono hle

/-- After actions at rising moments the state is older than every later moment. -/
theorem Older.reduceAll {steps : List (Nat × Action)} {later : Nat} (hold : s.Older now)
    (hs : s.Kept) (hrising : steps.Pairwise (·.1 < ·.1)) (hfrom : ∀ e ∈ steps, now ≤ e.1)
    (hto : ∀ e ∈ steps, e.1 < later) (hle : now ≤ later) : (s.reduceAll steps).Older later := by
  induction steps generalizing s now with
  | nil => exact hold.mono hle
  | cons e rest ih =>
    obtain ⟨hfirst, hrest⟩ := List.pairwise_cons.mp hrising
    have hnow : s.Older e.1 := hold.mono (hfrom e List.mem_cons_self)
    refine ih (hnow.reduce hs e.2 (Nat.lt_succ_self e.1)) (hs.reduce e.1 e.2) hrest hfirst ?_ ?_
    · exact fun e' he' => hto e' (List.mem_cons_of_mem e he')
    · exact hto e List.mem_cons_self

/-- **An action shares what it does not touch, and what has other contents is new.**  Each branch
is the very one from before or a new one, and a new one only where the action may rebuild it; in it
the other groups have the very parts from before, and the settings that the action does not report
are the very settings from before.  Whoever compares versions misses no change.  All of that goes
on holding at later moments. -/
theorem identity_stands_for_content (hs : s.Kept) (hold : s.Older now) (a : Action) :
    let s' := s.reduce now a
    (SharedUnless now a .groups s.groups s'.groups ∧
      Shares now a .settings s.settings s'.settings ∧ Shares now a .edits s.edits s'.edits ∧
      Shares now a .errors s.errors s'.errors ∧
      SharedUnless now a .savingGroups s.savingGroups s'.savingGroups ∧
      Shares now a .savingSettings s.savingSettings s'.savingSettings) ∧
    (∀ h, a.group? ≠ some h → s'.savingGroups.value.get? h = s.savingGroups.value.get? h) ∧
    (∀ g id, a.Spares g id → s'.setting? g id = s.setting? g id) ∧
    (∀ g id x, s'.setting? g id = some x → s.setting? g id = some x ∨
      x.version.time = now ∧ ∀ h i y, s.setting? h i = some y → x.same y = false) ∧
    ((s'.groups.value ≠ s.groups.value → s'.groups.same s.groups = false) ∧
      Seen Memo.contents s.settings s'.settings ∧ Seen id s.edits s'.edits ∧
      Seen id s.errors s'.errors ∧
      (s'.savingGroups.value ≠ s.savingGroups.value →
        s'.savingGroups.same s.savingGroups = false) ∧
      Seen id s.savingSettings s'.savingSettings) ∧
    s'.Kept ∧ ∀ later, now < later → s'.Older later := by
  intro s'
  have hgroups := shared_groups hold a
  have hsettings := shares_settings hold a
  have hedits := shares_edits hs hold a
  have herrors := shares_errors hs hold a
  obtain ⟨hsavingGroups, hothers⟩ := shared_savingGroups hold a
  have hsavingSettings := shares_savingSettings hold a
  refine ⟨⟨hgroups, hsettings, hedits, herrors, hsavingGroups, hsavingSettings⟩, hothers,
    fun g id hspares => setting?_reduce hspares now s, fun g id x => setting_is_shared hold,
    ⟨hgroups.not_same id, hsettings.seen _, hedits.seen _, herrors.seen _,
      hsavingGroups.not_same id, hsavingSettings.seen _⟩,
    hs.reduce now a, fun later => hold.reduce hs a⟩

/-- A house of which lamps and a door are known, and both are edited. -/
def house : State :=
  empty.reduceAll [(1, .receiveGroups [{ id := "lamps" }, { id := "door" }]),
    (2, .receiveSettings "lamps"
      [{ id := "color", value := .text "blue" }, { id := "level", value := .text "low" }]),
    (3, .receiveSettings "door" [{ id := "lock", value := .text "shut" }]),
    (4, .edit "lamps" "level" (.text "high")), (5, .edit "door" "lock" (.text "open"))]

theorem house_shares_the_rest :
    let report : Action := .receiveSettings "lamps" [{ id := "level", value := .text "high" }]
    let s' := house.reduce 6 report
    house.Kept ∧ house.Older 6 ∧ s'.groups = house.groups ∧
      s'.settings.value.get? "door" = house.settings.value.get? "door" ∧
      s'.edits.value.get? "door" = house.edits.value.get? "door" ∧
      s'.setting? "lamps" "color" = house.setting? "lamps" "color" ∧
      s'.settings.same house.settings = false := by
  intro report s'
  have hkept : house.Kept := (Regular.empty.reduceAll _).kept
  have hold : house.Older 6 :=
    Older.empty.reduceAll Kept.empty (by decide) (by decide) (by decide) (by decide)
  obtain ⟨⟨hgroups, hsettings, hedits, -⟩, -, hspared, -⟩ :=
    identity_stands_for_content hkept hold report
  have hdoor : report.group? ≠ some "door" := by decide
  refine ⟨hkept, hold, ?_, hsettings.others "door" hdoor, hedits.others "door" hdoor,
    hspared "lamps" "color" ?_, rfl⟩
  · have hnot : Field.groups ∉ report.rebuilds := by simp [report, Action.rebuilds]
    exact hgroups.resolve_right fun hnew => hnot hnew.1
  · intro _ x hx
    rw [List.mem_singleton.mp hx]
    decide

end State

end RemoteSettings
