import RemoteSettings.Proofs.State.Batch
import RemoteSettings.Proofs.State.Reads
import RemoteSettings.Proofs.State.Representation

/-!
# Groups do not interfere

What a state holds of a group — settings, edits, errors and flags, in the order of their keys — is
decided by the actions on that group alone, whatever happens to other groups in between.  So
histories that put the same actions on each group in the same order lead to the same contents,
however the actions on different groups are interleaved.

Versions are left out: they say when a part was built, and that does depend on the other actions.

## Main definitions

* `Contents`, `State.contents` — a state without versions.
* `Holdings`, `State.holdings` — what a state holds of a group.
* `Action.streamOf` — the actions on a group, in their order.

## Main results

* `holdings_reduce_congr` — an action reads nothing of a group but what the state holds of it.
* `holdings_reduce_of_ne` — an action on one group leaves what is held of the others.
* `holdings_reduceAll` — **what is held of a group is decided by the actions on it.**
* `groups_do_not_interfere` — interleavings of the same actions lead to the same contents.
-/

namespace RemoteSettings

/-- A state without versions. -/
@[ext]
structure Contents where
  groups : List Group
  settings : Sorted (Keyed String Setting)
  edits : Sorted (Keyed String Value)
  errors : Sorted (Keyed ErrorKey Failure)
  savingGroups : Sorted Bool
  savingSettings : Sorted (Keyed String Bool)

/-- What a state holds of a group: the parts of the group that there are, without versions. -/
@[ext]
structure Holdings where
  settings : Option (Keyed String Setting)
  edits : Option (Keyed String Value)
  errors : Option (Keyed ErrorKey Failure)
  savingGroup : Option Bool
  savingSettings : Option (Keyed String Bool)

namespace Memo

theorem contents_put (m : Keyed String (Versioned Setting)) (id : String) (x : Versioned Setting) :
    contents (m.put id x) = (contents m).put id x.value :=
  Keyed.map_put (fun x : Versioned Setting => x.value) id x m

theorem get?_contents (m : Keyed String (Versioned Setting)) (id : String) :
    (contents m).get? id = (m.get? id).map (·.value) :=
  Keyed.get?_map (fun x : Versioned Setting => x.value) id m

end Memo

namespace State

/-- A branch without versions. -/
def bare {κ α : Type} (branch : Branch κ α) : Sorted (Keyed κ α) :=
  branch.value.map fun e => (e.1, e.2.value)

/-- The state without versions. -/
def contents (s : State) : Contents where
  groups := s.groups.value
  settings := (bare s.settings).map fun e => (e.1, Memo.contents e.2)
  edits := bare s.edits
  errors := bare s.errors
  savingGroups := s.savingGroups.value
  savingSettings := bare s.savingSettings

/-- The part that a branch holds of a group, if there is one. -/
def held {κ α : Type} (branch : Branch κ α) (g : String) : Option (Keyed κ α) :=
  (branch.value.get? g).map (·.value)

/-- What the state holds of a group. -/
def holdings (s : State) (g : String) : Holdings where
  settings := (held s.settings g).map Memo.contents
  edits := held s.edits g
  errors := held s.errors g
  savingGroup := s.savingGroups.value.get? g
  savingSettings := held s.savingSettings g

/-! ### Changes read nothing else -/

section Branch

variable {κ α : Type} {now now' : Nat} {branch branch' : Branch κ α} {g h : String}

theorem part_of_held (hheld : held branch g = held branch' g) : part branch g = part branch' g :=
  congrArg (·.getD []) hheld

theorem get?_bare (branch : Branch κ α) (g : String) :
    (bare branch).get? g = held branch g := Sorted.get?_map Versioned.value g branch.value

theorem ordered_bare (hordered : branch.value.Ordered) : (bare branch).Ordered :=
  hordered.map Versioned.value

theorem bare_eq (hordered : branch.value.Ordered) (hordered' : branch'.value.Ordered)
    (hheld : ∀ g, held branch g = held branch' g) : bare branch = bare branch' := by
  refine (ordered_bare hordered).ext (ordered_bare hordered') fun g => ?_
  rw [get?_bare, get?_bare, hheld]

theorem held_put (v : Version) (branch : Branch κ α) (p : Versioned (Keyed κ α)) (g : String) :
    held ⟨v, branch.value.put g p⟩ g = some p.value := by
  rw [held, Sorted.get?_put, if_pos rfl, Option.map_some]

theorem held_put_of_ne (hne : g ≠ h) (v : Version) (branch : Branch κ α)
    (p : Versioned (Keyed κ α)) : held ⟨v, branch.value.put g p⟩ h = held branch h := by
  rw [held, held, Sorted.get?_put, if_neg hne]

/-- What is left of a group after a change to its part. -/
theorem held_updateGroup (hordered : branch.value.Ordered) (now : Nat) (g : String)
    (change : Keyed κ α → Keyed κ α × Bool) :
    held (updateGroup now branch g change) g
      = if (change (part branch g)).2 then
          if (change (part branch g)).1.isEmpty then none else some (change (part branch g)).1
        else held branch g := by
  rw [updateGroup_eq]
  split
  · split
    · rw [held, Sorted.get?_erase hordered, if_pos rfl, Option.map_none]
    · exact held_put _ branch _ g
  · rfl

theorem held_updateGroup_congr (hordered : branch.value.Ordered)
    (hordered' : branch'.value.Ordered) (hheld : held branch g = held branch' g)
    {change change' : Keyed κ α → Keyed κ α × Bool} (hchange : change = change') :
    held (updateGroup now branch g change) g = held (updateGroup now' branch' g change') g := by
  rw [held_updateGroup hordered, held_updateGroup hordered', part_of_held hheld, hheld, hchange]

theorem held_dropGroup (hordered : branch.value.Ordered) :
    held (dropGroup now branch g) g = none := by
  unfold dropGroup
  split
  · rw [held, Sorted.get?_erase hordered, if_pos rfl, Option.map_none]
  · next hmissing =>
    have hnone : branch.value.get? g = none := by simpa [Sorted.has] using hmissing
    rw [held, hnone, Option.map_none]

end Branch

/-- Branches of settings that hold the same contents of every group have the same contents. -/
theorem bare_contents_eq {branch branch' : Versioned (Sorted GroupSettings)}
    (hordered : branch.value.Ordered) (hordered' : branch'.value.Ordered)
    (hheld : ∀ g, (held branch g).map Memo.contents = (held branch' g).map Memo.contents) :
    (bare branch).map (fun e => (e.1, Memo.contents e.2))
      = (bare branch').map fun e => (e.1, Memo.contents e.2) := by
  refine ((ordered_bare hordered).map Memo.contents).ext
    ((ordered_bare hordered').map Memo.contents) fun g => ?_
  rw [Sorted.get?_map, Sorted.get?_map, get?_bare, get?_bare, hheld]

/-- The settings that are added, and nothing else, decide the contents that are added. -/
theorem contents_addSettings_congr {m m' : Keyed String (Versioned Setting)}
    (hm : Memo.contents m = Memo.contents m') (now now' slot slot' : Nat) (xs : List Setting) :
    Memo.contents (addSettings now slot xs m) = Memo.contents (addSettings now' slot' xs m') := by
  induction xs generalizing slot slot' m m' with
  | nil => exact hm
  | cons x xs ih =>
    refine ih ?_ _ _
    rw [Memo.contents_put, Memo.contents_put, hm]

theorem contents_receive_congr {branch branch' : Versioned (Sorted GroupSettings)} {g : String}
    (hheld : (held branch g).map Memo.contents = (held branch' g).map Memo.contents)
    (now now' : Nat) (xs : List Setting) :
    (held (receive now branch g xs) g).map Memo.contents
      = (held (receive now' branch' g xs) g).map Memo.contents := by
  have hpart : Memo.contents (part branch g) = Memo.contents (part branch' g) := by
    have hmap : ∀ b : Versioned (Sorted GroupSettings),
        Memo.contents (part b g) = ((held b g).map Memo.contents).getD [] := by
      intro b
      rw [part, held]
      cases b.value.get? g <;> rfl
    rw [hmap, hmap, hheld]
  have hreceive : ∀ (t : Nat) (b : Versioned (Sorted GroupSettings)),
      held (receive t b g xs) g = some (addSettings t 0 xs (part b g)) :=
    fun t b => held_put _ b _ g
  rw [hreceive, hreceive, Option.map_some, Option.map_some,
    contents_addSettings_congr hpart now now' 0 0 xs]

/-- An edit reads nothing of the reported settings but their values. -/
theorem applyEdit_congr {reported reported' : Option GroupSettings}
    (h : (reported.map (·.value)).map Memo.contents = (reported'.map (·.value)).map Memo.contents) :
    applyEdit reported = applyEdit reported' := by
  have hvalue : ∀ (r : Option GroupSettings) (id : String),
      (r.bind fun g => g.value.get? id).map (·.value.value)
        = (((r.map (·.value)).map Memo.contents).bind fun m => m.get? id).map (·.value) := by
    intro r id
    cases r with
    | none => rfl
    | some p =>
      rw [Option.map_some, Option.map_some, Option.bind_some, Option.bind_some,
        Memo.get?_contents, Option.map_map]
      rfl
  funext id value edits
  rw [applyEdit, applyEdit, hvalue, hvalue, h]

theorem applyEdits_congr {reported reported' : Option GroupSettings}
    (h : (reported.map (·.value)).map Memo.contents = (reported'.map (·.value)).map Memo.contents)
    (us : List Update) : applyEdits reported us = applyEdits reported' us := by
  induction us with
  | nil => rfl
  | cons u us ih =>
    funext edits
    rw [applyEdits, applyEdits, applyEdit_congr h, ih]

/-! ### Actions on a group, and on others -/

variable {s s' : State} {g : String}

/-- A flag is raised and lowered whatever else the state holds. -/
theorem holdings_setSaving_congr (h : s.holdings g = s'.holdings g) (id : Option String)
    (saving : Bool) (now now' : Nat) :
    (s.reduce now (.setSaving g id saving)).holdings g
      = (s'.reduce now' (.setSaving g id saving)).holdings g := by
  have hsettings : (held s.settings g).map Memo.contents = (held s'.settings g).map Memo.contents :=
    congrArg Holdings.settings h
  have hedits : held s.edits g = held s'.edits g := congrArg Holdings.edits h
  have herrors : held s.errors g = held s'.errors g := congrArg Holdings.errors h
  have hgroup : s.savingGroups.value.get? g = s'.savingGroups.value.get? g :=
    congrArg Holdings.savingGroup h
  have hflags : held s.savingSettings g = held s'.savingSettings g :=
    congrArg Holdings.savingSettings h
  cases id with
  | none =>
    rw [reduce, reduce, hgroup]
    split
    · exact h
    · refine Holdings.ext hsettings hedits herrors ?_ hflags
      have hput : ∀ m : Sorted Bool, (m.put g saving).get? g = some saving := by
        intro m
        rw [Sorted.get?_put, if_pos rfl]
      exact (hput s.savingGroups.value).trans (hput s'.savingGroups.value).symm
  | some id =>
    have hpart : part s.savingSettings g = part s'.savingSettings g := part_of_held hflags
    have hreduce : ∀ (t : State) (now : Nat), t.reduce now (.setSaving g (some id) saving)
        = if (part t.savingSettings g).get? id = some saving then t
          else { t with
            savingSettings := ⟨⟨now, 0⟩, t.savingSettings.value.put g
              ⟨⟨now, 0⟩, (part t.savingSettings g).put id saving⟩⟩ } := fun _ _ => rfl
    rw [hreduce, hreduce, hpart]
    split
    · exact h
    · refine Holdings.ext hsettings hedits herrors hgroup ?_
      have hput : ∀ (t : Nat) (branch : Branch String Bool),
          held ⟨⟨t, 0⟩, branch.value.put g ⟨⟨t, 0⟩, (part s'.savingSettings g).put id saving⟩⟩ g
            = some ((part s'.savingSettings g).put id saving) :=
        fun t branch => held_put _ branch _ g
      exact (hput now s.savingSettings).trans (hput now' s'.savingSettings).symm

/-- **An action reads nothing of its group** but what the state holds of it. -/
theorem holdings_reduce_congr (hs : s.Regular) (hs' : s'.Regular)
    (h : s.holdings g = s'.holdings g) {a : Action} (ha : a.group? = some g) (now now' : Nat) :
    (s.reduce now a).holdings g = (s'.reduce now' a).holdings g := by
  have hsettings : (held s.settings g).map Memo.contents = (held s'.settings g).map Memo.contents :=
    congrArg Holdings.settings h
  have hedits : held s.edits g = held s'.edits g := congrArg Holdings.edits h
  have herrors : held s.errors g = held s'.errors g := congrArg Holdings.errors h
  have hgroup : s.savingGroups.value.get? g = s'.savingGroups.value.get? g :=
    congrArg Holdings.savingGroup h
  have hflags : held s.savingSettings g = held s'.savingSettings g :=
    congrArg Holdings.savingSettings h
  have hedit : ∀ {change change' : Keyed String Value → Keyed String Value × Bool},
      change = change' → held (updateGroup now s.edits g change) g
        = held (updateGroup now' s'.edits g change') g := fun hchange =>
    held_updateGroup_congr hs.kept.edits.ordered hs'.kept.edits.ordered hedits hchange
  have herror : ∀ {change : Keyed ErrorKey Failure → Keyed ErrorKey Failure × Bool},
      held (updateGroup now s.errors g change) g
        = held (updateGroup now' s'.errors g change) g :=
    held_updateGroup_congr hs.kept.errors.ordered hs'.kept.errors.ordered herrors rfl
  have hdropEdits : held (dropGroup now s.edits g) g = held (dropGroup now' s'.edits g) g := by
    rw [held_dropGroup hs.kept.edits.ordered, held_dropGroup hs'.kept.edits.ordered]
  have hdropErrors : held (dropGroup now s.errors g) g = held (dropGroup now' s'.errors g) g := by
    rw [held_dropGroup hs.kept.errors.ordered, held_dropGroup hs'.kept.errors.ordered]
  cases a with
  | receiveGroups groups => cases ha
  | receiveSettings _ xs =>
    cases ha
    exact Holdings.ext (contents_receive_congr hsettings now now' xs) (hedit rfl) herror hgroup
      hflags
  | edit _ id value =>
    cases ha
    exact Holdings.ext hsettings (hedit (by rw [applyEdit_congr hsettings])) herrors hgroup hflags
  | editAll _ us =>
    cases ha
    exact Holdings.ext hsettings (hedit (applyEdits_congr hsettings us)) herrors hgroup hflags
  | setSaving _ id saving =>
    cases ha
    exact holdings_setSaving_congr h id saving now now'
  | setError _ id error =>
    cases ha
    cases id with
    | none =>
      cases error with
      | none => exact Holdings.ext hsettings hedits hdropErrors hgroup hflags
      | some e => exact Holdings.ext hsettings hedits herror hgroup hflags
    | some id =>
      cases error with
      | none => exact Holdings.ext hsettings hedits herror hgroup hflags
      | some e => exact Holdings.ext hsettings hedits herror hgroup hflags
  | revert _ id =>
    cases ha
    exact Holdings.ext hsettings (hedit rfl) herror hgroup hflags
  | revertGroup _ =>
    cases ha
    exact Holdings.ext hsettings hdropEdits hdropErrors hgroup hflags

/-- **An action on one group leaves what is held of the others.** -/
theorem holdings_reduce_of_ne (hs : s.Regular) {a : Action} (ha : a.group? ≠ some g) (now : Nat) :
    (s.reduce now a).holdings g = s.holdings g := by
  have hsame : SameOf g s (s.reduce now a) := sameOf_reduce hs.kept ha
  have hne : ∀ k, a.group? = some k → k ≠ g := by
    rintro k hk rfl
    exact ha hk
  have hheld : held (s.reduce now a).settings g = held s.settings g :=
    congrArg (Option.map _) hsame.settings
  refine Holdings.ext (congrArg (Option.map Memo.contents) hheld)
    (congrArg (Option.map _) hsame.edits) (congrArg (Option.map _) hsame.errors) ?_ ?_
  · rcases savingGroups_reduce s now a with hflags | ⟨k, saving, rfl, hput⟩
    · exact congrArg (fun b => b.value.get? g) hflags
    · have hk : k ≠ g := hne k rfl
      rw [holdings, hput]
      exact (Sorted.get?_put g k saving _).trans (if_neg hk)
  · rcases savingSettings_reduce s now a with hflags | ⟨k, id, saving, rfl, hput⟩
    · exact congrArg (held · g) hflags
    · rw [holdings, hput]
      exact held_put_of_ne (hne k rfl) _ s.savingSettings _

end State

/-! ### Streams of actions -/

/-- The actions on a group, in their order; the reports of all groups are a stream of their own. -/
def Action.streamOf (group : Option String) (actions : List (Nat × Action)) : List Action :=
  (actions.map (·.2)).filter (·.group? = group)

/-- The groups that an action reports. -/
def Action.groups? : Action → Option (List Group)
  | receiveGroups groups => some groups
  | _ => none

/-- Only reports of all groups report groups. -/
theorem Action.filterMap_groups?_streamOf (actions : List (Nat × Action)) :
    (streamOf none actions).filterMap groups? = (actions.map (·.2)).filterMap groups? := by
  rw [streamOf, List.filterMap_filter]
  congr 1
  funext a
  cases a <;> rfl

namespace State

variable {s s' : State} {g : String}

/-- **What is held of a group is decided by the actions on it**, whenever they are applied and
whatever is done to other groups. -/
theorem holdings_reduceAll (hs : s.Regular) (hs' : s'.Regular) (h : s.holdings g = s'.holdings g)
    {actions own : List (Nat × Action)}
    (hown : own.map (·.2) = Action.streamOf (some g) actions) :
    (s.reduceAll actions).holdings g = (s'.reduceAll own).holdings g := by
  induction actions generalizing s s' own with
  | nil =>
    have hnil : own = [] := List.map_eq_nil_iff.mp hown
    rw [hnil]
    exact h
  | cons a rest ih =>
    obtain ⟨now, a⟩ := a
    by_cases ha : a.group? = some g
    · rw [Action.streamOf, List.map_cons, List.filter_cons_of_pos (by simpa using ha)] at hown
      obtain ⟨⟨now', a'⟩, own', rfl, rfl, hrest⟩ := List.map_eq_cons_iff.mp hown
      exact ih (hs.reduce now a') (hs'.reduce now' a') (holdings_reduce_congr hs hs' h ha now now')
        hrest
    · rw [Action.streamOf, List.map_cons, List.filter_cons_of_neg (by simpa using ha)] at hown
      exact ih (hs.reduce now a) hs' ((holdings_reduce_of_ne hs ha now).trans h) hown

theorem groups_reduce (s : State) (now : Nat) (a : Action) :
    (s.reduce now a).groups.value = a.groups?.getD s.groups.value := by
  cases a with
  | setSaving g id saving => rw [(sameButFlags_setSaving s now g id saving).groups]; rfl
  | setError g id error => cases id <;> cases error <;> rfl
  | _ => rfl

/-- The groups are those that were reported last. -/
theorem groups_reduceAll (s : State) (actions : List (Nat × Action)) :
    (s.reduceAll actions).groups.value
      = ((actions.map (·.2)).filterMap Action.groups?).getLast?.getD s.groups.value := by
  induction actions generalizing s with
  | nil => rfl
  | cons a rest ih =>
    refine (ih (s.reduce a.1 a.2)).trans ?_
    rw [groups_reduce, List.map_cons, List.filterMap_cons]
    cases a.2.groups? with
    | none => rfl
    | some groups => rw [List.getLast?_cons, Option.getD_some, Option.getD_some]

/-- States that hold the same of every group have the same contents. -/
theorem contents_eq (hs : s.Regular) (hs' : s'.Regular) (hgroups : s.groups.value = s'.groups.value)
    (hholdings : ∀ g, s.holdings g = s'.holdings g) : s.contents = s'.contents := by
  refine Contents.ext hgroups ?_ ?_ ?_ ?_ ?_
  · exact bare_contents_eq hs.kept.settings.ordered hs'.kept.settings.ordered fun g =>
      congrArg Holdings.settings (hholdings g)
  · exact bare_eq hs.kept.edits.ordered hs'.kept.edits.ordered fun g =>
      congrArg Holdings.edits (hholdings g)
  · exact bare_eq hs.kept.errors.ordered hs'.kept.errors.ordered fun g =>
      congrArg Holdings.errors (hholdings g)
  · exact hs.savingGroups.ext hs'.savingGroups fun g =>
      congrArg Holdings.savingGroup (hholdings g)
  · exact bare_eq hs.savingSettings.ordered hs'.savingSettings.ordered fun g =>
      congrArg Holdings.savingSettings (hholdings g)

/-- **Groups do not interfere.**  What the state holds of a group is what the actions on that group
alone lead to, and the groups are those that were reported last.  So two histories with the same
actions on each group, in the same order, lead to the same contents. -/
theorem groups_do_not_interfere (actions : List (Nat × Action)) :
    (∀ g own, own.map (·.2) = Action.streamOf (some g) actions →
      (empty.reduceAll actions).holdings g = (empty.reduceAll own).holdings g) ∧
    (empty.reduceAll actions).groups.value
      = (((Action.streamOf none actions).filterMap Action.groups?).getLast?).getD [] ∧
    ∀ actions', (∀ k, Action.streamOf k actions' = Action.streamOf k actions) →
      (empty.reduceAll actions').contents = (empty.reduceAll actions).contents := by
  have hgroups : ∀ actions : List (Nat × Action), (empty.reduceAll actions).groups.value
      = (((Action.streamOf none actions).filterMap Action.groups?).getLast?).getD [] := by
    intro actions
    rw [groups_reduceAll, Action.filterMap_groups?_streamOf]
    rfl
  have hholdings : ∀ (actions own : List (Nat × Action)) g,
      own.map (·.2) = Action.streamOf (some g) actions →
      (empty.reduceAll actions).holdings g = (empty.reduceAll own).holdings g :=
    fun _ _ _ hown => holdings_reduceAll Regular.empty Regular.empty rfl hown
  refine ⟨fun g own hown => hholdings actions own g hown, hgroups actions, ?_⟩
  intro actions' hstreams
  refine contents_eq (Regular.empty.reduceAll actions') (Regular.empty.reduceAll actions) ?_ ?_
  · rw [hgroups, hgroups, hstreams]
  · -- Both are what the stream of the group leads to.
    intro g
    have halone : ((Action.streamOf (some g) actions).map (0, ·)).map (·.2)
        = Action.streamOf (some g) actions := by
      rw [List.map_map]
      exact List.map_id _
    have halone' := halone.trans (hstreams (some g)).symm
    rw [hholdings actions _ g halone, hholdings actions' _ g halone']

/-- Lamps are edited and reported, then a door is edited. -/
def lampsThenDoor : List (Nat × Action) :=
  [(1, .edit "lamps" "color" (.text "red")), (2, .edit "lamps" "level" (.text "low")),
    (3, .receiveSettings "lamps" [{ id := "color", value := .text "blue" }]),
    (4, .edit "door" "lock" (.text "open"))]

/-- The same with the door first. -/
def doorThenLamps : List (Nat × Action) :=
  [(1, .edit "door" "lock" (.text "open")), (2, .edit "lamps" "color" (.text "red")),
    (3, .edit "lamps" "level" (.text "low")),
    (4, .receiveSettings "lamps" [{ id := "color", value := .text "blue" }])]

theorem doorThenLamps_same_contents :
    (∀ k, Action.streamOf k doorThenLamps = Action.streamOf k lampsThenDoor) ∧
      (empty.reduceAll doorThenLamps).contents = (empty.reduceAll lampsThenDoor).contents := by
  have hstreams : ∀ k, Action.streamOf k doorThenLamps = Action.streamOf k lampsThenDoor := by
    intro k
    simp only [Action.streamOf, doorThenLamps, lampsThenDoor, List.map_cons, List.map_nil,
      List.filter_cons, List.filter_nil, Action.group?]
    by_cases hdoor : some "door" = k
    · subst hdoor
      rfl
    · simp [hdoor]
  exact ⟨hstreams, (groups_do_not_interfere lampsThenDoor).2.2 doorThenLamps hstreams⟩

end State

end RemoteSettings
