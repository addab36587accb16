import RemoteSettings.Proofs.State.Piecemeal

/-!
# Keys stay in order

Entries stand in the order in which their keys came.  An entry that is set again keeps its place,
and one that is removed leaves the others in theirs; so an action puts behind the keys that stay
those that are new, in the order in which it names them first.  Only edits that are recorded
together may remove an entry and set it again, and then it comes last.

Over a run this leaves the settings in the order in which they were first reported, and the edits
in the order in which they were begun, edits that are recorded together being taken one by one.

## Main definitions

* `State.Extended` — the keys that stay, and behind them those that are new.
* `Action.reported`, `Action.edited`, `Action.failed`, `Action.flagged` — the keys that an action
  may add to each branch.
* `State.singles` — actions, with the edits that are recorded together one by one.
* `State.Begun` — the action by which an edit was begun.

## Main results

* `extended_settings`, `extended_edits`, `extended_errors`, `extended_flags` — **an action leaves
  the keys in order.**
* `keys_reported` — the settings stand in the order in which they were first reported.
* `exists_begun`, `pairwise_begun` — the edits stand in the order in which they were begun.
-/

namespace RemoteSettings

namespace Action

/-- The ids under which an action reports settings of a group. -/
def reported (group : String) : Action → List String
  | receiveSettings g settings => if g = group then settings.map (·.id) else []
  | _ => []

/-- The ids of a group's settings for which an action asks for values. -/
def edited (group : String) : Action → List String
  | edit g id _ => if g = group then [id] else []
  | editAll g updates => if g = group then updates.map (·.id) else []
  | _ => []

/-- What an action sets an error of, in a group. -/
def failed (group : String) : Action → List ErrorKey
  | setError g id (some _) => if g = group then [State.errorKey id] else []
  | _ => []

/-- The ids of a group's settings whose flags an action sets. -/
def flagged (group : String) : Action → List String
  | setSaving g (some id) _ => if g = group then [id] else []
  | _ => []

/-- The actions of which an action consists: edits that are recorded together, one by one. -/
def single : Action → List Action
  | editAll group updates => updates.map fun u => .edit group u.id u.value
  | a => [a]

end Action

namespace State

/-! ### Lists without repetitions -/

section Lists

variable {κ : Type} [DecidableEq κ] {named old new : List κ}

theorem eraseDups_of_nodup (h : old.Nodup) : old.eraseDups = old := by
  induction old with
  | nil => rfl
  | cons k old ih =>
    obtain ⟨hk, hold⟩ := List.nodup_cons.mp h
    have hrest : old.filter (fun l => !l == k) = old := by
      refine List.filter_eq_self.mpr fun l hl => ?_
      have hne : l ≠ k := fun hlk => hk (hlk ▸ hl)
      simpa using hne
    rw [List.eraseDups_cons, hrest, ih hold]

/-- What is known already comes first, and then what is new. -/
theorem eraseDups_append_of_nodup (h : old.Nodup) :
    (old ++ named).eraseDups = old ++ (named.filter (· ∉ old)).eraseDups := by
  have hremove : named.removeAll old = named.filter (· ∉ old) := by
    refine List.filter_congr fun k _ => ?_
    by_cases hk : k ∈ old <;> simp [hk]
  rw [List.eraseDups_append, eraseDups_of_nodup h, hremove]

theorem nodup_eraseDups (ks : List κ) : ks.eraseDups.Nodup := by
  cases ks with
  | nil => exact List.nodup_nil
  | cons k ks =>
    rw [List.eraseDups_cons]
    refine List.nodup_cons.mpr ⟨fun hk => ?_, nodup_eraseDups (ks.filter fun l => !l == k)⟩
    simpa using (List.mem_filter.mp (List.mem_eraseDups.mp hk)).2
termination_by ks.length
decreasing_by exact Nat.lt_succ_of_le (List.length_filter_le _ ks)

theorem eraseDups_eraseDups_append (ks ls : List κ) :
    (ks.eraseDups ++ ls).eraseDups = (ks ++ ls).eraseDups := by
  have hremove : ls.filter (· ∉ ks.eraseDups) = ls.removeAll ks := by
    refine List.filter_congr fun l _ => ?_
    by_cases hl : l ∈ ks <;> simp [List.mem_eraseDups, hl]
  rw [eraseDups_append_of_nodup (nodup_eraseDups ks), hremove, List.eraseDups_append]

theorem filter_mem_of_sublist (h : new.Sublist old) (hold : old.Nodup) :
    old.filter (· ∈ new) = new := by
  induction h with
  | slnil => rfl
  | cons k hsub ih =>
    obtain ⟨hk, hold⟩ := List.nodup_cons.mp hold
    rw [List.filter_cons_of_neg (by simpa using fun hmem => hk (hsub.subset hmem)), ih hold]
  | @cons_cons new old k hsub ih =>
    obtain ⟨hk, hold⟩ := List.nodup_cons.mp hold
    have hrest : old.filter (· ∈ k :: new) = old.filter (· ∈ new) := by
      refine List.filter_congr fun l hl => ?_
      have hne : l ≠ k := fun hlk => hk (hlk ▸ hl)
      simp [hne]
    rw [List.filter_cons_of_pos (by simp), hrest, ih hold]

/-! ### Keys that stay and keys that are new -/

/-- The new keys are those of the old ones that stay, in their order, and behind them those that are
new, in the order in which they are first named. -/
def Extended (named old new : List κ) : Prop :=
  new = old.filter (· ∈ new) ++ (named.filter fun k => k ∉ old ∧ k ∈ new).eraseDups

/-- Keys are taken away, and the others stay in order. -/
theorem Extended.of_sublist (h : new.Sublist old) (hold : old.Nodup) : Extended named old new := by
  have hnone : (named.filter fun k => k ∉ old ∧ k ∈ new) = [] := by
    refine List.filter_eq_nil_iff.mpr fun k _ hk => ?_
    obtain ⟨hout, hin⟩ := of_decide_eq_true hk
    exact hout (h.subset hin)
  rw [Extended, hnone, filter_mem_of_sublist h hold]
  exact (List.append_nil new).symm

theorem Extended.refl (hold : old.Nodup) : Extended named old old :=
  .of_sublist (List.Sublist.refl old) hold

/-- Keys that are named come last, unless they are there already. -/
theorem Extended.eraseDups (hold : old.Nodup) :
    Extended named old (old ++ named).eraseDups := by
  rw [Extended]
  have hstay : old.filter (· ∈ (old ++ named).eraseDups) = old := by
    refine List.filter_eq_self.mpr fun k hk => decide_eq_true ?_
    exact List.mem_eraseDups.mpr (List.mem_append_left named hk)
  have hnew : (named.filter fun k => k ∉ old ∧ k ∈ (old ++ named).eraseDups)
      = named.filter (· ∉ old) := by
    refine List.filter_congr fun k hk => ?_
    simp [List.mem_eraseDups, hk]
  rw [hstay, hnew, ← eraseDups_append_of_nodup hold]

end Lists

/-! ### Changes to a part -/

section Parts

variable {κ α : Type} [DecidableEq κ] {named : List κ} {m : Keyed κ α}

/-- Setting an entry adds its key unless it is there. -/
theorem keys_put_eq_eraseDups (hm : m.keys.Nodup) (k : κ) (a : α) :
    (m.put k a).keys = (m.keys ++ [k]).eraseDups := by
  rw [Keyed.keys_put, eraseDups_append_of_nodup hm]
  by_cases hk : k ∈ m.keys
  · simp [hk]
  · simp [hk, List.eraseDups_cons]

theorem extended_put (hm : m.keys.Nodup) (k : κ) (a : α) :
    Extended [k] m.keys (m.put k a).keys := by
  rw [keys_put_eq_eraseDups hm]
  exact .eraseDups hm

theorem extended_erase (hm : m.keys.Nodup) (k : κ) : Extended named m.keys (m.erase k).keys := by
  rw [Keyed.keys_erase]
  exact .of_sublist List.erase_sublist hm

theorem sublist_removeAll (ks : List κ) (m : Keyed κ α) :
    (removeAll ks m).1.keys.Sublist m.keys := by
  induction ks generalizing m with
  | nil => exact List.Sublist.refl _
  | cons k ks ih =>
    refine (ih (m.erase k)).trans ?_
    rw [Keyed.keys_erase]
    exact List.erase_sublist

theorem extended_applyEdit {reported : Option GroupSettings} {m : Keyed String Value}
    (hm : m.keys.Nodup) (id : String) (value : Value) :
    Extended [id] m.keys (applyEdit reported id value m).1.keys := by
  rw [applyEdit]
  split
  · exact extended_erase hm id
  · split
    · exact .refl hm
    · exact extended_put hm id value

/-- Settings that are added come last, unless there are settings under their ids. -/
theorem keys_addSettings {m : Keyed String (Versioned Setting)} (hm : m.keys.Nodup)
    (now slot : Nat) (xs : List Setting) :
    (addSettings now slot xs m).keys = (m.keys ++ xs.map (·.id)).eraseDups := by
  induction xs generalizing slot m with
  | nil =>
    rw [List.map_nil, List.append_nil, eraseDups_of_nodup hm]
    rfl
  | cons x xs ih =>
    rw [addSettings, ih (Keyed.nodup_keys_put hm x.id _), keys_put_eq_eraseDups hm,
      eraseDups_eraseDups_append, List.append_assoc, List.map_cons, List.singleton_append]

end Parts

/-! ### Changes to a branch -/

section Branch

variable {κ α : Type} [DecidableEq κ] {now : Nat} {branch : Branch κ α} {g h : String}
variable {named : List κ}

theorem extended_updateGroup (hb : WellKept branch) {change : Keyed κ α → Keyed κ α × Bool}
    (hfaithful : Faithful change)
    (hchange : g = h → ∀ m : Keyed κ α, m.keys.Nodup → Extended named m.keys (change m).1.keys) :
    Extended named (part branch h).keys (part (updateGroup now branch g change) h).keys := by
  rw [part_updateGroup hb.ordered hfaithful]
  split
  · next hg => exact hg ▸ hchange hg _ (hb.distinct g)
  · exact .refl (hb.distinct h)

theorem extended_dropGroup (hb : WellKept branch) :
    Extended named (part branch h).keys (part (dropGroup now branch g) h).keys := by
  rw [part_dropGroup hb.ordered]
  split
  · exact .of_sublist (List.nil_sublist _) (hb.distinct h)
  · exact .refl (hb.distinct h)

end Branch

/-! ### Actions -/

variable {s : State} {now : Nat} {a : Action}

/-- The settings that an action reports of a group come behind those that there are. -/
theorem keys_settings_reduce (hs : s.Kept) (now : Nat) (a : Action) (g : String) :
    (part (s.reduce now a).settings g).keys
      = ((part s.settings g).keys ++ a.reported g).eraseDups := by
  have hkeys := hs.settings.distinct g
  have hsame : (part s.settings g).keys = ((part s.settings g).keys ++ []).eraseDups := by
    rw [List.append_nil, eraseDups_of_nodup hkeys]
  cases a with
  | receiveSettings h xs =>
    rw [reduce, part_receive, Action.reported]
    split
    · next hg => rw [hg, keys_addSettings hkeys]
    · exact hsame
  | setSaving h id saving =>
    rw [(sameButFlags_setSaving s now h id saving).settings]
    exact hsame
  | setError h id error => cases id <;> cases error <;> exact hsame
  | _ => exact hsame

theorem extended_settings (hs : s.Kept) (now : Nat) (a : Action) (g : String) :
    Extended (a.reported g) (part s.settings g).keys (part (s.reduce now a).settings g).keys := by
  rw [keys_settings_reduce hs]
  exact .eraseDups (hs.settings.distinct g)

/-- Unless edits are recorded together, those that stay keep their order. -/
theorem extended_edits (hs : s.Kept) (now : Nat) (ha : ∀ g us, a ≠ .editAll g us) (g : String) :
    Extended (a.edited g) (part s.edits g).keys (part (s.reduce now a).edits g).keys := by
  have hsame : ∀ named, Extended named (part s.edits g).keys (part s.edits g).keys :=
    fun _ => .refl (hs.edits.distinct g)
  cases a with
  | receiveSettings h xs =>
    exact extended_updateGroup hs.edits (faithful_removeAll _) fun _ m hm =>
      .of_sublist (sublist_removeAll _ m) hm
  | edit h id value =>
    refine extended_updateGroup hs.edits (faithful_applyEdit id value) fun hg m hm => ?_
    rw [Action.edited, if_pos hg]
    exact extended_applyEdit hm id value
  | editAll h us => exact absurd rfl (ha h us)
  | setSaving h id saving =>
    rw [edits_setSaving]
    exact hsame _
  | setError h id error =>
    rw [edits_setError]
    exact hsame _
  | revert h id =>
    exact extended_updateGroup hs.edits (faithful_remove id) fun _ m hm => extended_erase hm id
  | revertGroup h => exact extended_dropGroup hs.edits
  | receiveGroups groups => exact hsame _

theorem extended_errors (hs : s.Kept) (now : Nat) (a : Action) (g : String) :
    Extended (a.failed g) (part s.errors g).keys (part (s.reduce now a).errors g).keys := by
  have hsame : ∀ named, Extended named (part s.errors g).keys (part s.errors g).keys :=
    fun _ => .refl (hs.errors.distinct g)
  have hremove : ∀ h key named, Extended named (part s.errors g).keys
      (part (updateGroup now s.errors h (remove key)) g).keys := fun h key named =>
    extended_updateGroup hs.errors (faithful_remove key) fun _ m hm => extended_erase hm key
  have hrecord : ∀ h key e, Extended (if h = g then [key] else []) (part s.errors g).keys
      (part (updateGroup now s.errors h (record key e)) g).keys := fun h key e =>
    extended_updateGroup hs.errors (faithful_record key e) fun hg m hm =>
      (if_pos hg).symm ▸ extended_put hm key e
  cases a with
  | receiveSettings h xs =>
    exact extended_updateGroup hs.errors (faithful_removeAll _) fun _ m hm =>
      .of_sublist (sublist_removeAll _ m) hm
  | setSaving h id saving =>
    rw [(sameButFlags_setSaving s now h id saving).errors]
    exact hsame _
  | setError h id error =>
    cases id with
    | none =>
      cases error with
      | none => exact extended_dropGroup hs.errors
      | some e => exact hrecord h .all e
    | some id =>
      cases error with
      | none => exact hremove h (.setting id) _
      | some e => exact hrecord h (.setting id) e
  | revert h id => exact hremove h (.setting id) _
  | revertGroup h => exact extended_dropGroup hs.errors
  | _ => exact hsame _

theorem extended_flags (hflags : WellKept s.savingSettings) (now : Nat) (a : Action) (g : String) :
    Extended (a.flagged g) (part s.savingSettings g).keys
      (part (s.reduce now a).savingSettings g).keys := by
  have hkeys := hflags.distinct g
  rcases savingSettings_reduce s now a with hsame | ⟨h, id, saving, rfl, hput⟩
  · rw [hsame]
    exact .refl hkeys
  · rw [hput, part_put, Action.flagged]
    split
    · next hg => exact hg ▸ extended_put (hflags.distinct h) id saving
    · exact .refl hkeys

/-! ### Settings over a run -/

/-- The ids under which actions report settings of a group, in the order of the reports. -/
def reports (group : String) (actions : List (Nat × Action)) : List String :=
  actions.flatMap fun step => step.2.reported group

/-- Settings that are reported come behind those that there are, in the order in which they are
first reported. -/
theorem keys_settings_reduceAll (hs : s.Kept) (actions : List (Nat × Action)) (g : String) :
    (part (s.reduceAll actions).settings g).keys
      = ((part s.settings g).keys ++ reports g actions).eraseDups := by
  induction actions generalizing s with
  | nil =>
    rw [reports, List.flatMap_nil, List.append_nil, eraseDups_of_nodup (hs.settings.distinct g)]
    rfl
  | cons step rest ih =>
    refine (ih (hs.reduce step.1 step.2)).trans ?_
    rw [keys_settings_reduce hs, eraseDups_eraseDups_append, List.append_assoc]
    rfl

/-! ### Edits over a run -/

/-- Actions, with the edits that are recorded together one by one. -/
def singles (actions : List (Nat × Action)) : List (Nat × Action) :=
  actions.flatMap fun step => step.2.single.map (step.1, ·)

theorem holdings_of_contents {s' : State} (h : s.contents = s'.contents) (g : String) :
    s.holdings g = s'.holdings g := by
  have hheld : ∀ {κ α : Type} {branch branch' : Branch κ α}, bare branch = bare branch' →
      held branch g = held branch' g := by
    intro κ α branch branch' hbare
    rw [← get?_bare, ← get?_bare, hbare]
  have hsettings : ∀ t : State,
      (held t.settings g).map Memo.contents = t.contents.settings.get? g := by
    intro t
    rw [← get?_bare]
    exact (Sorted.get?_map Memo.contents g (bare t.settings)).symm
  refine Holdings.ext ?_ (hheld (congrArg Contents.edits h)) (hheld (congrArg Contents.errors h))
    (congrArg (fun c => c.savingGroups.get? g) h) (hheld (congrArg Contents.savingSettings h))
  exact (hsettings s).trans ((congrArg (fun c => c.settings.get? g) h).trans (hsettings s').symm)

/-- An action leads to what the actions lead to of which it consists. -/
theorem holdings_single (hs : s.Regular) (now : Nat) (a : Action) (g : String) :
    (s.reduce now a).holdings g = (s.reduceAll (a.single.map (now, ·))).holdings g := by
  cases a with
  | editAll h us =>
    refine holdings_of_contents (contents_editAll hs.kept ?_ now) g
    rw [List.map_map]
    exact List.map_id _
  | _ => rfl

/-- **Edits that are recorded together lead to what they lead to one by one**, whatever else is
done before and after. -/
theorem holdings_singles {s' : State} (hs : s.Regular) (hs' : s'.Regular)
    (h : ∀ g, s.holdings g = s'.holdings g) (actions : List (Nat × Action)) (g : String) :
    (s.reduceAll actions).holdings g = (s'.reduceAll (singles actions)).holdings g := by
  induction actions generalizing s s' with
  | nil => exact h g
  | cons step rest ih =>
    have hsplit : s'.reduceAll (singles (step :: rest))
        = (s'.reduceAll (step.2.single.map (step.1, ·))).reduceAll (singles rest) :=
      List.foldl_append
    rw [hsplit]
    refine ih (hs.reduce step.1 step.2) (hs'.reduceAll _) fun k => ?_
    rw [← holdings_single hs']
    by_cases hk : step.2.group? = some k
    · exact holdings_reduce_congr hs hs' (h k) hk step.1 step.1
    · rw [holdings_reduce_of_ne hs hk, holdings_reduce_of_ne hs' hk, h k]

/-- The edit that a setting has after some actions was begun by one of them: before it the setting
was not edited, and it has been ever since. -/
structure Begun (steps : List (Nat × Action)) (g id : String) (n : Nat) : Prop where
  here : n < steps.length
  before : (empty.reduceAll (steps.take n)).isEdited g id = false
  since : ∀ m, n < m → m ≤ steps.length → (empty.reduceAll (steps.take m)).isEdited g id = true

variable {steps : List (Nat × Action)} {step : Nat × Action} {g id : String} {n : Nat}

theorem take_concat {m : Nat} (h : m ≤ steps.length) : (steps ++ [step]).take m = steps.take m :=
  List.take_append_of_le_length h

/-- An edit that goes on was begun when it was. -/
theorem Begun.concat (h : Begun steps g id n)
    (hid : (empty.reduceAll (steps ++ [step])).isEdited g id = true) :
    Begun (steps ++ [step]) g id n where
  here := Nat.lt_of_lt_of_le h.here (by simp)
  before := by
    rw [take_concat (Nat.le_of_lt h.here)]
    exact h.before
  since m hlt hle := by
    rcases Nat.lt_or_ge steps.length m with hm | hm
    · rwa [List.take_of_length_le (by rw [List.length_append]; exact hm)]
    · rw [take_concat hm]
      exact h.since m hlt hm

/-- An edit that there is only after the last action was begun by it. -/
theorem begun_last (hold : (empty.reduceAll steps).isEdited g id = false)
    (hid : (empty.reduceAll (steps ++ [step])).isEdited g id = true) :
    Begun (steps ++ [step]) g id steps.length where
  here := by simp
  before := by rwa [take_concat (Nat.le_refl _), List.take_length]
  since m hlt _ := by rwa [List.take_of_length_le (by rw [List.length_append]; exact hlt)]

theorem Begun.le_length (h : Begun (steps ++ [step]) g id n) : n ≤ steps.length :=
  Nat.le_of_lt_succ (by simpa using h.here)

/-- An edit that there was not before the last action was begun by it. -/
theorem Begun.eq_length (h : Begun (steps ++ [step]) g id n)
    (hold : (empty.reduceAll steps).isEdited g id = false) : n = steps.length := by
  by_contra hne
  have hsince := h.since steps.length (Nat.lt_of_le_of_ne h.le_length hne) (by simp)
  rw [take_concat (Nat.le_refl _), List.take_length, hold] at hsince
  cases hsince

/-- An edit that there was before the last action was begun when it was. -/
theorem Begun.of_concat (h : Begun (steps ++ [step]) g id n)
    (hold : (empty.reduceAll steps).isEdited g id = true) : Begun steps g id n := by
  have hbefore := h.before
  rw [take_concat h.le_length] at hbefore
  have hlt : n < steps.length := by
    refine Nat.lt_of_le_of_ne h.le_length fun heq => ?_
    rw [heq, List.take_length, hold] at hbefore
    cases hbefore
  refine ⟨hlt, hbefore, fun m hm hle => ?_⟩
  have hsince := h.since m hm (Nat.le_trans hle (by simp))
  rwa [take_concat hle] at hsince

/-- Whatever is edited was begun to be edited. -/
theorem exists_begun (hid : (empty.reduceAll steps).isEdited g id = true) :
    ∃ n, Begun steps g id n := by
  induction steps using List.reverseRecOn with
  | nil => cases hid
  | append_singleton steps step ih =>
    cases hold : (empty.reduceAll steps).isEdited g id with
    | true =>
      obtain ⟨n, hn⟩ := ih hold
      exact ⟨n, hn.concat hid⟩
    | false => exact ⟨steps.length, begun_last hold hid⟩

/-- One setting's edit was begun before that of another. -/
def BegunBefore (steps : List (Nat × Action)) (g x y : String) : Prop :=
  ∀ m n, Begun steps g x m → Begun steps g y n → m < n

/-- An action that records edits records one, unless it records several together. -/
theorem edited_eq_singleton {a : Action} (ha : ∀ g us, a ≠ .editAll g us) :
    a.edited g = [] ∨ ∃ id, a.edited g = [id] := by
  cases a with
  | edit h id value =>
    rw [Action.edited]
    split
    · exact Or.inr ⟨id, rfl⟩
    · exact Or.inl rfl
  | editAll h us => exact absurd rfl (ha h us)
  | _ => exact Or.inl rfl

/-- Edits stand in the order in which they were begun, if none are recorded together. -/
theorem pairwise_begun (hsteps : ∀ step ∈ steps, ∀ g us, step.2 ≠ .editAll g us) (g : String) :
    (part (empty.reduceAll steps).edits g).keys.Pairwise (BegunBefore steps g) := by
  induction steps using List.reverseRecOn with
  | nil => exact List.Pairwise.nil
  | append_singleton steps step ih =>
    obtain ⟨hinit, hlast⟩ := List.forall_mem_append.mp hsteps
    have hone := hlast step (List.mem_singleton_self step)
    have hlater : empty.reduceAll (steps ++ [step])
        = (empty.reduceAll steps).reduce step.1 step.2 := List.foldl_concat ..
    have hkeys : Extended (step.2.edited g) (part (empty.reduceAll steps).edits g).keys
        (part (empty.reduceAll (steps ++ [step])).edits g).keys :=
      hlater ▸ extended_edits (Regular.empty.reduceAll steps).kept step.1 hone g
    rw [Extended] at hkeys
    rw [hkeys]
    have hstay : ∀ {x}, x ∈ (part (empty.reduceAll steps).edits g).keys →
        (empty.reduceAll steps).isEdited g x = true := mem_keys_edits.mp
    refine List.pairwise_append.mpr ⟨?_, ?_, fun x hx y hy m n hm hn => ?_⟩
    · refine ((ih hinit).filter _).imp_of_mem fun hx hy hxy m n hm hn => ?_
      exact hxy m n (hm.of_concat (hstay (List.mem_filter.mp hx).1))
        (hn.of_concat (hstay (List.mem_filter.mp hy).1))
    · -- At most one edit is new.
      rcases edited_eq_singleton (g := g) hone with hnone | ⟨id, hid⟩
      · rw [hnone]
        exact List.Pairwise.nil
      · rw [hid]
        rcases List.sublist_singleton.mp List.filter_sublist with hnone | hnew
        · rw [hnone]
          exact List.Pairwise.nil
        · rw [hnew]
          exact List.pairwise_singleton _ _
    · have hnew : (empty.reduceAll steps).isEdited g y = false := by
        have hy' := (List.mem_filter.mp (List.mem_eraseDups.mp hy)).2
        rw [Bool.eq_false_iff]
        exact fun hold => (of_decide_eq_true hy').1 (mem_keys_edits.mpr hold)
      rw [hn.eq_length hnew]
      exact (hm.of_concat (hstay (List.mem_filter.mp hx).1)).here

theorem single_ne_editAll {a b : Action} (h : b ∈ a.single) (g : String) (us : List Update) :
    b ≠ .editAll g us := by
  rintro rfl
  cases a with
  | editAll h vs =>
    obtain ⟨u, -, hu⟩ := List.mem_map.mp h
    cases hu
  | _ => cases List.mem_singleton.mp h

/-- **Keys stay in order.**

* After any action but one that records edits together, the keys that stay in a group's settings,
  edits, errors or flags stand in the order in which they stood, and behind them stand those that
  are new, in the order in which the action names them first.
* Over a run the settings of a group stand in the order in which they were first reported.
* The edits of a group stand in the order in which they were begun, edits that were recorded
  together being taken one by one. -/
theorem keys_stay_in_order :
    (∀ (s : State) (now : Nat) (a : Action) (g : String), s.Kept → WellKept s.savingSettings →
      (∀ h us, a ≠ .editAll h us) →
      Extended (a.reported g) (part s.settings g).keys (part (s.reduce now a).settings g).keys ∧
      Extended (a.edited g) (part s.edits g).keys (part (s.reduce now a).edits g).keys ∧
      Extended (a.failed g) (part s.errors g).keys (part (s.reduce now a).errors g).keys ∧
      Extended (a.flagged g) (part s.savingSettings g).keys
        (part (s.reduce now a).savingSettings g).keys) ∧
    ∀ (actions : List (Nat × Action)) (g : String),
      (part (empty.reduceAll actions).settings g).keys = (reports g actions).eraseDups ∧
      (∀ id ∈ (part (empty.reduceAll actions).edits g).keys, ∃ n, Begun (singles actions) g id n) ∧
      (part (empty.reduceAll actions).edits g).keys.Pairwise (BegunBefore (singles actions) g) := by
  refine ⟨fun s now a g hs hflags ha => ⟨extended_settings hs now a g, extended_edits hs now ha g,
    extended_errors hs now a g, extended_flags hflags now a g⟩, fun actions g => ?_⟩
  have hedits : part (empty.reduceAll actions).edits g
      = part (empty.reduceAll (singles actions)).edits g :=
    part_of_held (congrArg Holdings.edits
      (holdings_singles Regular.empty Regular.empty (fun _ => rfl) actions g))
  refine ⟨keys_settings_reduceAll Kept.empty actions g, ?_, ?_⟩
  · rw [hedits]
    exact fun id hid => exists_begun (mem_keys_edits.mp hid)
  · rw [hedits]
    refine pairwise_begun (fun step hstep => ?_) g
    obtain ⟨whole, -, hpart⟩ := List.mem_flatMap.mp hstep
    obtain ⟨b, hb, rfl⟩ := List.mem_map.mp hpart
    exact single_ne_editAll hb

/-- Lamps are reported and edited; among the edits that are recorded together, one takes the colour
back and another begins it anew. -/
def recoloured : List (Nat × Action) :=
  [(1, .receiveSettings "lamps" [{ id := "level", value := .text "low" },
      { id := "color", value := .text "blue" }, { id := "mode", value := .text "still" }]),
    (2, .edit "lamps" "color" (.text "red")),
    (3, .editAll "lamps" [⟨"level", .text "high"⟩, ⟨"color", .text "blue"⟩,
      ⟨"mode", .text "party"⟩, ⟨"color", .text "green"⟩])]

/-- A new zone of the lamps is reported, and then their mode. -/
def zoneThenMode : Action :=
  .receiveSettings "lamps" [{ id := "zone", value := .text "hall" },
    { id := "mode", value := .text "party" }]

/-- The colour is edited after the level and the mode, as its edit was begun after theirs; the zone
comes behind the mode, which keeps its place. -/
theorem recoloured_stays_in_order :
    (part (empty.reduceAll recoloured).edits "lamps").keys = ["level", "mode", "color"] ∧
      (∃ m n, Begun (singles recoloured) "lamps" "mode" m ∧
        Begun (singles recoloured) "lamps" "color" n ∧ m < n) ∧
      (part (empty.reduceAll recoloured).settings "lamps").keys = ["level", "color", "mode"] ∧
      (empty.reduceAll recoloured).Kept ∧ (∀ g us, zoneThenMode ≠ .editAll g us) ∧
      Extended ["zone", "mode"] ["level", "color", "mode"]
        (part ((empty.reduceAll recoloured).reduce 4 zoneThenMode).settings "lamps").keys := by
  obtain ⟨hstep, hrun⟩ := keys_stay_in_order
  obtain ⟨hreported, hbegun, hordered⟩ := hrun recoloured "lamps"
  have hregular : (empty.reduceAll recoloured).Regular := Regular.empty.reduceAll recoloured
  have hedited :
      (part (empty.reduceAll recoloured).edits "lamps").keys = ["level", "mode", "color"] := rfl
  rw [hedited] at hbegun hordered
  obtain ⟨m, hm⟩ := hbegun "mode" (by decide)
  obtain ⟨n, hn⟩ := hbegun "color" (by decide)
  have hbefore : BegunBefore (singles recoloured) "lamps" "mode" "color" :=
    (List.pairwise_cons.mp (List.pairwise_cons.mp hordered).2).1 "color" (by decide)
  have haction : ∀ g us, zoneThenMode ≠ .editAll g us := by rintro g us ⟨⟩
  exact ⟨rfl, ⟨m, n, hm, hn, hbefore m n hm hn⟩, hreported.trans (by decide), hregular.kept,
    haction, (hstep _ 4 _ "lamps" hregular.kept hregular.savingSettings haction).1⟩

end State

end RemoteSettings
