import RemoteSettings.Proofs.Keyed
import RemoteSettings.State.Reduce

/-!
# What can be looked up after an action

Settings, edits and errors are branches: each group has a part, in which entries stand by key, and a
group that is left out has an empty part.  Actions are made of a few changes to branches; here is
what each of them does to the part of every group and to the entry of every key.

## Main definitions

* `State.Branch`, `State.part` — a branch, and the part of a group.
* `State.Faithful` — a change that says that nothing changed only when nothing did.
* `State.WellKept` — groups in order, and each key once in each part.

## Main results

* `part_receive`, `part_updateGroup`, `part_dropGroup` — the parts after a change.
* `get?_addSettings`, `get?_removeAll` — the entries after settings are added or keys are removed.
* `get?_part_updateGroup` — the entries of every group after a change to one.
* `WellKept.receive`, `WellKept.updateGroup`, `WellKept.dropGroup` — branches stay well kept.
-/

namespace RemoteSettings.State

/-- For each group a part, in which entries stand by key. -/
abbrev Branch (κ α : Type) := Versioned (Sorted (Versioned (Keyed κ α)))

variable {κ α : Type} {now : Nat} {branch : Branch κ α} {g h : String}

/-- The part of a group. -/
def part (branch : Branch κ α) (group : String) : Keyed κ α :=
  ((branch.value.get? group).map (·.value)).getD []

theorem part_of_get? {p : Versioned (Keyed κ α)} (h : branch.value.get? g = some p) :
    part branch g = p.value := by
  rw [part, h]
  rfl

theorem part_of_get?_eq_none (h : branch.value.get? g = none) : part branch g = [] := by
  rw [part, h]
  rfl

theorem part_put (v : Version) (branch : Branch κ α) (p : Versioned (Keyed κ α)) (g h : String) :
    part ⟨v, branch.value.put g p⟩ h = if g = h then p.value else part branch h := by
  rw [part, Sorted.get?_put]
  split <;> rfl

theorem part_erase (hordered : branch.value.Ordered) (v : Version) (g h : String) :
    part ⟨v, branch.value.erase g⟩ h = if g = h then [] else part branch h := by
  rw [part, Sorted.get?_erase hordered]
  split <;> rfl

/-! ### Changes to a branch -/

theorem part_dropGroup (hordered : branch.value.Ordered) :
    part (dropGroup now branch g) h = if g = h then [] else part branch h := by
  unfold dropGroup
  split
  · exact part_erase hordered _ g h
  · next hmissing =>
    split
    · next hg =>
      -- A group that was left out before has an empty part.
      have hnone : branch.value.get? g = none := by simpa [Sorted.has] using hmissing
      rw [← hg, part, hnone]
      rfl
    · rfl

/-- A change says that nothing changed only when nothing did. -/
def Faithful (change : Keyed κ α → Keyed κ α × Bool) : Prop :=
  ∀ m, (change m).2 = false → (change m).1 = m

theorem updateGroup_eq (now : Nat) (branch : Branch κ α) (g : String)
    (change : Keyed κ α → Keyed κ α × Bool) :
    updateGroup now branch g change
      = if (change (part branch g)).2 then
          if (change (part branch g)).1.isEmpty then ⟨⟨now, 0⟩, branch.value.erase g⟩
          else ⟨⟨now, 0⟩, branch.value.put g ⟨⟨now, 0⟩, (change (part branch g)).1⟩⟩
        else branch := rfl

theorem part_updateGroup (hordered : branch.value.Ordered)
    {change : Keyed κ α → Keyed κ α × Bool} (hfaithful : Faithful change) :
    part (updateGroup now branch g change) h
      = if g = h then (change (part branch g)).1 else part branch h := by
  rw [updateGroup_eq]
  split
  · split
    · next hempty =>
      rw [part_erase hordered, List.isEmpty_iff.mp hempty]
    · rw [part_put]
  · -- Nothing is said to have changed, and the change is faithful.
    next hsame =>
    split
    · next hg =>
      rw [← hg, hfaithful _ (Bool.eq_false_iff.mpr hsame)]
    · rfl

/-- A group's part stays the same part while other groups change. -/
theorem get?_updateGroup_of_ne (hordered : branch.value.Ordered) (hne : g ≠ h)
    (change : Keyed κ α → Keyed κ α × Bool) :
    (updateGroup now branch g change).value.get? h = branch.value.get? h := by
  rw [updateGroup_eq]
  split
  · split
    · rw [Sorted.get?_erase hordered, if_neg hne]
    · rw [Sorted.get?_put, if_neg hne]
  · rfl

theorem get?_dropGroup_of_ne (hordered : branch.value.Ordered) (hne : g ≠ h) :
    (dropGroup now branch g).value.get? h = branch.value.get? h := by
  unfold dropGroup
  split
  · rw [Sorted.get?_erase hordered, if_neg hne]
  · rfl

/-! ### Well-kept branches -/

/-- The groups stand in order, and in each part each key stands once. -/
structure WellKept (branch : Branch κ α) : Prop where
  ordered : branch.value.Ordered
  distinct : ∀ g, (part branch g).keys.Nodup

theorem WellKept.initial : WellKept (.initial [] : Branch κ α) :=
  ⟨Sorted.Ordered.nil, fun _ => List.nodup_nil⟩

theorem WellKept.put (hb : WellKept branch) (v : Version) {p : Versioned (Keyed κ α)}
    (hp : p.value.keys.Nodup) : WellKept ⟨v, branch.value.put g p⟩ where
  ordered := hb.ordered.put g p
  distinct := by
    intro h
    rw [part_put]
    split
    · exact hp
    · exact hb.distinct h

theorem WellKept.erase (hb : WellKept branch) (v : Version) :
    WellKept ⟨v, branch.value.erase g⟩ where
  ordered := hb.ordered.erase g
  distinct := by
    intro h
    rw [part_erase hb.ordered]
    split
    · exact List.nodup_nil
    · exact hb.distinct h

theorem WellKept.dropGroup (hb : WellKept branch) : WellKept (dropGroup now branch g) := by
  unfold State.dropGroup
  split
  · exact hb.erase _
  · exact hb

theorem WellKept.updateGroup (hb : WellKept branch) {change : Keyed κ α → Keyed κ α × Bool}
    (hchange : ∀ m, m.keys.Nodup → (change m).1.keys.Nodup) :
    WellKept (updateGroup now branch g change) := by
  rw [updateGroup_eq]
  split
  · split
    · exact hb.erase _
    · exact hb.put _ (hchange _ (hb.distinct g))
  · exact hb

/-! ### Look-ups -/

variable [DecidableEq κ]

theorem get?_part (branch : Branch κ α) (group : String) (key : κ) :
    (part branch group).get? key = (branch.value.get? group).bind fun p => p.value.get? key := by
  rw [part]
  cases branch.value.get? group <;> rfl

theorem setting?_eq (s : State) (group id : String) :
    s.setting? group id = (part s.settings group).get? id := (get?_part _ _ _).symm

theorem edit?_eq (s : State) (group id : String) :
    s.edit? group id = (part s.edits group).get? id := (get?_part _ _ _).symm

theorem error?_eq (s : State) (group : String) (key : ErrorKey) :
    s.error? group key = (part s.errors group).get? key := (get?_part _ _ _).symm

/-! ### Settings that are reported -/

theorem findRev?_cons {α : Type} (p : α → Bool) (x : α) (xs : List α) :
    (x :: xs).findRev? p = (xs.findRev? p).or (if p x then some x else none) := by
  rw [List.findRev?]
  cases xs.findRev? p <;> cases p x <;> rfl

/-- What a list names can be found in it from behind. -/
theorem exists_findRev?_of_mem {α : Type} {id : α → String} {xs : List α} {i : String}
    (hi : i ∈ xs.map id) : ∃ x, xs.findRev? (id · == i) = some x := by
  obtain ⟨x, hx, rfl⟩ := List.mem_map.mp hi
  rw [List.findRev?_eq_find?_reverse, ← Option.isSome_iff_exists, List.find?_isSome]
  exact ⟨x, List.mem_reverse.mpr hx, beq_self_eq_true _⟩

theorem part_receive (now : Nat) (branch : Versioned (Sorted GroupSettings)) (g h : String)
    (settings : List Setting) :
    part (receive now branch g settings) h
      = if g = h then addSettings now 0 settings (part branch g) else part branch h := by
  rw [receive, part_put]
  rfl

/-- Settings under other ids stay the same parts. -/
theorem get?_addSettings_of_not_mem {id : String} {settings : List Setting}
    (hid : ∀ x ∈ settings, x.id ≠ id) (now slot : Nat) (m : Keyed String (Versioned Setting)) :
    (addSettings now slot settings m).get? id = m.get? id := by
  induction settings generalizing slot m with
  | nil => rfl
  | cons x rest ih =>
    have hrest : ∀ y ∈ rest, y.id ≠ id := fun y hy => hid y (List.mem_cons_of_mem x hy)
    rw [addSettings, ih hrest, Keyed.get?_put_of_ne (hid x List.mem_cons_self)]

/-- The last setting that is reported under an id takes the place of any other. -/
theorem get?_addSettings (now slot : Nat) (settings : List Setting)
    (m : Keyed String (Versioned Setting)) (id : String) :
    ((addSettings now slot settings m).get? id).map (·.value)
      = (settings.findRev? (·.id == id)).or ((m.get? id).map (·.value)) := by
  induction settings generalizing slot m with
  | nil => rfl
  | cons x rest ih =>
    rw [addSettings, ih, Keyed.get?_put, findRev?_cons, Option.or_assoc]
    by_cases hx : x.id = id
    · rw [if_pos hx, if_pos (beq_iff_eq.mpr hx)]
      rfl
    · rw [if_neg hx, if_neg (by simpa using hx)]
      rfl

/-- A setting that there is after others are added was there before, or it is one of them and is
numbered by its place. -/
theorem get?_addSettings_cases {now slot : Nat} {settings : List Setting}
    {m : Keyed String (Versioned Setting)} {id : String} {x : Versioned Setting}
    (hx : (addSettings now slot settings m).get? id = some x) :
    m.get? id = some x ∨
      ∃ i, x.version = ⟨now, slot + i⟩ ∧ settings[i]? = some x.value := by
  induction settings generalizing slot m with
  | nil => exact Or.inl hx
  | cons y rest ih =>
    rcases ih hx with hput | ⟨i, hversion, hi⟩
    · rw [Keyed.get?_put] at hput
      split at hput
      · cases hput
        exact Or.inr ⟨0, rfl, rfl⟩
      · exact Or.inl hput
    · refine Or.inr ⟨i + 1, ?_, hi⟩
      rw [hversion, Nat.add_assoc, Nat.add_comm 1 i]

theorem nodup_keys_addSettings {m : Keyed String (Versioned Setting)} (h : m.keys.Nodup)
    (now slot : Nat) (settings : List Setting) :
    (addSettings now slot settings m).keys.Nodup := by
  induction settings generalizing slot m with
  | nil => exact h
  | cons x rest ih => exact ih (Keyed.nodup_keys_put h _ _) _

/-! ### Changes to a part -/

theorem faithful_record (key : κ) (value : α) : Faithful (record key value) := by
  intro m hm
  cases hm

theorem faithful_remove (key : κ) : Faithful (remove key : Keyed κ α → Keyed κ α × Bool) := by
  intro m hm
  have hnone : m.get? key = none := by simpa [remove, Keyed.has] using hm
  exact Keyed.erase_of_get?_eq_none hnone

theorem faithful_removeAll (keys : List κ) :
    Faithful (removeAll keys : Keyed κ α → Keyed κ α × Bool) := by
  induction keys with
  | nil => exact fun _ _ => rfl
  | cons key keys ih =>
    intro m hm
    obtain ⟨hkey, hkeys⟩ : m.has key = false ∧ (removeAll keys (m.erase key)).2 = false :=
      Bool.or_eq_false_iff.mp hm
    have herase : m.erase key = m := faithful_remove key m hkey
    exact (ih _ hkeys).trans herase

/-- Removed keys are gone and the others have the entries they had. -/
theorem get?_removeAll {m : Keyed κ α} (hm : m.keys.Nodup) (keys : List κ) (k : κ) :
    (removeAll keys m).1.get? k = if k ∈ keys then none else m.get? k := by
  induction keys generalizing m with
  | nil => simp [removeAll]
  | cons key keys ih =>
    rw [removeAll]
    dsimp only
    rw [ih (Keyed.nodup_keys_erase hm key), Keyed.get?_erase hm]
    by_cases hk : key = k
    · simp [hk]
    · simp [hk, Ne.symm hk]

theorem nodup_keys_removeAll {m : Keyed κ α} (hm : m.keys.Nodup) (keys : List κ) :
    (removeAll keys m).1.keys.Nodup := by
  induction keys generalizing m with
  | nil => exact hm
  | cons key keys ih => exact ih (Keyed.nodup_keys_erase hm key)

/-- A change that sets one look-up of a part does so in the part of its group, and sets no other. -/
theorem get?_part_updateGroup (hordered : branch.value.Ordered)
    {change : Keyed κ α → Keyed κ α × Bool} (hfaithful : Faithful change) {k : κ} {a : Option α}
    {named : Prop} [Decidable named]
    (hchange : (change (part branch g)).1.get? k = if named then a else (part branch g).get? k) :
    (part (updateGroup now branch g change) h).get? k
      = if g = h ∧ named then a else (part branch h).get? k := by
  rw [part_updateGroup hordered hfaithful]
  by_cases hg : g = h
  · rw [if_pos hg, hchange, hg]
    simp
  · rw [if_neg hg, if_neg fun hboth => hg hboth.1]

/-- An entry that is removed from a group is gone, and no other. -/
theorem get?_part_remove (hb : WellKept branch) (key k : κ) :
    (part (updateGroup now branch g (remove key)) h).get? k
      = if g = h ∧ key = k then none else (part branch h).get? k :=
  get?_part_updateGroup hb.ordered (faithful_remove key) (Keyed.get?_erase (hb.distinct g) k key)

/-- Entries that are removed from a group are gone, and no other. -/
theorem get?_part_removeAll (hb : WellKept branch) (keys : List κ) (k : κ) :
    (part (updateGroup now branch g (removeAll keys)) h).get? k
      = if g = h ∧ k ∈ keys then none else (part branch h).get? k :=
  get?_part_updateGroup hb.ordered (faithful_removeAll keys) (get?_removeAll (hb.distinct g) keys k)

/-- An entry that is set in a group is there, and no other has changed. -/
theorem get?_part_record (hb : WellKept branch) (key k : κ) (value : α) :
    (part (updateGroup now branch g (record key value)) h).get? k
      = if g = h ∧ key = k then some value else (part branch h).get? k :=
  get?_part_updateGroup hb.ordered (faithful_record key value) (Keyed.get?_put k key value _)

/-- A group that is left out has no entries, and no other has changed. -/
theorem get?_part_dropGroup (hb : WellKept branch) (k : κ) :
    (part (dropGroup now branch g) h).get? k
      = if g = h then none else (part branch h).get? k := by
  rw [part_dropGroup hb.ordered]
  split <;> rfl

/-! ### Changes keep branches -/

theorem WellKept.receive {branch : Versioned (Sorted GroupSettings)} (hb : WellKept branch)
    (settings : List Setting) : WellKept (receive now branch g settings) :=
  hb.put _ (nodup_keys_addSettings (hb.distinct g) now 0 settings)

end RemoteSettings.State
