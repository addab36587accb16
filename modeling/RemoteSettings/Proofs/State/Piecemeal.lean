import RemoteSettings.Proofs.State.Independence

/-!
# Batches and their items

An action on several items changes one copy of a group's part, and decides once, when all items are
done, whether the copy is kept and whether the group is left out.  Item by item the same is decided
after each of them, and a group may be left out and come back in between.  The contents are the same
in the end, in the same order.

## Main definitions

* `andThen` — one change to a part after another.

## Main results

* `bare_updateGroup_andThen` — **changes one after another come to the change that makes both.**
* `contents_receiveAll` — the same for settings that are reported.
* `batches_equal_sequences` — a batch has the contents of its items one by one.
-/

namespace RemoteSettings.State

/-! ### Changes one after another -/

section Branch

variable {κ α : Type} {branch : Branch κ α} {g h : String}
variable {first second third : Keyed κ α → Keyed κ α × Bool}

/-- One change to a part after another, which says that something changed if either does. -/
def andThen (first second : Keyed κ α → Keyed κ α × Bool) (m : Keyed κ α) : Keyed κ α × Bool :=
  ((second (first m).1).1, (first m).2 || (second (first m).1).2)

theorem andThen_assoc :
    andThen (andThen first second) third = andThen first (andThen second third) := by
  funext m
  rw [andThen, andThen, andThen, andThen, Bool.or_assoc]

theorem ordered_updateGroup (hordered : branch.value.Ordered) (now : Nat) (g : String)
    (change : Keyed κ α → Keyed κ α × Bool) :
    (updateGroup now branch g change).value.Ordered := by
  rw [updateGroup_eq]
  split
  · split
    · exact hordered.erase g
    · exact hordered.put g _
  · exact hordered

/-- **Changes one after another come to the change that makes both.**  It makes no difference that
the group may have been left out in between. -/
theorem bare_updateGroup_andThen (hordered : branch.value.Ordered) (hfirst : Faithful first)
    (hsecond : Faithful second) (n₁ n₂ now : Nat) :
    bare (updateGroup n₂ (updateGroup n₁ branch g first) g second)
      = bare (updateGroup now branch g (andThen first second)) := by
  have hordered₁ := ordered_updateGroup hordered n₁ g first
  refine bare_eq (ordered_updateGroup hordered₁ n₂ g second)
    (ordered_updateGroup hordered now g _) fun h => ?_
  by_cases hg : g = h
  · subst hg
    rw [held_updateGroup hordered₁, held_updateGroup hordered, held_updateGroup hordered,
      part_updateGroup hordered hfirst, if_pos rfl, andThen]
    cases hmore : (second (first (part branch g)).1).2 with
    | true => simp
    | false =>
      -- The second change leaves what the first has made of the part.
      simp [hsecond _ hmore]
  · have hother : ∀ (n : Nat) (b : Branch κ α) change, b.value.Ordered →
        held (updateGroup n b g change) h = held b h := fun n b change hb =>
      congrArg (Option.map _) (get?_updateGroup_of_ne hb hg change)
    rw [hother _ _ _ hordered₁, hother _ _ _ hordered, hother _ _ _ hordered]

theorem removeAll_append [DecidableEq κ] (ks ls : List κ) :
    (removeAll (ks ++ ls) : Keyed κ α → Keyed κ α × Bool)
      = andThen (removeAll ks) (removeAll ls) := by
  induction ks with
  | nil =>
    funext m
    rfl
  | cons k ks ih =>
    have hcons : ∀ ks : List κ, (removeAll (k :: ks) : Keyed κ α → Keyed κ α × Bool)
        = andThen (remove k) (removeAll ks) := fun _ => rfl
    rw [List.cons_append, hcons, hcons, ih, andThen_assoc]

end Branch

/-! ### Reports one after another -/

theorem addSettings_append (now slot : Nat) (xs ys : List Setting)
    (m : Keyed String (Versioned Setting)) :
    addSettings now slot (xs ++ ys) m
      = addSettings now (slot + xs.length) ys (addSettings now slot xs m) := by
  induction xs generalizing slot m with
  | nil => rfl
  | cons x xs ih =>
    rw [List.cons_append, addSettings, ih, List.length_cons, Nat.add_assoc, Nat.add_comm 1]
    rfl

/-- Reports one after another leave the contents of one report of all. -/
theorem contents_receiveAll {branch : Versioned (Sorted GroupSettings)}
    (hordered : branch.value.Ordered) (g : String) (xs ys : List Setting) (n₁ n₂ now : Nat) :
    (bare (receive n₂ (receive n₁ branch g xs) g ys)).map (fun e => (e.1, Memo.contents e.2))
      = (bare (receive now branch g (xs ++ ys))).map fun e => (e.1, Memo.contents e.2) := by
  have hordered₁ : (receive n₁ branch g xs).value.Ordered := hordered.put g _
  refine bare_contents_eq (hordered₁.put g _) (hordered.put g _) fun h => ?_
  have hheld : ∀ (n : Nat) (b : Versioned (Sorted GroupSettings)) (zs : List Setting),
      held (receive n b g zs) h
        = if g = h then some (addSettings n 0 zs (part b g)) else held b h := by
    intro n b zs
    split
    · next hg => exact hg ▸ held_put _ b _ g
    · next hg => exact held_put_of_ne hg _ b _
  rw [hheld, hheld, hheld, part_receive]
  split
  · rw [if_pos rfl, addSettings_append, Option.map_some, Option.map_some]
    refine congrArg some (contents_addSettings_congr ?_ n₂ now 0 _ ys)
    exact contents_addSettings_congr rfl n₁ now 0 0 xs
  · rfl

/-! ### Batches -/

variable {s : State}

/-- Edits recorded together leave the contents of the same edits one by one. -/
theorem contents_editAll (hs : s.Kept) {g : String} {us : List Update} {steps : List (Nat × Action)}
    (hsteps : steps.map (·.2) = us.map fun u => .edit g u.id u.value) (now : Nat) :
    (s.reduce now (.editAll g us)).contents = (s.reduceAll steps).contents := by
  induction us generalizing s steps with
  | nil =>
    obtain rfl : steps = [] := List.map_eq_nil_iff.mp hsteps
    rfl
  | cons u us ih =>
    obtain ⟨⟨n, a⟩, rest, rfl, rfl, hrest⟩ := List.map_eq_cons_iff.mp hsteps
    refine Eq.trans ?_ (ih (hs.reduce n _) hrest)
    -- The first edit leaves the settings with which the others are compared.
    have hedits : bare (s.reduce now (.editAll g (u :: us))).edits
        = bare ((s.reduce n (.edit g u.id u.value)).reduce now (.editAll g us)).edits :=
      (bare_updateGroup_andThen hs.edits.ordered (faithful_applyEdit u.id u.value)
        (faithful_applyEdits us) n now now).symm
    exact Contents.ext rfl rfl hedits rfl rfl rfl

/-- **A batch has the contents of its items one by one**, keys in the same order: edits recorded
together those of the same edits in turn, and a report those of its two halves however it is
split. -/
theorem batches_equal_sequences (hs : s.Kept) (g : String) :
    (∀ (us : List Update) (steps : List (Nat × Action)) (now : Nat),
      steps.map (·.2) = us.map (fun u => .edit g u.id u.value) →
      (s.reduce now (.editAll g us)).contents = (s.reduceAll steps).contents) ∧
    ∀ (xs ys : List Setting) (now n₁ n₂ : Nat),
      (s.reduce now (.receiveSettings g (xs ++ ys))).contents
        = ((s.reduce n₁ (.receiveSettings g xs)).reduce n₂ (.receiveSettings g ys)).contents := by
  refine ⟨fun us steps now hsteps => contents_editAll hs hsteps now, ?_⟩
  intro xs ys now n₁ n₂
  have hremove : ∀ {κ α : Type} [DecidableEq κ] {b : Branch κ α}, b.value.Ordered →
      ∀ ks ls : List κ, bare (updateGroup now b g (removeAll (ks ++ ls)))
        = bare (updateGroup n₂ (updateGroup n₁ b g (removeAll ks)) g (removeAll ls)) := by
    intro κ α _ b hb ks ls
    rw [removeAll_append]
    exact (bare_updateGroup_andThen hb (faithful_removeAll ks) (faithful_removeAll ls) n₁ n₂
      now).symm
  refine Contents.ext rfl (contents_receiveAll hs.settings.ordered g xs ys n₁ n₂ now).symm ?_ ?_
    rfl rfl
  · have hids : (xs ++ ys).map (·.id) = xs.map (·.id) ++ ys.map (·.id) := List.map_append
    show bare (updateGroup now s.edits g (removeAll ((xs ++ ys).map (·.id)))) = _
    rw [hids]
    exact hremove hs.edits.ordered _ _
  · have hkeys : ((xs ++ ys).map (·.id)).map ErrorKey.setting
        = (xs.map (·.id)).map .setting ++ (ys.map (·.id)).map .setting := by
      rw [List.map_append, List.map_append]
    show bare (updateGroup now s.errors g (removeAll (((xs ++ ys).map (·.id)).map .setting))) = _
    rw [hkeys]
    exact hremove hs.errors.ordered _ _

/-- Lamps that have been reported, with one edit and two errors. -/
def dimmedLamps : State :=
  empty.reduceAll [(1, .receiveSettings "lamps"
      [{ id := "color", value := .text "blue" }, { id := "level", value := .text "low" }]),
    (2, .edit "lamps" "level" (.text "high")),
    (3, .setError "lamps" (some "color") (some (.transport "no color"))),
    (4, .setError "lamps" (some "level") (some (.transport "no level")))]

/-- Edits of which the first takes away the only edit of the lamps, so that they are left out until
the third; the colour is edited, taken back and edited again. -/
def flicker : List Update :=
  [⟨"level", .text "low"⟩, ⟨"color", .text "blue"⟩, ⟨"color", .text "red"⟩,
    ⟨"level", .text "high"⟩, ⟨"color", .text "blue"⟩, ⟨"color", .text "green"⟩]

/-- Two reports of one setting. -/
def fullLevel : Setting := { id := "level", value := .text "full" }

@[inherit_doc fullLevel]
def lowLevel : Setting := { id := "level", value := .text "low" }

theorem flicker_one_by_one :
    dimmedLamps.Kept ∧
      ((dimmedLamps.reduce 5 (.edit "lamps" "level" (.text "low"))).edits.value.get? "lamps").isNone
        = true ∧
      (dimmedLamps.reduce 9 (.editAll "lamps" flicker)).contents
        = (dimmedLamps.reduceAll
            [(5, .edit "lamps" "level" (.text "low")), (6, .edit "lamps" "color" (.text "blue")),
              (7, .edit "lamps" "color" (.text "red")), (8, .edit "lamps" "level" (.text "high")),
              (9, .edit "lamps" "color" (.text "blue")),
              (10, .edit "lamps" "color" (.text "green"))]).contents ∧
      (dimmedLamps.reduce 5 (.receiveSettings "lamps" [fullLevel, lowLevel])).contents
        = ((dimmedLamps.reduce 6 (.receiveSettings "lamps" [fullLevel])).reduce 7
            (.receiveSettings "lamps" [lowLevel])).contents := by
  have hkept : dimmedLamps.Kept := (Regular.empty.reduceAll _).kept
  obtain ⟨hedits, hreports⟩ := batches_equal_sequences hkept "lamps"
  exact ⟨hkept, rfl, hedits flicker _ 9 rfl, hreports [fullLevel] [lowLevel] 5 6 7⟩

end RemoteSettings.State
