import RemoteSettings.Scope

/-!
# The overlap of scopes

A scope contains another exactly when its path is a prefix of the other's, so containment is a
partial order, in which what contains the same scope lies in a line.  So two scopes overlap exactly
when some scope is contained in both.  The scopes of two operations overlap only if they are about
the same group, and one about all of it or both about the same setting.

## Main results

* `contains_iff`, `overlaps_iff` — what the two tests decide.
* `ofGroup_overlaps_ofGroup`, `ofGroup_overlaps_ofSetting`, `ofSetting_overlaps_ofGroup`,
  `ofSetting_overlaps_ofSetting` — the overlap of the scopes of groups and settings.
* `scopes_overlap_in_a_scope` — **containment is a partial order, and scopes overlap exactly when
  they contain a scope together.**
-/

namespace RemoteSettings.Scope

/-- Where one list is no longer than another, it is a prefix if no pair of items differs. -/
theorem all_zip_iff {xs ys : List String} (h : ys.length ≤ xs.length) :
    ((xs.zip ys).all fun pair => pair.1 == pair.2) = true ↔ ys <+: xs := by
  induction ys generalizing xs with
  | nil => simp
  | cons y ys ih =>
    cases xs with
    | nil => exact absurd h (Nat.not_succ_le_zero _)
    | cons x xs =>
      rw [List.zip_cons_cons, List.all_cons, Bool.and_eq_true, ih (Nat.le_of_succ_le_succ h),
        beq_iff_eq, List.cons_prefix_cons, eq_comm]

theorem contains_iff {a b : Scope} : a.contains b = true ↔ a.segments <+: b.segments := by
  rw [contains, Bool.and_eq_true, decide_eq_true_iff]
  constructor
  · rintro ⟨hlength, hpairs⟩
    exact (all_zip_iff hlength).mp hpairs
  · intro h
    exact ⟨h.length_le, (all_zip_iff h.length_le).mpr h⟩

/-- Two scopes overlap when the path of one is a prefix of the path of the other. -/
theorem overlaps_iff {a b : Scope} :
    a.overlaps b = true ↔ a.segments <+: b.segments ∨ b.segments <+: a.segments := by
  rw [overlaps, Bool.or_eq_true, contains_iff, contains_iff]

theorem overlaps_comm (a b : Scope) : a.overlaps b = b.overlaps a := by
  rw [overlaps, overlaps, Bool.or_comm]

/-! ### The order of scopes -/

theorem contains_refl (a : Scope) : a.contains a = true :=
  contains_iff.mpr (List.prefix_refl _)

theorem contains_antisymm {a b : Scope} (hab : a.contains b = true) (hba : b.contains a = true) :
    a = b := by
  have hbelow := contains_iff.mp hab
  have hlength := Nat.le_antisymm hbelow.length_le (contains_iff.mp hba).length_le
  exact congrArg Scope.mk (hbelow.eq_of_length hlength)

theorem contains_trans {a b c : Scope} (hab : a.contains b = true) (hbc : b.contains c = true) :
    a.contains c = true :=
  contains_iff.mpr ((contains_iff.mp hab).trans (contains_iff.mp hbc))

/-- Each segment of a scope stands at the same place in the scopes that it contains. -/
theorem contains_iff_segments {a b : Scope} :
    a.contains b = true
      ↔ ∀ (i : Nat) (segment : String), a.segments[i]? = some segment →
        b.segments[i]? = some segment := by
  rw [contains_iff, List.prefix_iff_getElem?]
  constructor
  · intro h i segment hi
    obtain ⟨hlt, rfl⟩ := List.getElem?_eq_some_iff.mp hi
    exact h i hlt
  · intro h i hlt
    exact h i _ (List.getElem?_eq_getElem hlt)

/-- What contains the same scope lies in a line, and a scope that contains another contains it
together with the other. -/
theorem overlaps_iff_exists {a b : Scope} :
    a.overlaps b = true ↔ ∃ c : Scope, a.contains c = true ∧ b.contains c = true := by
  constructor
  · intro h
    rcases (Bool.or_eq_true _ _).mp h with hab | hba
    · exact ⟨b, hab, contains_refl b⟩
    · exact ⟨a, contains_refl a, hba⟩
  · rintro ⟨c, hac, hbc⟩
    exact overlaps_iff.mpr
      (List.prefix_or_prefix_of_prefix (contains_iff.mp hac) (contains_iff.mp hbc))

/-- What overlaps a scope overlaps all that contain it. -/
theorem overlaps_of_contains {a b c : Scope} (hab : a.contains b = true)
    (hcb : c.overlaps b = true) : c.overlaps a = true := by
  obtain ⟨d, hcd, hbd⟩ := overlaps_iff_exists.mp hcb
  exact overlaps_iff_exists.mpr ⟨d, hcd, contains_trans hab hbd⟩

/-! ### Groups and settings -/

theorem ofGroup_segments (g : String) : (ofGroup g).segments = ["settings", g] := rfl

theorem ofSetting_segments (g id : String) : (ofSetting g id).segments = ["settings", g, id] := rfl

theorem ofGroup_overlaps_ofGroup {g h : String} :
    (ofGroup g).overlaps (ofGroup h) = true ↔ g = h := by
  rw [overlaps_iff, ofGroup_segments, ofGroup_segments]
  simp [eq_comm]

theorem ofGroup_overlaps_ofSetting {g h id : String} :
    (ofGroup g).overlaps (ofSetting h id) = true ↔ g = h := by
  rw [overlaps_iff, ofGroup_segments, ofSetting_segments]
  simp [eq_comm]

theorem ofSetting_overlaps_ofGroup {g h id : String} :
    (ofSetting g id).overlaps (ofGroup h) = true ↔ g = h := by
  rw [overlaps_comm, ofGroup_overlaps_ofSetting, eq_comm]

theorem ofSetting_overlaps_ofSetting {g h i j : String} :
    (ofSetting g i).overlaps (ofSetting h j) = true ↔ g = h ∧ i = j := by
  rw [overlaps_iff, ofSetting_segments, ofSetting_segments]
  simp [eq_comm]

/-- **Containment is a partial order, and scopes overlap exactly when they contain a scope
together.**

* A scope contains another exactly when its path is a prefix of the other's, that is, when the other
  has each of its segments at the same place.
* Overlapping does not depend on which of two scopes is named first, and what overlaps a scope
  overlaps all that contain it.
* The scope of a group overlaps that of a group or of a setting exactly when the groups are the
  same, and the scopes of two settings overlap exactly when these are the same setting of the same
  group, whatever characters there are in the names. -/
theorem scopes_overlap_in_a_scope :
    (∀ a b : Scope, (a.contains b = true ↔ a.segments <+: b.segments)
      ∧ (a.contains b = true ↔ ∀ (i : Nat) (segment : String), a.segments[i]? = some segment →
        b.segments[i]? = some segment))
    ∧ ((∀ a : Scope, a.contains a = true)
      ∧ (∀ a b : Scope, a.contains b = true → b.contains a = true → a = b)
      ∧ ∀ a b c : Scope, a.contains b = true → b.contains c = true → a.contains c = true)
    ∧ (∀ a b : Scope,
      a.overlaps b = true ↔ ∃ c : Scope, a.contains c = true ∧ b.contains c = true)
    ∧ (∀ a b : Scope, a.overlaps b = true ↔ b.overlaps a = true)
    ∧ (∀ a b : Scope, a.contains b = true → ∀ c : Scope, c.overlaps b = true →
      c.overlaps a = true)
    ∧ (∀ g h t : String, ((ofGroup g).overlaps (ofGroup h) = true ↔ g = h)
      ∧ ((ofGroup g).overlaps (ofSetting h t) = true ↔ g = h))
    ∧ ∀ g s h t : String, (ofSetting g s).overlaps (ofSetting h t) = true ↔ g = h ∧ s = t := by
  refine ⟨fun a b => ⟨contains_iff, contains_iff_segments⟩,
    ⟨contains_refl, fun a b => contains_antisymm, fun a b c => contains_trans⟩,
    fun a b => overlaps_iff_exists, fun a b => ?_, fun a b hab c => overlaps_of_contains hab,
    fun g h t => ⟨ofGroup_overlaps_ofGroup, ofGroup_overlaps_ofSetting⟩,
    fun g s h t => ofSetting_overlaps_ofSetting⟩
  rw [overlaps_comm]

/-- The setting `b/c` of the group `a` and the setting `c` of the group `a/b` are shown alike but do
not overlap.  What contains a group contains its settings, and overlaps what they overlap. -/
theorem slashes_keep_scopes_apart :
    ((ofSetting "a" "b/c").text = (ofSetting "a/b" "c").text
      ∧ (ofSetting "a" "b/c").overlaps (ofSetting "a/b" "c") = false)
    ∧ ((⟨["settings"]⟩ : Scope).contains (ofGroup "a") = true
      ∧ (ofGroup "a").contains (ofSetting "a" "b/c") = true
      ∧ (⟨["settings"]⟩ : Scope).contains (ofSetting "a" "b/c") = true)
    ∧ ((ofGroup "a").overlaps (ofSetting "a" "b/c") = true
      ∧ (ofGroup "a").overlaps ⟨["settings"]⟩ = true)
    ∧ ((⟨["settings", "a"]⟩ : Scope).contains (ofGroup "a") = true
      ∧ (ofGroup "a").contains ⟨["settings", "a"]⟩ = true ∧ ⟨["settings", "a"]⟩ = ofGroup "a") := by
  obtain ⟨-, ⟨-, hantisymm, htrans⟩, -, -, hover, hgroup, hsetting⟩ := scopes_overlap_in_a_scope
  have hroot : (⟨["settings"]⟩ : Scope).contains (ofGroup "a") = true := by decide
  have hbelow : (ofGroup "a").contains (ofSetting "a" "b/c") = true := by decide
  have hall := htrans _ _ _ hroot hbelow
  have hshared := (hgroup "a" "a" "b/c").2.mpr rfl
  have hto : (⟨["settings", "a"]⟩ : Scope).contains (ofGroup "a") = true := by decide
  have hfro : (ofGroup "a").contains ⟨["settings", "a"]⟩ = true := by decide
  refine ⟨⟨by decide, Bool.eq_false_iff.mpr fun h => ?_⟩, ⟨hroot, hbelow, hall⟩,
    ⟨hshared, hover _ _ hall _ hshared⟩, hto, hfro, hantisymm _ _ hto hfro⟩
  exact absurd ((hsetting "a" "b/c" "a/b" "c").mp h).1 (by decide)

end RemoteSettings.Scope
