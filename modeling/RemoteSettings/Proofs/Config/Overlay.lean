import RemoteSettings.Config.Layer
import RemoteSettings.Proofs.Keyed

/-!
# Layers over layers

A look-up in one layer over another finds what both say of the key together.  Where the upper layer
is no mapping it replaces the lower one, and no key of the lower one is left.

## Main definitions

* `Json.overlay?` — what two layers say together of which either may say nothing.
* `Json.at?` — what a layer says at the end of a path.

## Main results

* `Json.get?_overlayFields` — a look-up in a layer over another.
* `Json.isSome_at?_overlay_right`, `Json.isSome_at?_overlay_left` — the keys that are left.
-/

namespace RemoteSettings.Json

/-- What two layers say together of which either may say nothing. -/
def overlay? : Option Json → Option Json → Option Json
  | base, none => base
  | none, some top => some top
  | some base, some top => some (overlay base top)

/-- What stands at the end of a path of keys. -/
def at? : List String → Json → Option Json
  | [], j => some j
  | key :: path, j => (j.get? key).bind (at? path)

theorem at?_singleton (key : String) (j : Json) : j.at? [key] = j.get? key :=
  Option.bind_fun_some _

theorem at?_pair (key name : String) (j : Json) :
    j.at? [key, name] = (j.get? key).bind (·.get? name) :=
  Option.bind_congr fun part _ => at?_singleton name part

@[simp] theorem overlay?_none (base : Option Json) : overlay? base none = base := by
  cases base <;> rfl

@[simp] theorem none_overlay? (top : Option Json) : overlay? none top = top := by
  cases top <;> rfl

/-! ### Objects -/

theorem overlay_object (base top : Keyed String Json) :
    overlay (.object base) (.object top) = .object (overlayFields base top) := by
  rw [overlay]

theorem overlay_of_not_isObject {base top : Json} (h : top.isObject = false) :
    overlay base top = top := by
  cases top with
  | object => cases h
  | _ => cases base <;> rfl

theorem overlay?_of_not_isObject {top : Json} (h : top.isObject = false) (base : Option Json) :
    overlay? base (some top) = some top := by
  cases base with
  | none => rfl
  | some base => exact congrArg some (overlay_of_not_isObject h)

theorem overlay_of_base_not_isObject {base : Json} (h : base.isObject = false) (top : Json) :
    overlay base top = top := by
  cases base with
  | object => cases h
  | _ => cases top <;> rfl

/-! ### Fields -/

theorem overlayFields_nil (base : Keyed String Json) : overlayFields base [] = base := by
  rw [overlayFields]

/-- A field is laid over what stands under its key. -/
theorem overlayFields_cons (base rest : Keyed String Json) (key : String) (value : Json) :
    ∃ joined, overlay? (Keyed.get? key base) (some value) = some joined ∧
      overlayFields base ((key, value) :: rest)
        = overlayFields (Keyed.put key joined base) rest := by
  rw [overlayFields]
  cases Keyed.get? key base with
  | none => exact ⟨value, rfl, rfl⟩
  | some under => exact ⟨overlay under value, rfl, rfl⟩

/-- A look-up in fields over others finds what both say of the key. -/
theorem get?_overlayFields {top : Keyed String Json} (h : (Keyed.keys top).Nodup)
    (base : Keyed String Json) (key : String) :
    Keyed.get? key (overlayFields base top)
      = overlay? (Keyed.get? key base) (Keyed.get? key top) := by
  induction top generalizing base with
  | nil => rw [overlayFields_nil, Keyed.get?_nil, overlay?_none]
  | cons field rest ih =>
    obtain ⟨k, value⟩ := field
    obtain ⟨hk, hrest⟩ := List.nodup_cons.mp h
    obtain ⟨joined, hjoined, hcons⟩ := overlayFields_cons base rest k value
    rw [hcons, ih hrest]
    by_cases hkey : k = key
    · subst hkey
      rw [Keyed.get?_put_self, Keyed.get?_cons_self, Keyed.get?_eq_none_iff.mpr hk, overlay?_none,
        hjoined]
    · rw [Keyed.get?_put_of_ne hkey, Keyed.get?_cons_of_ne hkey]

theorem get?_overlay {top : Keyed String Json} (h : (Keyed.keys top).Nodup) (base : Json)
    (key : String) :
    (overlay base (.object top)).get? key = overlay? (base.get? key) (Keyed.get? key top) := by
  cases base with
  | object under =>
    rw [overlay_object]
    exact get?_overlayFields h under key
  | _ => exact (none_overlay? _).symm

theorem mem_keys_overlayFields {base top : Keyed String Json} {key : String} :
    key ∈ Keyed.keys (overlayFields base top) ↔ key ∈ Keyed.keys base ∨ key ∈ Keyed.keys top := by
  induction top generalizing base with
  | nil => simp [overlayFields_nil]
  | cons field rest ih =>
    obtain ⟨k, value⟩ := field
    obtain ⟨joined, -, hcons⟩ := overlayFields_cons base rest k value
    have hput : key ∈ Keyed.keys (Keyed.put k joined base) ↔ key ∈ Keyed.keys base ∨ key = k := by
      rw [Keyed.keys_put]
      split
      · next hk => exact ⟨Or.inl, fun h => h.elim id fun h => h ▸ hk⟩
      · simp
    rw [hcons, ih, hput, Keyed.keys_cons, List.mem_cons, or_assoc]

theorem nodup_keys_overlayFields {base : Keyed String Json} (h : (Keyed.keys base).Nodup)
    (top : Keyed String Json) : (Keyed.keys (overlayFields base top)).Nodup := by
  induction top generalizing base with
  | nil => rwa [overlayFields_nil]
  | cons field rest ih =>
    obtain ⟨joined, -, hcons⟩ := overlayFields_cons base rest field.1 field.2
    rw [hcons]
    exact ih (Keyed.nodup_keys_put h field.1 joined)

/-! ### Keys that are left -/

theorem isSome_get?_object {key : String} {fields : Keyed String Json} :
    ((Json.object fields).get? key).isSome = true ↔ key ∈ Keyed.keys fields := by
  rw [Option.isSome_iff_ne_none, ne_eq, Json.get?, Keyed.get?_eq_none_iff, not_not]

theorem exists_of_isSome_get? {key : String} {j : Json} (h : (j.get? key).isSome = true) :
    ∃ fields, j = .object fields ∧ key ∈ Keyed.keys fields := by
  cases j with
  | object fields => exact ⟨fields, rfl, isSome_get?_object.mp h⟩
  | _ => cases h

/-- The keys of the upper layer are left. -/
theorem isSome_get?_overlay_right {top : Json} {key : String} (h : (top.get? key).isSome = true)
    (base : Json) : ((overlay base top).get? key).isSome = true := by
  obtain ⟨fields, rfl, hkey⟩ := exists_of_isSome_get? h
  cases base with
  | object under =>
    rw [overlay_object]
    exact isSome_get?_object.mpr (mem_keys_overlayFields.mpr (Or.inr hkey))
  | _ => exact h

/-- The keys of the lower layer are left under a mapping. -/
theorem isSome_get?_overlay_left {base top : Json} {key : String}
    (h : (base.get? key).isSome = true) (htop : top.isObject = true) :
    ((overlay base top).get? key).isSome = true := by
  obtain ⟨under, rfl, hkey⟩ := exists_of_isSome_get? h
  cases top with
  | object fields =>
    rw [overlay_object]
    exact isSome_get?_object.mpr (mem_keys_overlayFields.mpr (Or.inl hkey))
  | _ => cases htop

variable {top : Keyed String Json} {path : List String}

/-- The keys of the upper layer and of its sections are left. -/
theorem isSome_at?_overlay_right (htop : (Keyed.keys top).Nodup) (hlength : path.length ≤ 2)
    (h : ((Json.object top).at? path).isSome = true) (base : Json) :
    ((overlay base (.object top)).at? path).isSome = true := by
  match path with
  | [] => rfl
  | [key] =>
    rw [at?_singleton] at h ⊢
    exact isSome_get?_overlay_right h base
  | [key, name] =>
    rw [at?_pair] at h ⊢
    rw [get?_overlay htop]
    change (((Keyed.get? key top).bind _).isSome) = true at h
    cases hpart : Keyed.get? key top with
    | none =>
      rw [hpart] at h
      cases h
    | some part =>
      rw [hpart] at h
      cases base.get? key with
      | none => exact h
      | some under => exact isSome_get?_overlay_right h under
  | _ :: _ :: _ :: _ => exact absurd hlength (by simp)

/-- The keys of the lower layer and of its sections are left, as long as the upper layer replaces no
section by what is no mapping. -/
theorem isSome_at?_overlay_left {base : Json} (htop : (Keyed.keys top).Nodup)
    (hlength : path.length ≤ 2) (h : (base.at? path).isSome = true)
    (hwhole : ∀ key name, path = [key, name] → ∀ part, Keyed.get? key top = some part →
      part.isObject = true) :
    ((overlay base (.object top)).at? path).isSome = true := by
  match path with
  | [] => rfl
  | [key] =>
    rw [at?_singleton] at h ⊢
    exact isSome_get?_overlay_left h rfl
  | [key, name] =>
    rw [at?_pair] at h ⊢
    rw [get?_overlay htop]
    cases hunder : base.get? key with
    | none =>
      rw [hunder] at h
      cases h
    | some under =>
      rw [hunder] at h
      cases hpart : Keyed.get? key top with
      | none => exact h
      | some part => exact isSome_get?_overlay_left h (hwhole key name rfl part hpart)
  | _ :: _ :: _ :: _ => exact absurd hlength (by simp)

end RemoteSettings.Json
