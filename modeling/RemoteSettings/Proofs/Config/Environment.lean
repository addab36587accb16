import RemoteSettings.Config.Environment
import RemoteSettings.Proofs.Config.Overlay
import RemoteSettings.Proofs.Reading

/-!
# What the environment says

The name of a variable is read in lower case, whatever case it is in.  What a variable says is a
mapping, so that all variables together say a mapping too.  Neither a value nor anything in it is
null.

## Main definitions

* `Environment.Told` — a value in which nothing is null and no key stands twice.

## Main results

* `path?_toLower` — the case of a variable's name does not count.
* `told_value` — what a variable's value can be.
* `isSome_at?_layer` — the keys that are left of what the variables say.
-/

namespace RemoteSettings.Environment

open Blank

/-! ### Case -/

/-- A letter in upper case becomes another letter, and no other character changes. -/
theorem toLower_eq_or (c : Char) : c.toLower = c ∨
    (65 ≤ c.toNat ∧ c.toNat ≤ 90 ∧ c.toLower.toNat = c.toNat + 32) := by
  unfold Char.toLower
  split
  · next h =>
    right
    obtain ⟨hlow, hhigh⟩ := h
    have hlow' : 65 ≤ c.val.toNat := hlow
    have hhigh' : c.val.toNat ≤ 90 := hhigh
    refine ⟨hlow', hhigh', ?_⟩
    show (c.val + 32).toNat = c.val.toNat + 32
    rw [UInt32.toNat_add]
    show (c.val.toNat + 32) % 2 ^ 32 = _
    omega
  · exact Or.inl rfl

theorem toLower_toLower (c : Char) : c.toLower.toLower = c.toLower := by
  rcases toLower_eq_or c with h | ⟨hlow, hhigh, h⟩
  · rw [h, h]
  · rcases toLower_eq_or c.toLower with h' | ⟨-, hhigh', -⟩
    · exact h'
    · omega

/-- A character that is no letter is itself in lower case, and nothing else is. -/
theorem toLower_eq_iff {c d : Char} (hd : d.toNat < 65 ∨ 90 < d.toNat ∧ d.toNat < 97) :
    c.toLower = d ↔ c = d := by
  rcases toLower_eq_or c with h | ⟨hlow, hhigh, h⟩
  · rw [h]
  · constructor
    · rintro rfl
      omega
    · rintro rfl
      omega

theorem isBlank_toLower (c : Char) : Blank.isBlank c.toLower = Blank.isBlank c := by
  rcases toLower_eq_or c with h | ⟨hlow, hhigh, h⟩
  · rw [h]
  · have hblank : ∀ d : Char, 65 ≤ d.toNat → d.toNat ≤ 122 → Blank.isBlank d = false := by
      intro d hd hd'
      simp only [Blank.isBlank, Blank.ranges, List.any_cons, List.any_nil, Bool.or_false]
      simp only [Bool.or_eq_false_iff, Bool.and_eq_false_iff, decide_eq_false_iff_not]
      omega
    rw [hblank c hlow (by omega), hblank c.toLower (by omega) (by omega)]

/-- The characters in lower case. -/
def lower (s : List Char) : List Char := s.map Char.toLower

theorem lower_lower (s : List Char) : lower (lower s) = lower s := by
  rw [lower, lower, List.map_map]
  exact List.map_congr_left fun c _ => toLower_toLower c

theorem trim_lower (s : List Char) : trim (lower s) = lower (trim s) := by
  have hdrop : ∀ s, (lower s).dropWhile Blank.isBlank = lower (s.dropWhile Blank.isBlank) := by
    intro s
    rw [lower, List.dropWhile_map]
    congr 2
    exact funext isBlank_toLower
  rw [trim, trim, hdrop, lower, ← List.map_reverse]
  rw [← lower, hdrop, lower, ← List.map_reverse]
  rfl

theorem behind?_lower (cs s : List Char) : behind? cs (lower s) = (behind? cs s).map lower := by
  induction cs generalizing s with
  | nil => rfl
  | cons c cs ih =>
    cases s with
    | nil => rfl
    | cons x rest =>
      show (if x.toLower.toLower = c then behind? cs (lower rest) else none) = _
      rw [toLower_toLower, ih, behind?]
      split <;> rfl

theorem dotted_lower (s : List Char) : dotted (lower s) = lower (dotted s) := by
  have hscore : ∀ {c : Char}, c.toLower = '_' ↔ c = '_' := toLower_eq_iff (by decide)
  fun_induction dotted s with
  | case1 rest ih =>
    show '.' :: dotted (lower rest) = '.' :: lower (dotted rest)
    rw [ih]
  | case2 c rest hne ih =>
    show dotted (c.toLower :: lower rest) = c.toLower :: lower (dotted rest)
    rw [dotted, ih]
    -- Two underscores in lower case are two underscores.
    intro tail hc hrest
    cases rest with
    | nil => cases hrest
    | cons d rest =>
      obtain ⟨hd, -⟩ := List.cons.inj hrest
      exact hne rest (hscore.mp hc) (congrArg (· :: rest) (hscore.mp hd))
  | case3 => rfl

theorem steps_lower (s : List Char) : steps (lower s) = (steps s).map lower := by
  have hpoint : ∀ {c : Char}, c.toLower = '.' ↔ c = '.' := toLower_eq_iff (by decide)
  fun_induction steps s with
  | case1 => rfl
  | case2 rest ih =>
    show [] :: steps (lower rest) = [] :: (steps rest).map lower
    rw [ih]
  | case3 c rest hc hnil ih =>
    show steps (c.toLower :: lower rest) = _
    rw [steps, ih, hnil]
    · rfl
    · exact fun h => hc (hpoint.mp h)
  | case4 c rest hc piece more hcons ih =>
    show steps (c.toLower :: lower rest) = _
    rw [steps, ih, hcons]
    · rfl
    · exact fun h => hc (hpoint.mp h)

theorem steps_ne_nil (s : List Char) : steps s ≠ [] := by
  fun_cases steps s <;> simp

/-- **The case of a variable's name does not count.** -/
theorem path?_toLower (name : String) : path? name.toLower = path? name := by
  have hname : name.toLower.toList = lower name.toList := String.toList_map
  have hempty : ∀ pieces : List (List Char),
      (pieces.map lower).any List.isEmpty = pieces.any List.isEmpty := by
    intro pieces
    rw [List.any_map]
    exact congrArg pieces.any (funext fun piece => List.isEmpty_map)
  have htexts : ∀ pieces : List (List Char),
      ((pieces.map lower).map fun piece => String.ofList (piece.map Char.toLower))
        = pieces.map fun piece => String.ofList (piece.map Char.toLower) := by
    intro pieces
    rw [List.map_map]
    exact List.map_congr_left fun piece _ => congrArg String.ofList (lower_lower piece)
  unfold path?
  rw [hname, trim_lower, behind?_lower]
  cases behind? opening (trim name.toList) with
  | none => rfl
  | some rest =>
    show (if (steps (trim (dotted (lower rest)))).any List.isEmpty then none else _) = _
    rw [dotted_lower, trim_lower, steps_lower, hempty, htexts]
    rfl

theorem ne_nil_of_path? {name : String} {path : List String} (h : path? name = some path) :
    path ≠ [] := by
  unfold path? at h
  obtain ⟨rest, -, h⟩ := Option.bind_eq_some_iff.mp h
  dsimp only at h
  split at h
  · cases h
  · cases h
    exact fun hnil => steps_ne_nil _ (List.map_eq_nil_iff.mp hnil)

/-! ### Values -/

/-- A value in which, at whatever depth, nothing is null and no key stands twice in a mapping. -/
inductive Told : Json → Prop
  | plain {j : Json} (ne_null : j ≠ .null) (notObject : j.isObject = false) : Told j
  | object {members : Keyed String Json} (nodup : (Keyed.keys members).Nodup)
    (told : ∀ e ∈ members, Told e.2) : Told (.object members)

namespace Told

theorem ne_null {j : Json} (h : Told j) : j ≠ .null := by
  cases h with
  | plain hne => exact hne
  | object => nofun

theorem members {members : Keyed String Json} (h : Told (.object members)) :
    (Keyed.keys members).Nodup ∧ ∀ e ∈ members, Told e.2 := by
  cases h with
  | plain _ hobject => cases hobject
  | object hnodup htold => exact ⟨hnodup, htold⟩

/-- What stands at the end of a path in a value is a value of that kind too. -/
theorem at? {path : List String} {j k : Json} (h : Told j) (hk : j.at? path = some k) :
    Told k := by
  induction path generalizing j with
  | nil =>
    cases hk
    exact h
  | cons key path ih =>
    obtain ⟨part, hpart, hrest⟩ := Option.bind_eq_some_iff.mp hk
    obtain ⟨fields, rfl, -⟩ := Json.exists_of_isSome_get? (Option.isSome_of_eq_some hpart)
    exact ih (h.members.2 _ (Keyed.mem_of_get? hpart)) hrest

theorem nest {j : Json} (h : Told j) (path : List String) : Told (nest path j) := by
  induction path with
  | nil => exact h
  | cons step rest ih =>
    exact .object (List.nodup_singleton step) (List.forall_mem_singleton.mpr ih)

end Told

theorem told_string (t : String) : Told (.string t) := .plain nofun rfl

/-- A value without quotation marks is a number or a text. -/
theorem told_plain (s : List Char) : Told (plain s) := by
  unfold plain
  generalize (if s.contains '.' then Spelling.decimal? s else none) = point
  cases point with
  | some l => exact .plain nofun rfl
  | none =>
    dsimp only
    split
    · exact .plain nofun rfl
    · exact told_string _

/-- What is read of a mapping is told if its fields are. -/
theorem told_of_read_succ {fuel : Nat}
    (hfields : ∀ s rest members, fields fuel s = some (members, rest) → ∀ e ∈ members, Told e.2)
    {s rest : List Char} {j : Json} (h : read (fuel + 1) s = some (j, rest)) : Told j := by
  rw [read] at h
  split at h
  case h_3 =>
    obtain ⟨⟨members, rest⟩, hmembers, h⟩ := Option.bind_eq_some_iff.mp h
    cases h
    exact .object (Keyed.nodup_keys_ofPairs members) fun e he =>
      hfields _ _ members hmembers e (Keyed.mem_of_mem_ofPairs he)
  case h_7 => cases h
  case h_8 =>
    cases h
    exact told_plain _
  all_goals
    first
    | (cases h; exact .plain nofun rfl)
    | (obtain ⟨_, -, h⟩ := Option.bind_eq_some_iff.mp h; cases h; exact .plain nofun rfl)

/-- The fields that are read are told if their values are, each of which is read with less fuel. -/
theorem told_of_fields_succ {fuel : Nat}
    (hread : ∀ s rest j, read fuel s = some (j, rest) → Told j)
    (hfields : ∀ s rest members, fields fuel s = some (members, rest) → ∀ e ∈ members, Told e.2)
    {s rest : List Char} {members : List (String × Json)}
    (h : fields (fuel + 1) s = some (members, rest)) : ∀ e ∈ members, Told e.2 := by
  rw [fields.eq_def] at h
  dsimp only at h
  split at h
  · cases h
  · cases h
    exact List.forall_mem_nil _
  · next hfuel _ =>
    cases hfuel
    obtain ⟨⟨key, s⟩, -, h⟩ := Option.bind_eq_some_iff.mp h
    dsimp only at h
    split at h
    · obtain ⟨⟨item, s⟩, hitem, h⟩ := Option.bind_eq_some_iff.mp h
      have hvalue := hread _ _ _ hitem
      dsimp only at h
      split at h
      · obtain ⟨⟨more, s⟩, hmore, h⟩ := Option.bind_eq_some_iff.mp h
        cases h
        exact List.forall_mem_cons.mpr ⟨hvalue, hfields _ _ _ hmore⟩
      · cases h
        exact List.forall_mem_singleton.mpr hvalue
      · cases h
    · cases h

theorem told_of_read (fuel : Nat) : (∀ s rest j, read fuel s = some (j, rest) → Told j) ∧
    ∀ s rest members, fields fuel s = some (members, rest) → ∀ e ∈ members, Told e.2 := by
  induction fuel with
  | zero => exact ⟨nofun, nofun⟩
  | succ fuel ih =>
    exact ⟨fun s rest j => told_of_read_succ ih.2,
      fun s rest members => told_of_fields_succ ih.1 ih.2⟩

/-- Whatever a variable's value is, nothing in what it means is null. -/
theorem told_value (raw : String) : Told (value raw) := by
  unfold value
  split
  · next j hread => exact (told_of_read _).1 _ _ j hread
  · exact told_string raw

/-! ### All variables -/

theorem told_of_saying? {entry : String × String} {said : Json} (h : saying? entry = some said) :
    Told said := by
  obtain ⟨path, -, rfl⟩ := Option.map_eq_some_iff.mp h
  exact (told_value entry.2).nest path

/-- A variable says a mapping. -/
theorem exists_of_saying? {entry : String × String} {said : Json} (h : saying? entry = some said) :
    ∃ parts, said = .object parts ∧ (Keyed.keys parts).Nodup := by
  have htold := told_of_saying? h
  obtain ⟨path, hpath, rfl⟩ := Option.map_eq_some_iff.mp h
  cases path with
  | nil => exact absurd rfl (ne_nil_of_path? hpath)
  | cons step path => exact ⟨_, rfl, htold.members.1⟩

/-- What a variable says has its value at the end of its path. -/
theorem at?_nest (path : List String) (j : Json) : (nest path j).at? path = some j := by
  induction path with
  | nil => rfl
  | cons key path ih =>
    show (Keyed.get? key [(key, nest path j)]).bind (Json.at? path) = some j
    rw [Keyed.get?_cons_self, Option.bind_some, ih]

section Layer

variable {entries : List (String × String)}

/-- What is kept by each variable that is laid over a layer is kept by all. -/
theorem foldl_overlay_induction {P : Json → Prop} {acc : Json} (start : P acc)
    (step : ∀ entry ∈ entries, ∀ said acc, saying? entry = some said → P acc →
      P (Json.overlay acc said)) : P ((entries.filterMap saying?).foldl Json.overlay acc) := by
  induction entries generalizing acc with
  | nil => exact start
  | cons entry rest ih =>
    obtain ⟨hentry, hrest⟩ := List.forall_mem_cons.mp step
    rw [List.filterMap_cons]
    split
    · exact ih start hrest
    · next said hsaid => exact ih (hentry said acc hsaid start) hrest

/-- What all variables say is a mapping in which no key stands twice. -/
theorem exists_layer_eq (entries : List (String × String)) :
    ∃ parts, layer entries = .object parts ∧ (Keyed.keys parts).Nodup := by
  refine foldl_overlay_induction
    (P := fun j => ∃ parts, j = .object parts ∧ (Keyed.keys parts).Nodup)
    ⟨[], rfl, List.nodup_nil⟩ ?_
  rintro entry - said acc hsaid ⟨parts, rfl, hparts⟩
  obtain ⟨top, rfl, -⟩ := exists_of_saying? hsaid
  exact ⟨_, Json.overlay_object _ _, Json.nodup_keys_overlayFields hparts top⟩

/-- Each key of what a variable says, and each key in a section of it, is among what all variables
say, as long as none of them gives the section as a whole and not as a mapping. -/
theorem isSome_at?_layer {entry : String × String} {said : Json} {path : List String}
    (hentry : entry ∈ entries) (hsaid : saying? entry = some said)
    (hpath : (said.at? path).isSome = true) (hlength : path.length ≤ 2)
    (hwhole : ∀ other ∈ entries, ∀ upper, saying? other = some upper → ∀ key name,
      path = [key, name] → ∀ part, upper.get? key = some part → part.isObject = true) :
    ((layer entries).at? path).isSome = true := by
  obtain ⟨front, back, rfl⟩ := List.append_of_mem hentry
  rw [layer, List.filterMap_append, List.filterMap_cons_some hsaid, List.foldl_append,
    List.foldl_cons]
  refine foldl_overlay_induction (P := fun j => (j.at? path).isSome = true) ?_ ?_
  · -- The variable itself.
    obtain ⟨parts, rfl, hnodup⟩ := exists_of_saying? hsaid
    exact Json.isSome_at?_overlay_right hnodup hlength hpath _
  · -- A variable behind it.
    intro other hother upper acc hupper hacc
    have hobject := hwhole other (List.mem_append_right _ (List.mem_cons_of_mem _ hother)) upper
      hupper
    obtain ⟨parts, rfl, hnodup⟩ := exists_of_saying? hupper
    exact Json.isSome_at?_overlay_left hnodup hlength hacc hobject

end Layer

end RemoteSettings.Environment
