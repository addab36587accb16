import Mathlib.Data.List.Forall2
import Mathlib.Data.List.Perm.Basic
import RemoteSettings.Proofs.Keyed
import RemoteSettings.Setting

/-!
# Equality of values

Values are compared by what they stand for: numbers of both forms by value, and objects without
regard to the order of their fields.  An object is kept as a list of fields, so this is reflexive
and symmetric only where no object names a field twice, as no object does that is read from a text.

## Main definitions

* `Json.proper`, `Value.proper`, `Setting.proper` — no object in a value names a field twice.
* `Json.same` — whether two values are the same, which decides their equality.

## Main results

* `Json.induction` — induction over JSON values.
* `Json.equals_self`, `Json.equals_comm` — equality of proper JSON is reflexive and symmetric.
* `Json.equals_trans` — equality of JSON is transitive.
* `Value.equals_self`, `Value.equals_comm`, `Setting.equals_self` — so is that of proper values.
-/

namespace RemoteSettings

/-! ### Numbers -/

namespace Number

theorem sameAs_self (n : Number) : n.sameAs n = true := by
  cases n <;> simp [sameAs, Binary64.equals]

theorem sameAs_comm (m n : Number) : m.sameAs n = n.sameAs m := by
  cases m <;> cases n <;> grind [sameAs, Binary64.equals]

theorem sameAs_trans {l m n : Number} (h : l.sameAs m = true) (h' : m.sameAs n = true) :
    l.sameAs n = true := by
  cases l <;> cases m <;> cases n <;> grind [sameAs, Binary64.equals]

theorem equals_self (n : Number) : n.equals n = true := by
  cases n <;> simp [equals]

theorem equals_comm (m n : Number) : m.equals n = n.equals m := by
  cases m <;> cases n <;> grind [equals]

end Number

namespace Json

/-! ### Proper JSON -/

mutual

/-- No object names a field twice. -/
def proper : Json → Bool
  | .array items => properAll items
  | .object fields => decide (Keyed.keys fields).Nodup && properFields fields
  | _ => true

/-- Each item is proper. -/
def properAll : List Json → Bool
  | [] => true
  | j :: rest => proper j && properAll rest

/-- The value of each field is proper. -/
def properFields : List (String × Json) → Bool
  | [] => true
  | (_, j) :: rest => proper j && properFields rest

end

theorem properAll_iff {items : List Json} :
    properAll items = true ↔ ∀ j ∈ items, j.proper = true := by
  induction items with
  | nil => simp [properAll]
  | cons j rest ih => simp [properAll, ih]

theorem properFields_iff {fields : List (String × Json)} :
    properFields fields = true ↔ ∀ e ∈ fields, e.2.proper = true := by
  induction fields with
  | nil => simp [properFields]
  | cons e rest ih => simp [properFields, ih]

theorem proper_array {items : List Json} :
    (Json.array items).proper = true ↔ ∀ j ∈ items, j.proper = true := by
  rw [proper, properAll_iff]

theorem proper_object {fields : List (String × Json)} :
    (Json.object fields).proper = true ↔
      (Keyed.keys fields).Nodup ∧ ∀ e ∈ fields, e.2.proper = true := by
  rw [proper, Bool.and_eq_true, decide_eq_true_eq, properFields_iff]

/-- **Induction over JSON values.**  What holds of a container follows from what holds of all that
it contains. -/
theorem induction {P : Json → Prop} (null : P .null) (bool : ∀ b, P (.bool b))
    (number : ∀ n, P (.number n)) (string : ∀ s, P (.string s))
    (array : ∀ items, (∀ j ∈ items, P j) → P (.array items))
    (object : ∀ fields, (∀ e ∈ fields, P e.2) → P (.object fields)) : ∀ j, P j
  | .null => null
  | .bool b => bool b
  | .number n => number n
  | .string s => string s
  | .array items =>
    array items fun j _ => induction null bool number string array object j
  | .object fields =>
    object fields fun e _ => induction null bool number string array object e.2
termination_by j => sizeOf j
decreasing_by
  · next hj =>
    have := List.sizeOf_lt_of_mem hj
    simp only [Json.array.sizeOf_spec]
    omega
  · next he =>
    have := List.sizeOf_lt_of_mem he
    obtain ⟨k, v⟩ := e
    simp only [Json.object.sizeOf_spec, Prod.mk.sizeOf_spec] at *
    omega

/-! ### What equality says of containers -/

theorem equalsAll_iff {as bs : List Json} :
    equalsAll as bs = true ↔ List.Forall₂ (fun a b => a.equals b = true) as bs := by
  induction as generalizing bs with
  | nil => cases bs <;> simp [equalsAll]
  | cons a as ih => cases bs <;> simp [equalsAll, ih]

/-- Each field of the first list is found in the second. -/
theorem fieldsWithin_iff {as bs : List (String × Json)} :
    fieldsWithin as bs = true ↔
      ∀ e ∈ as, ∃ w, Keyed.get? e.1 bs = some w ∧ e.2.equals w = true := by
  induction as with
  | nil => simp [fieldsWithin]
  | cons e as ih =>
    rw [fieldsWithin, Bool.and_eq_true, ih, List.forall_mem_cons]
    cases Keyed.get? e.1 bs <;> simp

theorem equals_array {as bs : List Json} :
    (Json.array as).equals (.array bs) = true ↔
      List.Forall₂ (fun a b => a.equals b = true) as bs := by
  rw [equals, equalsAll_iff]

theorem equals_object {as bs : List (String × Json)} :
    (Json.object as).equals (.object bs) = true ↔ as.length = bs.length ∧
      ∀ e ∈ as, ∃ w, Keyed.get? e.1 bs = some w ∧ e.2.equals w = true := by
  rw [equals, Bool.and_eq_true, beq_iff_eq, fieldsWithin_iff]

/-! ### Reflexivity and symmetry -/

theorem equals_self {j : Json} (h : j.proper = true) : j.equals j = true := by
  induction j using Json.induction with
  | null => rw [equals]
  | bool b => simp [equals]
  | number n => rw [equals, Number.sameAs_self]
  | string s => simp [equals]
  | array items ih =>
    rw [proper_array] at h
    rw [equals_array, List.forall₂_same]
    exact fun j hj => ih j hj (h j hj)
  | object fields ih =>
    obtain ⟨hnodup, hproper⟩ := proper_object.mp h
    -- A field that is named once is the one that a look-up finds.
    refine equals_object.mpr ⟨rfl, fun e he => ?_⟩
    exact ⟨e.2, Keyed.get?_of_mem hnodup he, ih e he (hproper e he)⟩

/-- Two proper objects of which one has the fields of the other name the same fields. -/
theorem keys_subset_of_equals {as bs : List (String × Json)} (ha : (Keyed.keys as).Nodup)
    (h : (Json.object as).equals (.object bs) = true) : Keyed.keys bs ⊆ Keyed.keys as := by
  obtain ⟨hlength, hfields⟩ := equals_object.mp h
  have hsubset : Keyed.keys as ⊆ Keyed.keys bs := by
    intro k hk
    obtain ⟨e, he, rfl⟩ := List.mem_map.mp hk
    obtain ⟨w, hw, -⟩ := hfields e he
    exact List.mem_map.mpr ⟨_, Keyed.mem_of_get? hw, rfl⟩
  -- There are as many of them, so none is left over.
  have hle : (Keyed.keys bs).length ≤ (Keyed.keys as).length := by
    simp [Keyed.keys, hlength]
  exact ((List.subperm_of_subset ha hsubset).perm_of_length_le hle).symm.subset

theorem equals_symm {a b : Json} (ha : a.proper = true) (hb : b.proper = true)
    (h : a.equals b = true) : b.equals a = true := by
  induction a using Json.induction generalizing b with
  | null => cases b <;> simp_all [equals]
  | bool x => cases b <;> simp_all [equals]
  | number n => cases b <;> simp_all [equals, Number.sameAs_comm]
  | string s => cases b <;> simp_all [equals]
  | array items ih =>
    cases b with
    | array others =>
      rw [proper_array] at ha hb
      rw [equals_array] at h ⊢
      refine (List.forall₂_iff_get.mpr ⟨h.length_eq.symm, fun i hi hi' => ?_⟩)
      exact ih _ (List.get_mem _ _) (ha _ (List.get_mem _ _)) (hb _ (List.get_mem _ _))
        (h.get hi' hi)
    | _ => simp [equals] at h
  | object fields ih =>
    cases b with
    | object others =>
      obtain ⟨hnodup, hproper⟩ := proper_object.mp ha
      obtain ⟨hnodup', hproper'⟩ := proper_object.mp hb
      obtain ⟨hlength, hfields⟩ := equals_object.mp h
      refine equals_object.mpr ⟨hlength.symm, fun e' he' => ?_⟩
      -- The field stands in the first object too, and there the two were compared.
      have hkey : e'.1 ∈ Keyed.keys fields :=
        keys_subset_of_equals hnodup h (List.mem_map_of_mem he')
      obtain ⟨e, he, hkeys⟩ := List.mem_map.mp hkey
      obtain ⟨w, hw, hequals⟩ := hfields e he
      have hw' : w = e'.2 := by
        rw [hkeys, Keyed.get?_of_mem hnodup' he'] at hw
        exact (Option.some.inj hw).symm
      rw [hw'] at hequals
      refine ⟨e.2, ?_, ih e he (hproper e he) (hproper' e' he') hequals⟩
      rw [← hkeys]
      exact Keyed.get?_of_mem hnodup he
    | _ => simp [equals] at h

theorem equals_comm {a b : Json} (ha : a.proper = true) (hb : b.proper = true) :
    a.equals b = b.equals a :=
  Bool.eq_iff_iff.mpr ⟨equals_symm ha hb, equals_symm hb ha⟩

theorem equals_trans {a b c : Json} (h : a.equals b = true) (h' : b.equals c = true) :
    a.equals c = true := by
  induction a using Json.induction generalizing b c with
  | null =>
    cases b with
    | null => exact h'
    | _ => simp [equals] at h
  | bool x =>
    cases b with
    | bool y =>
      rw [equals, beq_iff_eq] at h
      exact h ▸ h'
    | _ => simp [equals] at h
  | number n =>
    cases b with
    | number m =>
      cases c with
      | number l =>
        rw [equals] at h h' ⊢
        exact Number.sameAs_trans h h'
      | _ => simp [equals] at h'
    | _ => simp [equals] at h
  | string s =>
    cases b with
    | string t =>
      rw [equals, beq_iff_eq] at h
      exact h ▸ h'
    | _ => simp [equals] at h
  | array items ih =>
    cases b with
    | array others =>
      cases c with
      | array rest =>
        rw [equals_array] at h h' ⊢
        refine List.forall₂_iff_get.mpr ⟨h.length_eq.trans h'.length_eq, fun i hi hi' => ?_⟩
        have hi'' : i < others.length := h.length_eq ▸ hi
        exact ih _ (List.get_mem _ _) (h.get hi hi'') (h'.get hi'' hi')
      | _ => simp [equals] at h'
    | _ => simp [equals] at h
  | object fields ih =>
    cases b with
    | object others =>
      cases c with
      | object rest =>
        obtain ⟨hlength, hfields⟩ := equals_object.mp h
        obtain ⟨hlength', hfields'⟩ := equals_object.mp h'
        refine equals_object.mpr ⟨hlength.trans hlength', fun e he => ?_⟩
        -- A field is followed through the object in between.
        obtain ⟨w, hw, hequals⟩ := hfields e he
        obtain ⟨v, hv, hequals'⟩ := hfields' (e.1, w) (Keyed.mem_of_get? hw)
        exact ⟨v, hv, ih e he hequals hequals'⟩
      | _ => simp [equals] at h'
    | _ => simp [equals] at h

theorem equalOptional_self {α : Type} {eq : α → α → Bool} {x : Option α}
    (h : ∀ a ∈ x, eq a a = true) : equalOptional eq x x = true := by
  cases x with
  | none => rfl
  | some a => exact h a rfl

/-! ### Values that are the same -/

mutual

/-- Whether two values are the same, with their fields in the same order. -/
def same : Json → Json → Bool
  | .null, .null => true
  | .bool a, .bool b => a == b
  | .number a, .number b => a == b
  | .string a, .string b => a == b
  | .array a, .array b => sameItems a b
  | .object a, .object b => sameFields a b
  | _, _ => false

/-- Whether two lists have the same items. -/
def sameItems : List Json → List Json → Bool
  | [], [] => true
  | a :: as, b :: bs => same a b && sameItems as bs
  | _, _ => false

/-- Whether two lists have the same fields. -/
def sameFields : List (String × Json) → List (String × Json) → Bool
  | [], [] => true
  | (k, a) :: as, (l, b) :: bs => k == l && same a b && sameFields as bs
  | _, _ => false

end

theorem sameItems_iff {as bs : List Json} (h : ∀ a ∈ as, ∀ b, same a b = true ↔ a = b) :
    sameItems as bs = true ↔ as = bs := by
  induction as generalizing bs with
  | nil => cases bs <;> simp [sameItems]
  | cons a as ih =>
    obtain ⟨ha, has⟩ := List.forall_mem_cons.mp h
    cases bs with
    | nil => simp [sameItems]
    | cons b bs => rw [sameItems, Bool.and_eq_true, ha, ih has, List.cons.injEq]

theorem sameFields_iff {as bs : List (String × Json)}
    (h : ∀ e ∈ as, ∀ b, same e.2 b = true ↔ e.2 = b) : sameFields as bs = true ↔ as = bs := by
  induction as generalizing bs with
  | nil => cases bs <;> simp [sameFields]
  | cons e as ih =>
    obtain ⟨he, has⟩ := List.forall_mem_cons.mp h
    cases bs with
    | nil => simp [sameFields]
    | cons e' bs =>
      rw [sameFields, Bool.and_eq_true, Bool.and_eq_true, beq_iff_eq, he, ih has, List.cons.injEq,
        Prod.ext_iff]

theorem same_iff {a b : Json} : same a b = true ↔ a = b := by
  induction a using Json.induction generalizing b with
  | null => cases b <;> simp [same]
  | bool x => cases b <;> simp [same]
  | number n => cases b <;> simp [same]
  | string s => cases b <;> simp [same]
  | array items ih =>
    cases b with
    | array others => rw [same, sameItems_iff fun a ha b => ih a ha, Json.array.injEq]
    | _ => simp [same]
  | object fields ih =>
    cases b with
    | object others => rw [same, sameFields_iff fun e he b => ih e he, Json.object.injEq]
    | _ => simp [same]

instance : DecidableEq Json := fun _ _ => decidable_of_iff _ same_iff

end Json

/-! ### Values -/

namespace Value

/-- No object in the value names a field twice. -/
def proper : Value → Bool
  | .other j => j.proper
  | _ => true

theorem equals_self {v : Value} (h : v.proper = true) : v.equals v = true := by
  cases v with
  | number n => exact n.equals_self
  | other j => exact Json.equals_self h
  | _ => simp [equals]

theorem equals_comm {v w : Value} (hv : v.proper = true) (hw : w.proper = true) :
    v.equals w = w.equals v := by
  cases v with
  | number m =>
    cases w with
    | number n => exact Number.equals_comm m n
    | _ => rfl
  | other j =>
    cases w with
    | other k => exact Json.equals_comm hv hw
    | _ => rfl
  | _ => cases w <;> simp [equals, Bool.beq_comm]

end Value

/-! ### Settings -/

namespace Setting

/-- No object in the setting names a field twice. -/
def proper (s : Setting) : Bool :=
  s.value.proper && s.fallback.all Value.proper && s.options.all Json.proper

theorem equals_self {s : Setting} (h : s.proper = true) : s.equals s = true := by
  simp only [proper, Bool.and_eq_true, Option.all_eq_true] at h
  obtain ⟨⟨hvalue, hfallback⟩, hoptions⟩ := h
  have hf : Json.equalOptional Value.equals s.fallback s.fallback = true :=
    Json.equalOptional_self fun v hv => Value.equals_self (hfallback v hv)
  have ho : Json.equalOptional Json.equals s.options s.options = true :=
    Json.equalOptional_self fun j hj => Json.equals_self (hoptions j hj)
  simp [equals, Value.equals_self hvalue, hf, ho]

/-- A setting with another value is equal to it as soon as the values are. -/
theorem equals_withValue {s : Setting} (h : s.proper = true) {v w : Value}
    (hvw : v.equals w = true) : (s.withValue v).equals (s.withValue w) = true := by
  have hself := equals_self h
  simp only [equals, Bool.and_eq_true] at hself
  simp_all [equals, withValue]

theorem proper_withValue {s : Setting} (h : s.proper = true) {v : Value} (hv : v.proper = true) :
    (s.withValue v).proper = true := by
  simp only [proper, Bool.and_eq_true] at h
  simp [proper, withValue, hv, h]

end Setting

end RemoteSettings
