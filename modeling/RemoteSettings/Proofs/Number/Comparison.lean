import Mathlib.Algebra.Order.Field.Basic
import Mathlib.Algebra.Order.Field.Rat
import Mathlib.Tactic.NormNum
import RemoteSettings.Proofs.Equality
import RemoteSettings.Proofs.Number.Rounding

/-!
# How numbers compare

Numbers of one form are compared by the rational numbers that they stand for.  A whole number is
rounded before it is compared with a binary one.  So equal numbers always compare equal, but a whole
number that no binary number is equal to compares equal to the binary number nearest to it.  That
happens beyond `2 ^ 53` only.

Equality of values is reflexive and symmetric, but two whole numbers that are rounded to one binary
number are both equal to it and not to each other.

## Main definitions

* `Binary64.toRat`, `Number.toRat` — the rational number that a number stands for.
* `Whole.toBinary` — the binary number that a whole number is rounded to.
* `Number.RoundsTo` — a whole number is rounded to a binary number that it is not equal to.

## Main results

* `Binary64.toRat_eq_iff` — binary numbers are equal exactly if they stand for the same number.
* `Whole.nearest_toBinary` — **a whole number is rounded to the nearest binary number.**
* `Number.equals_iff` — **which numbers compare equal.**
* `Number.compared_by_value_iff` — which numbers are compared by value.
* `Number.equals_trans_or`, `Value.equals_trans_or` — where equality fails to be transitive.
-/

namespace RemoteSettings

/-! ### The numbers that binary numbers stand for -/

namespace Binary64

/-- The number in units, with its sign. -/
def signedUnits (x : Binary64) : ℤ := if x.negative then -(x.units : ℤ) else x.units

/-- The rational number that a binary number stands for. -/
def toRat (x : Binary64) : ℚ := x.signedUnits / unitsPerOne

theorem unitsPerOne_pos_rat : (0 : ℚ) < unitsPerOne := by exact_mod_cast unitsPerOne_pos

theorem toRat_eq_toRat_iff {x y : Binary64} :
    x.toRat = y.toRat ↔ x.signedUnits = y.signedUnits := by
  rw [toRat, toRat, div_left_inj' unitsPerOne_pos_rat.ne', Int.cast_inj]

theorem abs_signedUnits (x : Binary64) : |x.signedUnits| = x.units := by
  unfold signedUnits
  split
  · rw [abs_neg, Nat.abs_cast]
  · exact Nat.abs_cast _

theorem units_eq_iff {x y : Binary64} : x.units = y.units ↔ x.code = y.code :=
  unitsOf_strictMono.injective.eq_iff

theorem units_eq_zero_iff {x : Binary64} : x.units = 0 ↔ x.code = 0 :=
  unitsOf_strictMono.injective.eq_iff' unitsOf_zero

/-- **Binary numbers are equal exactly if they stand for the same number.** -/
theorem toRat_eq_iff {x y : Binary64} : x.toRat = y.toRat ↔ x.equals y = true := by
  have hequals : x.equals y = true ↔ x.code = y.code ∧ (x.negative = y.negative ∨ x.code = 0) := by
    simp [equals]
  rw [toRat_eq_toRat_iff, hequals]
  constructor
  · intro h
    have hunits : x.units = y.units := by
      have habs := congrArg abs h
      rw [abs_signedUnits, abs_signedUnits] at habs
      exact_mod_cast habs
    refine ⟨units_eq_iff.mp hunits, ?_⟩
    by_cases hsign : x.negative = y.negative
    · exact Or.inl hsign
    · -- A number and its negative are equal only if they are zero.
      right
      rw [← units_eq_zero_iff]
      unfold signedUnits at h
      cases hx : x.negative <;> cases hy : y.negative <;> simp_all
  · rintro ⟨hcode, hsign | hzero⟩
    · rw [signedUnits, signedUnits, hsign, units_eq_iff.mpr hcode]
    · have hx : x.units = 0 := units_eq_zero_iff.mpr hzero
      have hy : y.units = 0 := units_eq_zero_iff.mpr (hcode ▸ hzero)
      simp [signedUnits, hx, hy]

/-- Distances of whole numbers from binary numbers are distances in units. -/
theorem abs_sub_toRat (n : ℤ) (x : Binary64) :
    |(n : ℚ) - x.toRat| = (|n * unitsPerOne - x.signedUnits| : ℤ) / unitsPerOne := by
  have hone : (unitsPerOne : ℚ) ≠ 0 := unitsPerOne_pos_rat.ne'
  have hsub : (n : ℚ) - x.toRat = (n * unitsPerOne - x.signedUnits : ℤ) / unitsPerOne := by
    push_cast
    rw [toRat, sub_div, mul_div_cancel_right₀ _ hone]
  rw [hsub, abs_div, abs_of_pos unitsPerOne_pos_rat, Int.cast_abs]

end Binary64

/-! ### Rounding whole numbers -/

namespace Whole

variable (n : Whole)

theorem value_injective : Function.Injective Whole.value := by
  rintro ⟨_, _, _⟩ ⟨_, _, _⟩ rfl
  rfl

theorem natAbs_lt : n.value.natAbs < 2 ^ 64 := by
  have hlower := n.lower
  have hupper := n.upper
  omega

/-- The binary number that a whole number is rounded to. -/
def toBinary : Binary64 :=
  ⟨n.value < 0, Binary64.nearest n.value.natAbs 1, Binary64.nearest_lt_infinityCode n.natAbs_lt⟩

/-- A whole number and the binary number that it is rounded to have the same sign, so they are as
far apart as their magnitudes. -/
theorem abs_sub_toBinary :
    |n.value * Binary64.unitsPerOne - n.toBinary.signedUnits|
      = |(n.value.natAbs * Binary64.unitsPerOne : ℤ) - (1 : ℕ) * n.toBinary.units| := by
  rw [Nat.cast_one, Int.one_mul, Binary64.signedUnits]
  by_cases hsign : n.value < 0
  · have hneg : n.toBinary.negative = true := decide_eq_true hsign
    have hvalue : (n.value.natAbs : ℤ) = -n.value := Int.ofNat_natAbs_of_nonpos hsign.le
    rw [if_pos hneg, hvalue, ← abs_neg]
    congr 1
    ring
  · have hpos : n.toBinary.negative = false := decide_eq_false hsign
    have hvalue : (n.value.natAbs : ℤ) = n.value := Int.natAbs_of_nonneg (not_lt.mp hsign)
    rw [hpos, hvalue]
    rfl

/-- A binary number is at least as far away as its magnitude is from that of a whole number. -/
theorem le_abs_sub (y : Binary64) :
    |(n.value.natAbs * Binary64.unitsPerOne : ℤ) - (1 : ℕ) * y.units|
      ≤ |n.value * Binary64.unitsPerOne - y.signedUnits| := by
  have hmagnitude : |n.value * (Binary64.unitsPerOne : ℤ)|
      = n.value.natAbs * Binary64.unitsPerOne := by
    rw [abs_mul, Nat.abs_cast, Int.abs_eq_natAbs]
  rw [← hmagnitude, Nat.cast_one, Int.one_mul, ← Binary64.abs_signedUnits]
  exact abs_abs_sub_abs_le _ _

/-- **A whole number is rounded to the nearest binary number**; where another is equally near, the
code of the nearest one is even. -/
theorem nearest_toBinary (y : Binary64) :
    |(n.value : ℚ) - n.toBinary.toRat| ≤ |(n.value : ℚ) - y.toRat| ∧
      (|(n.value : ℚ) - n.toBinary.toRat| = |(n.value : ℚ) - y.toRat| →
        y.toRat = n.toBinary.toRat ∨ Even n.toBinary.code) := by
  obtain ⟨hmin, htie⟩ := Binary64.nearest_spec n.value.natAbs Nat.one_pos y.code
  have hsame := n.abs_sub_toBinary
  have hother := n.le_abs_sub y
  rw [Binary64.abs_sub_toRat, Binary64.abs_sub_toRat,
    div_le_div_iff_of_pos_right Binary64.unitsPerOne_pos_rat, Int.cast_le,
    div_left_inj' Binary64.unitsPerOne_pos_rat.ne', Int.cast_inj]
  refine ⟨hsame.trans_le (hmin.trans hother), fun heq => ?_⟩
  -- The magnitudes are equally near as well.
  have hequal := le_antisymm hmin (hother.trans (heq.symm.trans hsame).le)
  rcases htie hequal with hunits | heven
  · have hmagnitude : |y.signedUnits| = |n.toBinary.signedUnits| := by
      rw [Binary64.abs_signedUnits, Binary64.abs_signedUnits]
      exact congrArg Nat.cast hunits
    rw [Binary64.toRat_eq_toRat_iff]
    rcases abs_eq_abs.mp hmagnitude with hsigned | hopposite
    · exact Or.inl hsigned
    · -- Zero alone is as far from a number as from its negative.
      rcases abs_eq_abs.mp heq with hnear | hfar
      · exact Or.inl (by linarith)
      · right
        have hzero : n.value * (Binary64.unitsPerOne : ℤ) = 0 := by linarith
        have hvalue : n.value = 0 := (mul_eq_zero.mp hzero).resolve_right
          (Int.natCast_ne_zero.mpr Binary64.unitsPerOne_pos.ne')
        have hcode : n.toBinary.code = 0 := by
          refine Binary64.nearest_of_unitsOf Nat.one_pos ?_
          rw [hvalue, Int.natAbs_zero, Nat.zero_mul, Binary64.unitsOf_zero, Nat.mul_zero]
        exact hcode ▸ Even.zero
  · exact Or.inr heven

/-- Where some binary number is equal to a whole number, that is the one it is rounded to. -/
theorem toRat_toBinary_of_eq {n : Whole} {y : Binary64} (h : y.toRat = n.value) :
    n.toBinary.toRat = n.value := by
  have hmin := (n.nearest_toBinary y).1
  rw [h, sub_self, abs_zero] at hmin
  exact (sub_eq_zero.mp (abs_eq_zero.mp (le_antisymm hmin (abs_nonneg _)))).symm

/-- Up to `2 ^ 53` whole numbers are rounded to themselves. -/
theorem toRat_toBinary_of_le (h : n.value.natAbs ≤ 2 ^ 53) : n.toBinary.toRat = n.value := by
  obtain ⟨code, hcode⟩ := Binary64.exists_code_of_le h
  have hnearest : Binary64.nearest n.value.natAbs 1 = code :=
    Binary64.nearest_of_unitsOf Nat.one_pos (hcode.trans (Nat.one_mul _).symm)
  have hunits : n.toBinary.units = n.value.natAbs * Binary64.unitsPerOne := by
    rw [hcode, ← hnearest]
    rfl
  have hzero : |(n.value : ℚ) - n.toBinary.toRat| = 0 := by
    rw [Binary64.abs_sub_toRat, n.abs_sub_toBinary, hunits]
    push_cast
    rw [one_mul, sub_self, abs_zero, zero_div]
  exact (sub_eq_zero.mp (abs_eq_zero.mp hzero)).symm

end Whole

/-! ### Which numbers compare equal -/

namespace Number

/-- The rational number that a number stands for. -/
def toRat : Number → ℚ
  | .whole n => n.value
  | .real x => x.toRat

/-- A whole number is rounded to a binary number that it is not equal to. -/
def RoundsTo : Number → Number → Prop
  | .whole n, .real x => x.toRat = n.toBinary.toRat ∧ x.toRat ≠ n.value
  | _, _ => False

/-- Only whole numbers beyond `2 ^ 53` are rounded to others, and none is nearer. -/
theorem RoundsTo.spec {n : Whole} {x : Binary64} (h : (whole n).RoundsTo (real x)) :
    2 ^ 53 < n.value.natAbs ∧
      ∀ y : Binary64, y.toRat ≠ n.value ∧
        |(n.value : ℚ) - x.toRat| ≤ |(n.value : ℚ) - y.toRat| := by
  obtain ⟨heq, hne⟩ := h
  have hinexact : n.toBinary.toRat ≠ n.value := heq ▸ hne
  refine ⟨Nat.lt_of_not_le fun hle => hinexact (n.toRat_toBinary_of_le hle), fun y => ⟨?_, ?_⟩⟩
  · exact fun hy => hinexact (Whole.toRat_toBinary_of_eq hy)
  · exact heq ▸ (n.nearest_toBinary y).1

/-- The binary number that a number is compared as with a binary one. -/
def toBinary : Number → Binary64
  | .whole n => n.toBinary
  | .real x => x

theorem equals_whole_real (n : Whole) (x : Binary64) :
    (whole n).equals (real x) = n.toBinary.equals x := rfl

theorem equals_whole {m n : Whole} : (whole m).equals (whole n) = true ↔ m = n := by
  rw [equals, beq_iff_eq, Whole.value_injective.eq_iff]

theorem equals_whole_real_iff {n : Whole} {x : Binary64} :
    (whole n).equals (real x) = true ↔
      (whole n).toRat = (real x).toRat ∨ (whole n).RoundsTo (real x) := by
  rw [equals_whole_real, ← Binary64.toRat_eq_iff]
  constructor
  · intro h
    by_cases hx : x.toRat = n.value
    · exact Or.inl hx.symm
    · exact Or.inr ⟨h.symm, hx⟩
  · rintro (heq | ⟨hrounds, -⟩)
    · exact (Whole.toRat_toBinary_of_eq heq.symm).trans heq
    · exact hrounds.symm

/-- **Which numbers compare equal**: those that are equal, and a whole number and what it is
rounded to. -/
theorem equals_iff (a b : Number) :
    a.equals b = true ↔ a.toRat = b.toRat ∨ a.RoundsTo b ∨ b.RoundsTo a := by
  cases a with
  | whole m =>
    cases b with
    | whole n => simp [equals_whole, toRat, RoundsTo, Whole.value_injective.eq_iff]
    | real x => simp [equals_whole_real_iff, RoundsTo]
  | real x =>
    cases b with
    | whole n =>
      rw [equals_comm, equals_whole_real_iff, eq_comm]
      simp [RoundsTo]
    | real y =>
      have hreals : (real x).equals (real y) = x.equals y := rfl
      rw [hreals, ← Binary64.toRat_eq_iff]
      simp [RoundsTo, toRat]

theorem RoundsTo.ne {a b : Number} (h : a.RoundsTo b) : a.toRat ≠ b.toRat := by
  cases a with
  | whole n =>
    cases b with
    | whole m => cases h
    | real x => exact h.2.symm
  | real x => cases h

/-- Numbers are compared by the rational numbers that they stand for unless one is rounded to the
other. -/
theorem compared_by_value_iff (a b : Number) :
    (a.equals b = true ↔ a.toRat = b.toRat) ↔ ¬(a.RoundsTo b ∨ b.RoundsTo a) := by
  rw [equals_iff]
  constructor
  · intro hvalue hrounds
    have heq := hvalue.mp (Or.inr hrounds)
    rcases hrounds with hrounds | hrounds
    · exact hrounds.ne heq
    · exact hrounds.ne heq.symm
  · exact fun hnot => or_iff_left hnot

/-- Numbers that compare equal are compared as equal binary numbers. -/
theorem toBinary_eq_of_equals {a b : Number} (h : a.equals b = true) :
    a.toBinary.toRat = b.toBinary.toRat := by
  cases a with
  | whole m =>
    cases b with
    | whole n => rw [equals_whole.mp h]
    | real x => exact Binary64.toRat_eq_iff.mpr h
  | real x =>
    cases b with
    | whole n =>
      rw [equals_comm, equals_whole_real, ← Binary64.toRat_eq_iff] at h
      exact h.symm
    | real y => exact Binary64.toRat_eq_iff.mpr h

/-- Where equality of numbers fails to be transitive: at a binary number between two whole ones
that are both rounded to it. -/
theorem equals_trans_or {a b c : Number} (h : a.equals b = true) (h' : b.equals c = true) :
    a.equals c = true ∨ ∃ m x n, a = whole m ∧ b = real x ∧ c = whole n ∧ m ≠ n ∧
      ((whole m).RoundsTo (real x) ∨ (whole n).RoundsTo (real x)) := by
  have hbinary := (toBinary_eq_of_equals h).trans (toBinary_eq_of_equals h')
  cases a with
  | whole m =>
    cases c with
    | whole n =>
      cases b with
      | whole l =>
        left
        rw [equals_whole] at h h' ⊢
        exact h.trans h'
      | real x =>
        rw [equals_comm] at h'
        by_cases hmn : m = n
        · exact Or.inl (equals_whole.mpr hmn)
        · refine Or.inr ⟨m, x, n, rfl, rfl, rfl, hmn, ?_⟩
          -- Were both equal to the binary number, they would be equal to each other.
          rcases equals_whole_real_iff.mp h with hm | hm
          · rcases equals_whole_real_iff.mp h' with hn | hn
            · have hvalue : (m.value : ℚ) = n.value := hm.trans hn.symm
              exact absurd (Whole.value_injective (Int.cast_injective hvalue)) hmn
            · exact Or.inr hn
          · exact Or.inl hm
    | real z => exact Or.inl (Binary64.toRat_eq_iff.mp hbinary)
  | real x =>
    left
    cases c with
    | whole n =>
      rw [equals_comm]
      exact Binary64.toRat_eq_iff.mp hbinary.symm
    | real z => exact Binary64.toRat_eq_iff.mp hbinary

end Number

/-- Where equality of values fails to be transitive: at a binary number between two whole ones that
are both rounded to it. -/
theorem Value.equals_trans_or {u v w : Value} (h : u.equals v = true) (h' : v.equals w = true) :
    u.equals w = true ∨ ∃ m x n, u = .number (.whole m) ∧ v = .number (.real x) ∧
      w = .number (.whole n) ∧ m ≠ n ∧
      ((Number.whole m).RoundsTo (.real x) ∨ (Number.whole n).RoundsTo (.real x)) := by
  cases u with
  | number a =>
    cases v with
    | number b =>
      cases w with
      | number c =>
        refine (Number.equals_trans_or h h').imp_right ?_
        rintro ⟨m, x, n, rfl, rfl, rfl, hmn, hrounds⟩
        exact ⟨m, x, n, rfl, rfl, rfl, hmn, hrounds⟩
      | _ => cases h'
    | _ => cases h
  | other j =>
    cases v with
    | other k =>
      cases w with
      | other l => exact Or.inl (Json.equals_trans h h')
      | _ => cases h'
    | _ => cases h
  | bool a =>
    cases v with
    | bool b =>
      rw [equals, beq_iff_eq] at h
      exact Or.inl (h ▸ h')
    | _ => cases h
  | text a =>
    cases v with
    | text b =>
      rw [equals, beq_iff_eq] at h
      exact Or.inl (h ▸ h')
    | _ => cases h
  | list a =>
    cases v with
    | list b =>
      rw [equals, beq_iff_eq] at h
      exact Or.inl (h ▸ h')
    | _ => cases h

end RemoteSettings
