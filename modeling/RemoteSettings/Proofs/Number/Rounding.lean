import Mathlib.Algebra.Order.Ring.Abs
import Mathlib.Tactic.Linarith
import Mathlib.Tactic.Ring
import RemoteSettings.Number.Basic

/-!
# Rounding to binary numbers

A code stands for a significand that is doubled as often as its exponent says.  Greater codes stand
for greater magnitudes, so each magnitude has one code, and the code that a quotient is rounded to
stands for a magnitude that no other is nearer than; of two that are equally near it is the one
with the even code.

## Main results

* `unitsOf_eq`, `unitsOf_add` — the magnitude of a code, and of a significand that is carried over.
* `unitsOf_strictMono` — greater codes stand for greater magnitudes.
* `roundHalfEven_spec` — a quotient is rounded by at most a half, and by a half to even numbers.
* `nearest_spec` — **no magnitude is nearer than that of the nearest code.**
-/

namespace RemoteSettings.Binary64

/-! ### Codes and magnitudes -/

theorem unitsPerOne_pos : 0 < unitsPerOne := by decide +kernel

/-- The units to one are a power of two.  Its exponent is given a name, so that nothing tries to
work the power out. -/
theorem exists_unitsPerOne_eq : ∃ e, e = 1074 ∧ unitsPerOne = 2 ^ e := by
  obtain ⟨e, he⟩ : ∃ e, e = 1074 := ⟨_, rfl⟩
  refine ⟨e, he, ?_⟩
  rw [unitsPerOne, ← he, Nat.one_shiftLeft]

theorem shiftOf_add_significandOf (code : ℕ) :
    shiftOf code * 2 ^ 52 + significandOf code = code := by
  unfold significandOf shiftOf
  omega

theorem significandOf_lt (code : ℕ) : significandOf code < 2 ^ 53 := by
  unfold significandOf shiftOf
  omega

theorem le_significandOf {code : ℕ} (h : shiftOf code ≠ 0) : 2 ^ 52 ≤ significandOf code := by
  unfold significandOf shiftOf at *
  omega

theorem unitsOf_eq (code : ℕ) : unitsOf code = significandOf code * 2 ^ shiftOf code :=
  Nat.shiftLeft_eq _ _

theorem unitsOf_zero : unitsOf 0 = 0 := rfl

/-- The magnitude of a significand that is doubled as often as a shift says.  One that is rounded
up to `2 ^ 53` is carried over into the exponent. -/
theorem unitsOf_add {shift q : ℕ} (hq : q ≤ 2 ^ 53) (hshift : shift = 0 ∨ 2 ^ 52 ≤ q) :
    unitsOf (shift * 2 ^ 52 + q) = q * 2 ^ shift := by
  have hcode := shiftOf_add_significandOf (shift * 2 ^ 52 + q)
  rw [unitsOf_eq]
  rcases Nat.lt_or_eq_of_le hq with hlt | heq
  · have hs : shiftOf (shift * 2 ^ 52 + q) = shift := by
      unfold shiftOf
      omega
    rw [hs] at hcode
    rw [hs, Nat.add_left_cancel hcode]
  · have hs : shiftOf (shift * 2 ^ 52 + q) = shift + 1 := by
      unfold shiftOf
      omega
    rw [hs] at hcode
    have hq' : significandOf (shift * 2 ^ 52 + q) * 2 = q := by omega
    rw [hs, pow_succ' 2 shift, ← Nat.mul_assoc, hq']

theorem unitsOf_strictMono : StrictMono unitsOf := by
  refine strictMono_nat_of_lt_succ fun code => ?_
  have hq := significandOf_lt code
  have hnext : code + 1 = shiftOf code * 2 ^ 52 + (significandOf code + 1) := by
    rw [← Nat.add_assoc, shiftOf_add_significandOf]
  have hshift : shiftOf code = 0 ∨ 2 ^ 52 ≤ significandOf code + 1 := by
    by_cases h : shiftOf code = 0
    · exact Or.inl h
    · exact Or.inr (Nat.le_succ_of_le (le_significandOf h))
  rw [hnext, unitsOf_add hq hshift, unitsOf_eq, Nat.mul_lt_mul_right (Nat.two_pow_pos _)]
  exact Nat.lt_succ_self _

/-! ### Rounding a quotient to a whole number -/

/-- A quotient is rounded by at most a half, and by a half only to even numbers. -/
theorem roundHalfEven_spec (num : ℕ) {den : ℕ} (hden : 0 < den) :
    2 * |(num : ℤ) - den * roundHalfEven num den| ≤ den ∧
      (2 * |(num : ℤ) - den * roundHalfEven num den| = den → Even (roundHalfEven num den)) := by
  have hdiv : (den : ℤ) * (num / den : ℕ) + (num % den : ℕ) = num := by
    exact_mod_cast Nat.div_add_mod num den
  have hmod := Nat.mod_lt num hden
  unfold roundHalfEven
  generalize num / den = low at *
  generalize num % den = rest at *
  have hlow : (num : ℤ) - den * low = rest := by linarith
  have hhigh : (num : ℤ) - den * (low + 1 : ℕ) = rest - den := by
    push_cast
    linarith
  have habs : |(rest : ℤ)| = rest := abs_of_nonneg (Int.natCast_nonneg rest)
  have habs' : |(rest : ℤ) - den| = den - rest := by
    rw [abs_sub_comm]
    exact abs_of_nonneg (by omega)
  dsimp only
  split
  · rw [hlow, habs]
    omega
  · split
    · rw [hhigh, habs']
      omega
    · -- Halfway between two numbers, of which one is even.
      rcases Nat.mod_two_eq_zero_or_one low with heven | hodd
      · rw [heven, Nat.add_zero, hlow, habs]
        exact ⟨by omega, fun _ => Nat.even_iff.mpr heven⟩
      · rw [hodd, hhigh, habs']
        exact ⟨by omega, fun _ => Nat.even_iff.mpr (by omega)⟩

/-- A multiple within half a step of a number is the nearest one, and the only nearest one unless
it is just half a step away. -/
theorem le_of_within_half {a d q : ℤ} (hd : 0 < d) (hhalf : 2 * |a - d * q| ≤ d) (k : ℤ) :
    |a - d * q| ≤ |a - d * k| ∧ (|a - d * q| = |a - d * k| → k = q ∨ 2 * |a - d * q| = d) := by
  by_cases hk : k = q
  · rw [hk]
    exact ⟨le_rfl, fun _ => Or.inl rfl⟩
  · -- Two multiples are at least a step apart.
    have hstep : d ≤ |d * k - d * q| := by
      rw [← mul_sub, abs_mul, abs_of_pos hd]
      exact le_mul_of_one_le_right hd.le (Int.one_le_abs (sub_ne_zero.mpr hk))
    have htriangle : |d * k - d * q| ≤ |a - d * k| + |a - d * q| := by
      rw [abs_sub_comm a (d * k)]
      have hsplit : d * k - d * q = (d * k - a) + (a - d * q) := by ring
      rw [hsplit]
      exact abs_add_le _ _
    exact ⟨by linarith, fun heq => Or.inr (by linarith)⟩

theorem div_le_roundHalfEven (num den : ℕ) : num / den ≤ roundHalfEven num den := by
  unfold roundHalfEven
  dsimp only
  split
  · exact le_rfl
  · split <;> omega

theorem roundHalfEven_le (num den : ℕ) : roundHalfEven num den ≤ num / den + 1 := by
  unfold roundHalfEven
  dsimp only
  split
  · exact Nat.le_succ _
  · split <;> omega

/-! ### Rounding a quotient to a binary number -/

/-- How a quotient is rounded: its significand is a whole number of a step, which is a unit or so
great that the significand has 53 bits. -/
theorem exists_nearest (num : ℕ) {den : ℕ} (hden : 0 < den) :
    ∃ shift q, nearest num den = shift * 2 ^ 52 + q ∧
      q = roundHalfEven (num * unitsPerOne) (den * 2 ^ shift) ∧ q ≤ 2 ^ 53 ∧
      shift ≤ (num * unitsPerOne / den).log2 ∧
      (shift = 0 ∨ den * 2 ^ shift * 2 ^ 52 ≤ num * unitsPerOne) := by
  generalize ha : num * unitsPerOne = a
  have hnearest : nearest num den = ((a / den).log2 - 52) * 2 ^ 52
      + roundHalfEven a (den * 2 ^ ((a / den).log2 - 52)) := by
    rw [nearest, ha, Nat.shiftLeft_eq, Nat.shiftLeft_eq]
  refine ⟨_, _, hnearest, rfl, ?_, Nat.sub_le _ _, ?_⟩
  · refine le_trans (roundHalfEven_le _ _) (Nat.succ_le_of_lt ?_)
    rw [← Nat.div_div_eq_div_mul, Nat.div_lt_iff_lt_mul (Nat.two_pow_pos _), ← Nat.pow_add]
    exact Nat.lt_of_lt_of_le Nat.lt_log2_self (Nat.pow_le_pow_right Nat.two_pos (by omega))
  · by_cases hlog : (a / den).log2 ≤ 52
    · exact Or.inl (Nat.sub_eq_zero_of_le hlog)
    · right
      have hne : a / den ≠ 0 := by
        intro hzero
        rw [hzero, Nat.log2_zero] at hlog
        omega
      have hself : 2 ^ (a / den).log2 ≤ a / den := Nat.log2_self_le hne
      rw [Nat.le_div_iff_mul_le hden] at hself
      rw [Nat.mul_assoc, ← Nat.pow_add, Nat.sub_add_cancel (by omega), Nat.mul_comm]
      exact hself

/-- **No magnitude is nearer than that of the nearest code**, and another is equally near only if
the nearest code is even. -/
theorem nearest_spec (num : ℕ) {den : ℕ} (hden : 0 < den) (code : ℕ) :
    let near := |(num * unitsPerOne : ℤ) - den * unitsOf (nearest num den)|
    near ≤ |(num * unitsPerOne : ℤ) - den * unitsOf code| ∧
      (near = |(num * unitsPerOne : ℤ) - den * unitsOf code| →
        unitsOf code = unitsOf (nearest num den) ∨ Even (nearest num den)) := by
  obtain ⟨s, q, hnearest, hq, hle, -, hs⟩ := exists_nearest num hden
  have hcast : (num * unitsPerOne : ℤ) = (num * unitsPerOne : ℕ) := by push_cast; rfl
  rw [hcast, hnearest]
  generalize num * unitsPerOne = a at *
  have hd : 0 < den * 2 ^ s := Nat.mul_pos hden (Nat.two_pow_pos s)
  have hfull : s = 0 ∨ 2 ^ 52 ≤ q := hs.imp_right fun hs => by
    rw [hq]
    refine le_trans ?_ (div_le_roundHalfEven _ _)
    rw [Nat.le_div_iff_mul_le hd, Nat.mul_comm]
    exact hs
  obtain ⟨hhalf, heven⟩ := roundHalfEven_spec a hd
  rw [← hq] at hhalf heven
  have hunits : (den * unitsOf (s * 2 ^ 52 + q) : ℤ) = (den * 2 ^ s : ℕ) * q := by
    rw [unitsOf_add hle hfull]
    push_cast
    ring
  have hd' : (0 : ℤ) < (den * 2 ^ s : ℕ) := by exact_mod_cast hd
  dsimp only
  rw [hunits]
  rcases Nat.lt_or_ge (shiftOf code) s with hlt | hge
  · -- The other magnitude is below any of 53 bits, and the quotient is above.
    have habove : den * 2 ^ s * 2 ^ 52 ≤ a := hs.resolve_left (Nat.ne_zero_of_lt hlt)
    have hbelow : den * unitsOf code < den * 2 ^ s * 2 ^ 52 := by
      rw [Nat.mul_assoc, Nat.mul_lt_mul_left hden, unitsOf_eq]
      calc significandOf code * 2 ^ shiftOf code
          < 2 ^ 53 * 2 ^ shiftOf code :=
            Nat.mul_lt_mul_of_pos_right (significandOf_lt code) (Nat.two_pow_pos _)
        _ = 2 ^ (shiftOf code + 1) * 2 ^ 52 := by ring
        _ ≤ 2 ^ s * 2 ^ 52 := Nat.mul_le_mul_right _ (Nat.pow_le_pow_right Nat.two_pos hlt)
    have habove' : ((den * 2 ^ s : ℕ) : ℤ) * (2 ^ 52 : ℕ) ≤ a := by exact_mod_cast habove
    have hbelow' : (den * unitsOf code : ℤ) < (den * 2 ^ s : ℕ) * (2 ^ 52 : ℕ) := by
      exact_mod_cast hbelow
    have hnear := (le_of_within_half hd' hhalf (2 ^ 52 : ℕ)).1
    rw [abs_of_nonneg (sub_nonneg.mpr habove')] at hnear
    have hfar : |(a : ℤ) - (den * 2 ^ s : ℕ) * q| < |(a : ℤ) - den * unitsOf code| := by
      rw [abs_of_pos (sub_pos.mpr (hbelow'.trans_le habove'))]
      linarith
    exact ⟨hfar.le, fun heq => absurd heq hfar.ne⟩
  · -- The other magnitude is a whole number of the same steps.
    have hsteps : unitsOf code = significandOf code * 2 ^ (shiftOf code - s) * 2 ^ s := by
      rw [unitsOf_eq, Nat.mul_assoc, ← Nat.pow_add, Nat.sub_add_cancel hge]
    have hcode : (den * unitsOf code : ℤ)
        = (den * 2 ^ s : ℕ) * (significandOf code * 2 ^ (shiftOf code - s) : ℕ) := by
      rw [hsteps]
      push_cast
      ring
    rw [hcode]
    obtain ⟨hmin, htie⟩ := le_of_within_half hd' hhalf
      (significandOf code * 2 ^ (shiftOf code - s) : ℕ)
    refine ⟨hmin, fun heq => (htie heq).imp (fun hk => ?_) fun hhalf => ?_⟩
    · rw [unitsOf_add hle hfull, hsteps, Nat.cast_injective hk]
    · exact (Even.mul_left (Nat.even_pow.mpr ⟨even_two, by decide⟩) s).add (heven hhalf)

/-- A magnitude is rounded to its own code. -/
theorem nearest_of_unitsOf {num den code : ℕ} (hden : 0 < den)
    (h : num * unitsPerOne = den * unitsOf code) : nearest num den = code := by
  have hmin := (nearest_spec num hden code).1
  have hexact : (num * unitsPerOne : ℤ) = den * unitsOf code := by exact_mod_cast h
  rw [hexact, sub_self, abs_zero] at hmin
  have hzero := sub_eq_zero.mp (abs_eq_zero.mp (le_antisymm hmin (abs_nonneg _)))
  have hunits : den * unitsOf code = den * unitsOf (nearest num den) := by exact_mod_cast hzero
  exact (unitsOf_strictMono.injective (Nat.eq_of_mul_eq_mul_left hden hunits)).symm

/-- Numbers that fit 64 bits are not rounded beyond the finite codes. -/
theorem nearest_lt_infinityCode {num : ℕ} (h : num < 2 ^ 64) : nearest num 1 < infinityCode := by
  obtain ⟨s, q, hnearest, -, hq, hs, -⟩ := exists_nearest num Nat.one_pos
  have hlog : ∀ k, (num * 2 ^ k).log2 < 64 + k := by
    intro k
    by_cases hzero : num * 2 ^ k = 0
    · rw [hzero, Nat.log2_zero]
      exact Nat.add_pos_left (by decide) k
    · rw [Nat.log2_lt hzero, Nat.pow_add]
      exact Nat.mul_lt_mul_of_pos_right h (Nat.two_pow_pos k)
  obtain ⟨e, he, hone⟩ := exists_unitsPerOne_eq
  rw [Nat.div_one, hone] at hs
  have hs' := lt_of_le_of_lt hs (hlog e)
  rw [hnearest, infinityCode, Nat.shiftLeft_eq]
  omega

/-- Up to `2 ^ 53` each whole number has a code. -/
theorem exists_code_of_le {num : ℕ} (h : num ≤ 2 ^ 53) :
    ∃ code, num * unitsPerOne = unitsOf code := by
  rcases Nat.eq_zero_or_pos num with rfl | hpos
  · exact ⟨0, Nat.zero_mul _⟩
  · -- The number is doubled until it has 53 bits.
    have hlow : 2 ^ 52 ≤ num * 2 ^ (52 - num.log2) :=
      calc 2 ^ 52 ≤ 2 ^ (num.log2 + (52 - num.log2)) :=
            Nat.pow_le_pow_right Nat.two_pos (by omega)
        _ = 2 ^ num.log2 * 2 ^ (52 - num.log2) := Nat.pow_add ..
        _ ≤ num * 2 ^ (52 - num.log2) := Nat.mul_le_mul_right _ (Nat.log2_self_le hpos.ne')
    have hhigh : num * 2 ^ (52 - num.log2) ≤ 2 ^ 53 := by
      rcases Nat.lt_or_ge 52 num.log2 with hlog | hlog
      · rw [Nat.sub_eq_zero_of_le hlog.le, Nat.pow_zero, Nat.mul_one]
        exact h
      · calc num * 2 ^ (52 - num.log2)
            ≤ 2 ^ (num.log2 + 1) * 2 ^ (52 - num.log2) :=
              Nat.mul_le_mul_right _ Nat.lt_log2_self.le
          _ = 2 ^ (num.log2 + 1 + (52 - num.log2)) := (Nat.pow_add ..).symm
          _ ≤ 2 ^ 53 := Nat.pow_le_pow_right Nat.two_pos (by omega)
    obtain ⟨e, he, hone⟩ := exists_unitsPerOne_eq
    refine ⟨(e - (52 - num.log2)) * 2 ^ 52 + num * 2 ^ (52 - num.log2), ?_⟩
    rw [unitsOf_add hhigh (Or.inr hlow), hone, Nat.mul_assoc, ← Nat.pow_add,
      Nat.add_sub_cancel' (by omega)]

end RemoteSettings.Binary64
