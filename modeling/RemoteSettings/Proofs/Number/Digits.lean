import RemoteSettings.Number.Digits

/-!
# Decimal digits

A natural number is written in decimal without zeros in front, and what is written denotes it.

## Main definitions

* `Digits.ofNat` — the decimal digits of a number.

## Main results

* `Digits.toNat_ofNat` — the digits of a number denote it.
* `Digits.toDigits_eq_map` — a number is written by its digits.
-/

namespace RemoteSettings.Digits

/-- The decimal digits of a number; zero has one. -/
def ofNat (n : Nat) : List Nat := if n < 10 then [n] else ofNat (n / 10) ++ [n % 10]

theorem ofNat_of_lt {n : Nat} (h : n < 10) : ofNat n = [n] := by
  rw [ofNat, if_pos h]

theorem ofNat_of_ge {n : Nat} (h : 10 ≤ n) : ofNat n = ofNat (n / 10) ++ [n % 10] := by
  rw [ofNat, if_neg (Nat.not_lt.mpr h)]

theorem ofNat_ne_nil (n : Nat) : ofNat n ≠ [] := by
  rw [ofNat]
  split <;> simp

theorem lt_ten_of_mem_ofNat {n d : Nat} (h : d ∈ ofNat n) : d < 10 := by
  induction n using ofNat.induct with
  | case1 n hn =>
    rw [ofNat_of_lt hn, List.mem_singleton] at h
    rwa [h]
  | case2 n hn ih =>
    rw [ofNat_of_ge (Nat.not_lt.mp hn), List.mem_append, List.mem_singleton] at h
    rcases h with hfront | rfl
    · exact ih hfront
    · exact Nat.mod_lt n (by decide)

theorem toNat_append_singleton (base : Nat) (ds : List Nat) (d : Nat) :
    toNat base (ds ++ [d]) = toNat base ds * base + d := by
  rw [toNat, List.foldl_append]
  rfl

/-- The digits of a number denote it. -/
theorem toNat_ofNat (n : Nat) : toNat 10 (ofNat n) = n := by
  induction n using ofNat.induct with
  | case1 n hn =>
    rw [ofNat_of_lt hn]
    exact (congrArg (· + n) (Nat.zero_mul 10)).trans (Nat.zero_add n)
  | case2 n hn ih =>
    rw [ofNat_of_ge (Nat.not_lt.mp hn), toNat_append_singleton, ih]
    exact Nat.div_add_mod' n 10

/-- Only zero is written with a zero in front. -/
theorem eq_zero_of_ofNat_eq_zero_cons {n : Nat} {ds : List Nat} (h : ofNat n = 0 :: ds) :
    n = 0 ∧ ds = [] := by
  induction n using ofNat.induct generalizing ds with
  | case1 n hn =>
    rw [ofNat_of_lt hn] at h
    exact ⟨(List.cons.inj h).1, (List.cons.inj h).2.symm⟩
  | case2 n hn ih =>
    -- The digits in front are those of a positive number.
    rw [ofNat_of_ge (Nat.not_lt.mp hn)] at h
    cases hfront : ofNat (n / 10) with
    | nil => exact absurd hfront (ofNat_ne_nil _)
    | cons d front =>
      rw [hfront, List.cons_append] at h
      obtain ⟨rfl, -⟩ := List.cons.inj h
      have hzero : n / 10 = 0 := (ih hfront).1
      omega

/-- A number is written by its digits. -/
theorem toDigits_eq_map (n : Nat) : Nat.toDigits 10 n = (ofNat n).map Nat.digitChar := by
  induction n using ofNat.induct with
  | case1 n hn => rw [ofNat_of_lt hn, Nat.toDigits_of_lt_base hn, List.map_singleton]
  | case2 n hn ih =>
    have hge : 10 ≤ n := Nat.not_lt.mp hn
    rw [ofNat_of_ge hge, Nat.toDigits_of_base_le (by decide) hge, ih, List.map_append,
      List.map_singleton]

theorem value?_digitChar : ∀ d < 10, value? 10 (Nat.digitChar d) = some d := by decide

end RemoteSettings.Digits
