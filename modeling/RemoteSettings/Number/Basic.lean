import RemoteSettings.Number.Shortest

/-!
# Numbers

A number is a whole number that fits 64 bits, signed or unsigned, or else a binary floating-point
number.  The two forms are kept apart, so that a number is written back as it was read.

## Main definitions

* `Whole` — the whole numbers from `-2 ^ 63` to `2 ^ 64 - 1`.
* `Number` — a whole or a binary number.
* `Number.equals` — equality by value, a whole number being rounded to meet a binary one.
* `Number.sameAs` — equality of form and value.
-/

namespace RemoteSettings

/-- A whole number that fits 64 bits, signed or unsigned. -/
structure Whole where
  value : Int
  /-- The value is at least `-2 ^ 63`. -/
  lower : -9_223_372_036_854_775_808 ≤ value
  /-- The value is below `2 ^ 64`. -/
  upper : value < 18_446_744_073_709_551_616
  deriving DecidableEq

/-- The whole number with a given value, if it fits. -/
def Whole.ofInt? (n : Int) : Option Whole :=
  if h : -9_223_372_036_854_775_808 ≤ n ∧ n < 18_446_744_073_709_551_616 then
    some ⟨n, h.1, h.2⟩
  else none

instance : Inhabited Whole := ⟨0, by decide, by decide⟩

/-- A number as written: whole, or a binary floating-point number. -/
inductive Number
  | whole (n : Whole)
  | real (x : Binary64)
  deriving DecidableEq, Inhabited

namespace Number

/-- Stands for a number that has no binary form; it is a number all the same. -/
def placeholder : Number := .real (.zero false)

/-- Whether the number is negative, and the code of the binary magnitude nearest to it. -/
def rounded : Number → Bool × Nat
  | .whole n => (n.value < 0, Binary64.nearest n.value.natAbs 1)
  | .real x => (x.negative, x.code)

/-- Equality by value: whole numbers are compared exactly, and a whole with a binary number after
rounding. -/
def equals : Number → Number → Bool
  | .whole a, .whole b => a.value == b.value
  | a, b => a.rounded.2 == b.rounded.2 && (a.rounded.1 == b.rounded.1 || a.rounded.2 == 0)

/-- Equality of form and value: a whole number never equals a binary one. -/
def sameAs : Number → Number → Bool
  | .whole a, .whole b => a.value == b.value
  | .real a, .real b => a.equals b
  | _, _ => false

/-- A whole number in decimal digits, a binary one as its shortest decimal. -/
def text : Number → List Char
  | .whole n =>
    let digits := Nat.toDigits 10 n.value.natAbs
    if n.value < 0 then '-' :: digits else digits
  | .real x => x.text

end Number

end RemoteSettings
