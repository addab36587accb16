import RemoteSettings.Number.Binary64

/-!
# Shortest decimals

The decimal that stands for a binary number is the one with the fewest digits among those that read
back as the same number, and of these the nearest to it.  It is found on the coarsest grid of
multiples of a power of ten that has a point in the interval of reals that round to the number.

## Main definitions

* `Decimal` — digits times a power of ten.
* `Shortest.gridPoint?` — the point of a grid that rounds to a given magnitude.
* `Shortest.ofCode` — the shortest decimal of a magnitude.
* `Decimal.text` — positional notation for exponents from -5 to 15, else scientific notation.
-/

namespace RemoteSettings

/-- The number `digits * 10 ^ exponent`. -/
structure Decimal where
  digits : Nat
  exponent : Int
  deriving DecidableEq, Inhabited

namespace Shortest

open Binary64

/-- The magnitude itself, in quarters of a unit. -/
def middle (code : Nat) : Nat := 4 * unitsOf code

/-- The upper end of the interval that rounds to the magnitude, in quarters of a unit. -/
def upperEnd (code : Nat) : Nat := 2 * (unitsOf code + unitsOf (code + 1))

/-- The lower end of the interval that rounds to the magnitude, in quarters of a unit. -/
def lowerEnd (code : Nat) : Nat := 2 * (unitsOf code + unitsOf (code - 1))

/-- Whether a quotient of quarters of a unit lies in the interval; the ends belong to it exactly
when the significand is even. -/
def rounds (code num den : Nat) : Bool :=
  if code % 2 = 0 then lowerEnd code * den ≤ num && num ≤ upperEnd code * den
  else lowerEnd code * den < num && num < upperEnd code * den

/-- The factors that turn a multiple of `10 ^ p` into quarters of a unit, as a fraction. -/
def gridStep : Int → Nat × Nat
  | .ofNat p => (Nat.pow 10 p * (4 * unitsPerOne), 1)
  | .negSucc p => (4 * unitsPerOne, Nat.pow 10 (p + 1))

/-- The multiple of `10 ^ p` next to the magnitude that rounds to it, if there is one.  Of two such
neighbours the nearer is taken, and the even one of two equally near. -/
def gridPoint? (code : Nat) (p : Int) : Option Nat :=
  let (num, den) := gridStep p
  let below := middle code * den / num
  let fromBelow := middle code * den - below * num
  let fromAbove := (below + 1) * num - middle code * den
  match rounds code (below * num) den, rounds code ((below + 1) * num) den with
  | true, true =>
    if fromBelow < fromAbove then some below
    else if fromAbove < fromBelow then some (below + 1)
    else some (below + below % 2)
  | true, false => some below
  | false, true => some (below + 1)
  | false, false => none

/-- Tries the grids from `10 ^ (n - 325)` down to `10 ^ (-324)`. -/
def scan (code : Nat) : Nat → Decimal
  | 0 => ⟨0, 0⟩
  | n + 1 =>
    match gridPoint? code (n - 324) with
    | some digits => ⟨digits, n - 324⟩
    | none => scan code n

/-- The shortest decimal that rounds to a magnitude. -/
def ofCode (code : Nat) : Decimal := if code = 0 then ⟨0, 0⟩ else scan code 634

end Shortest

namespace Decimal

/-- The digits in base ten, most significant first. -/
def digitList (d : Decimal) : List Char := Nat.toDigits 10 d.digits

/-- The exponent of the leading digit. -/
def leading (d : Decimal) : Int := d.exponent + (d.digitList.length - 1 : Nat)

/-- Positional notation with at least one digit on either side of the point. -/
def positional (d : Decimal) : List Char :=
  let ds := d.digitList
  if 0 ≤ d.exponent then ds ++ List.replicate d.exponent.toNat '0' ++ ['.', '0']
  else if 0 ≤ d.leading then
    let cut := d.leading.toNat + 1
    ds.take cut ++ '.' :: ds.drop cut
  else '0' :: '.' :: List.replicate (-d.leading - 1).toNat '0' ++ ds

/-- Scientific notation with a signed exponent and no point after a single digit. -/
def scientific (d : Decimal) : List Char :=
  let significand := match d.digitList with
    | [] => []
    | [c] => [c]
    | c :: rest => c :: '.' :: rest
  let sign := if d.leading < 0 then '-' else '+'
  significand ++ 'e' :: sign :: Nat.toDigits 10 d.leading.natAbs

/-- Positional notation while the leading digit stands between `10 ^ (-5)` and `10 ^ 15`. -/
def text (d : Decimal) : List Char :=
  if -5 ≤ d.leading && d.leading < 16 then d.positional else d.scientific

end Decimal

/-- The text of a binary number: the shortest decimal, after a minus sign if it carries one. -/
def Binary64.text (x : Binary64) : List Char :=
  let magnitude := (Shortest.ofCode x.code).text
  if x.negative then '-' :: magnitude else magnitude

end RemoteSettings
