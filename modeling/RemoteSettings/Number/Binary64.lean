/-!
# Binary floating-point numbers

A finite 64-bit binary number is kept as its sign and the *code* of its magnitude: the 63-bit
word whose upper bits are the exponent and whose lower 52 bits are the fraction.  Every finite
magnitude is a whole number of *units*, a unit being the least positive magnitude `2 ^ (-1074)`, so
all arithmetic on magnitudes is arithmetic on natural numbers.

## Main definitions

* `Binary64` — a sign and a code below that of infinity.
* `Binary64.unitsOf` — the magnitude that a code stands for, counted in units.
* `Binary64.nearest` — the code nearest to a quotient, of two equally near ones the even one.
* `Binary64.ofDecimal` — how a decimal literal is read: a rounded significand times or divided by
  rounded powers of ten.
-/

namespace RemoteSettings

/-- The code one above the greatest finite magnitude. -/
def Binary64.infinityCode : Nat := 2047 <<< 52

/-- A finite 64-bit binary floating-point number. -/
structure Binary64 where
  /-- Whether the number carries a minus sign; zero may carry one. -/
  negative : Bool
  /-- The exponent and the fraction of the magnitude, read as one number. -/
  code : Nat
  finite : code < Binary64.infinityCode
  deriving DecidableEq

namespace Binary64

/-- The units to one: every magnitude is a multiple of `1 / unitsPerOne`. -/
def unitsPerOne : Nat := 1 <<< 1074

/-- The place of the last bit of the significand, counted in doublings of the unit. -/
def shiftOf (code : Nat) : Nat := code >>> 52 - 1

/-- The significand, with the leading bit that a normal number leaves out. -/
def significandOf (code : Nat) : Nat := code - shiftOf code <<< 52

/-- The magnitude of a code in units. -/
def unitsOf (code : Nat) : Nat := significandOf code <<< shiftOf code

/-- The quotient `num / den` rounded to a whole number, halves going to the even neighbour. -/
def roundHalfEven (num den : Nat) : Nat :=
  let low := num / den
  let twice := 2 * (num % den)
  if twice < den then low
  else if den < twice then low + 1
  else low + low % 2

/-- The code of the magnitude nearest to `num / den`.  It is beyond the finite codes when the
quotient rounds to something too large. -/
def nearest (num den : Nat) : Nat :=
  let units := num * unitsPerOne / den
  -- Below `2 ^ 53` units every whole number is a magnitude, and the shift is zero.
  let shift := units.log2 - 52
  -- A significand that is rounded up to `2 ^ 53` carries into the exponent, as it should.
  shift <<< 52 + roundHalfEven (num * unitsPerOne) (den <<< shift)

/-- The code of the product of two magnitudes, rounded once. -/
def mulCode (a b : Nat) : Nat := nearest (unitsOf a * unitsOf b) (unitsPerOne * unitsPerOne)

/-- The code of the quotient of two magnitudes, rounded once. -/
def divCode (a b : Nat) : Nat := nearest (unitsOf a) (unitsOf b)

/-- The code of a whole power of ten. -/
def tenTo (n : Nat) : Nat := nearest (Nat.pow 10 n) 1

/-- The greatest power of ten that a decimal literal is scaled by in one step. -/
def maxPower : Nat := 308

/-- Divides a magnitude `n` times by the greatest power, stopping at zero. -/
def divByMaxPower : Nat → Nat → Nat
  | 0, code => code
  | n + 1, code => if code = 0 then 0 else divByMaxPower n (divCode code (tenTo maxPower))

/-- The magnitude of `significand * 10 ^ exponent` as a literal is read: the significand is rounded
first, then multiplied by a rounded power of ten, or divided by one or more of them. -/
def decimalCode (significand : Nat) : Int → Nat
  | .ofNat e =>
    if significand = 0 then 0
    else if e ≤ maxPower then mulCode (nearest significand 1) (tenTo e)
    else infinityCode
  | .negSucc e =>
    let reduced := divByMaxPower ((e + 1) / maxPower) (nearest significand 1)
    divCode reduced (tenTo ((e + 1) % maxPower))

/-- The number with a given sign and code, if the code is finite. -/
def ofCode? (negative : Bool) (code : Nat) : Option Binary64 :=
  if h : code < infinityCode then some ⟨negative, code, h⟩ else none

/-- Reads `±significand * 10 ^ exponent`; `none` if it is too large. -/
def ofDecimal (negative : Bool) (significand : Nat) (exponent : Int) : Option Binary64 :=
  ofCode? negative (decimalCode significand exponent)

/-- The number zero with a sign. -/
def zero (negative : Bool) : Binary64 := ⟨negative, 0, by decide⟩

instance : Inhabited Binary64 := ⟨zero false⟩

/-- The magnitude in units. -/
def units (x : Binary64) : Nat := unitsOf x.code

/-- Whether two numbers are equal as numbers, which the two zeros are. -/
def equals (x y : Binary64) : Bool :=
  x.code == y.code && (x.negative == y.negative || x.code == 0)

end Binary64

end RemoteSettings
