import RemoteSettings.Number.Basic
import RemoteSettings.Number.Digits

/-!
# Number literals

A literal is a sign, digits, and perhaps a fraction and an exponent.  It denotes a whole number when
it has digits only and they fit 64 bits; every other literal, that of minus zero included, denotes
a binary number.  At most 64 bits of digits are kept as the significand: later digits of the integer
part raise the exponent, later digits of the fraction are ignored.

## Main definitions

* `Literal` — the parts of a literal.
* `Literal.absorb` — the digits that fit a limit.
* `Literal.toNumber?` — the number that a literal denotes, unless it is too large.
-/

namespace RemoteSettings

/-- The parts of a number literal. -/
structure Literal where
  negative : Bool
  integer : List Nat
  fraction : List Nat := []
  /-- Whether the exponent is negative, and its digits. -/
  exponent : Option (Bool × List Nat) := none
  deriving DecidableEq

namespace Literal

/-- Appends digits to a number for as long as it stays within a limit; also says how many digits
were taken. -/
def absorb (limit : Nat) : Nat → List Nat → Nat × Nat
  | n, [] => (n, 0)
  | n, d :: ds =>
    if limit < n * 10 + d then (n, 0)
    else
      let (m, taken) := absorb limit (n * 10 + d) ds
      (m, taken + 1)

/-- The greatest significand. -/
def maxSignificand : Nat := 1 <<< 64 - 1

/-- The written exponent, zero if there is none. -/
def exponentValue (l : Literal) : Int :=
  match l.exponent with
  | none => 0
  | some (true, ds) => -(Digits.toNat 10 ds : Int)
  | some (false, ds) => Digits.toNat 10 ds

/-- The binary number that a literal denotes, unless it is too large. -/
def toReal? (l : Literal) : Option Binary64 :=
  let (high, taken) := absorb maxSignificand 0 l.integer
  let (significand, fractional) := absorb maxSignificand high l.fraction
  let dropped := l.integer.length - taken
  Binary64.ofDecimal l.negative significand (dropped - fractional + l.exponentValue)

/-- The whole number that a literal denotes, if it has digits only and they fit. -/
def toWhole? (l : Literal) : Option Whole :=
  if l.fraction.isEmpty && l.exponent.isNone then
    let n := Digits.toNat 10 l.integer
    if l.negative then (if n = 0 then none else Whole.ofInt? (-n)) else Whole.ofInt? n
  else none

/-- The number that a literal denotes, unless it is too large. -/
def toNumber? (l : Literal) : Option Number :=
  match l.toWhole? with
  | some n => some (.whole n)
  | none => l.toReal?.map .real

end Literal

end RemoteSettings
