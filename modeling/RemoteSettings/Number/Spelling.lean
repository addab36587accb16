import RemoteSettings.Number.Literal

/-!
# Numbers as people write them

Configuration admits spellings of a number that JSON does not: a plus sign, leading zeros, a point
with digits on one side only.  The number meant is the binary number nearest to the decimal, or a
whole number when there is neither a point nor an exponent.

## Main definitions

* `Spelling.decimal?` — the parts of a number in decimal notation.
* `Spelling.whole?` — the whole number that a sign and digits denote.
* `Literal.nearest?` — the binary number nearest to a literal.
-/

namespace RemoteSettings

namespace Spelling

/-- Whether a text begins with a minus sign, and what follows its sign, if it has one. -/
def sign : List Char → Bool × List Char
  | '+' :: rest => (false, rest)
  | '-' :: rest => (true, rest)
  | rest => (false, rest)

/-- The digits behind a point, if there is one. -/
def fraction : List Char → List Nat × List Char
  | '.' :: rest => Digits.split 10 rest
  | rest => ([], rest)

/-- The exponent that a text consists of; `none` inside if the text is empty. -/
def exponent? : List Char → Option (Option (Bool × List Nat))
  | [] => some none
  | c :: rest =>
    if c = 'e' || c = 'E' then
      let (negative, rest) := sign rest
      match Digits.split 10 rest with
      | (d :: ds, []) => some (some (negative, d :: ds))
      | _ => none
    else none

/-- The parts of a number in decimal notation: a sign or none, digits with or without a point, and
an exponent or none. -/
def decimal? (s : List Char) : Option Literal :=
  let (negative, s) := sign s
  let (integer, s) := Digits.split 10 s
  let (fraction, s) := fraction s
  if integer.isEmpty && fraction.isEmpty then none
  else (exponent? s).map fun exponent => ⟨negative, integer, fraction, exponent⟩

/-- The number that a text denotes which consists of digits in a base. -/
def natural? (base : Nat) (s : List Char) : Option Nat :=
  match Digits.split base s with
  | (d :: ds, []) => some (Digits.toNat base (d :: ds))
  | _ => none

/-- The whole number that a sign or none and digits denote, if it fits 64 bits. -/
def whole? (s : List Char) : Option Whole := do
  let (negative, s) := sign s
  let n ← natural? 10 s
  Whole.ofInt? (if negative then -n else n)

end Spelling

namespace Literal

/-- A power of ten so small that nothing below it is told from zero, and so great when inverted that
nothing above it is finite. -/
def farExponent : Int := 400

/-- The binary number nearest to a literal, unless it is too large. -/
def nearest? (l : Literal) : Option Binary64 :=
  let ds := l.integer ++ l.fraction
  let significand := Digits.toNat 10 ds
  let exponent := l.exponentValue - l.fraction.length
  if significand = 0 || exponent + ds.length < -farExponent then some (.zero l.negative)
  else if farExponent < exponent then none
  else
    Binary64.ofCode? l.negative <|
      match exponent with
      | .ofNat e => Binary64.nearest (significand * Nat.pow 10 e) 1
      | .negSucc e => Binary64.nearest significand (Nat.pow 10 (e + 1))

end Literal

end RemoteSettings
