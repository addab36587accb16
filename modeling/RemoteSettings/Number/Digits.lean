/-!
# Digits

The digits of a number are given by their values, most significant first.

## Main definitions

* `Digits.value?` — the value of a character as a digit.
* `Digits.toNat` — the number that digits denote.
* `Digits.split` — the digits that a text begins with, and the rest.
-/

namespace RemoteSettings.Digits

/-- The value of a character as a digit in a base of at most sixteen, letters in either case. -/
def value? (base : Nat) (c : Char) : Option Nat :=
  let value :=
    if '0' ≤ c && c ≤ '9' then some (c.toNat - '0'.toNat)
    else if 'a' ≤ c && c ≤ 'f' then some (c.toNat - 'a'.toNat + 10)
    else if 'A' ≤ c && c ≤ 'F' then some (c.toNat - 'A'.toNat + 10)
    else none
  value.filter (· < base)

/-- The number that digits in a base denote. -/
def toNat (base : Nat) (ds : List Nat) : Nat := ds.foldl (fun n d => n * base + d) 0

/-- The digits in a base of at most sixteen that a text begins with, and the rest. -/
def split (base : Nat) : List Char → List Nat × List Char
  | [] => ([], [])
  | c :: rest =>
    match value? base c with
    | some d =>
      let (ds, rest) := split base rest
      (d :: ds, rest)
    | none => ([], c :: rest)

end RemoteSettings.Digits
