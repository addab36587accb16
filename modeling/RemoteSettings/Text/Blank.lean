/-!
# Blank characters

## Main definitions

* `Blank.ranges` — the code points of the white space property.
* `Blank.isBlank` — whether a character is white space.
* `Blank.trim` — a text without the white space at its ends.
-/

namespace RemoteSettings.Blank

/-- Ranges of the code points that are white space. -/
def ranges : List (Nat × Nat) :=
  [(0x9, 0xD), (0x20, 0x20), (0x85, 0x85), (0xA0, 0xA0), (0x1680, 0x1680), (0x2000, 0x200A),
    (0x2028, 0x2029), (0x202F, 0x202F), (0x205F, 0x205F), (0x3000, 0x3000)]

/-- Whether a character is white space. -/
def isBlank (c : Char) : Bool := ranges.any fun r => r.1 ≤ c.toNat && c.toNat ≤ r.2

/-- The characters without the white space at either end. -/
def trim (s : List Char) : List Char :=
  ((s.dropWhile isBlank).reverse.dropWhile isBlank).reverse

end RemoteSettings.Blank
