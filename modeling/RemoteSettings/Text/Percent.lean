import RemoteSettings.Number.Digits

/-!
# Percent-encoded path segments

## Main definitions

* `Percent.isUnreserved` — the bytes that stand for themselves.
* `Percent.encode` — a text as a path segment.
* `Percent.decode` — the bytes that a path segment stands for.
-/

namespace RemoteSettings.Percent

/-- The bytes that stand for themselves: ASCII letters and digits, and the marks `-`, `_`, `.` and
`~`. -/
def isUnreserved (b : UInt8) : Bool :=
  let c := Char.ofNat b.toNat
  ('a' ≤ c && c ≤ 'z') || ('A' ≤ c && c ≤ 'Z') || ('0' ≤ c && c ≤ '9')
    || c == '-' || c == '_' || c == '.' || c == '~'

/-- A digit in base sixteen, in upper case. -/
def hexDigit (n : Nat) : Char := (Nat.digitChar n).toUpper

/-- A byte of a path segment. -/
def encodeByte (b : UInt8) : List Char :=
  if isUnreserved b then [Char.ofNat b.toNat]
  else ['%', hexDigit (b.toNat / 16), hexDigit (b.toNat % 16)]

/-- A text as a path segment. -/
def encode (s : String) : String :=
  String.ofList (s.toList.flatMap fun c => (String.utf8EncodeChar c).flatMap encodeByte)

/-- The bytes that a path segment stands for, if every percent sign begins an escape. -/
def decode : List Char → Option (List UInt8)
  | [] => some []
  | '%' :: a :: b :: rest => do
    let high ← Digits.value? 16 a
    let low ← Digits.value? 16 b
    let bytes ← decode rest
    return UInt8.ofNat (16 * high + low) :: bytes
  | c :: rest =>
    if c = '%' then none else (decode rest).map (String.utf8EncodeChar c ++ ·)

end RemoteSettings.Percent
