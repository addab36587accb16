/-!
# Text from bytes

Bytes that should be UTF-8 are read as a list of *symbols*: the characters that they encode, and
between them the stray bytes that encode none.  Stray bytes are grouped as the standard recommends,
a group being the longest beginning of a character's encoding that is broken off.

## Main definitions

* `Symbol` — a character or a group of stray bytes.
* `Symbol.ofBytes` — reads bytes as symbols.
* `Symbol.lossy` — the text with one replacement character for each stray group.
* `Symbol.chars?` — the text, if it has no stray bytes.
-/

namespace RemoteSettings

/-- A piece of a byte string that should be UTF-8. -/
inductive Symbol
  | char (c : Char)
  /-- So many bytes that encode no character. -/
  | stray (count : Nat)
  deriving DecidableEq, Repr, Inhabited

namespace Symbol

/-- The number of bytes of a symbol. -/
def size : Symbol → Nat
  | .char c => c.utf8Size
  | .stray n => n

/-- The number of bytes of a list of symbols. -/
def sizeAll (s : List Symbol) : Nat := s.foldr (fun x n => x.size + n) 0

/-- The symbols of a text: its characters. -/
def ofString (s : String) : List Symbol := s.toList.map .char

/-- The characters, if there are no stray bytes. -/
def chars? : List Symbol → Option (List Char)
  | [] => some []
  | .char c :: rest => (chars? rest).map (c :: ·)
  | .stray _ :: _ => none

/-- The text, with the replacement character in place of every stray group. -/
def lossy (s : List Symbol) : List Char :=
  s.map fun
    | .char c => c
    | .stray _ => '\uFFFD'

/-! ### Reading bytes -/

/-- A character whose encoding has begun. -/
structure Begun where
  /-- The bytes seen. -/
  seen : Nat
  /-- The continuation bytes still to come. -/
  owed : Nat
  /-- The bits collected. -/
  bits : Nat
  /-- The least byte that may come next. -/
  low : Nat
  /-- The greatest byte that may come next. -/
  high : Nat

/-- What a byte between characters begins: a whole character, a longer one, or nothing. -/
def first (b : Nat) : Symbol ⊕ Begun :=
  if b < 0x80 then .inl (.char (Char.ofNat b))
  else if 0xC2 ≤ b && b ≤ 0xDF then .inr ⟨1, 1, b - 0xC0, 0x80, 0xBF⟩
  else if b = 0xE0 then .inr ⟨1, 2, 0, 0xA0, 0xBF⟩
  else if b = 0xED then .inr ⟨1, 2, 0xD, 0x80, 0x9F⟩
  else if 0xE1 ≤ b && b ≤ 0xEF then .inr ⟨1, 2, b - 0xE0, 0x80, 0xBF⟩
  else if b = 0xF0 then .inr ⟨1, 3, 0, 0x90, 0xBF⟩
  else if 0xF1 ≤ b && b ≤ 0xF3 then .inr ⟨1, 3, b - 0xF0, 0x80, 0xBF⟩
  else if b = 0xF4 then .inr ⟨1, 3, 4, 0x80, 0x8F⟩
  else .inl (.stray 1)

/-- A continuation byte of a character that has begun. -/
def extend (p : Begun) (b : Nat) : Symbol ⊕ Begun :=
  let bits := p.bits * 64 + (b - 0x80)
  if p.owed ≤ 1 then .inl (.char (Char.ofNat bits))
  else .inr ⟨p.seen + 1, p.owed - 1, bits, 0x80, 0xBF⟩

/-- Reads bytes after a character may have begun. -/
def read : Option Begun → List UInt8 → List Symbol
  | none, [] => []
  | some p, [] => [.stray p.seen]
  | none, b :: rest =>
    match first b.toNat with
    | .inl s => s :: read none rest
    | .inr p => read (some p) rest
  | some p, b :: rest =>
    if p.low ≤ b.toNat && b.toNat ≤ p.high then
      match extend p b.toNat with
      | .inl s => s :: read none rest
      | .inr q => read (some q) rest
    else
      .stray p.seen ::
        match first b.toNat with
        | .inl s => s :: read none rest
        | .inr q => read (some q) rest

/-- Reads bytes as symbols. -/
def ofBytes (bytes : List UInt8) : List Symbol := read none bytes

end Symbol

end RemoteSettings
