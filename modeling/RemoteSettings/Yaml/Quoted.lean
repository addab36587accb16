import RemoteSettings.Number.Spelling
import RemoteSettings.Yaml.Place

/-!
# YAML scalars in quotation marks

Between single quotation marks every character stands for itself, and a mark is written twice.
Between double ones a backslash begins an escape.  Lines are joined in both.

## Main definitions

* `Quoted.read` — reads a scalar behind its opening mark.
* `Quoted.write` — writes a text in double quotation marks.
-/

namespace RemoteSettings.Yaml.Quoted

/-! ### Reading -/

/-- The letters of the escapes that stand for one character. -/
def letters : List (Char × Char) :=
  [('0', '\x00'), ('a', '\x07'), ('b', '\x08'), ('t', '\t'), ('\t', '\t'), ('n', '\n'),
    ('v', '\x0b'), ('f', '\x0c'), ('r', '\r'), ('e', '\x1b'), (' ', ' '), ('"', '"'), ('/', '/'),
    ('\\', '\\'), ('N', '\u0085'), ('_', '\u00A0'), ('L', '\u2028'), ('P', '\u2029')]

/-- The letters of the escapes by number, with the count of digits that follow. -/
def numeric : List (Char × Nat) := [('x', 2), ('u', 4), ('U', 8)]

/-- The character that an escape stands for, and the length of the escape behind its backslash. -/
def escape? : List Char → Option (Char × Nat)
  | [] => none
  | c :: rest =>
    match numeric.lookup c with
    | some length => do
      let n ← if rest.length < length then none else Spelling.natural? 16 (rest.take length)
      if n.isValidChar then some (Char.ofNat n, length + 1) else none
    | none => (letters.lookup c).map fun d => (d, 1)

/-- Reads characters up to a gap or a closing mark.  A line break behind a backslash begins a gap
that stands for nothing. -/
def word (mark : Char) : Nat → Place → Option (List Char × Gap × Place)
  | 0, _ => none
  | fuel + 1, p =>
    match p.rest with
    | [] => some ([], {}, p)
    | c :: rest =>
      if isSpace c then some ([], {}, p)
      else if c == mark then
        if mark == '\x27' && rest.head? == some '\x27' then do
          let (cs, g, p) ← word mark fuel (p.advance 2)
          some ('\x27' :: cs, g, p)
        else some ([], {}, p)
      else if mark == '"' && c == '\\' then
        if rest.head?.any isBreak then some ([], { broken := true }, p.advance 2)
        else do
          let (d, length) ← escape? rest
          let (cs, g, p) ← word mark fuel (p.advance (length + 1))
          some (d :: cs, g, p)
      else do
        let (cs, g, p) ← word mark fuel p.step
        some (c :: cs, g, p)

/-- Reads words and gaps up to the closing mark. -/
def content (mark : Char) : Nat → Place → Option (List Char × Place)
  | 0, _ => none
  | fuel + 1, p =>
    if p.rest.isEmpty || p.atDivider '-' || p.atDivider '.' then none
    else do
      let (cs, g, p) ← word mark (p.rest.length + 1) p
      if p.next? == some mark then some (cs, p.step)
      else do
        let (g, p) ← g.read 0 (p.rest.length + 1) p
        let (more, p) ← content mark fuel p
        some (cs ++ g.text ++ more, p)

/-- Reads a scalar behind its opening mark. -/
def read (mark : Char) (p : Place) : Option (List Char × Place) :=
  content mark (p.rest.length + 1) p

/-! ### Writing -/

/-- Whether a character has no printed form. -/
def isControl (c : Char) : Bool := c.toNat < 0x20 || (0x7F ≤ c.toNat && c.toNat ≤ 0x9F)

/-- A number in base sixteen with at least a given number of digits. -/
def hex (width n : Nat) : List Char :=
  let ds := (Nat.toDigits 16 n).map Char.toUpper
  List.replicate (width - ds.length) '0' ++ ds

/-- The characters that are written with a letter of their own. -/
def named : List (Char × Char) :=
  [('"', '"'), ('\\', '\\'), ('\x00', '0'), ('\x07', 'a'), ('\x08', 'b'), ('\t', 't'), ('\n', 'n'),
    ('\x0b', 'v'), ('\x0c', 'f'), ('\r', 'r'), ('\x1b', 'e'), ('\u0085', 'N'), ('\u2028', 'L'),
    ('\u2029', 'P')]

/-- A character between quotation marks. -/
def writeChar (c : Char) : List Char :=
  match named.lookup c with
  | some letter => ['\\', letter]
  | none =>
    if c = '\uFEFF' then '\\' :: 'u' :: hex 4 c.toNat
    else if isControl c then '\\' :: 'x' :: hex 2 c.toNat
    else [c]

/-- Writes a text in double quotation marks. -/
def write (s : List Char) : List Char := '"' :: s.flatMap writeChar ++ ['"']

end RemoteSettings.Yaml.Quoted
