import RemoteSettings.Json.Basic
import RemoteSettings.Number.Spelling
import RemoteSettings.Text.Blank
import RemoteSettings.Yaml.Quoted

/-!
# YAML scalars without quotation marks

A plain scalar ends before a comment, before a colon that a blank follows, between brackets before a
bracket or a comma, and where a line is not indented enough.  It is a null, a truth value or a
number if it is spelled as one, and otherwise a text.

## Main definitions

* `Plain.read` — reads a plain scalar.
* `Plain.meaning` — what a plain scalar means.
* `Plain.isSafe` — whether a text may be written as a plain scalar.
-/

namespace RemoteSettings.Yaml.Plain

/-! ### Reading -/

/-- Whether a character is a bracket or a comma. -/
def isBracket (c : Char) : Bool := [',', '[', ']', '{', '}'].contains c

/-- The characters that mean something at the beginning of a scalar. -/
def indicators : List Char :=
  ['-', '?', ':', ',', '[', ']', '{', '}', '#', '&', '*', '!', '|', '>', '\x27', '"', '%', '@',
    '\x60']

/-- Whether a plain scalar comes next. -/
def begins (inBrackets : Bool) : List Char → Bool
  | [] => false
  | c :: rest =>
    !(isSpace c || indicators.contains c)
      || (c == '-' && !rest.head?.any isBlank)
      || (!inBrackets && (c == '?' || c == ':') && !endsWord rest.head?)

/-- The characters of a word.  Between brackets, no colon may stand before a bracket. -/
def word? (inBrackets : Bool) : List Char → Option (List Char)
  | [] => some []
  | c :: rest =>
    if isSpace c then some []
    else if inBrackets && c == ':' && rest.head?.any (fun d => isBracket d || d == '?') then none
    else if (c == ':' && endsWord rest.head?) || (inBrackets && isBracket c) then some []
    else (word? inBrackets rest).map (c :: ·)

/-- Reads words and gaps, a gap having been read; also says whether the scalar ends in a new
line. -/
def words (inBrackets : Bool) (indent : Nat) :
    Nat → Gap → Place → Option (List Char × Bool × Place)
  | 0, _, _ => none
  | fuel + 1, g, p =>
    if p.atDivider '-' || p.atDivider '.' || p.next? == some '#' then some ([], g.broken, p)
    else do
      let cs ← word? inBrackets p.rest
      let here := if cs.isEmpty then [] else g.text ++ cs
      let p := p.advance cs.length
      if !p.next?.any isSpace then some (here, cs.isEmpty && g.broken, p)
      else do
        let (g, p) ← Gap.read indent (p.rest.length + 1) {} p
        if !inBrackets && p.column < indent then some (here, g.broken, p)
        else do
          let (more, broken, p) ← words inBrackets indent fuel g p
          some (here ++ more, broken, p)

/-- Reads a plain scalar; also says whether it ends in a new line. -/
def read (inBrackets : Bool) (indent : Nat) (p : Place) : Option (List Char × Bool × Place) :=
  words inBrackets indent (p.rest.length + 1) {} p

/-! ### Meaning -/

/-- The spellings of null. -/
def nulls : List String := ["~", "null", "Null", "NULL"]

/-- The truth value that a text spells. -/
def bool? (s : List Char) : Option Bool :=
  [("true", true), ("True", true), ("TRUE", true),
    ("false", false), ("False", false), ("FALSE", false)].lookup (String.ofList s)

/-- The spellings of the numbers that are not finite. -/
def notFinite : List String :=
  [".inf", ".Inf", ".INF", "+.inf", "+.Inf", "+.INF", "-.inf", "-.Inf", "-.INF",
    ".nan", ".NaN", ".NAN"]

/-- The base that a number is written in, and its digits. -/
def based : List Char → Nat × List Char
  | '0' :: 'x' :: rest => (16, rest)
  | '0' :: 'o' :: rest => (8, rest)
  | '0' :: 'b' :: rest => (2, rest)
  | rest => (10, rest)

/-- Whether a text consists of digits, perhaps with a sign, and begins with a needless zero. -/
def isPadded (s : List Char) : Bool :=
  match (Spelling.sign s).2 with
  | '0' :: c :: rest => (c :: rest).all Char.isDigit
  | _ => false

/-- The whole number that a text spells, if it fits 128 bits. -/
def whole? (s : List Char) : Option Int := do
  let (negative, rest) := Spelling.sign s
  let (base, ds) := based rest
  let n ← if isPadded s then none else Spelling.natural? base ds
  if negative then (if n ≤ 1 <<< 127 then some (-n) else none)
  else if n < 1 <<< 128 then some n
  else none

/-- A whole number, rounded if it does not fit 64 bits. -/
def ofInt (n : Int) : Option Number :=
  match Whole.ofInt? n with
  | some w => some (.whole w)
  | none => (Binary64.ofCode? (n < 0) (Binary64.nearest n.natAbs 1)).map .real

/-- The number that a text spells with a point or an exponent, or without.  The numbers that are
not finite have a placeholder. -/
def real? (s : List Char) : Option Number :=
  if notFinite.contains (String.ofList s) then some .placeholder
  else ((Spelling.decimal? s).bind Literal.nearest?).map .real

/-- The number that a text spells. -/
def number? (s : List Char) : Option Number :=
  match (whole? s).bind ofInt with
  | some n => some n
  | none => if isPadded s then none else real? s

/-- What a plain scalar means. -/
def meaning (s : List Char) : Json :=
  if s.isEmpty || nulls.contains (String.ofList s) then .null
  else
    match bool? s with
    | some b => .bool b
    | none =>
      match number? s with
      | some n => .number n
      | none => .string (String.ofList s)

/-! ### Writing -/

/-- The words, in lower case, that some readers take for a null or a truth value. -/
def reserved : List String :=
  ["", "~", "null", "true", "false", "yes", "no", "on", "off", "y", "n"]

/-- The names, in lower case, of the numbers that are not finite. -/
def numberNames : List String := [".inf", ".nan", "inf", "infinity", "nan"]

/-- Whether some readers take a text for a number, of whatever size.  Underscores may stand among
the digits. -/
def looksNumeric (s : List Char) : Bool :=
  let s := s.filter (· != '_')
  let unsigned := (Spelling.sign s).2
  let (base, ds) := based unsigned
  (Spelling.decimal? s).isSome
    || numberNames.contains (String.ofList (unsigned.map Char.toLower))
    || (base ≠ 10 && ds.all fun c => (Digits.value? base c).isSome)

/-- Whether a colon stands before a space or at the end. -/
def hasOpenColon : List Char → Bool
  | [] => false
  | c :: rest => (c == ':' && rest.head?.all (· == ' ')) || hasOpenColon rest

/-- Whether a text may be written as a plain scalar.  Readers that take blanks at the ends away must
not take it for anything but a text. -/
def isSafe (s : List Char) : Bool :=
  let core := Blank.trim s
  !reserved.contains (String.ofList (core.map Char.toLower)) && !looksNumeric core
    && !s.head?.any (fun c => isBlank c || indicators.contains c)
    && !hasOpenColon s
    && !s.any (fun c => isBracket c || c == '#' || Quoted.isControl c)

end RemoteSettings.Yaml.Plain
