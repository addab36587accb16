/-!
# Places in a YAML text

Indentation has a meaning, so readers keep track of lines and columns.  Line breaks are line feeds
by the time a text is read, or separators of lines or paragraphs.

## Main definitions

* `Place` — what follows a place in a text, and where the place is.
* `Gap` — the blanks and line breaks between two words of a scalar.
* `Gap.text` — what a gap stands for.
-/

namespace RemoteSettings.Yaml

/-! ### Characters -/

/-- Whether a character is a blank. -/
def isBlank (c : Char) : Bool := c == ' ' || c == '\t'

/-- Whether a character ends a line. -/
def isBreak (c : Char) : Bool := c == '\n' || c == '\u2028' || c == '\u2029'

/-- Whether a character is a blank or ends a line. -/
def isSpace (c : Char) : Bool := isBlank c || isBreak c

/-- Whether a word ends before what comes next, which may be nothing. -/
def endsWord (c : Option Char) : Bool := c.all isSpace

/-! ### Places -/

/-- What follows a place in a text, and where the place is. -/
structure Place where
  rest : List Char
  /-- The characters before the place. -/
  index : Nat := 0
  line : Nat := 0
  column : Nat := 0
  deriving Inhabited

namespace Place

/-- The next character. -/
def next? (p : Place) : Option Char := p.rest.head?

/-- The place behind the next character. -/
def step (p : Place) : Place :=
  match p.rest with
  | [] => p
  | c :: rest =>
    if isBreak c then ⟨rest, p.index + 1, p.line + 1, 0⟩
    else ⟨rest, p.index + 1, p.line, p.column + 1⟩

/-- The place behind a number of characters. -/
def advance : Nat → Place → Place
  | 0, p => p
  | n + 1, p => advance n p.step

/-- The place behind all characters of a kind that come next. -/
def skipWhile (test : Char → Bool) (p : Place) : Place := advance (p.rest.takeWhile test).length p

/-- Whether a line of three marks comes next, which divides documents or ends one. -/
def atDivider (mark : Char) (p : Place) : Bool :=
  p.column == 0 && p.rest.take 3 == [mark, mark, mark] && endsWord p.rest[3]?

/-- The place behind blanks, if nothing but a comment is left of the line. -/
def lineEnd? (p : Place) : Option Place :=
  let p := p.skipWhile isBlank
  let p := if p.next? == some '#' then p.skipWhile (!isBreak ·) else p
  if p.next?.all isBreak then some p.step else none

end Place

/-! ### Gaps -/

/-- The blanks and line breaks between two words of a scalar. -/
structure Gap where
  /-- The blanks before any line break. -/
  blanks : List Char := []
  /-- Whether the line has ended. -/
  broken : Bool := false
  /-- The first line break, unless it is to be ignored. -/
  first : Option Char := none
  /-- The further line breaks. -/
  more : List Char := []

namespace Gap

/-- Takes the next character of a gap into account. -/
def see (g : Gap) (c : Char) : Gap :=
  if isBreak c then
    if g.broken then { g with more := g.more ++ [c] }
    else { g with broken := true, first := some c }
  else if g.broken then g
  else { g with blanks := g.blanks ++ [c] }

/-- What a gap stands for: its blanks, or its line breaks but for one line feed, of which nothing
but a space is left if it was the only one. -/
def text (g : Gap) : List Char :=
  if g.broken then
    match g.first with
    | some '\n' => if g.more.isEmpty then [' '] else g.more
    | some c => c :: g.more
    | none => g.more
  else g.blanks

/-- Reads the rest of a gap, in which a tab may not stand for indentation. -/
def read (indent : Nat) : Nat → Gap → Place → Option (Gap × Place)
  | 0, _, _ => none
  | fuel + 1, g, p =>
    match p.next? with
    | none => some (g, p)
    | some c =>
      if g.broken && p.column < indent && c == '\t' then none
      else if isSpace c then read indent fuel (g.see c) p.step
      else some (g, p)

end Gap

end RemoteSettings.Yaml
