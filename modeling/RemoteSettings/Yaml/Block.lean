import RemoteSettings.Number.Digits
import RemoteSettings.Yaml.Place

/-!
# YAML block scalars

A block scalar is indented more than what it belongs to.  A literal one keeps its lines, in a folded
one lines are joined.  Its head says what becomes of the line breaks at its end.

## Main definitions

* `Ending` — what becomes of the line breaks at the end.
* `Block.read` — reads a block scalar behind its mark.
* `Block.literal` — the head and the lines of a literal scalar.
* `Block.folded` — the head and the lines of a folded scalar.
-/

namespace RemoteSettings.Yaml

/-- What becomes of the line breaks at the end of a block scalar. -/
inductive Ending
  | dropAll
  | keepOne
  | keepAll
  deriving DecidableEq

/-- The ending that a character asks for. -/
def Ending.ofChar? : Option Char → Option Ending
  | some '-' => some .dropAll
  | some '+' => some .keepAll
  | _ => none

/-- How an ending is written. -/
def Ending.text : Ending → List Char
  | .dropAll => ['-']
  | .keepOne => []
  | .keepAll => ['+']

/-- The ending that keeps a number of line breaks. -/
def Ending.keeping : Nat → Ending
  | 0 => .dropAll
  | 1 => .keepOne
  | _ => .keepAll

namespace Block

/-! ### Reading -/

/-- An indentation that a head asks for; zero is none. -/
def digit? (c : Option Char) : Option Nat := c.bind (Digits.value? 10)

/-- Reads the ending and the indentation that a head asks for, in either order. -/
def head? (p : Place) : Option (Ending × Option Nat × Place) :=
  match Ending.ofChar? p.next? with
  | some ending =>
    match digit? p.step.next? with
    | some n => if n = 0 then none else some (ending, some n, p.advance 2)
    | none => some (ending, none, p.step)
  | none =>
    match digit? p.next? with
    | some n =>
      if n = 0 then none
      else
        match Ending.ofChar? p.step.next? with
        | some ending => some (ending, some n, p.advance 2)
        | none => some (.keepOne, some n, p.step)
    | none => some (.keepOne, none, p)

/-- Reads line breaks, and spaces as far as they are indentation; also says how far a line was
indented at most.  A tab may not stand where a space would be indentation. -/
def breaks (indent : Option Nat) : Nat → Nat → Place → Option (List Char × Nat × Place)
  | 0, _, _ => none
  | fuel + 1, most, p =>
    let spaces := (p.rest.takeWhile (· == ' ')).length
    let p := p.advance (match indent with
      | some n => min spaces (n - p.column)
      | none => spaces)
    let most := max most p.column
    match p.next? with
    | some c =>
      if c == '\t' && indent.all (p.column < ·) then none
      else if isBreak c then do
        let (cs, most, p) ← breaks indent fuel most p.step
        some (c :: cs, most, p)
      else some ([], most, p)
    | none => some ([], most, p)

/-- What stands between two lines of a scalar: the break that ended the line, the breaks of empty
lines, and whether the line began with a blank. -/
structure Seam where
  first : List Char := []
  more : List Char := []
  indented : Bool := false

/-- What a seam stands for before a line that begins with a blank or does not. -/
def Seam.text (isLiteral indented : Bool) (s : Seam) : List Char :=
  if !isLiteral && s.first == ['\n'] && !s.indented && !indented then
    if s.more.isEmpty then [' '] else s.more
  else s.first ++ s.more

/-- Reads the lines of a scalar; also gives what follows the last one. -/
def lines (isLiteral : Bool) (indent : Nat) :
    Nat → Seam → Place → Option (List Char × Seam × Place)
  | 0, _, _ => none
  | fuel + 1, seam, p =>
    if p.column ≠ indent || p.rest.isEmpty then some ([], seam, p)
    else do
      let indented := p.next?.any isBlank
      let line := p.rest.takeWhile (!isBreak ·)
      let p := p.advance line.length
      let first := p.next?.toList
      let (more, _, p) ← breaks (some indent) (p.rest.length + 1) 0 p.step
      let (rest, last, p) ← lines isLiteral indent fuel ⟨first, more, indented⟩ p
      some (seam.text isLiteral indented ++ line ++ rest, last, p)

/-- Reads a block scalar behind its mark.  Its indentation is the one asked for, counted from that
of the collection it belongs to, or that of its first line. -/
def read (isLiteral : Bool) (outer : Nat) (p : Place) : Option (List Char × Place) := do
  let (ending, asked, p) ← head? p
  let p ← p.lineEnd?
  let indent := asked.map (outer - 1 + ·)
  let (empty, most, p) ← breaks indent (p.rest.length + 1) 0 p
  let indent := indent.getD (max most (max outer 1))
  let (text, last, p) ← lines isLiteral indent (p.rest.length + 1) ⟨[], empty, false⟩ p
  let kept := match ending with
    | .dropAll => []
    | .keepOne => last.first
    | .keepAll => last.first ++ last.more
  some (text ++ kept, p)

/-! ### Writing -/

/-- The lines of a text, of which there is at least one. -/
def splitLines : List Char → List (List Char)
  | [] => [[]]
  | '\n' :: rest => [] :: splitLines rest
  | c :: rest =>
    match splitLines rest with
    | [] => [[c]]
    | line :: more => (c :: line) :: more

/-- The text without the line feeds at its end. -/
def body (s : List Char) : List Char := (s.reverse.dropWhile (· == '\n')).reverse

/-- The head and the lines of a literal scalar. -/
def literal (s : List Char) : List Char × List (List Char) :=
  let breaks := s.length - (body s).length
  ('|' :: (Ending.keeping breaks).text,
    splitLines (body s) ++ List.replicate (breaks - 1) [])

/-- Breaks a line at spaces so that no line is longer than it must be.  What is before the last
space of the line in the making is held apart from the word behind it. -/
def wrap (width : Nat) : Option (List Char) → List Char → List Char → List (List Char)
  | none, word, [] => if word.isEmpty then [] else [word]
  | some held, word, [] => [held ++ ' ' :: word]
  | held, word, c :: rest =>
    let (held, word) :=
      if c == ' ' then (some (held.elim word (· ++ ' ' :: word)), []) else (held, word ++ [c])
    match held with
    | some line =>
      if width < line.length + 1 + word.length then line :: wrap width none word rest
      else wrap width (some line) word rest
    | none => wrap width none word rest

/-- The head and the lines of a folded scalar, for a text without line breaks. -/
def folded (width : Nat) (s : List Char) : List Char × List (List Char) :=
  ('>' :: Ending.dropAll.text, wrap width none [] s)

end Block

end RemoteSettings.Yaml
