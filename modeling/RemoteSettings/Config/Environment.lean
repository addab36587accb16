import RemoteSettings.Config.Layer
import RemoteSettings.Number.Spelling
import RemoteSettings.Text.Blank

/-!
# Configuration from the environment

A variable whose name begins as ours do sets one field: the rest of the name is the way to the
field, with two underscores between the steps.  Values are typed when they look typed, and texts
otherwise.

## Main definitions

* `Environment.path?` — the way to the field that a variable sets.
* `Environment.value` — what a variable's value means.
* `Environment.layer` — what all variables say together.
-/

namespace RemoteSettings.Environment

/-! ### Names -/

/-- How the names of our variables begin, in any case. -/
def opening : List Char := "setting_options__".toList

/-- What is left of a text behind a given beginning, if it begins so in any case. -/
def behind? : List Char → List Char → Option (List Char)
  | [], s => some s
  | _ :: _, [] => none
  | c :: cs, x :: rest => if x.toLower = c then behind? cs rest else none

/-- The text with a point in place of every two underscores. -/
def dotted : List Char → List Char
  | '_' :: '_' :: rest => '.' :: dotted rest
  | c :: rest => c :: dotted rest
  | [] => []

/-- The pieces of a text between points. -/
def steps : List Char → List (List Char)
  | [] => [[]]
  | '.' :: rest => [] :: steps rest
  | c :: rest =>
    match steps rest with
    | [] => [[c]]
    | piece :: more => (c :: piece) :: more

/-- The way to the field that a variable sets, in lower case; `none` if the variable is not ours or
a step has no name. -/
def path? (name : String) : Option (List String) := do
  let rest ← behind? opening (Blank.trim name.toList)
  let pieces := steps (Blank.trim (dotted rest))
  if pieces.any List.isEmpty then none
  else some (pieces.map fun piece => String.ofList (piece.map Char.toLower))

/-! ### Values -/

/-- Whether a character may stand around a value. -/
def isBlank (c : Char) : Bool :=
  c == ' ' || c == '\t' || c == '\n' || c == '\r' || c == '\x0c'

/-- Skips blanks. -/
def skipBlanks (s : List Char) : List Char := s.dropWhile isBlank

/-- Whether a character may stand in a value without quotation marks. -/
def isPlain (c : Char) : Bool := c != ',' && c != '{' && c != '}' && c != '[' && c != ']'

/-- Whether a character may stand in a key without quotation marks. -/
def isKeyChar (c : Char) : Bool := c.isAlphanum || c == '_' || c == '-'

/-- The character that a one-letter escape stands for. -/
def plainEscape? : Char → Option Char
  | '"' => some '"'
  | '\\' => some '\\'
  | 'b' => some '\x08'
  | 'f' => some '\x0c'
  | 'n' => some '\n'
  | 'r' => some '\r'
  | 't' => some '\t'
  | _ => none

/-- The character with the code point that a number of digits in base sixteen denote. -/
def codePoint? (length : Nat) (s : List Char) : Option (Char × List Char) := do
  let n ← if s.length < length then none else Spelling.natural? 16 (s.take length)
  if n.isValidChar then some (Char.ofNat n, s.drop length) else none

/-- Reads what follows a backslash. -/
def escape? : List Char → Option (Char × List Char)
  | 'u' :: rest => codePoint? 4 rest
  | 'U' :: rest => codePoint? 8 rest
  | c :: rest => (plainEscape? c).map fun d => (d, rest)
  | [] => none

/-- Whether a character may stand between quotation marks without an escape. -/
def isWritten (c : Char) : Bool := c == '\t' || (0x20 ≤ c.toNat && c != '\x7f')

/-- Reads what is left of a quoted text from an escape or a character on, and its closing quotation
mark. -/
def content : Nat → List Char → Option (List Char × List Char)
  | 0, _ => none
  | _ + 1, [] => none
  | _ + 1, '"' :: rest => some ([], rest)
  | fuel + 1, '\\' :: rest => do
    let (c, rest) ← escape? rest
    let (more, rest) ← content fuel rest
    some (c :: more, rest)
  | fuel + 1, c :: rest =>
    if isWritten c then do
      let (more, rest) ← content fuel rest
      some (c :: more, rest)
    else none

/-- The characters that a number of bytes hold. -/
def fitting : Nat → List Char → List Char
  | _, [] => []
  | bytes, c :: rest =>
    if c.utf8Size ≤ bytes then c :: fitting (bytes - c.utf8Size) rest else []

/-- Reads a text behind its opening quotation mark.  Of what stands before the first escape, only as
many bytes are kept as it has characters. -/
def quoted (s : List Char) : Option (List Char × List Char) :=
  let isUsual (c : Char) : Bool := c != '"' && c != '\\'
  let start := s.takeWhile isUsual
  match s.dropWhile isUsual with
  | '\\' :: rest =>
    if start.all isWritten then
      (content (rest.length + 1) ('\\' :: rest)).map fun (more, rest) =>
        (fitting start.length start ++ more, rest)
    else none
  | _ => content s.length s

/-- Reads a key. -/
def key? : List Char → Option (String × List Char)
  | '"' :: rest => (quoted rest).map fun (cs, rest) => (String.ofList cs, rest)
  | s =>
    match s.takeWhile isKeyChar with
    | [] => none
    | c :: cs => some (String.ofList (c :: cs), s.dropWhile isKeyChar)

/-- A number with a point, as a value. -/
def pointed (l : Literal) : Json :=
  .number ((l.nearest?.map .real).getD .placeholder)

/-- What a text without quotation marks means: a number if it is spelled as one, else itself. -/
def plain (s : List Char) : Json :=
  match if s.contains '.' then Spelling.decimal? s else none with
  | some l => pointed l
  | none =>
    match Spelling.whole? s with
    | some n => .number (.whole n)
    | none => .string (String.ofList s)

mutual

/-- Reads a value and the blanks around it. -/
def read : Nat → List Char → Option (Json × List Char)
  | 0, _ => none
  | fuel + 1, s =>
    match skipBlanks s with
    | 't' :: 'r' :: 'u' :: 'e' :: rest => some (.bool true, skipBlanks rest)
    | 'f' :: 'a' :: 'l' :: 's' :: 'e' :: rest => some (.bool false, skipBlanks rest)
    | '{' :: rest => do
      let (fields, rest) ← fields fuel rest
      some (.object (Keyed.ofPairs fields), skipBlanks rest)
    | '[' :: rest => do
      let (items, rest) ← items fuel rest
      some (.array items, skipBlanks rest)
    | '"' :: rest => do
      let (cs, rest) ← quoted rest
      some (.string (String.ofList cs), skipBlanks rest)
    | '\x27' :: c :: '\x27' :: rest => some (.string (String.ofList [c]), skipBlanks rest)
    | '\x27' :: _ => none
    | s => some (plain (Blank.trim (s.takeWhile isPlain)), skipBlanks (s.dropWhile isPlain))

/-- Reads the items of a list up to its end. -/
def items : Nat → List Char → Option (List Json × List Char)
  | 0, _ => none
  | _ + 1, ']' :: rest => some ([], rest)
  | fuel + 1, s => do
    let (item, rest) ← read fuel s
    match rest with
    | ',' :: rest => do
      let (more, rest) ← items fuel rest
      some (item :: more, rest)
    | ']' :: rest => some ([item], rest)
    | _ => none

/-- Reads the fields of an object up to its end. -/
def fields : Nat → List Char → Option (List (String × Json) × List Char)
  | 0, _ => none
  | _ + 1, '}' :: rest => some ([], rest)
  | fuel + 1, s => do
    let (key, rest) ← key? (skipBlanks s)
    match skipBlanks rest with
    | '=' :: rest => do
      let (item, rest) ← read fuel rest
      match rest with
      | ',' :: rest => do
        let (more, rest) ← fields fuel rest
        some ((key, item) :: more, rest)
      | '}' :: rest => some ([(key, item)], rest)
      | _ => none
    | _ => none

end

/-- What a variable's value means; a value that cannot be read is a text as it stands. -/
def value (raw : String) : Json :=
  match read (2 * raw.length + 1) raw.toList with
  | some (j, []) => j
  | _ => .string raw

/-! ### The layer -/

/-- A layer that says one thing about one field. -/
def nest : List String → Json → Json
  | [], j => j
  | step :: rest, j => .object [(step, nest rest j)]

/-- What a variable says, given by its name and its value. -/
def saying? (entry : String × String) : Option Json :=
  (path? entry.1).map fun path => nest path (value entry.2)

/-- What all variables say together; of two that set the same field the later wins. -/
def layer (entries : List (String × String)) : Json :=
  (entries.filterMap saying?).foldl Json.overlay (.object [])

end RemoteSettings.Environment
