import RemoteSettings.Json.Basic
import RemoteSettings.Number.Literal
import RemoteSettings.Text.Symbol

/-!
# Reading JSON

The reader takes symbols from the front of its input and hands on the rest.  A *fault* says what is
wrong and how many bytes were left at that point, from which the line and the column follow.  The
recursion is on a supply of steps, of which twice the length of the input are always enough.

## Main definitions

* `SyntaxCause` — what can be wrong with a text.
* `Reader.value` — reads one value, of at most a given nesting.
* `Json.read` — reads a whole text.
* `Json.parse?` — reads a whole string, forgetting what is wrong.
-/

namespace RemoteSettings

/-- What is wrong with a text that is not JSON. -/
inductive SyntaxCause
  | endInValue
  | endInList
  | endInObject
  | endInString
  | expectedColon
  | expectedListEnd
  | expectedObjectEnd
  | expectedWord
  | expectedValue
  | badEscape
  | badNumber
  | numberTooLarge
  | badUtf8
  | controlCharacter
  | keyNotString
  | loneSurrogate
  | trailingComma
  | trailingCharacters
  | unpairedSurrogate
  | tooDeep
  deriving DecidableEq, Repr

/-- The words for what is wrong. -/
def SyntaxCause.message : SyntaxCause → String
  | .endInValue => "EOF while parsing a value"
  | .endInList => "EOF while parsing a list"
  | .endInObject => "EOF while parsing an object"
  | .endInString => "EOF while parsing a string"
  | .expectedColon => "expected `:`"
  | .expectedListEnd => "expected `,` or `]`"
  | .expectedObjectEnd => "expected `,` or `\x7d`"
  | .expectedWord => "expected ident"
  | .expectedValue => "expected value"
  | .badEscape => "invalid escape"
  | .badNumber => "invalid number"
  | .numberTooLarge => "number out of range"
  | .badUtf8 => "invalid unicode code point"
  | .controlCharacter => "control character (\\u0000-\\u001F) found while parsing a string"
  | .keyNotString => "key must be a string"
  | .loneSurrogate => "lone leading surrogate in hex escape"
  | .trailingComma => "trailing comma"
  | .trailingCharacters => "trailing characters"
  | .unpairedSurrogate => "unexpected end of hex escape"
  | .tooDeep => "recursion limit exceeded"

namespace Reader

/-- What is wrong, and the number of bytes from there to the end of the input. -/
structure Fault where
  cause : SyntaxCause
  left : Nat
  deriving DecidableEq, Repr

/-- A fault at the beginning of what is left. -/
def failAt {α : Type} (cause : SyntaxCause) (rest : List Symbol) : Except Fault α :=
  .error ⟨cause, Symbol.sizeAll rest⟩

/-- A fault after the next bytes of what is left, or at its end. -/
def failAfter {α : Type} (bytes : Nat) (cause : SyntaxCause) (rest : List Symbol) :
    Except Fault α :=
  .error ⟨cause, Symbol.sizeAll rest - bytes⟩

/-- A fault at the next character, which counts as seen. -/
def failPeek {α : Type} (cause : SyntaxCause) (rest : List Symbol) : Except Fault α :=
  failAfter 1 cause rest

/-- Whether a symbol may stand between tokens. -/
def isBlank : Symbol → Bool
  | .char c => c == ' ' || c == '\n' || c == '\t' || c == '\r'
  | .stray _ => false

/-- Skips blanks. -/
def skipBlanks (s : List Symbol) : List Symbol := s.dropWhile isBlank

/-! ### Words -/

/-- Reads the rest of a word. -/
def word : List Char → List Symbol → Except Fault (List Symbol)
  | [], s => .ok s
  | _ :: _, [] => failAt .endInValue []
  | c :: cs, x :: rest => if x = .char c then word cs rest else failPeek .expectedWord (x :: rest)

/-! ### Strings -/

/-- The number that four digits in base sixteen denote. -/
def fourHex? (a b c d : Char) : Option Nat :=
  ([a, b, c, d].mapM (Digits.value? 16)).map (Digits.toNat 16)

/-- Reads four digits in base sixteen. -/
def codeUnit (s : List Symbol) : Except Fault (Nat × List Symbol) :=
  -- The digits are looked at once there are four bytes; until then only the end can be wrong.
  let bad : Except Fault (Nat × List Symbol) :=
    if Symbol.sizeAll s < 4 then failAt .endInString [] else failAfter 4 .badEscape s
  match s with
  | .char a :: .char b :: .char c :: .char d :: rest =>
    match fourHex? a b c d with
    | some n => .ok (n, rest)
    | none => bad
  | _ => bad

/-- Reads the second half of a surrogate pair, and joins it with the first. -/
def lowSurrogate (high : Nat) : List Symbol → Except Fault (Char × List Symbol)
  | [] => failAt .endInString []
  | [.char '\\'] => failAt .endInString []
  | .char '\\' :: .char 'u' :: rest => do
    let (low, rest) ← codeUnit rest
    if low < 0xDC00 || 0xDFFF < low then failAt .loneSurrogate rest
    else .ok (Char.ofNat ((high - 0xD800) * 0x400 + (low - 0xDC00) + 0x10000), rest)
  | .char '\\' :: rest => failPeek .unpairedSurrogate rest
  | rest => failPeek .unpairedSurrogate rest

/-- Reads what follows a backslash and the letter u. -/
def unicodeEscape (s : List Symbol) : Except Fault (Char × List Symbol) := do
  let (n, rest) ← codeUnit s
  if 0xDC00 ≤ n && n ≤ 0xDFFF then failAt .loneSurrogate rest
  else if 0xD800 ≤ n && n ≤ 0xDBFF then lowSurrogate n rest
  else .ok (Char.ofNat n, rest)

/-- The character that a one-letter escape stands for. -/
def plainEscape? : Char → Option Char
  | '"' => some '"'
  | '\\' => some '\\'
  | '/' => some '/'
  | 'b' => some '\x08'
  | 'f' => some '\x0c'
  | 'n' => some '\n'
  | 'r' => some '\r'
  | 't' => some '\t'
  | _ => none

/-- Reads what follows a backslash. -/
def escape : List Symbol → Except Fault (Char × List Symbol)
  | [] => failAt .endInString []
  | .char 'u' :: rest => unicodeEscape rest
  | .char c :: rest =>
    match plainEscape? c with
    | some d => .ok (d, rest)
    | none => failPeek .badEscape (.char c :: rest)
  | rest => failPeek .badEscape rest

/-- Reads the content of a string and its closing quotation mark. -/
def content : Nat → List Symbol → Except Fault (List Symbol × List Symbol)
  | 0, _ => failAt .endInString []
  | _ + 1, [] => failAt .endInString []
  | _ + 1, .char '"' :: rest => .ok ([], rest)
  | n + 1, .char '\\' :: rest => do
    let (c, rest) ← escape rest
    let (more, rest) ← content n rest
    .ok (.char c :: more, rest)
  | n + 1, x :: rest =>
    match x with
    | .char c =>
      if c.toNat < 0x20 then failPeek .controlCharacter (x :: rest)
      else do
        let (more, rest) ← content n rest
        .ok (x :: more, rest)
    | .stray _ => do
      let (more, rest) ← content n rest
      .ok (x :: more, rest)

/-- Reads a string after its opening quotation mark.  Stray bytes in it are noticed at its end. -/
def string (s : List Symbol) : Except Fault (String × List Symbol) := do
  let (symbols, rest) ← content s.length s
  match Symbol.chars? symbols with
  | some cs => .ok (String.ofList cs, rest)
  | none => failAt .badUtf8 rest

/-! ### Numbers -/

/-- The value of a decimal digit. -/
def digit? : Symbol → Option Nat
  | .char c => Digits.value? 10 c
  | .stray _ => none

/-- The digits that the input begins with, and the rest. -/
def digits : List Symbol → List Nat × List Symbol
  | [] => ([], [])
  | x :: rest =>
    match digit? x with
    | some d =>
      let (ds, rest) := digits rest
      (d :: ds, rest)
    | none => ([], x :: rest)

/-- Reads the integer part of a number: a zero, or digits that begin with another. -/
def integerPart (s : List Symbol) : Except Fault (List Nat × List Symbol) :=
  match digits s with
  | ([], []) => failAt .endInValue []
  | ([], rest) => failPeek .badNumber rest
  -- No digit may follow a zero; it has been seen when it is complained about.
  | (0 :: _ :: _, _) => failAfter 2 .badNumber s
  | (ds, rest) => .ok (ds, rest)

/-- Reads the fraction, if a point follows. -/
def fractionPart : List Symbol → Except Fault (List Nat × List Symbol)
  | .char '.' :: rest =>
    match digits rest with
    | ([], []) => failAt .endInValue []
    | ([], rest) => failPeek .badNumber rest
    | (ds, rest) => .ok (ds, rest)
  | rest => .ok ([], rest)

/-- Reads an exponent's sign. -/
def exponentSign : List Symbol → Bool × List Symbol
  | .char '+' :: rest => (false, rest)
  | .char '-' :: rest => (true, rest)
  | rest => (false, rest)

/-- Whether the input begins with an exponent's letter. -/
def isExponentMark : Symbol → Bool
  | .char c => c == 'e' || c == 'E'
  | .stray _ => false

/-- Reads the exponent, if its letter follows. -/
def exponentPart : List Symbol → Except Fault (Option (Bool × List Nat) × List Symbol)
  | [] => .ok (none, [])
  | x :: rest =>
    if isExponentMark x then
      let (negative, rest) := exponentSign rest
      match digits rest with
      | ([], []) => failAt .endInValue []
      | ([], rest) => failPeek .badNumber rest
      | (ds, rest) => .ok (some (negative, ds), rest)
    else .ok (none, x :: rest)

/-- The exponent's digits that stand after the first to exceed 31 bits. -/
def unreadDigits (l : Literal) : Nat :=
  match l.exponent with
  | none => 0
  | some (_, ds) => ds.length - ((Literal.absorb (1 <<< 31 - 1) 0 ds).2 + 1)

/-- Reads a number after its minus sign, if it has one. -/
def number (negative : Bool) (s : List Symbol) : Except Fault (Number × List Symbol) := do
  let (integer, rest) ← integerPart s
  let (fraction, rest) ← fractionPart rest
  let (exponent, rest) ← exponentPart rest
  let literal : Literal := ⟨negative, integer, fraction, exponent⟩
  match literal.toNumber? with
  | some n => .ok (n, rest)
  | none => .error ⟨.numberTooLarge, Symbol.sizeAll rest + unreadDigits literal⟩

/-! ### Values -/

/-- Reads the colon between a key and its value. -/
def colon (s : List Symbol) : Except Fault (List Symbol) :=
  match skipBlanks s with
  | [] => failAt .endInObject []
  | .char ':' :: rest => .ok rest
  | rest => failPeek .expectedColon rest

mutual

/-- Reads a value in which arrays and objects nest at most `depth` deep. -/
def value : Nat → Nat → List Symbol → Except Fault (Json × List Symbol)
  | 0, _, s => failPeek .tooDeep s
  | fuel + 1, depth, s =>
    match skipBlanks s with
    | [] => failAt .endInValue []
    | .char 'n' :: rest => do
      let rest ← word ['u', 'l', 'l'] rest
      .ok (.null, rest)
    | .char 't' :: rest => do
      let rest ← word ['r', 'u', 'e'] rest
      .ok (.bool true, rest)
    | .char 'f' :: rest => do
      let rest ← word ['a', 'l', 's', 'e'] rest
      .ok (.bool false, rest)
    | .char '"' :: rest => do
      let (s, rest) ← string rest
      .ok (.string s, rest)
    | .char '-' :: rest => do
      let (n, rest) ← number true rest
      .ok (.number n, rest)
    | .char '[' :: rest =>
      match depth with
      | 0 => failPeek .tooDeep (.char '[' :: rest)
      | depth + 1 =>
        match skipBlanks rest with
        | [] => failAt .endInList []
        | .char ']' :: rest => .ok (.array [], rest)
        | rest => do
          let (items, rest) ← items fuel depth rest
          .ok (.array items, rest)
    | .char '{' :: rest =>
      match depth with
      | 0 => failPeek .tooDeep (.char '{' :: rest)
      | depth + 1 =>
        match skipBlanks rest with
        | [] => failAt .endInObject []
        | .char '}' :: rest => .ok (.object [], rest)
        | .char '"' :: rest => do
          let (members, rest) ← members fuel depth rest
          -- A key that comes again keeps its place and takes the later value.
          .ok (.object (Keyed.ofPairs members), rest)
        | rest => failPeek .keyNotString rest
    | x :: rest =>
      if (digit? x).isSome then do
        let (n, rest) ← number false (x :: rest)
        .ok (.number n, rest)
      else failPeek .expectedValue (x :: rest)

/-- Reads the items of an array up to its end; at least one is to come. -/
def items : Nat → Nat → List Symbol → Except Fault (List Json × List Symbol)
  | 0, _, s => failPeek .tooDeep s
  | fuel + 1, depth, s => do
    let (item, rest) ← value fuel depth s
    match skipBlanks rest with
    | [] => failAt .endInList []
    | .char ']' :: rest => .ok ([item], rest)
    | .char ',' :: rest =>
      match skipBlanks rest with
      | [] => failAt .endInValue []
      | .char ']' :: rest => failPeek .trailingComma (.char ']' :: rest)
      | rest => do
        let (more, rest) ← items fuel depth rest
        .ok (item :: more, rest)
    | rest => failPeek .expectedListEnd rest

/-- Reads the members of an object up to its end; the first key's quotation mark has been read. -/
def members : Nat → Nat → List Symbol → Except Fault (List (String × Json) × List Symbol)
  | 0, _, s => failPeek .tooDeep s
  | fuel + 1, depth, s => do
    let (key, rest) ← string s
    let rest ← colon rest
    let (item, rest) ← value fuel depth rest
    match skipBlanks rest with
    | [] => failAt .endInObject []
    | .char '}' :: rest => .ok ([(key, item)], rest)
    | .char ',' :: rest =>
      match skipBlanks rest with
      | [] => failAt .endInValue []
      | .char '}' :: rest => failPeek .trailingComma (.char '}' :: rest)
      | .char '"' :: rest => do
        let (more, rest) ← members fuel depth rest
        .ok ((key, item) :: more, rest)
      | rest => failPeek .keyNotString rest
    | rest => failPeek .expectedObjectEnd rest

end

/-- Checks that nothing but blanks is left. -/
def finish (s : List Symbol) : Except Fault Unit :=
  match skipBlanks s with
  | [] => .ok ()
  | rest => failPeek .trailingCharacters rest

end Reader

/-- What is wrong with a text that is not JSON, and where. -/
structure SyntaxError where
  cause : SyntaxCause
  line : Nat
  column : Nat
  deriving DecidableEq, Repr

namespace SyntaxError

/-- The words for a syntax error. -/
def message (e : SyntaxError) : String :=
  e.cause.message ++ " at line " ++ toString e.line ++ " column " ++ toString e.column

/-- The line and the column that a number of bytes leads to, from a given line and column. -/
def position (line column : Nat) : Nat → List Symbol → Nat × Nat
  | _, [] => (line, column)
  | bytes, x :: rest =>
    if bytes = 0 then (line, column)
    else if x = .char '\n' then position (line + 1) 0 (bytes - 1) rest
    else if bytes < x.size then (line, column + bytes)
    else position line (column + x.size) (bytes - x.size) rest

/-- Places a fault in the text that was read. -/
def ofFault (s : List Symbol) (f : Reader.Fault) : SyntaxError :=
  let (line, column) := position 1 0 (Symbol.sizeAll s - f.left) s
  ⟨f.cause, line, column⟩

end SyntaxError

namespace Json

/-- How deep arrays and objects may nest. -/
def maxDepth : Nat := 127

/-- Reads a whole text as one value. -/
def read (s : List Symbol) : Except SyntaxError Json :=
  -- At least every second step takes a symbol away, so there are steps enough.
  let result := do
    let (value, rest) ← Reader.value (2 * s.length + 1) maxDepth s
    Reader.finish rest
    pure value
  result.mapError (SyntaxError.ofFault s)

/-- Reads a whole string as one value. -/
def parse (s : String) : Except SyntaxError Json := read (Symbol.ofString s)

/-- Reads a whole string as one value, forgetting what is wrong. -/
def parse? (s : String) : Option Json := (parse s).toOption

end Json

end RemoteSettings
