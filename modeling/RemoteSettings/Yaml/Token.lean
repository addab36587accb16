import RemoteSettings.Yaml.Block
import RemoteSettings.Yaml.Plain

/-!
# YAML tokens

A text is cut into scalars and marks.  Indentation becomes marks as well: a collection begins where
a key or an item stands further to the right than before, and ends where something stands further to
the left.  That a scalar is a key is known only at the colon behind it; the marks for the key, and
for the mapping that it may begin, are then put in front of it.

## Main definitions

* `Token` — the pieces of a text.
* `Layout` — what is known of a text up to a place.
* `Layout.next` — reads one more token.
* `Token.ofText?` — the tokens of a text.
-/

namespace RemoteSettings.Yaml

/-- The pieces of a text. -/
inductive Token
  /-- A directive that says which version of YAML a document is written in. -/
  | version
  | documentStart
  | documentEnd
  /-- A sequence by indentation begins. -/
  | sequence
  /-- A mapping by indentation begins. -/
  | mapping
  /-- A collection by indentation ends. -/
  | dedent
  | openList
  | closeList
  | openMap
  | closeMap
  | comma
  | item
  | key
  | value
  | anchor (name : String)
  | alias (name : String)
  | tag (name : String)
  | scalar (text : String) (isPlain : Bool)
  deriving DecidableEq, Repr

/-- A place where a key may have begun. -/
structure PossibleKey where
  /-- The tokens before it. -/
  before : Nat
  place : Place
  /-- Whether nothing but a key may stand there. -/
  isNeeded : Bool

/-- What is known of a text up to a place. -/
structure Layout where
  place : Place
  /-- For each collection by indentation that is open, the innermost first, one more than the column
  where it began. -/
  levels : List Nat := []
  /-- Where a key may have begun: within the innermost brackets, within those around them, and so on
  up to outside all brackets. -/
  keys : List (Option PossibleKey) := [none]
  /-- Whether a key may begin. -/
  mayBegin : Bool := true
  /-- The tokens, the last first. -/
  tokens : List Token := []

namespace Layout

/-! ### Tokens, keys and levels -/

/-- Whether brackets are open. -/
def inBrackets (l : Layout) : Bool := 1 < l.keys.length

/-- One more than the column where the innermost collection by indentation began; zero if there is
none. -/
def level (l : Layout) : Nat := l.levels.headD 0

/-- Adds a token. -/
def push (t : Token) (l : Layout) : Layout := { l with tokens := t :: l.tokens }

/-- Puts a token behind a number of tokens. -/
def insert (before : Nat) (t : Token) (l : Layout) : Layout :=
  let after := l.tokens.length - before
  { l with tokens := l.tokens.take after ++ t :: l.tokens.drop after }

/-- Goes on behind a number of characters. -/
def advance (n : Nat) (l : Layout) : Layout := { l with place := l.place.advance n }

/-- Says whether a key may begin. -/
def allow (mayBegin : Bool) (l : Layout) : Layout := { l with mayBegin }

/-- Gives up a key that may have begun, unless it is needed. -/
def giveUp? : Option PossibleKey → Option (Option PossibleKey)
  | some k => if k.isNeeded then none else some none
  | none => some none

/-- Gives up the innermost key. -/
def dropKey? (l : Layout) : Option Layout :=
  match l.keys with
  | k :: keys => do return { l with keys := (← giveUp? k) :: keys }
  | [] => some l

/-- The greatest number of characters in a key. -/
def maxKeyLength : Nat := 1024

/-- Whether a key that began at a place can no longer end. -/
def isStale (p : Place) (k : PossibleKey) : Bool :=
  k.place.line < p.line || k.place.index + maxKeyLength < p.index

/-- Gives up the keys that can no longer end. -/
def dropStale? (l : Layout) : Option Layout := do
  let keys ← l.keys.mapM fun k => if k.any (isStale l.place) then giveUp? k else some k
  return { l with keys }

/-- Notes that a key may begin here, if it may. -/
def saveKey? (l : Layout) : Option Layout :=
  if l.mayBegin then do
    let l ← l.dropKey?
    -- Where a collection goes on in its own column, nothing but a key may stand.
    let isNeeded := !l.inBrackets && l.level == l.place.column + 1
    return { l with keys := some ⟨l.tokens.length, l.place, isNeeded⟩ :: l.keys.drop 1 }
  else some l

/-- Begins a collection at a column further to the right than before: puts its token behind a number
of tokens. -/
def indent (column before : Nat) (t : Token) (l : Layout) : Layout :=
  if !l.inBrackets && l.level < column + 1 then
    { l.insert before t with levels := (column + 1) :: l.levels }
  else l

/-- Ends the collections that began further to the right than a level. -/
def dedent (level : Nat) (l : Layout) : Layout :=
  if l.inBrackets then l
  else
    let closed := l.levels.takeWhile (level < ·)
    { l with
      levels := l.levels.drop closed.length
      tokens := List.replicate closed.length .dedent ++ l.tokens }

/-! ### What stands between tokens -/

/-- Passes over blanks, comments and line breaks.  A byte order mark may begin a line; a tab may
stand where a key may not begin. -/
def skip : Nat → Layout → Layout
  | 0, l => l
  | fuel + 1, l =>
    let p := l.place
    let p := if p.column == 0 && p.next? == some '\uFEFF' then p.step else p
    let p := p.skipWhile fun c => c == ' ' || ((l.inBrackets || !l.mayBegin) && c == '\t')
    let p := if p.next? == some '#' then p.skipWhile (!isBreak ·) else p
    if p.next?.any isBreak then
      skip fuel { l with place := p.step, mayBegin := l.mayBegin || !l.inBrackets }
    else { l with place := p }

/-! ### Names -/

/-- Whether a character may stand in a name. -/
def isNameChar (c : Char) : Bool := c.isAlphanum || c == '_' || c == '-'

/-- Whether a name ends before what comes next. -/
def endsName (c : Option Char) : Bool :=
  endsWord c || c.any fun c => ['?', ':', ',', ']', '}', '%', '@', '\x60'].contains c

/-- Reads the name of an anchor or an alias. -/
def name? (l : Layout) (token : String → Token) : Option Layout :=
  let name := (l.place.rest.drop 1).takeWhile isNameChar
  let after := l.advance (name.length + 1)
  if name.isEmpty || !endsName after.place.next? then none
  else some (after.push (token (String.ofList name)))

/-- The marks that may stand in a tag. -/
def tagMarks : List Char :=
  [';', '/', '?', ':', '@', '&', '=', '+', '$', '.', '!', '~', '*', '\x27', '(', ')']

/-- Whether a character may stand in a tag. -/
def isTagChar (c : Char) : Bool := isNameChar c || tagMarks.contains c

/-- What a tag with two exclamation marks in front stands for. -/
def coreTag (name : List Char) : List Char := "tag:yaml.org,2002:".toList ++ name

/-- The tag that a text begins with, and its length in the text. -/
def tag? : List Char → Option (List Char × Nat)
  | '!' :: '<' :: rest =>
    let isUsual (c : Char) : Bool := isTagChar c || [',', '[', ']'].contains c
    let name := rest.takeWhile isUsual
    if name.isEmpty || (rest.dropWhile isUsual).head? ≠ some '>' then none
    else some (name, name.length + 3)
  | '!' :: '!' :: rest =>
    let name := rest.takeWhile isTagChar
    if name.isEmpty then none else some (coreTag name, name.length + 2)
  | '!' :: rest =>
    let name := rest.takeWhile isTagChar
    if (rest.dropWhile isNameChar).head? == some '!' then none
    else some ('!' :: name, name.length + 1)
  | _ => none

/-- Reads a tag. -/
def tagToken? (l : Layout) : Option Layout := do
  let (name, length) ← tag? l.place.rest
  let l := l.advance length
  if endsWord l.place.next? || (l.inBrackets && l.place.next? == some ',') then
    some (l.push (.tag (String.ofList name)))
  else none

/-- Reads a directive, which must say that the version is one of those that are known. -/
def directive? (l : Layout) : Option Layout :=
  match l.place.rest with
  | '%' :: 'Y' :: 'A' :: 'M' :: 'L' :: c :: rest =>
    let version := rest.dropWhile isBlank
    if isBlank c && (version.take 3 == "1.1".toList || version.take 3 == "1.2".toList)
        && endsWord version[3]? then do
      let length := 6 + (rest.takeWhile isBlank).length + 3
      let place ← (l.place.advance length).lineEnd?
      return { l.push .version with place }
    else none
  | _ => none

/-! ### One token -/

/-- Reads an item's mark. -/
def item? (l : Layout) : Option Layout := do
  let l ←
    if l.inBrackets then some l
    else if l.mayBegin then some (l.indent l.place.column l.tokens.length .sequence)
    else none
  let l ← l.dropKey?
  return ((l.push .item).allow true).advance 1

/-- Reads a question mark before a key. -/
def keyMark? (l : Layout) : Option Layout := do
  let l ←
    if l.inBrackets then some l
    else if l.mayBegin then some (l.indent l.place.column l.tokens.length .mapping)
    else none
  let l ← l.dropKey?
  return ((l.push .key).allow (!l.inBrackets)).advance 1

/-- Reads a colon: what began where a key may have begun is a key. -/
def value? (l : Layout) : Option Layout :=
  match l.keys with
  | some k :: keys =>
    -- Only now is it known that this was a key, so its marks go in front of what was read of it.
    let l := ({ l with keys := none :: keys }.insert k.before .key).indent k.place.column k.before
      .mapping
    some (((l.push .value).allow false).advance 1)
  | _ => do
    let l ←
      if l.inBrackets then some l
      else if l.mayBegin then some (l.indent l.place.column l.tokens.length .mapping)
      else none
    return ((l.push .value).allow (!l.inBrackets)).advance 1

/-- Reads an opening bracket. -/
def openBracket? (t : Token) (l : Layout) : Option Layout := do
  let l ← l.saveKey?
  return (({ l with keys := none :: l.keys }.push t).allow true).advance 1

/-- Reads a closing bracket. -/
def closeBracket? (t : Token) (l : Layout) : Option Layout := do
  let l ← l.dropKey?
  let keys := if l.inBrackets then l.keys.drop 1 else l.keys
  return (({ l with keys }.push t).allow false).advance 1

/-- Reads a comma. -/
def comma? (l : Layout) : Option Layout := do
  let l ← l.dropKey?
  return ((l.push .comma).allow true).advance 1

/-- Reads three marks that divide documents or end one. -/
def divider? (t : Token) (l : Layout) : Option Layout := do
  let l ← (l.dedent 0).dropKey?
  return ((l.push t).allow false).advance 3

/-- Reads a scalar in quotation marks. -/
def quoted? (mark : Char) (l : Layout) : Option Layout := do
  let l ← l.saveKey?
  let (text, place) ← Quoted.read mark l.place.step
  return ({ l with place }.push (.scalar (String.ofList text) false)).allow false

/-- Reads a block scalar. -/
def block? (isLiteral : Bool) (l : Layout) : Option Layout := do
  let l ← l.dropKey?
  let (text, place) ← Block.read isLiteral l.level l.place.step
  return ({ l with place }.push (.scalar (String.ofList text) false)).allow true

/-- Reads a plain scalar. -/
def plain? (l : Layout) : Option Layout := do
  let l ← l.saveKey?
  let (text, broken, place) ← Plain.read l.inBrackets l.level l.place
  return ({ l with place }.push (.scalar (String.ofList text) true)).allow broken

/-- Reads the token that comes next. -/
def token? (l : Layout) : Option Layout :=
  let after := (l.place.rest.drop 1).head?
  -- Within brackets a mark needs no blank behind it.
  let isMark := l.inBrackets || endsWord after
  match l.place.next? with
  | none => none
  | some c =>
    if c == '%' && l.place.column == 0 then do
      directive? (← (l.dedent 0).dropKey?)
    else if l.place.atDivider '-' then l.divider? .documentStart
    else if l.place.atDivider '.' then l.divider? .documentEnd
    else if c == '[' then l.openBracket? .openList
    else if c == '{' then l.openBracket? .openMap
    else if c == ']' then l.closeBracket? .closeList
    else if c == '}' then l.closeBracket? .closeMap
    else if c == ',' then l.comma?
    else if c == '-' && endsWord after then l.item?
    else if c == '?' && isMark then l.keyMark?
    else if c == ':' && isMark then l.value?
    else if c == '*' then do ((← l.saveKey?).allow false).name? .alias
    else if c == '&' then do ((← l.saveKey?).allow false).name? .anchor
    else if c == '!' then do ((← l.saveKey?).allow false).tagToken?
    else if c == '|' && !l.inBrackets then l.block? true
    else if c == '>' && !l.inBrackets then l.block? false
    else if c == '\x27' || c == '"' then l.quoted? c
    else if Plain.begins l.inBrackets l.place.rest then l.plain?
    else none

/-- Reads one more token and what stands before it. -/
def next? (l : Layout) : Option Layout := do
  let l ← (l.skip (l.place.rest.length + 1)).dropStale?
  let l := l.dedent (l.place.column + 1)
  if l.place.rest.isEmpty then some l else l.token?

/-- Reads tokens up to the end of the text. -/
def readAll : Nat → Layout → Option Layout
  | 0, _ => none
  | fuel + 1, l => do
    let l ← l.next?
    if l.place.rest.isEmpty then do
      -- The end of the text ends all collections by indentation.
      let l ← l.next?
      (l.dedent 0).dropKey?
    else readAll fuel l

end Layout

/-- The tokens of a text. -/
def Token.ofText? (s : List Char) : Option (List Token) :=
  (Layout.readAll (s.length + 1) { place := { rest := s } }).map fun l => l.tokens.reverse

end RemoteSettings.Yaml
