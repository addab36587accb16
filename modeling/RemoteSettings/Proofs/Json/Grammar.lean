import RemoteSettings.Json.Reader

/-!
# What JSON text is

The grammar of JSON says which texts are JSON, and of which *tree* each of them is the text.  A tree
is not yet a value: its numbers may be too large, its strings may hold bytes or halves of surrogate
pairs that make no character, and it may nest too deep.  If there is none of that, it means a value.

The relations lead from a text to what is left of it, so that nothing has to be said about how texts
are put together.

## Main definitions

* `Grammar.Piece`, `Grammar.Tree` — what strings and texts consist of.
* `Grammar.Content`, `Grammar.Magnitude`, `Grammar.Spells` — **the grammar** of strings, of numbers
  and of values with their items and members.
* `Grammar.chars?`, `Grammar.Tree.json?` — what strings and trees mean, if they mean something.
* `Grammar.Document` — a whole text with blanks around it.
-/

namespace RemoteSettings.Grammar

/-! ### Strings -/

/-- What a string is made of. -/
inductive Piece
  | char (c : Char)
  /-- Bytes that encode no character. -/
  | stray
  /-- A code unit of 16 bits, as an escape gives it. -/
  | unit (n : Nat)
  deriving DecidableEq

/-- A text begins with these pieces and a quotation mark. -/
inductive Content : List Piece → List Symbol → List Symbol → Prop
  | close (rest : List Symbol) : Content [] (.char '"' :: rest) rest
  | char {c : Char} {ps : List Piece} {s rest : List Symbol} (quote : c ≠ '"')
    (backslash : c ≠ '\\') (control : 0x20 ≤ c.toNat) (more : Content ps s rest) :
    Content (.char c :: ps) (.char c :: s) rest
  | stray (n : Nat) {ps : List Piece} {s rest : List Symbol} (more : Content ps s rest) :
    Content (.stray :: ps) (.stray n :: s) rest
  | escape {c d : Char} {ps : List Piece} {s rest : List Symbol}
    (letter : Reader.plainEscape? c = some d) (more : Content ps s rest) :
    Content (.char d :: ps) (.char '\\' :: .char c :: s) rest
  | unit {a b c d : Char} {n : Nat} {ps : List Piece} {s rest : List Symbol}
    (digits : Reader.fourHex? a b c d = some n) (more : Content ps s rest) :
    Content (.unit n :: ps)
      (.char '\\' :: .char 'u' :: .char a :: .char b :: .char c :: .char d :: s) rest

/-- Whether a code unit is the first half of a surrogate pair. -/
def isHigh (n : Nat) : Bool := 0xD800 ≤ n && n ≤ 0xDBFF

/-- Whether a code unit is the second half of a surrogate pair. -/
def isLow (n : Nat) : Bool := 0xDC00 ≤ n && n ≤ 0xDFFF

/-- The character that the halves of a surrogate pair make. -/
def joined (high low : Nat) : Char :=
  Char.ofNat ((high - 0xD800) * 0x400 + (low - 0xDC00) + 0x10000)

/-- The characters that pieces make: no bytes are stray, and each half of a surrogate pair stands
next to the other. -/
def chars? : List Piece → Option (List Char)
  | [] => some []
  | .char c :: ps => (chars? ps).map (c :: ·)
  | .stray :: _ => none
  | .unit n :: ps =>
    if isLow n then none
    else if isHigh n then
      match ps with
      | .unit m :: ps => if isLow m then (chars? ps).map (joined n m :: ·) else none
      | _ => none
    else (chars? ps).map (Char.ofNat n :: ·)

/-! ### Numbers -/

/-- A text begins with these digits. -/
inductive Run : List Nat → List Symbol → List Symbol → Prop
  | nil (s : List Symbol) : Run [] s s
  | cons {x : Symbol} {d : Nat} {ds : List Nat} {s rest : List Symbol}
    (digit : Reader.digit? x = some d) (more : Run ds s rest) : Run (d :: ds) (x :: s) rest

/-- A text begins with a point and these digits, or with none. -/
inductive Fraction : List Nat → List Symbol → List Symbol → Prop
  | absent (s : List Symbol) : Fraction [] s s
  | present {ds : List Nat} {s rest : List Symbol} (nonempty : ds ≠ []) (digits : Run ds s rest) :
    Fraction ds (.char '.' :: s) rest

/-- A text begins with the sign of an exponent, which may be missing. -/
inductive Sign : Bool → List Symbol → List Symbol → Prop
  | absent (s : List Symbol) : Sign false s s
  | plus (s : List Symbol) : Sign false (.char '+' :: s) s
  | minus (s : List Symbol) : Sign true (.char '-' :: s) s

/-- A text begins with an exponent, or with none. -/
inductive Exponent : Option (Bool × List Nat) → List Symbol → List Symbol → Prop
  | absent (s : List Symbol) : Exponent none s s
  | present {x : Symbol} {negative : Bool} {ds : List Nat} {s t rest : List Symbol}
    (mark : Reader.isExponentMark x = true) (sign : Sign negative s t) (nonempty : ds ≠ [])
    (digits : Run ds t rest) : Exponent (some (negative, ds)) (x :: s) rest

/-- A text begins with a number but for its sign.  No zero stands in front of another digit. -/
structure Magnitude (l : Literal) (s rest : List Symbol) : Prop where
  exists_parts : ∃ t u, Run l.integer s t ∧ Fraction l.fraction t u ∧ Exponent l.exponent u rest
  nonempty : l.integer ≠ []
  lead : l.integer.head? = some 0 → l.integer = [0]

/-! ### Values -/

/-- What a text is the text of. -/
inductive Tree
  | null
  | bool (b : Bool)
  | number (l : Literal)
  | string (ps : List Piece)
  | array (ts : List Tree)
  | object (ms : List (List Piece × Tree))

/-- What a part of a text is the text of. -/
inductive Phrase
  | value (t : Tree)
  /-- The items of an array up to its end. -/
  | items (ts : List Tree)
  /-- The members of an object up to its end, but for the first quotation mark. -/
  | members (ms : List (List Piece × Tree))

/-- Only blanks stand between two places of a text. -/
def Blanks (s rest : List Symbol) : Prop :=
  ∃ blanks, (∀ x ∈ blanks, Reader.isBlank x = true) ∧ s = blanks ++ rest

/-- A text begins with a phrase. -/
inductive Spells : Phrase → List Symbol → List Symbol → Prop
  | nullWord (rest : List Symbol) :
    Spells (.value .null) (['n', 'u', 'l', 'l'].map .char ++ rest) rest
  | trueWord (rest : List Symbol) :
    Spells (.value (.bool true)) (['t', 'r', 'u', 'e'].map .char ++ rest) rest
  | falseWord (rest : List Symbol) :
    Spells (.value (.bool false)) (['f', 'a', 'l', 's', 'e'].map .char ++ rest) rest
  | string {ps : List Piece} {s rest : List Symbol} (content : Content ps s rest) :
    Spells (.value (.string ps)) (.char '"' :: s) rest
  | negative {l : Literal} {s rest : List Symbol} (sign : l.negative = true)
    (magnitude : Magnitude l s rest) : Spells (.value (.number l)) (.char '-' :: s) rest
  | positive {l : Literal} {s rest : List Symbol} (sign : l.negative = false)
    (magnitude : Magnitude l s rest) : Spells (.value (.number l)) s rest
  | emptyArray {s rest : List Symbol} (close : Blanks s (.char ']' :: rest)) :
    Spells (.value (.array [])) (.char '[' :: s) rest
  | array {ts : List Tree} {s rest : List Symbol} (items : Spells (.items ts) s rest) :
    Spells (.value (.array ts)) (.char '[' :: s) rest
  | emptyObject {s rest : List Symbol} (close : Blanks s (.char '}' :: rest)) :
    Spells (.value (.object [])) (.char '{' :: s) rest
  | object {ms : List (List Piece × Tree)} {s s₁ rest : List Symbol}
    (quote : Blanks s (.char '"' :: s₁)) (members : Spells (.members ms) s₁ rest) :
    Spells (.value (.object ms)) (.char '{' :: s) rest
  | lastItem {t : Tree} {s s₁ s₂ rest : List Symbol} (blanks : Blanks s s₁)
    (value : Spells (.value t) s₁ s₂) (close : Blanks s₂ (.char ']' :: rest)) :
    Spells (.items [t]) s rest
  | item {t : Tree} {ts : List Tree} {s s₁ s₂ s₃ rest : List Symbol} (blanks : Blanks s s₁)
    (value : Spells (.value t) s₁ s₂) (comma : Blanks s₂ (.char ',' :: s₃))
    (more : Spells (.items ts) s₃ rest) : Spells (.items (t :: ts)) s rest
  | lastMember {ps : List Piece} {t : Tree} {s s₁ s₂ s₃ s₄ rest : List Symbol}
    (key : Content ps s s₁) (colon : Blanks s₁ (.char ':' :: s₂)) (blanks : Blanks s₂ s₃)
    (value : Spells (.value t) s₃ s₄) (close : Blanks s₄ (.char '}' :: rest)) :
    Spells (.members [(ps, t)]) s rest
  | member {ps : List Piece} {t : Tree} {ms : List (List Piece × Tree)}
    {s s₁ s₂ s₃ s₄ s₅ s₆ rest : List Symbol} (key : Content ps s s₁)
    (colon : Blanks s₁ (.char ':' :: s₂)) (blanks : Blanks s₂ s₃)
    (value : Spells (.value t) s₃ s₄) (comma : Blanks s₄ (.char ',' :: s₅))
    (quote : Blanks s₅ (.char '"' :: s₆)) (more : Spells (.members ms) s₆ rest) :
    Spells (.members ((ps, t) :: ms)) s rest

mutual

/-- The value that a tree means in which arrays and objects nest at most `depth` deep: its numbers
are not too large, and its strings and names make characters.  A name that comes again keeps its
place and takes the later value. -/
def Tree.json? (depth : Nat) : Tree → Option Json
  | .null => some .null
  | .bool b => some (.bool b)
  | .number l => l.toNumber?.map .number
  | .string ps => (chars? ps).map fun cs => .string (String.ofList cs)
  | .array ts =>
    match depth with
    | 0 => none
    | depth + 1 => (jsons? depth ts).map .array
  | .object ms =>
    match depth with
    | 0 => none
    | depth + 1 => (members? depth ms).map fun es => .object (Keyed.ofPairs es)

/-- The values that trees mean. -/
def jsons? (depth : Nat) : List Tree → Option (List Json)
  | [] => some []
  | t :: ts => do
    let j ← t.json? depth
    let js ← jsons? depth ts
    some (j :: js)

/-- The names and values that members mean. -/
def members? (depth : Nat) : List (List Piece × Tree) → Option (List (String × Json))
  | [] => some []
  | (ps, t) :: ms => do
    let key ← chars? ps
    let j ← t.json? depth
    let es ← members? depth ms
    some ((String.ofList key, j) :: es)

end

/-- A whole text is the text of a tree, with blanks before and behind. -/
def Document (t : Tree) (s : List Symbol) : Prop :=
  ∃ s₁ rest, Blanks s s₁ ∧ Spells (.value t) s₁ rest ∧ Blanks rest []

end RemoteSettings.Grammar
