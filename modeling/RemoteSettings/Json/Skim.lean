import RemoteSettings.Json.Reader

/-!
# Passing over JSON

A value that nobody asks for is passed over: its form is checked, and nothing else.  It may nest to
any depth, its numbers may be of any size, and its strings may hold bytes and escapes that stand for
no character.

## Main definitions

* `Skim.value` — what follows a value.
-/

namespace RemoteSettings.Skim

/-- What follows the content of a string and its closing quotation mark. -/
def content : List Symbol → Option (List Symbol)
  | [] => none
  | .stray _ :: rest => content rest
  | .char c :: rest =>
    if c == '"' then some rest
    else if c == '\\' then
      match rest with
      | .char 'u' :: .char a :: .char b :: .char c :: .char d :: rest =>
        if (Reader.fourHex? a b c d).isSome then content rest else none
      | .char c :: rest => if (Reader.plainEscape? c).isSome then content rest else none
      | _ => none
    else if c.toNat < 0x20 then none
    else content rest

/-- What follows a number after its minus sign, if it has one. -/
def number (s : List Symbol) : Option (List Symbol) := do
  let (_, rest) ← (Reader.integerPart s).toOption
  let (_, rest) ← (Reader.fractionPart rest).toOption
  let (_, rest) ← (Reader.exponentPart rest).toOption
  some rest

/-- What follows a colon. -/
def colon (s : List Symbol) : Option (List Symbol) := (Reader.colon s).toOption

mutual

/-- What follows a value. -/
def value : Nat → List Symbol → Option (List Symbol)
  | 0, _ => none
  | fuel + 1, s =>
    match Reader.skipBlanks s with
    | [] => none
    | .char 'n' :: rest => (Reader.word ['u', 'l', 'l'] rest).toOption
    | .char 't' :: rest => (Reader.word ['r', 'u', 'e'] rest).toOption
    | .char 'f' :: rest => (Reader.word ['a', 'l', 's', 'e'] rest).toOption
    | .char '"' :: rest => content rest
    | .char '-' :: rest => number rest
    | .char '[' :: rest =>
      match Reader.skipBlanks rest with
      | .char ']' :: rest => some rest
      | rest => items fuel rest
    | .char '{' :: rest =>
      match Reader.skipBlanks rest with
      | .char '}' :: rest => some rest
      | .char '"' :: rest => members fuel rest
      | _ => none
    | x :: rest => if (Reader.digit? x).isSome then number (x :: rest) else none

/-- What follows the items of an array and its end. -/
def items : Nat → List Symbol → Option (List Symbol)
  | 0, _ => none
  | fuel + 1, s => do
    let rest ← value fuel s
    match Reader.skipBlanks rest with
    | .char ']' :: rest => some rest
    | .char ',' :: rest => items fuel rest
    | _ => none

/-- What follows the members of an object and its end; the first key's quotation mark has been
read. -/
def members : Nat → List Symbol → Option (List Symbol)
  | 0, _ => none
  | fuel + 1, s => do
    let rest ← content s
    let rest ← colon rest
    let rest ← value fuel rest
    match Reader.skipBlanks rest with
    | .char '}' :: rest => some rest
    | .char ',' :: rest =>
      match Reader.skipBlanks rest with
      | .char '"' :: rest => members fuel rest
      | _ => none
    | _ => none

end

end RemoteSettings.Skim
