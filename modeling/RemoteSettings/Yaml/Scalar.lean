import RemoteSettings.Yaml.Block
import RemoteSettings.Yaml.Plain

/-!
# Writing YAML scalars

A text is written without quotation marks where it can be.  A text of several lines becomes a
literal scalar, and a long line a folded one, if it could do without quotation marks otherwise.

## Main definitions

* `Style`, `Style.of` — how a text is written.
* `Scalar.write` — writes a text.
-/

namespace RemoteSettings.Yaml

/-- How a text is written. -/
inductive Style
  | plain
  | singleQuoted
  | doubleQuoted
  | literal
  | folded
  deriving DecidableEq, Repr

/-- The greatest number of bytes that is not folded, and of columns in a folded line if it has two
words. -/
def maxWidth : Nat := 80

/-- How a text is written. -/
def Style.of (s : List Char) : Style :=
  if s == ['.'] || s == ['#'] || s == ['-'] then .singleQuoted
  else if !Plain.isSafe ((Block.body s).map fun c => if c == '\n' then ' ' else c) then
    .doubleQuoted
  else if s.contains '\n' then .literal
  else if maxWidth < s.foldr (fun c n => c.utf8Size + n) 0 then .folded
  else .plain

namespace Scalar

/-- A head, and lines with an indentation below it. -/
def below (indent : Nat) (scalar : List Char × List (List Char)) : List Char :=
  scalar.1 ++ scalar.2.flatMap fun line => '\n' :: List.replicate indent ' ' ++ line

/-- Writes a text, further lines being indented. -/
def write (indent : Nat) (text : String) : String :=
  let s := text.toList
  String.ofList <|
    match Style.of s with
    | .plain => s
    | .singleQuoted => '\x27' :: s ++ ['\x27']
    | .doubleQuoted => Quoted.write s
    | .literal => below indent (Block.literal s)
    | .folded => below indent (Block.folded maxWidth s)

end Scalar

end RemoteSettings.Yaml
