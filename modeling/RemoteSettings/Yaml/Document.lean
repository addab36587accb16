import RemoteSettings.Yaml.Node
import RemoteSettings.Yaml.Scalar

/-!
# YAML documents

Configuration files are documents with a mapping.

## Main definitions

* `Yaml.read` — the mapping that a text is.
* `Yaml.write` — a document with a mapping for each of some sections.
-/

namespace RemoteSettings.Yaml

/-! ### Reading -/

/-- Whether a character may stand in a document. -/
def isAllowed (c : Char) : Bool :=
  let n := c.toNat
  n == 0x9 || n == 0xA || n == 0xD || (0x20 ≤ n && n ≤ 0x7E) || n == 0x85
    || (0xA0 ≤ n && n ≤ 0xFFFD) || 0x10000 ≤ n

/-- The text with line feeds for the breaks that computers know, and for the next-line control. -/
def withLineFeeds : List Char → List Char
  | [] => []
  | '\r' :: '\n' :: rest => '\n' :: withLineFeeds rest
  | c :: rest => (if c == '\r' || c == '\u0085' then '\n' else c) :: withLineFeeds rest

/-- The text without a byte order mark at its beginning. -/
def withoutMark : List Char → List Char
  | '\uFEFF' :: rest => rest
  | s => s

/-- The mapping that a text is; `none` if it is something else.  A text without a document is an
empty mapping, and of two entries with one key the later counts. -/
def read (text : String) : Option (Keyed String Json) := do
  let s := withLineFeeds (withoutMark text.toList)
  let tokens ← if s.all isAllowed then Token.ofText? s else none
  let fields ← (← Node.ofTokens? tokens).fields?
  return Keyed.ofPairs fields

/-! ### Writing -/

/-- Sections of named texts.  Names need no quotation marks. -/
abbrev Sections := List (String × List (String × String))

/-- The columns by which each level is indented. -/
def indentation : Nat := 2

/-- The line for a text. -/
def entryLine (entry : String × String) : String :=
  "  " ++ entry.1 ++ ": " ++ Scalar.write (2 * indentation) entry.2 ++ "\n"

/-- The lines for a section. -/
def sectionLines (part : String × List (String × String)) : String :=
  part.1 ++ ":\n" ++ String.join (part.2.map entryLine)

/-- A document with a mapping for each section. -/
def write (sections : Sections) : String := String.join (sections.map sectionLines)

end RemoteSettings.Yaml
