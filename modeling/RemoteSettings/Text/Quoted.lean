import RemoteSettings.Text.Printable

/-!
# Text displayed in quotation marks

In a message, a text stands in quotation marks; characters that cannot be shown by themselves are
escaped.

## Main definitions

* `Quoted.escape` — a character as it is displayed.
* `Quoted.display` — a text as it is displayed.
-/

namespace RemoteSettings.Quoted

/-- A character as it stands in a displayed text. -/
def escape (c : Char) : List Char :=
  match c with
  | '\x00' => ['\\', '0']
  | '\t' => ['\\', 't']
  | '\n' => ['\\', 'n']
  | '\r' => ['\\', 'r']
  | '"' => ['\\', '"']
  | '\\' => ['\\', '\\']
  | c =>
    if Printable.standsAlone c then [c]
    else ['\\', 'u', '{'] ++ Nat.toDigits 16 c.toNat ++ ['}']

/-- A text in quotation marks. -/
def display (s : String) : String := String.ofList ('"' :: s.toList.flatMap escape ++ ['"'])

end RemoteSettings.Quoted
