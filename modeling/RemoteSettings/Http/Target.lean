/-!
# Where a request goes

The address of a request is a scheme, an authority and a path with a query.  A fragment may be
given and is not kept.

## Main definitions

* `Target` — the parts of an address.
* `Target.Problem` — why a text is no address.
* `Target.parse` — reads an address.
* `Target.line` — what the service is asked for by name.
-/

namespace RemoteSettings

/-- The parts of an address. -/
structure Target where
  scheme : Option String := none
  authority : String := ""
  /-- The path and the query. -/
  path : String := ""
  deriving DecidableEq, Repr, Inhabited

namespace Target

/-- Why a text is no address. -/
inductive Problem
  | empty
  | tooLong
  | badCharacter
  | badAuthority
  | badFormat
  | schemeTooLong
  deriving DecidableEq, Repr

/-- The words for a problem. -/
def Problem.message : Problem → String
  | .empty => "empty string"
  | .tooLong => "uri too long"
  | .badCharacter => "invalid uri character"
  | .badAuthority => "invalid authority"
  | .badFormat => "invalid format"
  | .schemeTooLong => "scheme too long"

/-- The greatest length of an address in bytes. -/
def maxLength : Nat := 65534

/-- The greatest length of a scheme. -/
def maxSchemeLength : Nat := 64

/-- The greatest number of colons that an authority may have anywhere. -/
def maxColons : Nat := 8

/-! ### The scheme -/

/-- Whether a character may stand in a scheme. -/
def isSchemeChar (c : Char) : Bool := c.isAlphanum || ['+', '-', '.', '~'].contains c

/-- The scheme that an address begins with, and what follows.  An address of three characters has
none. -/
def splitScheme (s : List Char) : Except Problem (Option (List Char) × List Char) :=
  let name := s.takeWhile isSchemeChar
  match s.dropWhile isSchemeChar with
  | ':' :: '/' :: '/' :: rest =>
    if s.length ≤ 3 then .ok (none, s)
    else if maxSchemeLength < name.length then .error .schemeTooLong
    else .ok (some name, rest)
  | _ => .ok (none, s)

/-! ### The authority -/

/-- Whether a character ends the authority. -/
def endsAuthority (c : Char) : Bool := c == '/' || c == '?' || c == '#'

/-- Whether a character may stand in an authority and means nothing there. -/
def isAuthorityChar (c : Char) : Bool :=
  c.isAlphanum
    || ['!', '$', '&', '\x27', '(', ')', '*', '+', ',', '-', '.', ';', '=', '_', '~'].contains c

/-- What has been seen of an authority. -/
structure Survey where
  /-- The colons since the last at sign or closing bracket. -/
  colons : Nat := 0
  opened : Bool := false
  closed : Bool := false
  /-- Whether there was a percent sign since the last at sign or closing bracket. -/
  percent : Bool := false

/-- Takes the next character of an authority into account. -/
def Survey.see (v : Survey) (c : Char) : Except Problem Survey :=
  match c with
  | ':' =>
    if maxColons ≤ v.colons then .error .badAuthority else .ok { v with colons := v.colons + 1 }
  | '[' => if v.percent || v.opened then .error .badAuthority else .ok { v with opened := true }
  | ']' =>
    if !v.opened || v.closed then .error .badAuthority
    else .ok { v with closed := true, colons := 0, percent := false }
  | '@' => .ok { v with colons := 0, percent := false }
  | '%' => .ok { v with percent := true }
  | c => if isAuthorityChar c then .ok v else .error .badCharacter

/-- Whether an authority is in order, by what has been seen of it. -/
def Survey.isFine (v : Survey) : Bool := v.opened == v.closed && v.colons ≤ 1 && !v.percent

/-- The authority that a text begins with, and what follows. -/
def splitAuthority (s : List Char) : Except Problem (List Char × List Char) := do
  let name := s.takeWhile (!endsAuthority ·)
  let v ← name.foldlM Survey.see {}
  if v.isFine && name.getLast? != some '@' then .ok (name, s.dropWhile (!endsAuthority ·))
  else .error .badAuthority

/-! ### The path and the query -/

/-- Whether a character is a blank or a control of the first 128 characters. -/
def isUnwritten (c : Char) : Bool := c.toNat ≤ 0x20 || c == '\x7f'

/-- Whether a character may stand in a path. -/
def isPathChar (c : Char) : Bool := !isUnwritten c && ['#', '<', '>', '?', '\x60'].all (· != c)

/-- Whether a character may stand in a query. -/
def isQueryChar (c : Char) : Bool := !isUnwritten c && ['"', '#', '<', '>'].all (· != c)

/-- The path and the query that a text consists of, up to a fragment. -/
def parsePath (s : List Char) : Except Problem String :=
  let kept := s.takeWhile (· != '#')
  let query := (kept.dropWhile (· != '?')).drop 1
  if (kept.takeWhile (· != '?')).all isPathChar && query.all isQueryChar then
    .ok (String.ofList kept)
  else .error .badCharacter

/-! ### The address -/

/-- Reads an address that does not begin with a slash: a scheme, an authority and a path, or an
authority alone. -/
def parseFull (s : List Char) : Except Problem Target := do
  let (scheme, s) ← splitScheme s
  if s.isEmpty then .error .empty
  else do
    let (authority, rest) ← splitAuthority s
    match scheme with
    | none =>
      if rest.isEmpty then .ok { authority := String.ofList authority } else .error .badFormat
    | some name =>
      if authority.isEmpty then .error .badFormat
      else do
        let path ← parsePath rest
        .ok ⟨some (String.ofList name), String.ofList authority, path⟩

/-- Reads an address of one character that is no slash. -/
def parseSingle (c : Char) : Except Problem Target :=
  if c == '*' then .ok { path := "*" }
  else if endsAuthority c then .error .badCharacter
  else parseFull [c]

/-- Reads an address. -/
def parse (text : String) : Except Problem Target :=
  if maxLength < text.utf8ByteSize then .error .tooLong
  else
    match text.toList with
    | [] => .error .empty
    | '/' :: rest => do
      let path ← parsePath ('/' :: rest)
      .ok { path }
    | [c] => parseSingle c
    | s => parseFull s

/-- What the service is asked for: the path and the query, which begin with a slash. -/
def line (t : Target) : String :=
  match t.path.toList with
  | '/' :: _ | '*' :: _ => t.path
  | _ => "/" ++ t.path

/-- Whether the address says where the service is, and not only what is asked for. -/
def isAbsolute (t : Target) : Bool := t.scheme.isSome && t.authority != ""

/-- Whether the service can be talked to. -/
def isSupported (t : Target) : Bool :=
  match t.scheme with
  | some name => ["http", "https"].contains (String.ofList (name.toList.map Char.toLower))
  | none => false

end Target

end RemoteSettings
