import RemoteSettings.Yaml.Token

/-!
# YAML nodes

A document is one node: a scalar, a sequence or a mapping.  A node may be named by an anchor, and an
alias stands for the node that was named last so.

Readers take tokens from the front of their input and hand on the rest, along with the nodes named
so far.  They recurse on a supply of steps, of which a few for each token are always enough.

## Main definitions

* `Node` — the nodes.
* `Node.ofTokens?` — the node of the only document in a text.
* `Node.toJson?` — the JSON value that a node means.
-/

namespace RemoteSettings.Yaml

/-- What a document is made of. -/
inductive Node
  | scalar (tag : Option String) (text : String) (isPlain : Bool)
  | sequence (tag : Option String) (items : List Node)
  | mapping (tag : Option String) (entries : List (Node × Node))
  deriving Inhabited

namespace Node

/-! ### From tokens -/

/-- The scalar that stands where nothing is written. -/
def empty : Node := .scalar none "" true

/-- The nodes that have a name. -/
abbrev Named := Keyed String Node

/-- What reading gives: a result, the nodes named so far, and the tokens that are left. -/
abbrev Reading (α : Type) := α × Named × List Token

/-- The name and the tag in front of a node, in either order. -/
def marks : List Token → Option String × Option String × List Token
  | .anchor a :: .tag t :: ts => (some a, some t, ts)
  | .tag t :: .anchor a :: ts => (some a, some t, ts)
  | .anchor a :: ts => (some a, none, ts)
  | .tag t :: ts => (none, some t, ts)
  | ts => (none, none, ts)

/-- The tag of a node; an exclamation mark alone is none. -/
def tagOf (tag : Option String) : Option String := tag.filter (· != "!")

/-- Whether a collection by indentation goes on or ends. -/
def isBoundary : List Token → Bool
  | .item :: _ | .key :: _ | .value :: _ | .dedent :: _ => true
  | _ => false

/-- Whether an entry in brackets ends. -/
def endsEntry : List Token → Bool
  | .comma :: _ | .closeList :: _ | .closeMap :: _ | .value :: _ => true
  | _ => false

/-- Passes over the comma between two entries; none stands before the first. -/
def comma? (isFirst : Bool) : List Token → Option (List Token)
  | .comma :: ts => if isFirst then none else some ts
  | ts => if isFirst then some ts else none

mutual

/-- Reads a node.  Collections by indentation are only allowed outside brackets, and items without
indentation of their own only in a mapping. -/
def read (outside loose : Bool) : Nat → Named → List Token → Option (Reading Node)
  | 0, _, _ => none
  | _ + 1, named, .alias name :: ts => (Keyed.get? name named).map fun n => (n, named, ts)
  | fuel + 1, named, ts => do
    let (name, tag, ts) := marks ts
    let (n, named, ts) ←
      match ts with
      | .scalar text isPlain :: ts =>
        some (.scalar (tagOf tag) text isPlain, named, ts)
      | .openList :: ts => do
        let (items, named, ts) ← listItems fuel true named ts
        some (.sequence tag items, named, ts)
      | .openMap :: ts => do
        let (entries, named, ts) ← mapEntries fuel true named ts
        some (.mapping tag entries, named, ts)
      | .sequence :: ts => do
        let (items, named, ts) ← if outside then items fuel named ts else none
        some (.sequence tag items, named, ts)
      | .mapping :: ts => do
        let (entries, named, ts) ← if outside then entries fuel named ts else none
        some (.mapping tag entries, named, ts)
      | .item :: ts => do
        let (items, named, ts) ← if loose then looseItems fuel named (.item :: ts) else none
        some (.sequence tag items, named, ts)
      | ts =>
        if name.isSome || tag.isSome then some (.scalar (tagOf tag) "" true, named, ts) else none
    some (n, name.elim named (Keyed.put · n named), ts)

/-- Reads the items of a sequence by indentation, and its end. -/
def items : Nat → Named → List Token → Option (Reading (List Node))
  | 0, _, _ => none
  | _ + 1, named, .dedent :: ts => some ([], named, ts)
  | fuel + 1, named, .item :: ts => do
    let (n, named, ts) ←
      match ts with
      | .item :: _ | .dedent :: _ => some (empty, named, ts)
      | _ => read true false fuel named ts
    let (more, named, ts) ← items fuel named ts
    some (n :: more, named, ts)
  | _ + 1, _, _ => none

/-- Reads the items of a sequence that has no indentation of its own. -/
def looseItems : Nat → Named → List Token → Option (Reading (List Node))
  | 0, _, _ => none
  | fuel + 1, named, .item :: ts => do
    let (n, named, ts) ←
      if isBoundary ts then some (empty, named, ts) else read true false fuel named ts
    let (more, named, ts) ← looseItems fuel named ts
    some (n :: more, named, ts)
  | _ + 1, named, ts => some ([], named, ts)

/-- Reads the entries of a mapping by indentation, and its end. -/
def entries : Nat → Named → List Token → Option (Reading (List (Node × Node)))
  | 0, _, _ => none
  | _ + 1, named, .dedent :: ts => some ([], named, ts)
  | fuel + 1, named, .key :: ts => do
    let (key, named, ts) ← part fuel named ts
    let (content, named, ts) ←
      match ts with
      | .value :: ts => part fuel named ts
      | ts => some (empty, named, ts)
    let (more, named, ts) ← entries fuel named ts
    some ((key, content) :: more, named, ts)
  | _ + 1, _, _ => none

/-- Reads a key or a value in a mapping by indentation. -/
def part : Nat → Named → List Token → Option (Reading Node)
  | 0, _, _ => none
  | fuel + 1, named, ts =>
    match ts with
    | .key :: _ | .value :: _ | .dedent :: _ => some (empty, named, ts)
    | _ => read true true fuel named ts

/-- Reads the items of a sequence in brackets, and its end.  A key with a value is a mapping of one
entry. -/
def listItems : Nat → Bool → Named → List Token → Option (Reading (List Node))
  | 0, _, _, _ => none
  | _ + 1, _, named, .closeList :: ts => some ([], named, ts)
  | fuel + 1, isFirst, named, ts => do
    let ts ← comma? isFirst ts
    match ts with
    | .closeList :: ts => some ([], named, ts)
    | .key :: ts => do
      let (key, named, ts) ← entryPart fuel named ts
      let (content, named, ts) ←
        match ts with
        | .value :: ts => entryPart fuel named ts
        | ts => some (empty, named, ts)
      let (more, named, ts) ← listItems fuel false named ts
      some (.mapping none [(key, content)] :: more, named, ts)
    | ts => do
      let (n, named, ts) ← read false false fuel named ts
      let (more, named, ts) ← listItems fuel false named ts
      some (n :: more, named, ts)

/-- Reads the entries of a mapping in brackets, and its end. -/
def mapEntries : Nat → Bool → Named → List Token → Option (Reading (List (Node × Node)))
  | 0, _, _, _ => none
  | _ + 1, _, named, .closeMap :: ts => some ([], named, ts)
  | fuel + 1, isFirst, named, ts => do
    let ts ← comma? isFirst ts
    match ts with
    | .closeMap :: ts => some ([], named, ts)
    | .key :: ts => do
      let (key, named, ts) ← entryPart fuel named ts
      let (content, named, ts) ←
        match ts with
        | .value :: ts => entryPart fuel named ts
        | ts => some (empty, named, ts)
      let (more, named, ts) ← mapEntries fuel false named ts
      some ((key, content) :: more, named, ts)
    | ts => do
      let (key, named, ts) ← read false false fuel named ts
      let (more, named, ts) ← mapEntries fuel false named ts
      some ((key, empty) :: more, named, ts)

/-- Reads a key or a value in brackets. -/
def entryPart : Nat → Named → List Token → Option (Reading Node)
  | 0, _, _ => none
  | fuel + 1, named, ts =>
    if endsEntry ts then some (empty, named, ts) else read false false fuel named ts

end

/-- Reads the node of a document behind its first mark; where there is none, it is empty. -/
def content? : List Token → Option (Node × List Token)
  | [] => some (empty, [])
  | ts =>
    match ts with
    | .version :: _ | .documentStart :: _ | .documentEnd :: _ => some (empty, ts)
    | _ => (read true false (2 * ts.length + 2) [] ts).map fun (n, _, ts) => (n, ts)

/-- The node of the only document in a text, or an empty one if there is no document. -/
def ofTokens? (ts : List Token) : Option Node := do
  let (n, ts) ←
    match ts with
    | .version :: .documentStart :: ts | .documentStart :: ts => content? ts
    | .version :: _ | .documentEnd :: _ => none
    | ts => content? ts
  if ts.all (· == .documentEnd) then some n else none

/-! ### To JSON -/

/-- Whether a tag is the writer's own, of which no meaning is known. -/
def isLocal (tag : Option String) : Bool := tag.any fun t => t.toList.head? == some '!'

/-- What a scalar with a tag means, if its text is spelled so. -/
def tagged? (tag text : String) : Option Json :=
  let s := text.toList
  if tag == "tag:yaml.org,2002:null" then if Plain.nulls.contains text then some .null else none
  else if tag == "tag:yaml.org,2002:bool" then (Plain.bool? s).map .bool
  else if tag == "tag:yaml.org,2002:int" then ((Plain.whole? s).bind Plain.ofInt).map .number
  else if tag == "tag:yaml.org,2002:float" then (Plain.real? s).map .number
  else some (.string text)

mutual

/-- The JSON value that a node of at most a given nesting means, if it has one. -/
def toJson? (depth : Nat) : Node → Option Json
  | .scalar tag text isPlain =>
    match tag with
    | some t => if isLocal tag then none else tagged? t text
    | none => some (if isPlain then Plain.meaning text.toList else .string text)
  | .sequence tag items =>
    if isLocal tag || depth = 0 then none else (itemsJson? (depth - 1) items).map .array
  | .mapping tag entries =>
    if isLocal tag || depth = 0 then none
    else (entriesJson? (depth - 1) entries).map (.object ∘ Keyed.ofPairs)

/-- The JSON values that nodes mean. -/
def itemsJson? (depth : Nat) : List Node → Option (List Json)
  | [] => some []
  | n :: rest => do return (← toJson? depth n) :: (← itemsJson? depth rest)

/-- The fields that entries mean.  Keys are scalars, of whatever spelling. -/
def entriesJson? (depth : Nat) : List (Node × Node) → Option (List (String × Json))
  | [] => some []
  | (.scalar _ key _, n) :: rest => do
    return (key, ← toJson? depth n) :: (← entriesJson? depth rest)
  | _ :: _ => none

end

/-- The greatest nesting of collections. -/
def maxDepth : Nat := 128

/-- The fields of a mapping.  An empty node has none. -/
def fields? : Node → Option (List (String × Json))
  | .mapping _ entries => entriesJson? (maxDepth - 1) entries
  | .scalar _ "" true => some []
  | _ => none

end Node

end RemoteSettings.Yaml
