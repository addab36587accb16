/-!
# Entries by key

## Main definitions

* `Keyed` — entries in the order in which their keys came.
* `Keyed.put` — sets an entry: a new key goes to the end, a known key keeps its place.
* `Keyed.erase` — removes an entry; the others keep their order.
* `Sorted` — entries in the order of their keys.
-/

namespace RemoteSettings

/-- Entries in the order in which their keys came. -/
abbrev Keyed (κ α : Type) := List (κ × α)

namespace Keyed

variable {κ α : Type} [DecidableEq κ]

/-- The entry of a key. -/
def get? (key : κ) : Keyed κ α → Option α
  | [] => none
  | (k, a) :: rest => if k = key then some a else get? key rest

/-- Sets an entry. -/
def put (key : κ) (value : α) : Keyed κ α → Keyed κ α
  | [] => [(key, value)]
  | (k, a) :: rest => if k = key then (key, value) :: rest else (k, a) :: put key value rest

/-- Removes an entry. -/
def erase (key : κ) : Keyed κ α → Keyed κ α
  | [] => []
  | (k, a) :: rest => if k = key then rest else (k, a) :: erase key rest

/-- Whether there is an entry of a key. -/
def has (key : κ) (m : Keyed κ α) : Bool := (m.get? key).isSome

/-- The entries that a list of settings of them leaves. -/
def ofPairs (pairs : List (κ × α)) : Keyed κ α := pairs.foldl (fun m p => put p.1 p.2 m) []

/-- The keys in their order. -/
def keys (m : Keyed κ α) : List κ := m.map (·.1)

/-- The values in their order. -/
def values (m : Keyed κ α) : List α := m.map (·.2)

end Keyed

/-- Entries in the order of their keys, which are texts. -/
abbrev Sorted (α : Type) := List (String × α)

namespace Sorted

variable {α : Type}

/-- The entry of a key. -/
def get? (key : String) (m : Sorted α) : Option α := Keyed.get? key m

/-- Sets an entry. -/
def put (key : String) (value : α) : Sorted α → Sorted α
  | [] => [(key, value)]
  | (k, a) :: rest =>
    if k = key then (key, value) :: rest
    else if key < k then (key, value) :: (k, a) :: rest
    else (k, a) :: put key value rest

/-- Removes an entry. -/
def erase (key : String) (m : Sorted α) : Sorted α := Keyed.erase key m

/-- Whether there is an entry of a key. -/
def has (key : String) (m : Sorted α) : Bool := (m.get? key).isSome

end Sorted

end RemoteSettings
