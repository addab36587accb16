/-!
# Scopes

A scope is a path of segments.  It covers itself and every scope below it.

## Main definitions

* `Scope` — a path of segments.
* `Scope.contains` — whether one scope covers another.
* `Scope.overlaps` — whether two scopes have one in common, that is, one contains the other.
* `Scope.ofGroup`, `Scope.ofSetting` — what an operation on a group or a setting covers.
-/

namespace RemoteSettings

/-- A path of segments; the empty path covers everything. -/
structure Scope where
  segments : List String
  deriving DecidableEq, Inhabited

namespace Scope

/-- The scope one segment further down. -/
def child (s : Scope) (segment : String) : Scope := ⟨s.segments ++ [segment]⟩

/-- Whether the second scope is the first or lies below it: its path is no shorter, and where both
have a segment it is the same. -/
def contains (a b : Scope) : Bool :=
  a.segments.length ≤ b.segments.length
    && (b.segments.zip a.segments).all fun pair => pair.1 == pair.2

/-- Whether one of two scopes contains the other. -/
def overlaps (a b : Scope) : Bool := a.contains b || b.contains a

/-- The segments, separated by slashes. -/
def text (s : Scope) : String := "/".intercalate s.segments

/-- All settings of a group. -/
def ofGroup (group : String) : Scope := ⟨["settings", group]⟩

/-- A single setting. -/
def ofSetting (group setting : String) : Scope := (ofGroup group).child setting

end Scope

end RemoteSettings
