import RemoteSettings.Locks.Table

/-!
# Parties that take locks

Each party asks for one lock and keeps it once it has it.  Parties take turns: whoever starts, is
served or is cancelled joins the end of a line, and acts when its turn comes.

## Main definitions

* `Party`, `Parties` — what each party is doing, the line, and the locks that are kept.
* `Parties.settle` — lets the parties act until the line is empty.
-/

namespace RemoteSettings

/-- What a party is doing. -/
inductive PartyPhase
  | starting
  | waiting (ticket : Nat)
  | done
  deriving DecidableEq, Repr, Inhabited

/-- A party and the lock that it asks for. -/
structure Party where
  store : String
  scope : Scope
  mode : LockMode
  phase : PartyPhase := .starting
  /-- Whether the party has been cancelled but has not yet noticed. -/
  doomed : Bool := false
  deriving Inhabited

/-- Parties over one table of locks. -/
structure Parties where
  table : LockTable := {}
  members : Keyed Nat Party := []
  /-- Those whose turn will come, in order. -/
  line : List Nat := []
  /-- The locks that are kept, by party. -/
  kept : Keyed Nat Lock := []
  /-- The locks that parties have got hold of, in order. -/
  log : List (Nat × Lock) := []
  deriving Inhabited

namespace Parties

/-- Puts a party at the end of the line, unless it stands there already. -/
def enqueue (ps : Parties) (n : Nat) : Parties :=
  if ps.line.contains n then ps else { ps with line := ps.line ++ [n] }

/-- The party that waits with a ticket. -/
def holderOf (ps : Parties) (ticket : Nat) : Option Nat :=
  (ps.members.find? fun m => m.2.phase == .waiting ticket).map (·.1)

/-- Takes over a table, and lines up the parties that were served. -/
def serve (ps : Parties) (result : LockTable × List Nat) : Parties :=
  result.2.foldl
    (fun ps ticket =>
      match ps.holderOf ticket with
      | some n => ps.enqueue n
      | none => ps)
    { ps with table := result.1 }

/-- A party begins to ask for a lock. -/
def start (ps : Parties) (n : Nat) (store : String) (scope : Scope) (mode : LockMode) : Parties :=
  { ps with members := ps.members.put n { store, scope, mode } }.enqueue n

/-- Changes what a party is doing. -/
def setPhase (ps : Parties) (n : Nat) (p : Party) (phase : PartyPhase) : Parties :=
  { ps with members := ps.members.put n { p with phase } }

/-- A party gets hold of its lock. -/
def keep (ps : Parties) (n : Nat) (p : Party) (lock : Lock) : Parties :=
  let ps := ps.setPhase n p .done
  { ps with kept := ps.kept.put n lock, log := ps.log ++ [(n, lock)] }

/-- A party acts. -/
def act (ps : Parties) (n : Nat) : Parties :=
  match ps.members.get? n with
  | none => ps
  | some p =>
    match p.phase, p.doomed with
    | .done, _ => ps
    | .starting, true => ps.setPhase n p .done
    | .waiting ticket, true => (ps.setPhase n p .done).serve (ps.table.abandon ticket)
    | .starting, false =>
      match ps.table.acquire p.store p.scope p.mode with
      | (.inl lock, table) => { ps with table }.keep n p lock
      | (.inr ticket, table) => { ps with table }.setPhase n p (.waiting ticket)
    | .waiting ticket, false =>
      match ps.table.collect ticket with
      | (some lock, table) => { ps with table }.keep n p lock
      -- It was lined up for another reason, and waits on.
      | (none, _) => ps

/-- Lets at most so many parties act. -/
def run : Nat → Parties → Parties
  | 0, ps => ps
  | fuel + 1, ps =>
    match ps.line with
    | [] => ps
    | n :: rest => run fuel ({ ps with line := rest }.act n)

/-- Lets the parties act until the line is empty: each acts at most twice more. -/
def settle (ps : Parties) : Parties := run (ps.line.length + 2 * ps.members.length) ps

/-- A party releases the lock that it keeps; says whether it kept one. -/
def release (ps : Parties) (n : Nat) : Bool × Parties :=
  match ps.kept.get? n with
  | some lock => (true, { ps with kept := ps.kept.erase n }.serve (ps.table.release lock.id))
  | none => (false, ps)

/-- Cancels a party that is still asking; says whether it was. -/
def cancel (ps : Parties) (n : Nat) : Bool × Parties :=
  match ps.members.get? n with
  | some p =>
    if p.phase = .done then (false, ps)
    else (true, { ps with members := ps.members.put n { p with doomed := true } }.enqueue n)
  | none => (false, ps)

/-- Releases a lock by its number, whoever keeps it. -/
def releaseNumber (ps : Parties) (id : Nat) : Parties := ps.serve (ps.table.release id)

end Parties

end RemoteSettings
