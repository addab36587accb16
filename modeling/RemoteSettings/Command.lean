import RemoteSettings.Assignment
import RemoteSettings.Store.Session

/-!
# Commands

A command makes at most two calls to the store: one that records edits, and one whose answer it
writes out.

## Main definitions

* `Command` — the commands.
* `Command.plan` — the calls that a command makes.
* `Command.report` — what is written for the answer, and whether the command fails.
* `Command.runWith`, `Command.run` — a command from its beginning to its end.
-/

namespace RemoteSettings

/-- What can be asked for on the command line. -/
inductive Command
  | groups
  | list (group : String)
  | get (group id : String)
  | set (group id raw : String)
  | batch (group : String) (assignments : List String)
  deriving Inhabited

namespace Command

/-- Why a command fails. -/
inductive Problem
  | store (failure : Failure)
  | notFound (group id : String)
  | badAssignment (raw : String)
  | refused (count total : Nat)

/-- The words for a problem. -/
def Problem.message : Problem → String
  | .store failure => failure.message
  | .notFound group id => "setting '" ++ id ++ "' not found in group '" ++ group ++ "'"
  | .badAssignment raw => "expected <id>=<value>, got '" ++ raw ++ "'"
  | .refused count total => toString count ++ " of " ++ toString total ++ " settings were rejected"

/-- The calls of a command: edits to be recorded first, and the call that is answered. -/
structure Plan where
  edit : Option Call := none
  ask : Call

/-- Reads assignments; the first that is none is complained about. -/
def updatesOf : List String → Except Problem (List Update)
  | [] => .ok []
  | raw :: rest =>
    match Assignment.parse raw with
    | some u => do
      let us ← updatesOf rest
      .ok (u :: us)
    | none => .error (.badAssignment raw)

/-- The calls that a command makes. -/
def plan : Command → Except Problem Plan
  | groups => .ok { ask := .resolveGroups }
  | list group => .ok { ask := .resolveSettings group false }
  | get group id => .ok { ask := .resolveValue group id false }
  | set group id raw =>
    .ok { edit := some (.editSetting group id (.parse raw)), ask := .saveEditedSetting group id }
  | batch group assignments => do
    let us ← updatesOf assignments
    .ok { edit := some (.editSettings group (.list us)), ask := .saveEditedSettings group }

/-- The parts of a line, separated by tabs. -/
def line (parts : List String) : String := "\t".intercalate parts ++ "\n"

/-- Lines one after another. -/
def lines (ls : List String) : String := String.join ls

/-- The line for a group, with the group that it belongs to. -/
def groupLine (g : Group) : String :=
  match g.parent.filter (· ≠ "") with
  | some parent => line [g.id, g.label, "(parent: " ++ parent ++ ")"]
  | none => line [g.id, g.label]

/-- The line for a setting with its kind. -/
def settingLine (s : Setting) : String := line [s.id, s.kind.word, s.value.toJson.text]

/-- The line for a setting that was saved. -/
def savedLine (s : Setting) : String := line [s.id, s.value.toJson.text]

/-- The line for a setting that was refused. -/
def refusedLine (r : RejectedSetting) : String := line [r.id, "failed: " ++ r.rejection.text]

/-- What is written for the answer to a command's last call, and whether the command fails. -/
def report : Command → Except Failure Answer → String × Option Problem
  | groups, .ok (.groups gs) => (lines (gs.map groupLine), none)
  | list _, .ok (.settings m) => (lines (m.values.map fun s => settingLine s.value), none)
  | get _ _, .ok (.value (some v)) => (line [v.toJson.text], none)
  | get group id, .ok _ => ("", some (.notFound group id))
  | set _ _ _, .ok (.setting (some s)) => (savedLine s, none)
  | set _ id _, .ok _ => (line [id, "unchanged"], none)
  | batch _ _, .ok (.saved ss) => (lines (ss.map savedLine), none)
  | batch _ assignments, .error (.partialBatch rs) =>
    (lines (rs.map refusedLine), some (.refused rs.length assignments.length))
  | _, .error f => ("", some (.store f))
  | _, .ok _ => ("", none)

/-- The failure of a call that was never answered. -/
def unanswered : Failure := .transport "no answer"

/-- A command from its beginning to its end, given how calls are performed. -/
def runWith {m : Type → Type} [Monad m]
    (perform : Store → Call → m (Option (Except Failure Answer) × Store)) (s : Store)
    (c : Command) : m ((String × Option Problem) × Store) := do
  match c.plan with
  | .error p => return (("", some p), s)
  | .ok plan =>
    let (edited, s) ← match plan.edit with
      | some call => perform s call
      | none => pure (some (.ok .nothing), s)
    match edited.getD (.error unanswered) with
    | .error f => return (("", some (.store f)), s)
    | .ok _ =>
      let (answer, s) ← perform s plan.ask
      return (c.report (answer.getD (.error unanswered)), s)

/-- A command from its beginning to its end, if every request is answered at once. -/
def run (tr : Transport) (s : Store) (c : Command) : (String × Option Problem) × Store :=
  Id.run (c.runWith (fun s call => pure (s.perform tr call)) s)

end Command

end RemoteSettings
