import Runbook.Rehearsal.Observer
import Runbook.Rehearsal.Tool

/-! # The cast of a rehearsal

Everyone who stands around the engine of a rehearsal: its tools, its observers, and who decides about
permissions and modes.
-/

namespace Runbook.Rehearsal

/-- Who decides whether a tool may run. -/
inductive Permissions where
  | nobody
  | everything
  | allBut (tools : List String)
  /-- The modes on the stage. -/
  | modes

/-- Who tells the active mode. -/
inductive ActiveMode where
  | nobody
  | always (mode : String)
  /-- The modes on the stage. -/
  | modes

/-- Everyone around the engine. -/
structure Cast where
  tools : List (String × Tool) := stock
  permissions : Permissions := .nobody
  mode : ActiveMode := .nobody
  observers : List Observer := []
  callbacks : List (String × Habit) := []

namespace Cast

/-- What the stage's modes say about a call. -/
def judge (tool : String) (parameters : Entries) (mode : Value) (s : Stage) : Except Fault Bool :=
  match s.modes with
  | some table => table.allows tool (.dict parameters) mode
  | none => .ok true

/-- What an engine asks the cast about tools. -/
def authority (c : Cast) : Authority Stage where
  knows name s := (c.tools.any (·.1 == name), s)
  permits := match c.permissions with
    | .nobody => none
    | .everything => some fun _ _ _ s => (.ok true, s)
    | .allBut denied => some fun tool _ _ s => (.ok !denied.contains tool, s)
    | .modes => some fun tool parameters mode s => (judge tool parameters mode s, s)

/-- What an engine asks the cast about the active mode. -/
def activeMode (c : Cast) : Option (Stage → Except Fault Value × Stage) :=
  match c.mode with
  | .nobody => none
  | .always mode => some fun s => (.ok (.text mode), s)
  | .modes => some fun s => (.ok (Value.ofText? (s.modes.map (·.current))), s)

/-- The tools and observers of the cast. -/
def host (c : Cast) : Host Stage where
  tool := call c.tools
  observer name event :=
    match c.callbacks.find? (·.1 == name) with
    | some (_, habit) => habit.follow name event
    | none => observe c.observers name event

/-- The registrations of the cast's observers. -/
def bus (c : Cast) : Bus :=
  (Rehearsal.observers c.observers).foldl (fun b o => b.subscribe o.2.kind o.1) {}

/-- The engine of a rehearsal with given settings. -/
def engine (c : Cast) (config : Engine.Config) : Engine Stage :=
  { config, authority := c.authority, mode := c.activeMode }

end Cast

end Runbook.Rehearsal
