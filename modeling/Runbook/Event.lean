import Runbook.Execution
import Runbook.Step.Basic

/-! # Events

What the engine announces: the start and end of executions and steps, and that a manual step needs an
operator. Observers register for one kind of event each.
-/

namespace Runbook

/-- The kinds of events. -/
inductive EventKind where
  | executionStarted
  | stepStarted
  | stepCompleted
  | stepFailed
  | manualStepRequired
  | executionCompleted
  | executionFailed
  | executionCancelled
deriving DecidableEq, Repr

/-- The word for a kind. -/
def EventKind.label : EventKind → String
  | .executionStarted => "execution_started"
  | .stepStarted => "step_started"
  | .stepCompleted => "step_completed"
  | .stepFailed => "step_failed"
  | .manualStepRequired => "manual_step_required"
  | .executionCompleted => "execution_completed"
  | .executionFailed => "execution_failed"
  | .executionCancelled => "execution_cancelled"

/-- All kinds. -/
def EventKind.all : List EventKind :=
  [.executionStarted, .stepStarted, .stepCompleted, .stepFailed, .manualStepRequired,
    .executionCompleted, .executionFailed, .executionCancelled]

/-- The kind that a word names. -/
def EventKind.ofLabel? (s : String) : Option EventKind := EventKind.all.find? (·.label == s)

theorem EventKind.ofLabel?_label (k : EventKind) : ofLabel? k.label = some k := by
  cases k <;> rfl

/-- The kind that a value names. -/
def EventKind.ofValue (v : Value) : Except Fault EventKind :=
  match v with
  | .text s =>
    match EventKind.ofLabel? s with
    | some kind => .ok kind
    | none => .error (.notMember v.display "EngineEvent")
  | v => .error (.notMember v.display "EngineEvent")

/-- An event. Those of a step tell which one it is, and how it ended. -/
inductive Event where
  | started (execution : String)
  | stepStarted (execution : String) (step : Step) (index : Int)
  | stepCompleted (execution : String) (step : Step) (index : Int) (result : StepResult)
  | stepFailed (execution : String) (step : Step) (index : Int) (result : StepResult)
  /-- A step that an operator has to act on, with a token if an answer is awaited. -/
  | manual (execution : String) (step : Step) (index : Int) (instructions : Value)
      (token : Option String)
  | completed (execution : String)
  | failed (execution : String)
  | cancelled (execution : String)

namespace Event

/-- The kind of an event. -/
def kind : Event → EventKind
  | started _ => .executionStarted
  | stepStarted .. => .stepStarted
  | stepCompleted .. => .stepCompleted
  | stepFailed .. => .stepFailed
  | manual .. => .manualStepRequired
  | completed _ => .executionCompleted
  | failed _ => .executionFailed
  | cancelled _ => .executionCancelled

/-- The execution that an event is about. -/
def execution : Event → String
  | started id | completed id | failed id | cancelled id => id
  | stepStarted id .. | stepCompleted id .. | stepFailed id .. | manual id .. => id

/-- The step that an event is about. -/
def stepIndex? : Event → Option Int
  | started _ | completed _ | failed _ | cancelled _ => none
  | stepStarted _ _ i | stepCompleted _ _ i _ | stepFailed _ _ i _ | manual _ _ i _ _ => some i

end Event

end Runbook
