/-! # Statuses

The outcome of one step and the state of one execution, with the words that records and events use
for them.
-/

namespace Runbook

/-- The outcome of one step. -/
inductive StepStatus where
  | completed
  | failed
  | skipped
  | error
deriving DecidableEq, Repr

/-- The word for an outcome. -/
def StepStatus.label : StepStatus → String
  | .completed => "completed"
  | .failed => "failed"
  | .skipped => "skipped"
  | .error => "error"

/-- The outcome that a word names. -/
def StepStatus.ofLabel? : String → Option StepStatus
  | "completed" => some .completed
  | "failed" => some .failed
  | "skipped" => some .skipped
  | "error" => some .error
  | _ => none

/-- The state of an execution. -/
inductive ExecutionStatus where
  | running
  | completed
  | failed
  | error
  | cancelled
deriving DecidableEq, Repr

/-- The word for a state. -/
def ExecutionStatus.label : ExecutionStatus → String
  | .running => "running"
  | .completed => "completed"
  | .failed => "failed"
  | .error => "error"
  | .cancelled => "cancelled"

/-- The state that a word names. -/
def ExecutionStatus.ofLabel? : String → Option ExecutionStatus
  | "running" => some .running
  | "completed" => some .completed
  | "failed" => some .failed
  | "error" => some .error
  | "cancelled" => some .cancelled
  | _ => none

theorem StepStatus.ofLabel?_label (s : StepStatus) : ofLabel? s.label = some s := by
  cases s <;> rfl

theorem ExecutionStatus.ofLabel?_label (s : ExecutionStatus) : ofLabel? s.label = some s := by
  cases s <;> rfl

end Runbook
