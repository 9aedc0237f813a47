import Runbook.Condition

/-! # Steps

A workflow is made of steps of seven kinds. A step of any other kind is kept as it came, so that it is
refused when it is reached and not when the workflow is read.

Fields that a run resolves in the scope, or hands on as they are, hold values of any kind.
-/

namespace Runbook

/-- What steps of every kind have. -/
structure Step.Common where
  name : Value := .null
  description : Value := .null
  /-- The pre-check: the step is skipped unless all of them hold. -/
  conditions : List Condition := []
  /-- An error in the step does not end the execution. -/
  optional : Bool := false
  /-- Whether an unsuccessful step ends the execution or loop; each has its own default. -/
  stopOnFailure : Option Bool := none

/-- A step of a workflow. -/
inductive Step where
  /-- Call a tool by name. -/
  | tool (common : Step.Common) (toolName : String) (parameters outputs : Entries)
  /-- Run a command by the command tool. -/
  | command (common : Step.Common) (command workingDirectory : Value) (outputs : Entries)
  /-- Run one of two steps. -/
  | conditional (common : Step.Common) (condition : List Condition) (thenStep elseStep : Option Step)
  /-- Run a step for each item. -/
  | loop (common : Step.Common) (items itemVariable indexVariable : Value)
      (maxIterations : Option Int) (body : Option Step)
  /-- Run steps side by side. -/
  | parallel (common : Step.Common) (steps : List Step)
  /-- Wait for a number of milliseconds. -/
  | delay (common : Step.Common) (delay : Value)
  /-- Ask an operator. -/
  | manual (common : Step.Common) (instructions : Value)
  /-- A step of an unknown kind. -/
  | unknown (common : Step.Common) (tag : String) (raw : Entries)

namespace Step

/-- The fields that every step has. -/
def common : Step → Common
  | tool c .. => c
  | command c .. => c
  | conditional c .. => c
  | loop c .. => c
  | parallel c .. => c
  | delay c .. => c
  | manual c .. => c
  | unknown c .. => c

/-- The word for a step's kind. -/
def tag : Step → String
  | tool .. => "tool"
  | command .. => "command"
  | conditional .. => "conditional"
  | loop .. => "loop"
  | parallel .. => "parallel"
  | delay .. => "delay"
  | manual .. => "manual"
  | unknown _ tag _ => tag

/-- What a step is called in events: its name, or else its kind. -/
def label (s : Step) : Value := s.common.name.orElse (.text s.tag)

end Step

/-- The variable that holds the item of an iteration unless the loop names another. -/
def defaultItemVariable : String := "item"

/-- The variable that holds the number of an iteration unless the loop names another. -/
def defaultIndexVariable : String := "index"

end Runbook
