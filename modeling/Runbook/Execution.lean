import Runbook.Signature
import Runbook.StepResult

/-! # Executions

One run of a workflow: its variables, how far it has come, the results so far, and how it ended. A
context is what one step runs against; it owns a copy of the variables, so that nothing a step does to
its scope reaches the execution.
-/

namespace Runbook

/-- A run of a workflow. -/
structure Execution where
  id : Value
  workflowId : Value
  workflowName : Value
  totalSteps : Int
  scope : Entries := []
  status : ExecutionStatus := .running
  /-- Whether the moment of its end has been recorded. -/
  ended : Bool := false
  durationMs : Option Int := none
  currentStep : Int := 0
  results : List StepResult := []
  errors : List Value := []
  metadata : Entries := []
  summary : Value := .null
  error : Value := .null
  /-- Whether the place of the error has been recorded. -/
  traced : Bool := false
  /-- The clock reading at its start, in seconds. -/
  started : Float := 0.0
  cancelRequested : Bool := false
deriving Inhabited

/-- What one step runs against. -/
structure Context where
  execution : String
  stepIndex : Int
  scope : Entries
  mode : Value

namespace Execution

/-- The execution is running. -/
def isActive (e : Execution) : Bool := e.status == .running

/-- The time budget in seconds; zero unless one is recorded. -/
def timeout (e : Execution) : Value := (e.metadata.get? "timeout").getD (.int 0)

/-- The mode that the execution was admitted in. -/
def mode (e : Execution) : Value := (e.metadata.get? "mode").getD (.text "")

/-- The seconds since the start. -/
def elapsed (e : Execution) (now : Float) : Float := now - e.started

/-- Seconds as whole milliseconds. -/
def milliseconds (seconds : Float) : Except Fault Int := (Value.float (seconds * 1000.0)).toInteger

/-- The step cursor moved forward, and never past the last step. -/
def advance (e : Execution) (target : Int) : Except Fault Execution :=
  if target ≤ e.currentStep || e.totalSteps < target then
    .error (.badCursor (.int target) (.int e.currentStep) (.int e.totalSteps))
  else .ok { e with currentStep := target }

/-- The variables overlaid with the outputs of a step. -/
def mergeOutputs (e : Execution) (outputs : Entries) : Execution :=
  { e with scope := e.scope.merge outputs }

/-- The variables overlaid with whatever a value lists. What stands before a fault is kept. -/
def update (e : Execution) (outputs : Value) : Execution × Option Fault :=
  if outputs.truthy then
    let (entries, fault) := outputs.listed
    (e.mergeOutputs entries, fault)
  else (e, none)

/-- The execution at its end. The status and the moment are recorded also when the duration cannot
be told in milliseconds. -/
def finish (e : Execution) (status : ExecutionStatus) (now : Float) : Execution × Option Fault :=
  let e := { e with status, ended := true }
  match milliseconds (e.elapsed now) with
  | .ok ms => ({ e with durationMs := some ms }, none)
  | .error fault => (e, some fault)

/-- The record of an execution. -/
def toValue (e : Execution) : Value :=
  Value.record [("id", e.id), ("workflow_id", e.workflowId), ("workflow_name", e.workflowName),
    ("status", .text e.status.label), ("started_at", Value.moment),
    ("ended_at", if e.ended then Value.moment else .null),
    ("duration_ms", (e.durationMs.map Value.int).getD .null), ("current_step", .int e.currentStep),
    ("total_steps", .int e.totalSteps), ("variables", .dict e.scope),
    ("results", .list (StepResult.toValues e.results)), ("errors", .list e.errors),
    ("metadata", .dict e.metadata), ("summary", e.summary), ("error", e.error)]

/-- The context of a step. -/
def context (e : Execution) (stepIndex : Int) : Context :=
  { execution := e.id.toText, stepIndex, scope := e.scope, mode := e.mode }

/-- The fields that an execution can be built from. -/
def signature : Signature where
  owner := "Execution.__init__"
  parameters := [⟨"id", none⟩, ⟨"workflow_id", none⟩, ⟨"workflow_name", none⟩, ⟨"total_steps", none⟩,
    ⟨"variables", some (.dict [])⟩, ⟨"status", some (.text "running")⟩,
    ⟨"started_at", some Value.moment⟩, ⟨"ended_at", some .null⟩, ⟨"duration_ms", some .null⟩,
    ⟨"current_step", some (.int 0)⟩, ⟨"results", some (.list [])⟩, ⟨"errors", some (.list [])⟩,
    ⟨"metadata", some (.dict [])⟩, ⟨"summary", some .null⟩, ⟨"error", some .null⟩,
    ⟨"traceback", some .null⟩, ⟨"start_monotonic", some (.float 0.0)⟩,
    ⟨"cancel_requested", some (.bool false)⟩]

/-- The execution with the given fields. -/
def ofFields (fields : Entries) : Except Fault Execution := do
  let bound ← signature.byName fields
  let get := boundValue bound
  return {
    id := get "id"
    workflowId := get "workflow_id"
    workflowName := get "workflow_name"
    totalSteps := (get "total_steps").integer?.getD 0
    scope := (get "variables").listed.1
    ended := !(get "ended_at").isNull
    durationMs := (get "duration_ms").integer?
    currentStep := (get "current_step").integer?.getD 0
    results := ((get "results").items?.getD []).filterMap StepResult.ofReport?
    errors := (get "errors").items?.getD []
    metadata := (get "metadata").listed.1
    summary := get "summary"
    error := get "error"
    cancelRequested := (get "cancel_requested").truthy }

end Execution

namespace Context

/-- A context of the same step with a copy of the scope, overlaid with more variables. -/
def derive (c : Context) (extra : Entries) : Context :=
  { c with scope := c.scope.merge extra }

end Context

end Runbook
