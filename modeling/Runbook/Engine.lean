import Runbook.Engine.Config
import Runbook.Interpreter

/-! # The engine

Admits executions while there is room for them, walks through the steps of each in order, and retires
it into the history when it is over. Between steps it looks whether the execution has been cancelled
or has used up its time; a step that is running is never cut short.

A skipped step is recorded and passed over. An error in a step ends the execution unless the step is
optional, and an unsuccessful step ends it unless the step says otherwise.
-/

namespace Runbook

/-- An engine: its settings, what it asks those around it, and who tells the active mode. -/
structure Engine (σ : Type) where
  config : Engine.Config := {}
  authority : Authority σ
  mode : Option (σ → Except Fault Value × σ) := none

namespace Engine

variable {σ : Type}

/-! ## Admission -/

/-- The mode of an execution when nobody tells one. -/
def defaultMode : Value := .text "default"

/-- The identifier of the `n`-th execution. -/
def executionId (n : Nat) : String := "exec_1700000000000_" ++ Workflow.serial n

/-- The mode that is active. -/
def currentMode (e : Engine σ) (memory : σ) : Except Fault Value × σ :=
  match e.mode with
  | none => (.ok defaultMode, memory)
  | some tell => tell memory

/-- The record of an execution at its start. -/
def newExecution (e : Engine σ) (id : String) (workflow : Workflow) (scope : Entries)
    (options : Options) (mode : Value) (now : Float) : Execution :=
  { id := .text id, workflowId := .text workflow.id, workflowName := .text workflow.name
    totalSteps := workflow.steps.length
    scope := workflow.scope.merge scope
    metadata := [(.text "triggered_by", options.triggeredBy), (.text "user_id", options.userId),
      (.text "mode", mode), (.text "timeout", options.timeout.orElse e.config.defaultTimeout)]
    started := now }

/-- Create an execution and make it active, or refuse when as many are running as may. -/
def enroll (e : Engine σ) (workflow : Workflow) (options : Options) (w : World σ) :
    Except Fault String × World σ :=
  match (Value.int w.ledger.active.length).reaches e.config.maxConcurrent with
  | .error fault => (.error fault, w)
  | .ok true => (.error (.atCapacity e.config.maxConcurrent), w)
  | .ok false =>
    match e.currentMode w.memory with
    | (.error fault, memory) => (.error fault, { w with memory })
    | (.ok mode, memory) =>
      let n := w.ledger.generated + 1
      let id := executionId n
      let ledger := { w.ledger with generated := n }
      match (options.scope.orElse (.dict [])).mapping with
      | .error fault => (.error fault, { w with memory, ledger })
      | .ok scope =>
        let execution := e.newExecution id workflow scope options mode w.agenda.now
        (.ok id, World.note { w with memory, ledger := ledger.enroll id execution }
          (.admitted id workflow options))

/-- The workflow that a value defines. -/
def readWorkflow (v : Value) (w : World σ) : Except Fault Workflow × World σ :=
  let (workflow, workflowIds) := Workflow.read w.workflowIds v
  (workflow, { w with workflowIds })

/-- Read a workflow and its options and admit them. -/
def submit (e : Engine σ) (workflow options : Value) : Attempt σ (Workflow × String) := do
  let workflow ← Attempt.ofExcept (← Attempt.lift (.update (readWorkflow workflow)))
  let options ← Attempt.ofExcept (Options.read options)
  let id ← Attempt.ofExcept (← Attempt.lift (.update (e.enroll workflow options)))
  return (workflow, id)

/-! ## The way through the steps -/

/-- The record of an execution. -/
def record (w : World σ) (id : String) : Execution := (w.ledger.record? id).getD default

/-- The world with the record of an execution changed. -/
def amend (id : String) (f : Execution → Execution) (w : World σ) : World σ :=
  { w with ledger := w.ledger.amend id f }

/-- The world with an execution at its end. A duration that cannot be told is a fault, after
everything else is recorded. -/
def finish (id : String) (status : ExecutionStatus) (w : World σ) : Except Fault Unit × World σ :=
  let (execution, fault) := (record w id).finish status w.agenda.now
  let w := amend id (fun _ => execution) w
  match fault with
  | some fault => (.error fault, w.note (.untimed id))
  | none => (.ok (), w)

/-- The check before a step: nothing more is done for a cancelled execution, one that has used up its
time is at fault, and for any other the cursor moves on. -/
def boundary (id : String) (index : Nat) (w : World σ) : Except Fault Bool × World σ :=
  let execution := record w id
  if execution.cancelRequested then (.ok false, w)
  else
    match (Value.float (execution.elapsed w.agenda.now)).exceeds execution.timeout with
    | .error fault => (.error fault, w)
    | .ok true =>
      (.error (.timedOut execution.timeout),
        w.note (.expired id index (execution.elapsed w.agenda.now)))
    | .ok false =>
      match execution.advance (index + 1) with
      | .error fault => (.error fault, w)
      | .ok execution => (.ok true, amend id (fun _ => execution) w)

/-- The interpreter that works for an execution. -/
def interpreter (e : Engine σ) (id : String) : Interpreter σ where
  policies := e.config.policies
  authority := e.authority
  isCancelled w := (record w id).cancelRequested

/-- Run a step of the workflow, unless its pre-check fails. A fault becomes a result. -/
def runStep (e : Engine σ) (id : String) (step : Step) (index : Nat) : Attempt σ StepResult := do
  let execution ← Attempt.lift (.look fun w => record w id)
  match Condition.allHold execution.scope step.common.conditions with
  | .error fault => pure (StepResult.ofError index (.text fault.message))
  | .ok false => pure (StepResult.skipped index)
  | .ok true =>
    Attempt.lift (.change (·.note (.entered id index)))
    let context := execution.context index
    let outcome ← Attempt.lift (ExceptT.run ((e.interpreter id).interpret step context))
    Attempt.lift (.change (·.note (.interpreted step context outcome)))
    match outcome with
    | .ok result => pure result
    | .error (.fault fault) => pure (StepResult.ofError index (.text fault.message))
    | .error (.cancelled message) => throw (.cancelled message)

/-- The entry of a step in the errors of its execution. -/
def errorEntry (index : Nat) (error : Value) : Value :=
  Value.record [("step_index", .int index), ("error", error)]

/-- The record of an execution after a step: the result, its error, or its outputs in the scope. -/
def absorb (index : Nat) (result : StepResult) (execution : Execution) : Execution :=
  let execution := { execution with results := execution.results ++ [result] }
  match result.status with
  | .skipped => execution
  | .error => { execution with errors := execution.errors ++ [errorEntry index result.error] }
  | _ => execution.mergeOutputs result.outputs

/-- Record the result of a step, unless its execution has been cancelled. -/
def recordResult (id : String) (index : Nat) (result : StepResult) (w : World σ) :
    Bool × World σ :=
  if (record w id).cancelRequested then (false, w)
  else (true, amend id (absorb index result) w)

/-- The event that tells how a step ended. -/
def stepEvent (id : String) (step : Step) (index : Nat) (result : StepResult) : Event :=
  if result.status == .error then .stepFailed id step index result
  else .stepCompleted id step index result

/-- The execution goes on after a step with a result. -/
def goesOn (step : Step) (result : StepResult) : Bool :=
  match result.status with
  | .skipped => true
  | .error => step.common.optional
  | _ => result.success || step.common.stopOnFailure == some false

/-- Run the steps of an execution from number `index` on. -/
def runSteps (e : Engine σ) (id : String) : Nat → List Step → Attempt σ Unit
  | _, [] => pure ()
  | index, step :: rest => do
    if ← Attempt.ofExcept (← Attempt.lift (.update (boundary id index))) then
      announce (.stepStarted id step index)
      let result ← e.runStep id step index
      if ← Attempt.lift (.update (recordResult id index result)) then
        announce (stepEvent id step index result)
        if goesOn step result then e.runSteps id (index + 1) rest

/-! ## The end of an execution -/

/-- The counts of an execution's results. -/
def summary (totalSteps : Int) (results : List StepResult) : Value :=
  let count (p : StepResult → Bool) : Value := .int (results.filter p).length
  Value.record [("success", .bool (results.all (·.countsAsSuccess))), ("total_steps", .int totalSteps),
    ("completed_steps", count (·.success)), ("skipped_steps", count (·.status == .skipped)),
    ("failed_steps", count fun r => !r.countsAsSuccess)]

/-- End an execution after its steps, unless it has been cancelled. -/
def conclude (id : String) (w : World σ) : Except Fault Bool × World σ :=
  let execution := record w id
  if execution.status == .cancelled then (.ok false, w)
  else
    let success := execution.results.all (·.countsAsSuccess)
    let w := amend id ({ · with summary := summary execution.totalSteps execution.results }) w
    let (finished, w) := finish id (if success then .completed else .failed) w
    (finished.map fun _ => true, w)

/-- End an execution after a fault, unless it has been cancelled. -/
def abort (id : String) (fault : Fault) (w : World σ) : Except Fault Bool × World σ :=
  if (record w id).status == .cancelled then (.ok false, w)
  else
    let w := amend id ({ · with error := .text fault.message, traced := true }) w
    let (finished, w) := finish id .error w
    (finished.map fun _ => true, w)

/-- End an execution whose task has been cancelled, if it is still running. -/
def interrupt (id : String) (w : World σ) : Except Fault Unit × World σ :=
  if (record w id).isActive then
    finish id .cancelled (amend id ({ · with error := .text "Execution task was cancelled" }) w)
  else (.ok (), w)

/-- Move an execution that is active into the history. -/
def retire (e : Engine σ) (id : String) (w : World σ) : World σ :=
  if w.ledger.isActive id then
    World.note { w with ledger := w.ledger.retire e.config.historyLimit id } (.retired id)
  else w

/-- Run an admitted execution to its end. -/
def drive (e : Engine σ) (workflow : Workflow) (id : String) : Attempt σ Unit :=
  let course : Attempt σ Unit := do
    announce (.started id)
    e.runSteps id 0 workflow.steps
    let _ ← announcing (.completed id) (conclude id)
  let attempt : Attempt σ Unit := do
    try course catch
      | .cancelled message => do
        Attempt.ofExcept (← Attempt.lift (.update (interrupt id)))
        throw (.cancelled message)
      | .fault fault => do
        let _ ← announcing (.failed id) (abort id fault)
  attempt.ensuring (.change (e.retire id))

/-! ## What callers can do -/

/-- Run a workflow to its end and yield the identifier of its execution. -/
def execute (e : Engine σ) (workflow options : Value) : Attempt σ String := do
  let (workflow, id) ← e.submit workflow options
  e.drive workflow id
  return id

/-- The world with a task in the table of background tasks until it ends. -/
def keep (id : String) (task : TaskId) (w : World σ) : World σ :=
  { w with
    background := w.background ++ [(id, task)]
    agenda := w.agenda.watch task (.background id) (.forget id) }

/-- Admit a workflow, run it in the background, and yield the identifier of its execution. -/
def start (e : Engine σ) (workflow options : Value) : Attempt σ String := do
  let (workflow, id) ← e.submit workflow options
  let task ← Attempt.lift (.create fun _ => do
    let _ ← ExceptT.run (e.drive workflow id)
    return ())
  Attempt.lift (.change (keep id task))
  return id

/-- The first part of a cancellation: an active execution ends and is retired, and all its requests at
the gate are released. -/
def withdraw (e : Engine σ) (id : String) (w : World σ) : Except Fault Bool × World σ :=
  if w.ledger.isActive id then
    match finish id .cancelled (amend id ({ · with cancelRequested := true }) w) with
    | (.error fault, w) => (.error fault, w)
    | (.ok _, w) =>
      let (w, _) := (e.retire id w).releaseGate id (.text "Execution cancelled")
      (.ok true, w.note (.cancelled id))
  else (.ok false, w)

/-- Cancel an active execution. A step that is running goes on, but nothing more comes of it. -/
def cancel (e : Engine σ) (id : String) : Attempt σ Bool :=
  announcing (.cancelled id) (e.withdraw id)

/-- Answer a manual step of an active execution. -/
def acknowledge (id : String) (decision : Decision) (token : Value) (w : World σ) : Bool × World σ :=
  if w.ledger.isActive id then
    let (w, found) := w.acknowledge id decision token
    (found, w)
  else (false, w)

/-- Cancel the tasks that run executions in the background. -/
def cancelBackground (w : World σ) : List TaskId × World σ :=
  let tasks := w.background.map (·.2)
  (tasks, tasks.foldl (fun w task => (w.cancel task).1) w)

/-- Cancel what runs in the background and wait until it has ended. -/
def shutdown : Attempt σ Unit := do
  let tasks ← Attempt.lift (.update cancelBackground)
  Attempt.await (.tasks tasks)

/-! ## What callers can ask -/

/-- The pending manual steps of an execution. -/
def pendingSteps (w : World σ) (id : String) : Value :=
  .list ((w.gate.pending id).map fun r =>
    Value.record [("token", .text r.token), ("step_index", .int r.stepIndex)])

/-- The finished executions, newest first, or the front of them. -/
def history (w : World σ) (limit : Value) : Except Fault (List Execution) :=
  Value.frontOf w.ledger.finished limit

/-- The world without history. -/
def clearHistory (w : World σ) : World σ := World.note { w with ledger := w.ledger.clear } .cleared

/-- The counts of executions. -/
def stats (e : Engine σ) (w : World σ) : Value :=
  let finished := w.ledger.finished
  let count (p : ExecutionStatus → Bool) : Value := .int (finished.filter fun x => p x.status).length
  Value.record [("active_executions", .int w.ledger.active.length),
    ("max_concurrent_executions", e.config.maxConcurrent),
    ("total_executions", .int finished.length),
    ("successful_executions", count (· == .completed)),
    ("failed_executions", count fun s => s == .failed || s == .error),
    ("cancelled_executions", count (· == .cancelled))]

end Engine

end Runbook
