import Runbook.Delay
import Runbook.Event.Announcement
import Runbook.Policy
import Runbook.Fault.Refusal
import Runbook.Lookup
import Runbook.Template

/-! # The interpreter

Runs one step of any kind against a context and yields its result. The outputs of a result are what
the step wants to publish; the interpreter changes no scope. A fault inside a step becomes a result
that says so, so that only a cancellation ends an interpretation early.
-/

namespace Runbook

/-- What an interpreter asks those around it: whether a tool is known, and whether it may run in a
mode. Without an authority every known tool may. -/
structure Authority (σ : Type) where
  knows : String → σ → Bool × σ
  permits : Option (String → Entries → Value → σ → Except Fault Bool × σ) := none

/-- An interpreter, with the test for whether what it works for has been cancelled. -/
structure Interpreter (σ : Type) where
  policies : Policies
  authority : Authority σ
  isCancelled : World σ → Bool

/-- Texts put together with a separator between them; the first item that is no text is a fault. -/
def Value.join (separator : String) : List Value → Except Fault String :=
  fun items => (go 0 items).map (separator.intercalate ·)
where
  /-- The texts of items numbered from `index`. -/
  go (index : Nat) : List Value → Except Fault (List String)
    | [] => .ok []
    | .text s :: rest => (go (index + 1) rest).map (s :: ·)
    | .status s :: rest => (go (index + 1) rest).map (s.label :: ·)
    | v :: _ => .error (.notJoinable index v.kind)

/-- The larger of zero and a number. -/
def Value.atLeastZero (v : Value) : Except Fault Value := do
  if ← v.exceeds (.int 0) then return v else return .int 0

namespace Interpreter

variable {σ : Type}

/-- The result of a step that was carried out. -/
def finished (context : Context) (success : Bool) (details : Details) (outputs : Entries := [])
    (error : Value := .null) : StepResult :=
  { stepIndex := context.stepIndex, status := if success then .completed else .failed, success
    outputs, error, details }

/-- An attempt at a step, with its faults made into results and its duration recorded. -/
def timed (context : Context) (attempt : Attempt σ StepResult) : Attempt σ StepResult := do
  let started ← Attempt.lift .clock
  let result ← try attempt catch
    | .fault fault => pure (StepResult.ofError context.stepIndex (.text fault.message))
    | .cancelled message => throw (.cancelled message)
  let ended ← Attempt.lift .clock
  let durationMs ← Attempt.ofExcept (Execution.milliseconds (ended - started))
  return { result with durationMs }

/-- An attempt at a nested step, unless its pre-check fails. -/
def checked (step : Step) (context : Context) (attempt : Attempt σ StepResult) :
    Attempt σ StepResult := do
  if ← Attempt.ofExcept (Condition.allHold context.scope step.common.conditions) then attempt
  else return StepResult.skipped context.stepIndex

/-! ## Tools and commands -/

/-- It is asked whether a tool is known. -/
def ask (i : Interpreter σ) (context : Context) (tool : String) (w : World σ) : Bool × World σ :=
  let (known, memory) := i.authority.knows tool w.memory
  (known, World.note { w with memory } (.asked context.execution tool known))

/-- It is asked whether a tool may run in the mode of a context. -/
def judge (i : Interpreter σ) (context : Context) (tool : String) (parameters : Entries)
    (w : World σ) : Except Fault Bool × World σ :=
  match i.authority.permits with
  | none => (.ok true, w)
  | some permits =>
    let (allowed, memory) := permits tool parameters context.mode w.memory
    (allowed,
      World.note { w with memory } (.judged context.execution tool parameters context.mode allowed))

/-- What a tool returned, as a table. -/
def tabulated : Value → Entries
  | .dict entries => entries
  | v => [(.text "success", .bool v.truthy), (.text "result", v)]

/-- Call a tool that is known and may run. -/
def invoke (i : Interpreter σ) (tool : Value) (parameters : Entries) (context : Context) :
    Attempt σ Entries := do
  match tool with
  | .text name =>
    unless ← Attempt.lift (.update (i.ask context name)) do Attempt.fail (.unknownTool tool)
    let allowed ← Attempt.ofExcept (← Attempt.lift (.update (i.judge context name parameters)))
    unless allowed do Attempt.fail (Fault.notPermittedIn tool context.mode)
    Attempt.lift (.change (·.note (.called context.execution name parameters)))
    return tabulated (← Attempt.perform (.tool name parameters))
  | _ => Attempt.fail (.unknownTool tool)

/-- The error of a call: none after a success, else what the tool reported or some text. -/
def callError (success : Bool) (raw : Entries) (otherwise : String) : Value :=
  if success then .null else (raw.getD "error").orElse (.text otherwise)

/-- A tool step. -/
def runTool (i : Interpreter σ) (name : String) (parameters outputs : Entries) (context : Context) :
    Attempt σ StepResult := do
  let resolved := Value.resolveEntries context.scope parameters
  let raw ← i.invoke (.text name) resolved context
  let success := (raw.getD "success").truthy
  let published ← Attempt.ofExcept (Value.extract (.dict outputs) (.dict raw))
  return finished context success (.tool name resolved raw) published
    (callError success raw ("Tool '" ++ name ++ "' failed"))

/-- A command step. -/
def runCommand (i : Interpreter σ) (command directory : Value) (outputs : Entries)
    (context : Context) : Attempt σ StepResult := do
  let command := command.resolve context.scope
  let place : Entries :=
    if directory.truthy then [(.text "cwd", directory.resolve context.scope)] else []
  let raw ← i.invoke i.policies.commandTool ((.text "command", command) :: place) context
  let success := (raw.getD "success").truthy
  let published ← Attempt.ofExcept (Value.extract (.dict outputs) (.dict raw))
  return finished context success (.command command raw) published
    (callError success raw ("Command failed: " ++ command.toText))

/-! ## Conditional steps and loops -/

/-- The result of a conditional step whose branch has been run. -/
def adoptBranch (i : Interpreter σ) (context : Context) (met : Bool) (taken : Taken)
    (branch : StepResult) : StepResult :=
  let details := Details.branch met taken (some branch)
  match i.policies.conditionalResults with
  | .nest => finished context true details
  | .adopt => finished context branch.countsAsSuccess details branch.outputs branch.error

/-- The items of a loop. -/
def loopItems : Value → Except Fault (List Value)
  | .list items | .tuple items => .ok items
  | v => .error (.notItems (.text v.kind))

/-- The most rounds of a loop: its own limit unless that is missing or zero, else the interpreter's. -/
def loopLimit (i : Interpreter σ) (own : Option Int) : Except Fault Value :=
  ((own.map Value.int).getD .null |>.orElse i.policies.maxIterations).atLeastZero

/-- The scope of a round: the item and its index beside what is there already. -/
def roundScope (itemVariable indexVariable item : Value) (index : Nat) :
    Except Fault Entries := do
  if let some kind := itemVariable.unhashable? then throw (.unhashable kind)
  if let some kind := indexVariable.unhashable? then throw (.unhashable kind)
  return Entries.ofList [(itemVariable, item), (indexVariable, .int index)]

/-- The rounds of a loop that have been run. -/
structure Rounds where
  /-- The rounds, the latest first. -/
  done : List Iteration := []
  /-- What the successful rounds want to publish. -/
  outputs : Entries := []
  cancelled : Bool := false

/-- The rounds of a loop over items, the first of which has number `index`. -/
def rounds (i : Interpreter σ) (itemVariable indexVariable : Value) (stops : Bool)
    (context : Context) (body : Context → Attempt σ StepResult) (index : Nat) (soFar : Rounds) :
    List Value → Attempt σ Rounds
  | [] => pure soFar
  | item :: rest => do
    if ← Attempt.lift (.look i.isCancelled) then return { soFar with cancelled := true }
    Attempt.lift (.change (·.note (.iterated context.execution context.stepIndex index)))
    let scope ← Attempt.ofExcept (roundScope itemVariable indexVariable item index)
    let result ← body (context.derive scope)
    let published :=
      if result.success && i.policies.loopOutputs == .propagate then result.outputs else []
    let soFar := { soFar with
      done := { index, item, result } :: soFar.done
      outputs := soFar.outputs.merge published }
    if !result.countsAsSuccess && stops then return soFar
    rounds i itemVariable indexVariable stops context body (index + 1) soFar rest

/-- The result of a loop after its rounds. -/
def loopResult (context : Context) (r : Rounds) : StepResult :=
  let done := r.done.reverse
  if r.cancelled then
    finished context false (.iterations done true) [] (.text "Execution cancelled")
  else
    let failed := done.find? fun round => !round.result.countsAsSuccess
    finished context failed.isNone (.iterations done false) r.outputs (match failed with
      | none => .null
      | some round =>
        .text ("Iteration " ++ Number.intText round.index ++ ": " ++ round.result.error.toText))

/-! ## Parallel steps -/

/-- Take what branches left behind. A branch that left nothing was cancelled before it began. -/
def collect (ids : List TaskId) (w : World σ) : List Outcome × World σ :=
  (ids.map fun id =>
      ((w.agenda.outcomes.find? (·.1 == id)).map (·.2)).getD (.error (.cancelled "")),
    { w with agenda := { w.agenda with
      outcomes := w.agenda.outcomes.filter fun o => !ids.contains o.1 } })

/-- Leave behind the outcome of a branch. -/
def leave (id : TaskId) (outcome : Outcome) (w : World σ) : World σ :=
  { w with agenda := { w.agenda with outcomes := w.agenda.outcomes ++ [(id, outcome)] } }

/-- Create a task for each branch. -/
def createBranches : List (Attempt σ StepResult) → Routine σ (List TaskId)
  | [] => pure []
  | branch :: rest => do
    let id ← Routine.create fun id => do
      let outcome ← ExceptT.run branch
      Routine.change (leave id outcome)
    let ids ← createBranches rest
    return id :: ids

/-- The results of branches. A cancelled one cancels the whole; a fault becomes a result. -/
def settled (context : Context) : List Outcome → Except Interrupt (List StepResult)
  | [] => .ok []
  | .ok result :: rest => (settled context rest).map (result :: ·)
  | .error (.fault fault) :: rest =>
    (settled context rest).map (StepResult.ofError context.stepIndex (.text fault.message) :: ·)
  | .error (.cancelled _) :: _ => .error (.cancelled "")

/-- The result of a parallel step after its branches. -/
def parallelResult (context : Context) (results : List StepResult) : Except Fault StepResult := do
  if results.all (·.countsAsSuccess) then return finished context true (.branches results)
  let errors ← Value.join "; " ((results.map (·.error)).filter (·.truthy))
  return finished context false (.branches results) []
    ((Value.text errors).orElse (.text "Parallel branch failed"))

/-- Branches side by side. -/
def runBranches (context : Context) (branches : List (Attempt σ StepResult)) :
    Attempt σ StepResult := do
  let ids ← Attempt.lift (createBranches branches)
  Attempt.await (.tasks ids)
  let outcomes ← Attempt.lift (.update (collect ids))
  let results ← ExceptT.mk (pure (settled context outcomes))
  Attempt.ofExcept (parallelResult context results)

/-! ## Delays and manual steps -/

/-- A delay step. -/
def runDelay (delay : Value) (context : Context) : Attempt σ StepResult := do
  let ms ← Attempt.ofExcept (delay.resolve context.scope).toDelay
  Attempt.await (.time (ms / 1000.0))
  return finished context true (.delay ms)

/-- Open a request at the gate for the step of a context. -/
def openRequest (context : Context) (w : World σ) : String × World σ :=
  let (gate, token) := w.gate.request context.execution context.stepIndex
  (token, { w with gate })

/-- Take the answer to a request off the gate, if there is one. -/
def takeAnswer (token : String) (w : World σ) : Option Decision × World σ :=
  ((w.gate.find? token).bind (·.answer?), { w with gate := w.gate.withdraw token })

/-- Wait for the answer to a request; however the wait ends, the request is pending no longer. -/
def awaitAnswer (token : String) : Attempt σ Decision := do
  let wake ← Attempt.lift (.await (.decision token))
  let answer ← Attempt.lift (.update (takeAnswer token))
  match wake, answer with
  | .ready, some decision => return decision
  | _, _ => throw (.cancelled "")

/-- A manual step. -/
def runManual (i : Interpreter σ) (step : Step) (given : Value) (context : Context) :
    Attempt σ StepResult := do
  let instructions := (given.orElse step.common.description).resolve context.scope
  match i.policies.manualSteps with
  | .auto =>
    announce (.manual context.execution step context.stepIndex instructions none)
    return finished context true (.notice instructions)
  | .await =>
    let token ← Attempt.lift (.update (openRequest context))
    announce (.manual context.execution step context.stepIndex instructions (some token))
    let decision ← awaitAnswer token
    let details := Details.decision instructions token decision.note
    if decision.approved.truthy then return finished context true details
    return finished context false details [] (decision.note.orElse (.text "Manual step rejected"))

/-! ## Steps of every kind -/

mutual

/-- Run a step. -/
def interpret (i : Interpreter σ) : Step → Context → Attempt σ StepResult
  | .tool _ name parameters outputs, context =>
    timed context (i.runTool name parameters outputs context)
  | .command _ command directory outputs, context =>
    timed context (i.runCommand command directory outputs context)
  | .conditional _ condition thenStep elseStep, context => timed context do
    let met ← Attempt.ofExcept (Condition.allHold context.scope condition)
    match met, thenStep, elseStep with
    | true, some branch, _ =>
      let result ← i.interpretNested branch (context.derive [])
      return i.adoptBranch context true .thenBranch result
    | false, _, some branch =>
      let result ← i.interpretNested branch (context.derive [])
      return i.adoptBranch context false .elseBranch result
    | met, _, _ => return finished context true (.branch met .neither none)
  | .loop common items itemVariable indexVariable limit body, context => timed context do
    let items ← Attempt.ofExcept (loopItems (items.resolve context.scope))
    match body with
    | none => Attempt.fail (.invalid "Loop step requires a 'step' body")
    | some body =>
      let limit ← Attempt.ofExcept (i.loopLimit limit)
      let chosen ← Attempt.ofExcept (Value.frontOf items limit)
      let done ← i.rounds itemVariable indexVariable (common.stopOnFailure.getD false) context
        (fun context => i.interpretNested body context) 0 {} chosen
      return loopResult context done
  | .parallel _ steps, context =>
    timed context (runBranches context (i.branches steps (context.derive [])))
  | .delay _ delay, context => timed context (runDelay delay context)
  | .manual common instructions, context =>
    timed context (i.runManual (.manual common instructions) instructions context)
  | .unknown _ tag _, context => timed context (Attempt.fail (.unknownStepType (.text tag)))
termination_by step => 2 * sizeOf step

/-- Run a step inside another one, unless its pre-check fails. -/
def interpretNested (i : Interpreter σ) : Step → Context → Attempt σ StepResult
  | step, context => checked step context (i.interpret step context)
termination_by step => 2 * sizeOf step + 1

/-- The branches of a parallel step, each with its own copy of the scope. -/
def branches (i : Interpreter σ) : List Step → Context → List (Attempt σ StepResult)
  | [], _ => []
  | step :: rest, context => i.interpretNested step (context.derive []) :: i.branches rest context
termination_by steps => 2 * sizeOf steps

end

end Interpreter

end Runbook
