import Runbook.Value.Coercion

/-! # Results of steps

What the interpreter reports about one step. The details depend on the kind of step and hold the
results of the steps inside it. `StepResult.toValue` is the record that is shown and stored: the
standard fields, then the details as fields of their own, in which every result has become its own
record.
-/

namespace Runbook

/-- The branch that a conditional step followed. -/
inductive Taken where
  | thenBranch
  | elseBranch
  | neither
deriving DecidableEq, Repr

/-- The word for a branch. -/
def Taken.label : Taken → String
  | .thenBranch => "then"
  | .elseBranch => "else"
  | .neither => "none"

mutual

/-- The outcome of one step. -/
structure StepResult where
  stepIndex : Int
  status : StepStatus
  success : Bool
  outputs : Entries := []
  /-- Null, or what went wrong: a text, or whatever a tool reported. -/
  error : Value := .null
  durationMs : Int := 0
  details : Details

/-- What a result tells besides the standard fields. -/
inductive Details where
  | nothing
  /-- Fields given from outside. -/
  | given (fields : Entries)
  | reason (text : String)
  | tool (name : String) (parameters raw : Entries)
  | command (command : Value) (raw : Entries)
  | branch (met : Bool) (taken : Taken) (result : Option StepResult)
  | iterations (done : List Iteration) (cancelled : Bool)
  | branches (results : List StepResult)
  | delay (ms : Float)
  | notice (instructions : Value)
  | decision (instructions : Value) (token : String) (note : Value)

/-- One round of a loop. -/
structure Iteration where
  index : Nat
  item : Value
  result : StepResult

end

instance : Inhabited StepResult :=
  ⟨{ stepIndex := 0, status := .error, success := false, details := .nothing }⟩

/-- A moment in a record. Records tell that something has a time, and not which. -/
def Value.moment : Value := .text "<time>"

namespace Value

/-- The standard fields of a result's record. -/
def resultFields (i : Int) (s : StepStatus) (ok : Bool) (outputs : Entries) (error : Value)
    (ms : Int) : Entries :=
  [(text "step_index", int i), (text "status", text s.label), (text "success", bool ok),
    (text "outputs", dict outputs), (text "error", error), (text "duration_ms", int ms),
    (text "timestamp", moment)]

/-- The text that an object shows as its value. -/
def shownText? (attributes : List (String × Value)) : Option String :=
  match attributes.find? (·.1 == "value") with
  | some (_, text s) => some s
  | some (_, status s) => some s.label
  | _ => none

mutual

/-- A detail as it is shown: records of steps are laid open inside lists and tables, and an object
or status with a text for its value becomes that text. -/
def plain : Value → Value
  | list items => list (plainItems items)
  | dict entries => dict (plainEntries entries)
  | object attributes =>
    match shownText? attributes with
    | some s => text s
    | none => object attributes
  | status s => text s.label
  | condition subject operator comparand =>
    match comparand with
    | text s => text s
    | _ => condition subject operator comparand
  | report i s ok outputs error ms details =>
    dict (Entries.merge (resultFields i s ok outputs error ms) (plainEntries details))
  | v => v

/-- The items of a list as they are shown. -/
def plainItems : List Value → List Value
  | [] => []
  | v :: rest => v.plain :: plainItems rest

/-- The entries of a table as they are shown. -/
def plainEntries : List (Value × Value) → List (Value × Value)
  | [] => []
  | (k, v) :: rest => (k, v.plain) :: plainEntries rest

end

end Value

namespace StepResult

/-- The result of a step whose pre-check failed. -/
def skipped (stepIndex : Int) (reason : String := "conditions not met") : StepResult :=
  { stepIndex, status := .skipped, success := false, details := .reason reason }

/-- The result of a step that ended in an error. -/
def ofError (stepIndex : Int) (error : Value) (durationMs : Int := 0) : StepResult :=
  { stepIndex, status := .error, success := false, error, durationMs, details := .nothing }

/-- The result that a record of a finished step stands for. -/
def ofReport? : Value → Option StepResult
  | .report stepIndex status success outputs error durationMs details =>
    some { stepIndex, status, success, outputs, error, durationMs, details := .given details }
  | _ => none

/-- Successful or skipped. -/
def countsAsSuccess (r : StepResult) : Bool := r.success || r.status == .skipped

end StepResult

mutual

/-- The record of a result. -/
def StepResult.toValue : StepResult → Value
  | ⟨i, s, ok, outputs, error, ms, details⟩ =>
    .dict (Entries.merge (Value.resultFields i s ok outputs error ms) details.fields)

/-- The fields that the details of a result add to its record. -/
def Details.fields : Details → Entries
  | .nothing => []
  | .given fields => Value.plainEntries fields
  | .reason text => [(.text "reason", .text text)]
  | .tool name parameters raw =>
    [(.text "tool", .text name), (.text "parameters", .dict (Value.plainEntries parameters)),
      (.text "raw_result", .dict (Value.plainEntries raw))]
  | .command command raw =>
    [(.text "command", command.plain), (.text "raw_result", .dict (Value.plainEntries raw))]
  | .branch met taken none =>
    [(.text "condition_met", .bool met), (.text "branch_taken", .text taken.label)]
  | .branch met taken (some result) =>
    [(.text "condition_met", .bool met), (.text "branch_taken", .text taken.label),
      (.text "branch_result", result.toValue)]
  | .iterations done cancelled =>
    [(.text "iterations", .list (Iteration.toValues done)),
      (.text "total_iterations", .int done.length)] ++
      if cancelled then [(.text "cancelled", .bool true)] else []
  | .branches results =>
    [(.text "results", .list (StepResult.toValues results)), (.text "parallel_steps", .int results.length)]
  | .delay ms => [(.text "delay_ms", .float ms)]
  | .notice instructions =>
    [(.text "manual", .bool true), (.text "instructions", instructions.plain)]
  | .decision instructions token note =>
    [(.text "manual", .bool true), (.text "instructions", instructions.plain),
      (.text "token", .text token), (.text "note", note.plain)]

/-- The records of the rounds of a loop. -/
def Iteration.toValues : List Iteration → List Value
  | [] => []
  | ⟨index, item, result⟩ :: rest =>
    .dict [(.text "index", .int index), (.text "item", item.plain),
      (.text "result", result.toValue)] :: Iteration.toValues rest

/-- The records of several results. -/
def StepResult.toValues : List StepResult → List Value
  | [] => []
  | r :: rest => r.toValue :: StepResult.toValues rest

end

end Runbook
