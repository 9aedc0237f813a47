import Runbook.Step.Basic

/-! # Steps read from values

`Step.read` makes a step of a table whose entry `type` names its kind. Fields may be spelled in two
ways, or three; the first spelling that is present counts. Fields are read in the order in which the
kind lists them, so of several faults the first is reported.
-/

namespace Runbook

/-- A part of a table is smaller than the table. -/
theorem Entries.sizeOf_getD (es : Entries) (name : String) :
    sizeOf (es.getD name) < sizeOf (Value.dict es) := by
  simp only [Entries.getD, Entries.get?, Entries.lookup?, Value.dict.sizeOf_spec]
  cases found : es.find? fun e => e.1.equal (.text name) with
  | none =>
    simp only [Option.map_none, Option.getD_none, Value.null.sizeOf_spec]
    cases es with
    | nil => decide
    | cons e rest =>
      rw [List.cons.sizeOf_spec]
      omega
  | some e =>
    have smaller := List.sizeOf_lt_of_mem (List.mem_of_find?_eq_some found)
    simp only [Option.map_some, Option.getD_some]
    have part : sizeOf e.2 < sizeOf e := by cases e; simp only [Prod.mk.sizeOf_spec]; omega
    omega

/-- The entry under the first of several names that is present. -/
def Entries.first? (es : Entries) (names : List String) : Option Value :=
  names.findSome? es.get?

namespace Step

/-- The conditions of a list, of a tuple, or of a single one without a list around it. -/
def readConditions (raw : Value) : Except Fault (List Condition) :=
  match raw with
  | .null => .ok []
  | .dict entries => (Condition.read (.dict entries)).map fun c => [c]
  | .condition subject operator comparand => .ok [⟨subject, operator, comparand⟩]
  | .list items => items.mapM Condition.read
  | .tuple items => items.mapM Condition.read
  | v => .error (.invalid ("Conditions must be a list, got " ++ v.kind))

/-- The fields that every step has. -/
def Common.read (es : Entries) : Except Fault Common := do
  let conditions ← readConditions (es.getD "conditions")
  return {
    name := es.getD "name"
    description := es.getD "description"
    conditions
    optional := (es.getD "optional").truthy
    stopOnFailure := match es.first? ["stopOnFailure", "stop_on_failure"] with
      | none | some .null => none
      | some v => some v.truthy }

/-- A table given for a field; what does not count as true is an empty one. -/
def readTable (v : Value) : Except Fault Entries := (v.orElse (.dict [])).toEntries

/-- The fields of a tool step. -/
def readTool (c : Common) (es : Entries) : Except Fault Step := do
  let name := ((es.first? ["toolName", "tool_name", "tool"]).map Value.toText).getD ""
  let parameters ← readTable (es.getD "parameters")
  let outputs ← readTable (es.getD "outputs")
  return .tool c name parameters outputs

/-- The fields of a command step. -/
def readCommand (c : Common) (es : Entries) : Except Fault Step := do
  let outputs ← readTable (es.getD "outputs")
  return .command c ((es.get? "command").getD (.text ""))
    ((es.first? ["workingDirectory", "working_directory", "cwd"]).getD .null) outputs

/-- The most iterations that a loop step asks for. -/
def readLimit (es : Entries) : Except Fault (Option Int) :=
  match es.first? ["maxIterations", "max_iterations"] with
  | none | some .null => .ok none
  | some v => v.toInteger.map some

mutual

/-- The step that a table stands for. -/
def readFields (es : Entries) : Except Fault Step := do
  let c ← Common.read es
  match ((es.get? "type").map Value.toText).getD "" with
  | "tool" => readTool c es
  | "command" => readCommand c es
  | "conditional" =>
    let condition ← readConditions (es.getD "condition")
    let thenStep ← readOptional (es.getD "then")
    let elseStep ← readOptional (es.getD "else")
    return .conditional c condition thenStep elseStep
  | "loop" =>
    let limit ← readLimit es
    let body ← readOptional (es.getD "step")
    return .loop c (es.getD "items")
      ((es.first? ["itemVariable", "item_variable"]).getD (.text defaultItemVariable))
      ((es.first? ["indexVariable", "index_variable"]).getD (.text defaultIndexVariable))
      limit body
  | "parallel" =>
    let steps ← readBranches (es.getD "steps")
    return .parallel c steps
  | "delay" => return .delay c ((es.get? "delay").getD (.int 0))
  | "manual" => return .manual c (es.getD "instructions")
  | tag => return .unknown c tag es
termination_by 3 * sizeOf (Value.dict es)
decreasing_by
  · have := Entries.sizeOf_getD es "then"
    omega
  · have := Entries.sizeOf_getD es "else"
    omega
  · have := Entries.sizeOf_getD es "step"
    omega
  · have := Entries.sizeOf_getD es "steps"
    omega

/-- The step that a value stands for. -/
def read (v : Value) : Except Fault Step :=
  match v with
  | .dict entries => readFields entries
  | v => .error (.invalid ("Step must be an object, got " ++ v.kind))
termination_by 3 * sizeOf v + 1

/-- The step that a value stands for, or none for null. -/
def readOptional (v : Value) : Except Fault (Option Step) :=
  if v.isNull then .ok none else (read v).map some
termination_by 3 * sizeOf v + 2

/-- The steps of a parallel step. -/
def readBranches (v : Value) : Except Fault (List Step) :=
  if !v.truthy then .ok []
  else match v with
    | .list items => readAll items
    | _ => .error (.invalid "Parallel step 'steps' must be a list")
termination_by 3 * sizeOf v + 2

/-- The steps that the items of a list stand for. -/
def readAll (items : List Value) : Except Fault (List Step) :=
  match items with
  | [] => .ok []
  | v :: rest => do
    let first ← read v
    let others ← readAll rest
    return first :: others
termination_by 3 * sizeOf items

end

end Step

end Runbook
