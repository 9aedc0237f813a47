import Runbook.Step.Basic

/-! # Records of steps

The fields of a step as a table: those of its kind after those that every step has. The steps inside a
step are shown in the same way.
-/

namespace Runbook

/-- The name of a step's kind in its record. -/
def Step.kindName : Step → String
  | tool .. => "ToolStep"
  | command .. => "CommandStep"
  | conditional .. => "ConditionalStep"
  | loop .. => "LoopStep"
  | parallel .. => "ParallelStep"
  | delay .. => "DelayStep"
  | manual .. => "ManualStep"
  | unknown .. => "UnknownStep"

/-- A condition as a value. -/
def Condition.toValue (c : Condition) : Value := .condition c.subject c.operator c.comparand

namespace Step

/-- The fields that every record of a step has. -/
def commonFields (s : Step) : List (String × Value) :=
  let c := s.common
  [("class", .text s.kindName), ("type_tag", .text s.tag), ("label", s.label), ("name", c.name),
    ("description", c.description), ("conditions", .list (c.conditions.map Condition.toValue)),
    ("optional", .bool c.optional),
    ("stop_on_failure", (c.stopOnFailure.map Value.bool).getD .null)]

mutual

/-- The fields that the record of a step of its kind has. -/
def ownFields : Step → List (String × Value)
  | tool _ name parameters outputs =>
    [("tool_name", .text name), ("parameters", .dict parameters), ("outputs", .dict outputs)]
  | command _ line directory outputs =>
    [("command", line), ("working_directory", directory), ("outputs", .dict outputs)]
  | conditional _ condition thenStep elseStep =>
    [("condition", .list (condition.map Condition.toValue)), ("then_step", optionalValue thenStep),
      ("else_step", optionalValue elseStep)]
  | loop _ items itemVariable indexVariable limit body =>
    [("items", items), ("item_variable", itemVariable), ("index_variable", indexVariable),
      ("max_iterations", (limit.map Value.int).getD .null), ("step", optionalValue body)]
  | parallel _ steps => [("steps", .list (values steps))]
  | delay _ duration => [("delay", duration)]
  | manual _ instructions => [("instructions", instructions)]
  | unknown _ tag raw => [("tag", .text tag), ("raw", .dict raw)]

/-- The record of a step that may be missing. -/
def optionalValue : Option Step → Value
  | none => .null
  | some s => Value.record (s.commonFields ++ ownFields s)

/-- The records of steps. -/
def values : List Step → List Value
  | [] => []
  | s :: rest => Value.record (s.commonFields ++ ownFields s) :: values rest

end

/-- The record of a step. -/
def toValue (s : Step) : Value := Value.record (s.commonFields ++ s.ownFields)

end Step

end Runbook
