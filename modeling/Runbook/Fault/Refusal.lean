import Runbook.Signature

/-! # Refusals by name

The refusals of the engine as they can be built from their name and arguments, with the attributes
that each keeps and the more general refusals that it belongs to.
-/

namespace Runbook.Fault

/-- The name of a refusal. -/
def refusalName? : Fault → Option String
  | refused .. => some "EngineError"
  | notFound _ => some "NotFoundError"
  | invalid _ => some "ValidationError"
  | atCapacity _ => some "CapacityExceededError"
  | unknownStepType _ => some "UnknownStepTypeError"
  | unknownTool _ => some "ToolNotFoundError"
  | notPermitted .. => some "ToolNotPermittedError"
  | fileRestricted .. => some "FileRestrictionError"
  | notItems _ => some "InvalidLoopItemsError"
  | timedOut _ => some "ExecutionTimeoutError"
  | _ => none

/-- The name of a fault: its own if it is a refusal, or else that of its kind. -/
def name (fault : Fault) : String :=
  fault.refusalName?.getD <|
    match fault.family with
    | .refusal _ => "EngineError"
    | .value => "ValueError"
    | .type => "TypeError"
    | .attribute => "AttributeError"
    | .overflow => "OverflowError"
    | .system kind | .other kind => kind

/-- The parameters of a refusal. -/
def refusalParameters? : String → Option (List Parameter)
  | "EngineError" => some [⟨"message", none⟩, ⟨"status_code", some (.int 500)⟩]
  | "NotFoundError" => some [⟨"message", some (.text "Resource not found")⟩]
  | "ValidationError" => some [⟨"message", some (.text "Validation failed")⟩]
  | "CapacityExceededError" => some [⟨"limit", none⟩]
  | "UnknownStepTypeError" => some [⟨"step_type", none⟩]
  | "ToolNotFoundError" => some [⟨"tool_name", none⟩]
  | "ToolNotPermittedError" =>
    some [⟨"message", none⟩, ⟨"tool_name", some .null⟩, ⟨"mode", some .null⟩]
  | "FileRestrictionError" =>
    some [⟨"mode", none⟩, ⟨"pattern", none⟩, ⟨"description", none⟩, ⟨"file_path", none⟩,
      ⟨"tool_name", some .null⟩]
  | "InvalidLoopItemsError" => some [⟨"resolved_type", none⟩]
  | "ExecutionTimeoutError" => some [⟨"timeout", none⟩]
  | _ => none

/-- A refusal of a tool in a mode. -/
def notPermittedIn (tool mode : Value) : Fault :=
  .notPermitted ("Tool '" ++ tool.toText ++ "' not allowed in current mode '" ++ mode.toText ++ "'")
    tool mode

/-- The refusal of a name with bound arguments. -/
def ofBound (name : String) (arguments : List (String × Value)) : Fault :=
  let get := boundValue arguments
  match name with
  | "NotFoundError" => .notFound (get "message").toText
  | "ValidationError" => .invalid (get "message").toText
  | "CapacityExceededError" => .atCapacity (get "limit")
  | "UnknownStepTypeError" => .unknownStepType (get "step_type")
  | "ToolNotFoundError" => .unknownTool (get "tool_name")
  | "ToolNotPermittedError" =>
    .notPermitted (get "message").toText (get "tool_name") (get "mode")
  | "FileRestrictionError" =>
    .fileRestricted (get "mode") (get "pattern") (get "description") (get "file_path")
      (get "tool_name")
  | "InvalidLoopItemsError" => .notItems (get "resolved_type")
  | "ExecutionTimeoutError" => .timedOut (get "timeout")
  | _ => .refused (get "message").toText (get "status_code")

/-- The refusal of a name, built from arguments given by position. -/
def construct (name : String) (arguments : List Value) : Except Fault Fault :=
  let signature : Signature := ⟨name ++ ".__init__", (refusalParameters? name).getD [], true⟩
  (signature.byPosition arguments).map (ofBound name)

/-- The refusal of a tool in a mode, built from arguments given by position. -/
def constructForMode (arguments : List Value) : Except Fault Fault :=
  let signature : Signature :=
    ⟨"ToolNotPermittedError.for_mode", [⟨"tool_name", none⟩, ⟨"mode", none⟩], true⟩
  (signature.byPosition arguments).map fun bound =>
    notPermittedIn (boundValue bound "tool_name") (boundValue bound "mode")

/-- What a refusal keeps besides its message and status. -/
def attributes : Fault → List (String × Value)
  | atCapacity limit => [("limit", limit)]
  | unknownStepType tag => [("step_type", tag)]
  | unknownTool name => [("tool_name", name)]
  | notPermitted _ tool mode => [("tool_name", tool), ("mode", mode)]
  | fileRestricted mode pattern _ path tool =>
    [("pattern", pattern), ("file_path", path), ("tool_name", tool), ("mode", mode)]
  | notItems kind => [("resolved_type", kind)]
  | timedOut limit => [("timeout", limit)]
  | _ => []

/-- The names of a refusal and of the more general ones it belongs to. -/
def lineage (fault : Fault) : List String :=
  match fault with
  | refused .. => ["EngineError"]
  | fileRestricted .. => ["FileRestrictionError", "ToolNotPermittedError", "EngineError"]
  | fault =>
    match fault.refusalName? with
    | some name => [name, "EngineError"]
    | none => []

end Runbook.Fault
