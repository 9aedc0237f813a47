import Runbook.Files.Resolution
import Runbook.Value.Coercion

/-! # Tools

A tool does a piece of work in a workspace, on files, and reports an outcome. Whatever goes wrong in
it is an outcome as well. The raw result that steps take their outputs from has the entries of the
outcome's output beside the outcome's own.
-/

namespace Runbook

/-- What a tool works in. -/
structure Workplace where
  files : Files := {}
  /-- The directory that the tools have to stay in. -/
  root : Location
  /-- The seconds that a command may take if it does not say so itself. -/
  timeout : Value := .float 300.0

/-- What came of a tool's work. -/
structure Tool.Outcome where
  success : Value
  output : Value := .null
  error : Value := .null
  metadata : Value := .dict []

/-- Work that is done: its outcome, the files after it, and the seconds that it took. -/
structure Tool.Work where
  outcome : Except Fault Tool.Outcome
  files : Files
  seconds : Float := 0.0

/-- A tool. -/
structure Tool where
  /-- The name of its kind. -/
  kind : String
  displayName : String := "Base Tool"
  description : String := "Abstract base tool"
  /-- The shape of its parameters. -/
  schema : Value := .dict [(.text "type", .text "object"), (.text "properties", .dict [])]
  execute : Workplace → Value → Tool.Work

namespace Tool

/-- An outcome that is a failure. -/
def Outcome.failure (error : String) : Outcome := { success := .bool false, error := .text error }

/-- An outcome that is a success. -/
def Outcome.succeeded (output : Entries) : Outcome := { success := .bool true, output := .dict output }

/-- The raw result that an outcome is, where an output that is a table is spread out. -/
def Outcome.raw (o : Outcome) : Entries :=
  let spread := match o.output with
    | .dict entries => entries
    | _ => []
  Entries.merge spread
    [(.text "success", o.success), (.text "output", o.output), (.text "error", o.error),
      (.text "metadata", o.metadata), (.text "duration_ms", .int 0),
      (.text "timestamp", .text "<time>")]

/-- Work that leaves the files as they are. -/
def Work.on (place : Workplace) (outcome : Except Fault Outcome) : Work :=
  { outcome, files := place.files }

/-- The parameters of a tool by name. -/
def parametersOf : Value → Except Fault Entries
  | .dict entries => .ok entries
  | v => .error (.noAttribute v.kind "get")

/-- Run a tool. What goes wrong is a failure with its wording. -/
def run (tool : Tool) (place : Workplace) (parameters : Value) : Outcome × Work :=
  let work := tool.execute place (parameters.orElse (.dict []))
  match work.outcome with
  | .ok outcome => (outcome, work)
  | .error cause => (.failure cause.message, work)

end Tool

end Runbook
