import Runbook.Text.Case
import Runbook.Signature
import Runbook.Tool.Basic

/-! # Tricks

Small tools for rehearsals with a registry: one that shouts, one that always breaks, and one whose
outcome is what its parameters say.
-/

namespace Runbook.Rehearsal

/-- The entry of some parameters that a tool cannot do without. -/
def demanded (name : String) : Value → Except Fault Value
  | .dict entries =>
    match Entries.get? entries name with
    | some v => .ok v
    | none => .error (.raised "KeyError" name)
  | .list _ => .error (.raised "TypeError" "list indices must be integers or slices, not str")
  | .tuple _ => .error (.raised "TypeError" "tuple indices must be integers or slices, not str")
  | .text _ => .error (.raised "TypeError" "string indices must be integers, not 'str'")
  | v => .error (.raised "TypeError" ("'" ++ v.kind ++ "' object is not subscriptable"))

/-- The tool that gives its text back in capitals. -/
def shout : Tool where
  kind := "ShoutTask"
  execute place parameters := .on place do
    match ← demanded "text" parameters with
    | .text s => return .succeeded [(.text "text", .text (Text.upper s))]
    | v => .error (.noAttribute v.kind "upper")

/-- The tool that always breaks. -/
def broken : Tool where
  kind := "BrokenTask"
  execute place _ := .on place (.error (.raised "RuntimeError" "kaput"))

/-- What an outcome is made of. -/
def outcomeSignature : Signature where
  owner := "TaskResult.__init__"
  parameters := [⟨"success", none⟩, ⟨"output", some .null⟩, ⟨"error", some .null⟩,
    ⟨"metadata", some .null⟩, ⟨"duration_ms", some (.int 0)⟩]

/-- The tool whose outcome is what its parameters say. -/
def plain : Tool where
  kind := "PlainTask"
  execute place parameters := .on place do
    match parameters with
    | .dict entries =>
      let bound ← outcomeSignature.byName entries
      return {
        success := boundValue bound "success"
        output := boundValue bound "output"
        error := boundValue bound "error"
        metadata := (boundValue bound "metadata").orElse (.dict []) }
    | v => .error (.argumentsNotMapping "tasks.base_task.TaskResult" v.kind)

end Runbook.Rehearsal
