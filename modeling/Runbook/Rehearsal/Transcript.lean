import Runbook.Rehearsal.Act

/-! # Transcripts

The journal of a rehearsal as records: the calls of tools, and the events with what was known of their
execution when they were announced.
-/

namespace Runbook

namespace Event

/-- The fields of an event about a step, with the result that the step had then. -/
def stepFields (about : Option Execution) (step : Step) (index : Int) (result : Option StepResult)
    (error : Value) : List (String × Value) :=
  let scope := (about.map (·.scope)).getD []
  let names := (Entries.names scope).mergeSort fun a b => decide (a ≤ b)
  [("step_index", .int index), ("label", step.label), ("error", error),
    ("status", Value.ofText? (result.map (·.status.label))),
    ("variables", .list (names.map Value.text))]

/-- The fields of an event about an execution. -/
def executionFields (about : Option Execution) : List (String × Value) :=
  [("status", .text ((about.map (·.status.label)).getD "")),
    ("current_step", .int ((about.map (·.currentStep)).getD 0)),
    ("results", .int ((about.map (·.results.length)).getD 0)),
    ("active", .bool ((about.map (·.isActive)).getD false))]

/-- The fields of an event besides its kind and execution. -/
def fields (about : Option Execution) : Event → List (String × Value)
  | started _ | completed _ | failed _ | cancelled _ => executionFields about
  | stepStarted _ step index => stepFields about step index none .null
  | stepCompleted _ step index result => stepFields about step index (some result) .null
  | stepFailed _ step index result => stepFields about step index (some result) result.error
  | manual _ _ index instructions token =>
    [("step_index", .int index), ("instructions", instructions), ("token", Value.ofText? token)]

/-- The record of an event. -/
def toValue (about : Option Execution) (e : Event) : Value :=
  Value.record ([("event", .text e.kind.label), ("id", .text e.execution)] ++ e.fields about)

/-- The kind of an event and the step that it is about. -/
def summary (e : Event) : Value :=
  .list [.text e.kind.label, (e.stepIndex?.map Value.int).getD .null]

end Event

namespace Rehearsal

/-- The tool calls in a journal. -/
def calls (journal : List Happening) : List Value :=
  journal.filterMap fun
    | .called _ tool parameters =>
      some (Value.record [("tool", .text tool), ("parameters", .dict parameters)])
    | _ => none

/-- The events in a journal, with what is known of their executions. -/
def events (journal : List Happening) : List (Event × Option Execution) :=
  journal.filterMap fun
    | .announced event about => some (event, about)
    | _ => none

/-- The callbacks in a journal that failed, as the kind of event and what went wrong. -/
def failures (journal : List Happening) : List Value :=
  journal.filterMap fun
    | .callbackFailed kind message => some (.list [.text kind.label, .text message])
    | _ => none

end Rehearsal

end Runbook
