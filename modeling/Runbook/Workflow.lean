import Runbook.Step.Reader

/-! # Workflows

A workflow is a list of steps with default variables. A definition without an identifier gets a
generated one, numbered in the order in which they are needed.
-/

namespace Runbook

/-- A workflow definition. -/
structure Workflow where
  id : String
  name : String
  steps : List Step := []
  scope : Entries := []

/-- A definition whose outer parts are well formed. -/
structure Workflow.Outline where
  id : Value
  name : Value
  steps : List Value
  scope : Entries

namespace Workflow

/-- A number in decimal with at least nine digits. -/
def serial (n : Nat) : String := String.ofList (Number.padLeft 9 (Number.digitsOf n))

/-- The identifier generated for the `n`-th workflow that needs one. -/
def generatedId (n : Nat) : String := "wf_" ++ serial n ++ "000"

/-- The outer parts of a definition. -/
def Outline.ofEntries (es : Entries) : Except Fault Outline :=
  match es.getD "steps" with
  | .list steps =>
    match (es.getD "variables").orElse (.dict []) with
    | .dict scope => .ok { id := es.getD "id", name := es.getD "name", steps, scope }
    | _ => .error (.invalid "Workflow 'variables' must be an object")
  | _ => .error (.invalid "Workflow definition requires a 'steps' list")

/-- The outer parts of a definition given as a value. -/
def Outline.read : Value → Except Fault Outline
  | .dict entries => ofEntries entries
  | _ => .error (.invalid "Workflow definition must be an object")

/-- The workflow of an outline, with an identifier in case it has none. -/
def Outline.complete (outline : Outline) (fallback : String) : Except Fault Workflow := do
  let id := (outline.id.orElse (.text fallback)).toText
  let steps ← Step.readAll outline.steps
  return { id, name := (outline.name.orElse (.text id)).toText, steps, scope := outline.scope }

/-- The workflow that a value defines, and how many identifiers have been generated afterwards, when
`generated` were before. -/
def read (generated : Nat) (v : Value) : Except Fault Workflow × Nat :=
  match Outline.read v with
  | .error fault => (.error fault, generated)
  | .ok outline =>
    if outline.id.truthy then (outline.complete (generatedId generated), generated)
    else (outline.complete (generatedId (generated + 1)), generated + 1)

end Workflow

end Runbook
