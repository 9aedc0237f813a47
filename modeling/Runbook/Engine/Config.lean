import Runbook.Policy

/-! # Settings of an engine and options of a run

What an engine is configured with, and what a caller can say about one run. Both are read from tables
of names and values.
-/

namespace Runbook

/-- The settings of an engine. -/
structure Engine.Config where
  policies : Policies := {}
  /-- The most executions that run at a time. -/
  maxConcurrent : Value := .int 5
  /-- The time budget in seconds of a run that does not set its own. -/
  defaultTimeout : Value := .float 300.0
  /-- How many finished executions the history keeps; all of them if there is no limit. -/
  historyLimit : Option Nat := some 100

/-- The limit of the history that a value sets; null sets none. -/
def Engine.Config.limitOf : Value → Except Fault (Option Nat)
  | .null => .ok none
  | v =>
    match v.integer? with
    | some n =>
      if n < -0x8000000000000000 || 0x8000000000000000 ≤ n then .error .lengthTooLarge
      else if n < 0 then .error .negativeLength
      else .ok (some n.toNat)
    | none => .error .integerRequired

/-- The settings that a table gives by name. -/
def Engine.Config.ofSettings (settings : Entries) : Except Fault Engine.Config := do
  let policies ← Policies.ofSettings settings
  let historyLimit ← limitOf (settings.setting "history_size" (.int 100))
  return {
    policies, historyLimit
    maxConcurrent := settings.setting "max_concurrent_executions" (.int 5)
    defaultTimeout := settings.setting "default_timeout" (.float 300.0) }

/-- What a caller says about one run. -/
structure Options where
  scope : Value := .dict []
  /-- The time budget in seconds. -/
  timeout : Value := .null
  triggeredBy : Value := .text "manual"
  userId : Value := .null

namespace Options

/-- The options that can be given. -/
def signature : Signature where
  owner := "ExecutionOptions.__init__"
  parameters := [⟨"variables", some (.dict [])⟩, ⟨"timeout", some .null⟩,
    ⟨"triggered_by", some (.text "manual")⟩, ⟨"user_id", some .null⟩]

/-- The options that a value gives; null gives none. -/
def read : Value → Except Fault Options
  | .null => .ok {}
  | .dict entries => do
    let bound ← signature.byName entries
    return {
      scope := boundValue bound "variables"
      timeout := boundValue bound "timeout"
      triggeredBy := boundValue bound "triggered_by"
      userId := boundValue bound "user_id" }
  | v => .error (.argumentsNotMapping "workflow.execution.ExecutionOptions" v.kind)

end Options

end Runbook
