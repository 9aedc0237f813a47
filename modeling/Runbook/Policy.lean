import Runbook.Signature

/-! # Policies

The choices that a configuration makes about loops, conditional steps and manual steps, and the
other settings of the interpreter.
-/

namespace Runbook

/-- Whether outputs of a loop's rounds reach the scope around the loop. -/
inductive LoopOutputPolicy where
  | isolate
  | propagate
deriving DecidableEq, Repr

/-- How a conditional step reports the branch that it ran: under its own success, with the branch's
result as a detail, or with the branch's success and outputs as its own. -/
inductive ConditionalResultPolicy where
  | nest
  | adopt
deriving DecidableEq, Repr

/-- Whether a manual step only tells an operator, or waits for the answer. -/
inductive ManualStepPolicy where
  | auto
  | await
deriving DecidableEq, Repr

/-- The policy that a value names. -/
def LoopOutputPolicy.ofValue : Value → Except Fault LoopOutputPolicy
  | .text "isolate" => .ok .isolate
  | .text "propagate" => .ok .propagate
  | v => .error (.notMember v.display "LoopOutputPolicy")

/-- The policy that a value names. -/
def ConditionalResultPolicy.ofValue : Value → Except Fault ConditionalResultPolicy
  | .text "nest" => .ok .nest
  | .text "adopt" => .ok .adopt
  | v => .error (.notMember v.display "ConditionalResultPolicy")

/-- The policy that a value names. -/
def ManualStepPolicy.ofValue : Value → Except Fault ManualStepPolicy
  | .text "auto" => .ok .auto
  | .text "await" => .ok .await
  | v => .error (.notMember v.display "ManualStepPolicy")

/-- The settings of an interpreter. -/
structure Policies where
  /-- The tool that runs commands. -/
  commandTool : Value := .text "execute_command"
  /-- The most rounds of a loop that does not set its own limit. -/
  maxIterations : Value := .int 100
  loopOutputs : LoopOutputPolicy := .isolate
  manualSteps : ManualStepPolicy := .auto
  conditionalResults : ConditionalResultPolicy := .nest

/-- A setting under a name, or else the value that it has by default. -/
def Entries.setting (settings : Entries) (name : String) (fallback : Value) : Value :=
  (settings.get? name).getD fallback

/-- The settings that a table gives by name. -/
def Policies.ofSettings (settings : Entries) : Except Fault Policies := do
  let loopOutputs ← LoopOutputPolicy.ofValue (settings.setting "loop_output_policy" (.text "isolate"))
  let manualSteps ← ManualStepPolicy.ofValue (settings.setting "manual_step_policy" (.text "auto"))
  let conditionalResults ← ConditionalResultPolicy.ofValue
    (settings.setting "conditional_result_policy" (.text "nest"))
  return {
    commandTool := settings.setting "command_tool_name" (.text "execute_command")
    maxIterations := settings.setting "max_iterations" (.int 100)
    loopOutputs, manualSteps, conditionalResults }

end Runbook
