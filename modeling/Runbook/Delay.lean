import Runbook.Condition

/-! # Delays

A delay is a number of milliseconds, given as a number or as a text that writes one. It is not
negative. Truth values are not taken for numbers here.
-/

namespace Runbook

/-- The refusal of a value as a delay. -/
def Value.notDelay (v : Value) : Fault := .invalid ("Invalid delay value: " ++ v.display)

/-- The number that a value gives for a delay, whatever its sign. -/
def Value.delayNumber : Value → Except Fault Float
  | .int n => floatOfInteger n
  | .float x => .ok x
  | v@(.text s) =>
    match Number.readFloat? (Text.trim s) with
    | some x => .ok x
    | none => .error v.notDelay
  | v => .error v.notDelay

/-- The delay that a value gives, in milliseconds. -/
def Value.toDelay (v : Value) : Except Fault Float := do
  let ms ← v.delayNumber
  if ms < 0.0 then throw (.invalid ("Delay must not be negative: " ++ v.display))
  return ms

end Runbook
