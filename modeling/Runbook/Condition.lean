import Runbook.Text.Character
import Runbook.Text.Search
import Runbook.Value.Coercion

/-! # Conditions

A condition names a variable, an operator and a value to compare with. `Condition.holds` evaluates
one in a scope and `Condition.allHold` a conjunction of them, left to right and no further than the
first that fails. An operator that is not known counts as satisfied and is reported.

The order of numbers is that of floating-point numbers, to which integers are rounded first; an
integer beyond all of them is a fault. So is an integer of too many digits, where a text is searched.
-/

namespace Runbook

/-- A predicate on a scope. -/
structure Condition where
  subject : String
  operator : String
  comparand : Value

/-- The operators of conditions. -/
inductive Operator where
  | equals
  | notEquals
  | greaterThan
  | lessThan
  | contains
  | exists
  | notExists
deriving DecidableEq, Repr

/-- The operator that a name or a sign stands for. -/
def Operator.ofText? : String → Option Operator
  | "==" | "equals" => some .equals
  | "!=" | "not_equals" => some .notEquals
  | ">" | "greater_than" => some .greaterThan
  | "<" | "less_than" => some .lessThan
  | "contains" => some .contains
  | "exists" => some .exists
  | "not_exists" => some .notExists
  | _ => none

namespace Value

/-- A value as a number: truth values, numbers, and texts that write one. A value that is no number
gives none; an integer that is too large is a fault. -/
def asNumber : Value → Except Fault (Option Float)
  | text s => .ok (Number.readFloat? (Text.trim s))
  | status s => .ok (Number.readFloat? (Text.trim s.label))
  | v =>
    match v.toFloat? with
    | some (.ok x) => .ok (some x)
    | some (.error fault) => .error fault
    | none => .ok none

/-- The value is a number or a truth value. -/
def isNumeric : Value → Bool
  | bool _ | int _ | float _ => true
  | _ => false

/-- Equality in conditions. Null equals only null, and a number equals a text that writes it. -/
def looselyEqual (v w : Value) : Except Fault Bool :=
  if v.isNull || w.isNull then .ok (v.isNull && w.isNull)
  else if v.equal w then .ok true
  else if v.isNumeric || w.isNumeric then do
    let a ← v.asNumber
    let b ← w.asNumber
    match a, b with
    | some x, some y => return x == y
    | _, _ => return false
  else .ok false

/-- The text of a text. -/
def asText? : Value → Option String
  | text s => some s
  | status s => some s.label
  | _ => none

/-- Order in conditions: two texts by code points, everything else as numbers. Values that are
neither are not ordered. -/
def ordered (before : Bool) (v w : Value) : Except Fault Bool :=
  if v.isNull || w.isNull then .ok false
  else match v.asText?, w.asText? with
    | some s, some t => .ok (if before then s < t else t < s)
    | _, _ => do
      let a ← v.asNumber
      let b ← w.asNumber
      match a, b with
      | some x, some y => return if before then x < y else y < x
      | _, _ => return false

/-- The integer has more digits than are written. -/
def isLong (n : Int) : Bool := decide (Nat.pow 10 Number.digitLimit ≤ n.natAbs)

mutual

/-- An integer of more digits than are written stands in the value. -/
def hasLongInteger : Value → Bool
  | int n => isLong n
  | list items => hasLongItem items
  | tuple items => hasLongItem items
  | dict entries => hasLongEntry entries
  | condition _ _ comparand => comparand.hasLongInteger
  | report i _ _ outputs error ms details =>
    isLong i || hasLongEntry outputs || error.hasLongInteger || isLong ms || hasLongEntry details
  | _ => false

/-- Such an integer stands in one of the items of a list or tuple. -/
def hasLongItem : List Value → Bool
  | [] => false
  | v :: rest => v.hasLongInteger || hasLongItem rest

/-- Such an integer stands in one of the entries of a table. -/
def hasLongEntry : List (Value × Value) → Bool
  | [] => false
  | (k, v) :: rest => k.hasLongInteger || v.hasLongInteger || hasLongEntry rest

end

/-- A value as searchable text: null is empty and truth values are in lower case. A value with an
integer of too many digits has no text. -/
def searchText : Value → Except Fault String
  | null => .ok ""
  | bool b => .ok (if b then "true" else "false")
  | v => if v.hasLongInteger then .error .integerUnwritable else .ok v.toText

end Value

namespace Condition

/-- The condition that a value stands for: one that has been read already, or a table that names a
variable. The operator is the test for existence unless another is named. -/
def read (v : Value) : Except Fault Condition :=
  match v with
  | .condition subject operator comparand => .ok ⟨subject, operator, comparand⟩
  | .dict entries =>
    match Entries.get? entries "variable" with
    | some subject =>
      .ok ⟨subject.toText, ((Entries.get? entries "operator").map Value.toText).getD "exists",
        Entries.getD entries "value"⟩
    | none => .error (.invalid ("Invalid condition: " ++ v.display))
  | v => .error (.invalid ("Invalid condition: " ++ v.display))

/-- The value of an operator on the value of the variable. -/
def apply (operator : Operator) (value comparand : Value) : Except Fault Bool :=
  match operator with
  | .equals => value.looselyEqual comparand
  | .notEquals => (value.looselyEqual comparand).map (!·)
  | .greaterThan => value.ordered false comparand
  | .lessThan => value.ordered true comparand
  | .contains =>
    if value.isNull then .ok false
    else do
      let part ← comparand.searchText
      let whole ← value.searchText
      return Text.contains whole part
  | .exists => .ok !value.isNull
  | .notExists => .ok value.isNull

/-- A condition in a scope. A variable that is not bound counts as null. -/
def holds (c : Condition) (scope : Entries) : Except Fault Bool :=
  match Operator.ofText? c.operator with
  | some operator => apply operator (Entries.getD scope c.subject) c.comparand
  | none => .ok true

/-- Conditions in a scope, from left to right up to the first that fails. -/
def allHold (scope : Entries) : List Condition → Except Fault Bool
  | [] => .ok true
  | c :: rest =>
    match c.holds scope with
    | .ok true => allHold scope rest
    | verdict => verdict

/-- A verdict, and the operator and variable of every condition with an unknown operator that was
reached. -/
structure Examination where
  verdict : Except Fault Bool
  unknown : List (String × String) := []

/-- One condition, read and evaluated. -/
def examine (scope : Entries) (v : Value) : Examination :=
  match read v with
  | .error fault => { verdict := .error fault }
  | .ok c =>
    { verdict := c.holds scope
      unknown := if (Operator.ofText? c.operator).isNone then [(c.operator, c.subject)] else [] }

/-- Conditions that are read one by one, as they are reached. -/
def examineEach (scope : Entries) : List Value → Examination
  | [] => { verdict := .ok true }
  | v :: rest =>
    let first := examine scope v
    match first.verdict with
    | .ok true =>
      let others := examineEach scope rest
      { others with unknown := first.unknown ++ others.unknown }
    | _ => first

/-- Whatever is given for a list of conditions: nothing at all is satisfied. -/
def examineAll (scope : Entries) (v : Value) : Examination :=
  if !v.truthy then { verdict := .ok true }
  else match v.items? with
    | some items => examineEach scope items
    | none => { verdict := .error (.notIterable v.kind) }

end Condition

end Runbook
