import Runbook.Status

/-! # Values

What the fields of a step, the variables in scope and the results of tools are made of. A document
holds the first group of constructors; the others come from the program itself: tuples, objects that
show nothing but their attributes, a status, a condition that has been read already, and the record
of a finished step.

A table keeps the order in which its keys were first put in, and its keys can be any values that
equality can look up.
-/

namespace Runbook

/-- A value of the workflow language. -/
inductive Value where
  | null
  | bool (b : Bool)
  | int (n : Int)
  | float (x : Float)
  | text (s : String)
  | list (items : List Value)
  | dict (entries : List (Value × Value))
  | tuple (items : List Value)
  | object (attributes : List (String × Value))
  | status (s : StepStatus)
  | condition (subject operator : String) (comparand : Value)
  | report (stepIndex : Int) (status : StepStatus) (success : Bool)
      (outputs : List (Value × Value)) (error : Value) (durationMs : Int)
      (details : List (Value × Value))
deriving Inhabited

namespace Value

/-- The name of a value's kind, as messages give it. -/
def kind : Value → String
  | null => "NoneType"
  | bool _ => "bool"
  | int _ => "int"
  | float _ => "float"
  | text _ => "str"
  | list _ => "list"
  | dict _ => "dict"
  | tuple _ => "tuple"
  | object _ => "Obj"
  | status _ => "StepStatus"
  | condition .. => "Condition"
  | report .. => "StepResult"

/-- Whether a value counts as true: null, zero and whatever is empty do not. -/
def truthy : Value → Bool
  | null => false
  | bool b => b
  | int n => n != 0
  | float x => !(x == 0.0)
  | text s => !s.isEmpty
  | list items => !items.isEmpty
  | dict entries => !entries.isEmpty
  | tuple items => !items.isEmpty
  | object _ | status _ | condition .. | report .. => true

/-- The value is null. -/
def isNull : Value → Bool
  | null => true
  | _ => false

/-- The first value if it counts as true, else the second. -/
def orElse (v : Value) (other : Value) : Value := if v.truthy then v else other

/-- A value for an optional text. -/
def ofText? : Option String → Value
  | some s => text s
  | none => null

/-- A table whose keys are texts. -/
def record (fields : List (String × Value)) : Value :=
  dict (fields.map fun (name, v) => (text name, v))

end Value

end Runbook
