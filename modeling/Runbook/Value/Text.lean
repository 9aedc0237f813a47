import Runbook.Value.Basic
import Runbook.Number.Text
import Runbook.Text.Quoted

/-! # Values as text

`Value.display` is the text of a value inside a list or a message, where texts stand in quotes;
`Value.toText` is the text of a value on its own, where a text stands for itself.
-/

namespace Runbook.Value

/-- The spelling of a truth value. -/
def boolText (b : Bool) : String := if b then "True" else "False"

/-- The text of a status inside a list or a message. -/
def statusText (s : StepStatus) : String :=
  "<StepStatus." ++ s.label.toUpper ++ ": '" ++ s.label ++ "'>"

mutual

/-- A value inside a list or a message. -/
def display : Value → String
  | null => "None"
  | bool b => boolText b
  | int n => Number.intText n
  | float x => Number.floatText x
  | text s => Text.quoted s
  | list items => "[" ++ ", ".intercalate (displayItems items) ++ "]"
  | tuple [v] => "(" ++ v.display ++ ",)"
  | tuple items => "(" ++ ", ".intercalate (displayItems items) ++ ")"
  | dict entries => "\x7b" ++ ", ".intercalate (displayEntries entries) ++ "\x7d"
  | object _ => "<Obj>"
  | status s => statusText s
  | condition subject operator comparand =>
    "Condition(variable=" ++ Text.quoted subject ++ ", operator=" ++ Text.quoted operator ++
      ", value=" ++ comparand.display ++ ")"
  | report i s ok outputs error ms details =>
    "StepResult(step_index=" ++ Number.intText i ++ ", status=" ++ statusText s ++
      ", success=" ++ boolText ok ++ ", outputs=\x7b" ++
      ", ".intercalate (displayEntries outputs) ++ "\x7d, error=" ++ error.display ++
      ", duration_ms=" ++ Number.intText ms ++ ", timestamp='<time>', details=\x7b" ++
      ", ".intercalate (displayEntries details) ++ "\x7d)"

/-- The items of a list or tuple. -/
def displayItems : List Value → List String
  | [] => []
  | v :: rest => v.display :: displayItems rest

/-- The entries of a table. -/
def displayEntries : List (Value × Value) → List String
  | [] => []
  | (k, v) :: rest => (k.display ++ ": " ++ v.display) :: displayEntries rest

end

/-- A value on its own. -/
def toText : Value → String
  | text s => s
  | status s => "StepStatus." ++ s.label.toUpper
  | v => v.display

example : display (list [text "a", null, tuple [int 1]]) = "['a', None, (1,)]" := by decide +kernel

end Runbook.Value
