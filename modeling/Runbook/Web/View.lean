import Runbook.Execution
import Runbook.Text.Bytes
import Runbook.Value.Document
import Runbook.Web.Message

/-! # Views of executions

An execution as the interface shows it. The texts in it have to be texts: a tool that reports an error
of another kind leaves a record that cannot be shown, and the refusal tells each place where it is
so.
-/

namespace Runbook.Web

/-- Bytes up to a limit, cut before a character that does not fit. -/
def frontBytes (limit : Nat) : List Char → List Char
  | [] => []
  | c :: rest =>
    let n := (Text.encodeChar c).length
    if n ≤ limit then c :: frontBytes (limit - n) rest else []

/-- A text of which only the ends are shown if it is long. -/
def abridged (s : String) : String :=
  if (Text.encode s).length ≤ 50 then s
  else
    let cs := s.toList
    String.ofList (frontBytes 25 cs) ++ "..." ++ String.ofList (frontBytes 24 cs.reverse).reverse

/-- A place in a record that should hold a text, and what it holds. -/
structure Misfit where
  place : List String
  value : Value

/-- A key in a place. -/
def keyText : Value → String
  | .text s => s
  | .bool b => if b then "1" else "0"
  | .int n => Number.intText n
  | v => v.display

/-- The keys of a table that are no texts. -/
def keyMisfits (place : List String) (entries : Entries) : List Misfit :=
  (entries.filter fun e => !(e.1 matches .text _ | .status _)).map fun e =>
    ⟨place ++ [keyText e.1, "[key]"], e.1⟩

/-- What does not fit in the result with a number. -/
def resultMisfits (r : StepResult) (n : Nat) : List Misfit :=
  let place := ["results", Number.intText n]
  keyMisfits (place ++ ["outputs"]) r.outputs ++
    match r.error with
    | .null | .text _ | .status _ => []
    | v => [⟨place ++ ["error"], v⟩]

/-- What does not fit in an execution. -/
def misfits (e : Execution) : List Misfit :=
  keyMisfits ["variables"] e.scope ++
    e.results.zipIdx.flatMap fun (r, n) => resultMisfits r n

/-- Where the rule is explained that texts have to be texts. -/
def explanation : String := "https:" ++ "//errors.pydantic.dev/2.14/v/string_type"

/-- The wording of a misfit. -/
def Misfit.message (m : Misfit) : String :=
  "\n" ++ ".".intercalate m.place ++ "\n  Input should be a valid string [type=string_type, input_value=" ++
    abridged m.value.display ++ ", input_type=" ++ m.value.kind ++
    "]\n    For further information visit " ++ explanation

/-- The refusal to show an execution. -/
def refusal (ms : List Misfit) : Fault :=
  .unpresentable (Number.intText ms.length ++ " validation error" ++
    (if ms.length == 1 then "" else "s") ++ " for ExecutionResponse" ++
    String.join (ms.map Misfit.message))

mutual

/-- A value as it stands in a document. -/
def plainValue : Value → Value
  | .tuple items => .list (plainItems items)
  | .list items => .list (plainItems items)
  | .dict entries => .dict (plainEntries entries)
  | .status s => .text s.label
  | .float x => if x.isFinite then .float x else .null
  | v => v

/-- The items of a list as they stand in a document. -/
def plainItems : List Value → List Value
  | [] => []
  | v :: rest => plainValue v :: plainItems rest

/-- The entries of a table as they stand in a document. -/
def plainEntries : List (Value × Value) → List (Value × Value)
  | [] => []
  | (k, v) :: rest => (.text ((Value.documentKey? k).getD ""), plainValue v) :: plainEntries rest

end

/-- An execution as the interface shows it. -/
def view (e : Execution) : Except Fault Value :=
  match misfits e with
  | [] => .ok (plainValue e.toValue)
  | ms => .error (refusal ms)

/-- Executions as the interface lists them. -/
def listing (es : List Execution) : Except Fault Value := do
  let views ← es.mapM view
  return Value.record [("executions", .list views), ("total", .int es.length)]

end Runbook.Web
