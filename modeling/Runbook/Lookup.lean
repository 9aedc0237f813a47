import Runbook.StepResult
import Runbook.Text.Search

/-! # Looking into values

A path names a part of a value by segments with points between them: a key of a table, an index of a
list or tuple, or an attribute. An index counts from the end when it is negative. A segment that
cannot be followed leads to null, and so does every segment after it.
-/

namespace Runbook.Value

/-- The item at an index, which counts from the end when it is negative. -/
def item? (items : List Value) (index : Int) : Option Value :=
  if index < 0 then
    if index.natAbs ≤ items.length then items[items.length - index.natAbs]? else none
  else items[index.toNat]?

/-- An attribute of a value that is no container. -/
def attribute? : Value → String → Option Value
  | int n, name =>
    if name == "real" || name == "numerator" then some (int n)
    else if name == "imag" then some (int 0)
    else if name == "denominator" then some (int 1)
    else none
  | bool b, name =>
    if name == "real" || name == "numerator" then some (int (if b then 1 else 0))
    else if name == "imag" then some (int 0)
    else if name == "denominator" then some (int 1)
    else none
  | float x, name =>
    if name == "real" then some (float x) else if name == "imag" then some (float 0.0) else none
  | object attributes, name => (attributes.find? (·.1 == name)).map (·.2)
  | status s, name =>
    if name == "value" then some (text s.label)
    else if name == "name" then some (text s.label.toUpper)
    else none
  | condition subject operator comparand, name =>
    if name == "variable" then some (text subject)
    else if name == "operator" then some (text operator)
    else if name == "value" then some comparand
    else none
  | report i s ok outputs error ms details, name =>
    if name == "step_index" then some (int i)
    else if name == "status" then some (status s)
    else if name == "success" then some (bool ok)
    else if name == "outputs" then some (dict outputs)
    else if name == "error" then some error
    else if name == "duration_ms" then some (int ms)
    else if name == "details" then some (dict details)
    else if name == "timestamp" then some moment
    else if name == "counts_as_success" then some (bool (ok || s == .skipped))
    else none
  | _, _ => none

/-- One segment followed from a value. -/
def follow (v : Value) (segment : String) : Value :=
  match v with
  | dict entries => Entries.getD entries segment
  | list items | tuple items =>
    match Number.readInt segment with
    | .ok index => (item? items index).getD null
    | .error _ => null
  | v => (v.attribute? segment).getD null

/-- The part of a value that a path names, or null. -/
def nested (v : Value) (path : String) : Value := (Text.split '.' path).foldl follow v

/-- The part of a value under a path that is itself a value; only a text is a path. -/
def nestedAt (v : Value) : Value → Except Fault Value
  | text path => .ok (v.nested path)
  | status s => .ok (v.nested s.label)
  | path => .error (.noAttribute path.kind "split")

/-- The parts of a raw result that a table of output names and paths asks for. -/
def extractEach (raw : Value) : Entries → Except Fault Entries
  | [] => .ok []
  | (name, path) :: rest => do
    let part ← raw.nestedAt path
    let parts ← extractEach raw rest
    return (name, part) :: parts

/-- The declared outputs of a raw result. Nothing is declared by an empty mapping, and nothing can
be taken from null. -/
def extract (mapping raw : Value) : Except Fault Entries :=
  if !mapping.truthy || raw.isNull then .ok []
  else match mapping with
    | dict entries => extractEach raw entries
    | v => .error (.noAttribute v.kind "items")

end Runbook.Value
