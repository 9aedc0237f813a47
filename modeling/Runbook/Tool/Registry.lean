import Runbook.Tool.Command
import Runbook.Tool.File

/-! # The registry of tools

The tools that are there, by name, in the order in which their names were first registered, and the
workspace that they work in. A call of a tool that is not there has a result as well.
-/

namespace Runbook.Tool

/-- The tools that are there from the start. -/
def builtIn : List (String × Tool) :=
  [("execute_command", executeCommand), ("read_file", readFile), ("write_to_file", writeFile),
    ("list_files", listFiles)]

/-- Tools by name, and what they work in. -/
structure Registry where
  tools : List (String × Tool) := builtIn
  /-- The workspace as it was configured, before links in its path are followed. -/
  workspace : String
  /-- Where paths start that are not absolute. -/
  start : Location := []
  files : Files := {}
  timeout : Value := .float 300.0

namespace Registry

/-- Tools with one more, which takes the place of one with the same name. -/
def put (name : String) (tool : Tool) : List (String × Tool) → List (String × Tool)
  | [] => [(name, tool)]
  | t :: rest => if t.1 == name then (name, tool) :: rest else t :: put name tool rest

/-- The registry with a tool added or replaced. -/
def register (r : Registry) (name : String) (tool : Tool) : Registry :=
  { r with tools := put name tool r.tools }

/-- The tool with a name. -/
def find? (r : Registry) (name : String) : Option Tool :=
  (r.tools.find? (·.1 == name)).map (·.2)

/-- The registry has a tool with a name. -/
def has (r : Registry) (name : String) : Bool := (r.find? name).isSome

/-- The names of the tools. -/
def names (r : Registry) : List String := r.tools.map (·.1)

/-- What a listing says about a tool. -/
def describe (name : String) (tool : Tool) : Value :=
  Value.record [("tool_name", .text name), ("display_name", .text tool.displayName),
    ("description", .text tool.description), ("parameter_schema", tool.schema)]

/-- The list of all tools. -/
def listAll (r : Registry) : List Value := r.tools.map fun t => describe t.1 t.2

/-- What the tools work in. -/
def workplace (r : Registry) : Except Fault Workplace := do
  let root ← r.files.resolve r.start r.workspace
  return { files := r.files, root, timeout := r.timeout }

/-- The location that a value names as a path in the workspace. -/
def resolvePath (r : Registry) (path : Value) : Except Fault Location := do
  let place ← r.workplace
  place.files.resolveWithin place.root path

/-- The result of the call of a tool that is not there. -/
def unknown (r : Registry) (name : String) : Entries :=
  [(.text "success", .bool false), (.text "error", .text ("Unknown tool: " ++ name)),
    (.text "available_tools", .list (r.names.map Value.text))]

/-- What came of a call: the raw result, and the seconds that it took. -/
structure Answer where
  result : Except Fault Entries
  seconds : Float := 0.0

/-- Call a tool. -/
def call (r : Registry) (name : String) (parameters : Value) : Answer × Registry :=
  match r.find? name with
  | none => ({ result := .ok (r.unknown name) }, r)
  | some tool =>
    match r.workplace with
    | .error cause => ({ result := .error cause }, r)
    | .ok place =>
      let (outcome, work) := tool.run place parameters
      ({ result := .ok outcome.raw, seconds := work.seconds }, { r with files := work.files })

end Registry

end Runbook.Tool
