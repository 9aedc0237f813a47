import Runbook.Condition
import Runbook.Mode
import Runbook.Pattern.Reader

/-! # Permissions

Whether a tool may run with given parameters in a mode. The first grant of the mode whose group has
the tool decides. If it is the edit group and has a pattern, every file that the call names must match
it: the path, when the call has something to write, and the paths named inside its arguments text.
A pattern with a count that is too large, or a path without a text, is a fault.
-/

namespace Runbook.Mode

/-- The parameters that make a call of an edit tool one that writes. -/
def writingParameters : List String :=
  ["diff", "content", "operations", "search", "replace", "args", "line"]

/-- The contents of the path elements of a text, from left to right: an element opens with its tag,
holds at least one character and no angle bracket that opens a tag, and closes with its tag. -/
def pathElements : List Char → List String
  | [] => []
  | c :: rest =>
    match "<path>".toList.isPrefixOf? (c :: rest) with
    | none => pathElements rest
    | some inner =>
      let content := inner.takeWhile (· != '<')
      if !content.isEmpty && "</path>".toList.isPrefixOf (inner.dropWhile (· != '<')) then
        String.ofList content :: pathElements rest
      else pathElements rest

/-- The paths that an arguments text names: the trimmed contents of its path elements that are not
blank and hold no angle bracket. -/
def namedPaths (text : String) : List String :=
  ((pathElements text.toList).filter fun p =>
    !(Text.trim p).isEmpty && !p.toList.contains '<' && !p.toList.contains '>').map Text.trim

/-- The files whose names have to match before a call may write. -/
def checkedPaths (parameters : Entries) : List String :=
  let path := parameters.getD "path"
  let writes := writingParameters.any fun name => (parameters.getD name).truthy
  let direct := if path.truthy && writes then [path.toText] else []
  direct ++ match parameters.getD "args" with
    | .text s => namedPaths s
    | _ => []

/-- The path has to match, but it holds an integer of too many digits and has no text. -/
def pathUnwritable (parameters : Entries) : Bool :=
  let path := parameters.getD "path"
  let writes := writingParameters.any fun name => (parameters.getD name).truthy
  path.truthy && writes && path.hasLongInteger

/-- The refusal of the first of some files that does not match. -/
def restrictPaths (mode : Mode) (pattern : String) (description : Option String) (tool : String) :
    List String → Except Fault Unit
  | [] => .ok ()
  | path :: rest => do
    if ← Pattern.tryText path pattern then restrictPaths mode pattern description tool rest
    else .error (.fileRestricted (.text mode.name) (.text pattern) (Value.ofText? description)
      (.text path) (.text tool))

/-- The refusal of the first file of a call that does not match. -/
def restrict (mode : Mode) (pattern : String) (description : Option String) (tool : String)
    (parameters : Entries) : Except Fault Unit :=
  if pathUnwritable parameters then .error .integerUnwritable
  else restrictPaths mode pattern description tool (checkedPaths parameters)

/-- A call is within the grants of a mode. -/
def permits (mode : Mode) (tool : String) (parameters : Value) : List Grant → Except Fault Bool
  | [] => .ok false
  | grant :: rest =>
    if (toolsOfGroup grant.group).contains tool then
      match grant.restriction with
      | some { pattern := some pattern, description } =>
        if pattern.isEmpty || grant.group != "edit" then .ok true
        else match parameters.orElse (.dict []) with
          | .dict entries => (restrict mode pattern description tool entries).map fun _ => true
          | v => .error (.noAttribute v.kind "get")
      | _ => .ok true
    else permits mode tool parameters rest

/-- A call is allowed in a mode of the table. -/
def Table.allows (t : Table) (tool : String) (parameters : Value) (slug : Value) :
    Except Fault Bool :=
  if alwaysAvailable.contains tool then .ok true
  else match slug with
    | .text slug =>
      match t.find? slug with
      | some mode => permits mode tool parameters mode.grants
      | none => .ok false
    | _ => .ok false

end Runbook.Mode
