import Runbook.Fault.Refusal

/-! # Modes

A mode grants groups of tools, and may let the tools of a group change matching files only. Some
tools are available whatever the mode. `Mode.Table` holds the modes that are known and the one that
is active.
-/

namespace Runbook

/-- What restricts a granted group: the files whose names match a pattern. -/
structure Mode.Restriction where
  pattern : Option String := none
  description : Option String := none
deriving DecidableEq, Repr

/-- A group of tools that a mode grants. -/
structure Mode.Grant where
  group : String
  restriction : Option Mode.Restriction := none
deriving DecidableEq, Repr

/-- An operating mode. -/
structure Mode where
  slug : String
  name : String
  description : String := ""
  grants : List Mode.Grant := []
deriving DecidableEq, Repr

namespace Mode

/-- The tools of a group. -/
def toolsOfGroup : String → List String
  | "read" => ["read_file", "search_files", "list_files", "list_code_definition_names"]
  | "edit" => ["write_to_file", "apply_diff", "insert_content", "search_and_replace"]
  | "browser" => ["browser_action"]
  | "command" => ["execute_command"]
  | "mcp" => ["use_mcp_tool", "access_mcp_resource"]
  | _ => []

/-- The tools that every mode has. -/
def alwaysAvailable : List String :=
  ["ask_followup_question", "attempt_completion", "switch_mode", "new_task", "update_todo_list"]

/-- The tools of a mode, each once. -/
def tools (m : Mode) : List String :=
  (alwaysAvailable ++ m.grants.flatMap fun g => toolsOfGroup g.group).eraseDups

/-- The grant of a whole group. -/
def whole (group : String) : Grant := { group }

/-- The modes that are known from the start. -/
def builtIn : List Mode :=
  [{ slug := "architect", name := "Architect"
     description := "Plan and design before implementation"
     grants := [whole "read",
       { group := "edit"
         restriction := some { pattern := some "\\.md$", description := some "Markdown files only" } },
       whole "browser", whole "mcp"] },
   { slug := "code", name := "Code", description := "Write, modify, and refactor code"
     grants := ["read", "edit", "browser", "command", "mcp"].map whole },
   { slug := "ask", name := "Ask", description := "Get answers and explanations"
     grants := ["read", "browser", "mcp"].map whole },
   { slug := "debug", name := "Debug", description := "Diagnose and fix software issues"
     grants := ["read", "edit", "browser", "command", "mcp"].map whole },
   { slug := "orchestrator", name := "Orchestrator"
     description := "Coordinate tasks across multiple modes" }]

/-- The known modes, in the order in which their slugs were first registered, and the slug of the
active one. -/
structure Table where
  modes : List Mode
  current : String

namespace Table

/-- The modes with one more, which takes the place of one with the same slug. -/
def put (mode : Mode) : List Mode → List Mode
  | [] => [mode]
  | m :: rest => if m.slug == mode.slug then mode :: rest else m :: put mode rest

/-- The mode with a slug. -/
def find? (t : Table) (slug : String) : Option Mode := t.modes.find? (·.slug == slug)

/-- The refusal of a slug that no mode has. -/
def missing (slug : String) : Fault := .notFound ("Mode '" ++ slug ++ "' not found")

/-- A table of modes with one of them active. Without any modes the built-in ones are taken. -/
def ofModes (active : String) (modes : List Mode) : Except Fault Table :=
  let table : Table :=
    { modes := (if modes.isEmpty then builtIn else modes).foldl (fun ms m => put m ms) []
      current := active }
  if (table.find? active).isSome then .ok table else .error (missing active)

/-- The table with a mode added or replaced. -/
def register (t : Table) (mode : Mode) : Table := { t with modes := put mode t.modes }

/-- The table with another mode active. -/
def activate (t : Table) (slug : String) : Except Fault Table :=
  if (t.find? slug).isSome then .ok { t with current := slug } else .error (missing slug)

/-- The tools that a mode has; one that is not known has only those that every mode has. -/
def toolsFor (t : Table) (slug : String) : List String :=
  match t.find? slug with
  | some mode => mode.tools
  | none => alwaysAvailable

end Table

end Mode

end Runbook
