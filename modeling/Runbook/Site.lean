import Runbook.Host
import Runbook.Rehearsal.Stage
import Runbook.Settings
import Runbook.Tool.Registry

/-! # Sites

A site is an engine as it is set up for use: its settings come from the environment, its tools are
those of the registry, and the table of modes both decides about permissions and tells the active
mode.
-/

namespace Runbook

/-- What the tools of a site remember. -/
structure Site where
  registry : Tool.Registry
  modes : Mode.Table
  /-- What has come of the acts at the site, by number. -/
  replies : List (Nat × Except Interrupt Value) := []

namespace Site

instance : Keeps Site where
  keep act outcome s := { s with replies := (act, outcome) :: s.replies }
  kept? s act := (s.replies.find? (·.1 == act)).map (·.2)

/-- The site that settings describe, on some files. -/
def open? (settings : Settings) (files : Files) : Except Fault Site := do
  let modes ← Mode.Table.ofModes settings.defaultMode []
  return {
    modes
    registry := {
      workspace := settings.workspaceRoot, files, timeout := .float settings.commandTimeout } }

/-- What an engine asks a site about tools. -/
def authority : Authority Site where
  knows name s := (s.registry.has name, s)
  permits := some fun tool parameters mode s => (s.modes.allows tool (.dict parameters) mode, s)

/-- The engine that settings describe. -/
def engine? (settings : Settings) : Except Fault (Engine Site) := do
  let config ← settings.engineConfig
  return { config, authority, mode := some fun s => (.ok (.text s.modes.current), s) }

/-- Call a tool of the registry, and take the time that it takes. -/
def callTool (name : String) (parameters : Entries) : Script Site (Except Interrupt Value) := do
  let reply ← Script.put (.remember fun s =>
    let (reply, registry) := s.registry.call name (.dict parameters)
    (reply, { s with registry }))
  if 0.0 < reply.seconds then
    if let .cancelled ← Script.put (.pause reply.seconds) then return .error (.cancelled "")
  match reply.result with
  | .ok entries => return .ok (.dict entries)
  | .error cause => return .error (.fault cause)

/-- The name of the clerk, who takes a moment when an execution starts. -/
def clerk : String := "clerk"

/-- A moment in seconds. -/
def moment : Float := 0.000001

/-- The tools of a site, and its clerk. -/
def host : Host Site where
  tool := callTool
  observer name _ :=
    if name == clerk then do
      let _ ← Script.put (.pause moment)
      return .ok ()
    else pure (.ok ())

/-- A machine at a site. Time passes while an execution starts if the clerk is there. -/
def machine (site : Site) (attended : Bool) : Machine Site :=
  { world := {
      memory := site
      bus := if attended then Bus.subscribe {} .executionStarted clerk else {} } }

/-- The machine with a new engine at the same site. -/
def renew (m : Machine Site) : Machine Site :=
  let old := m.world
  { world := {
      memory := old.memory
      agenda := { now := old.agenda.now }
      ledger := { generated := old.ledger.generated }
      workflowIds := old.workflowIds
      bus := old.bus } }

end Site

end Runbook
