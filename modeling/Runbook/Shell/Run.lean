import Runbook.Shell.Expansion
import Runbook.Shell.Utility

/-! # Running scripts

Commands are run one after the other; each pipeline passes on what its commands write. A command line
ends with a status, by a signal, or because its time is up.
-/

namespace Runbook.Shell

/-- The status of a command that is not found. -/
def notFound : Nat := 127

/-- The directories in which programs are found. -/
def programDirectories : List String := ["/bin", "/usr/bin"]

/-- The name of the program that a command names, if programs are looked for where they are. -/
def programName? (s : Session) (name : String) : Option String :=
  match programDirectories.find? fun d => (d ++ "/").toList.isPrefixOf name.toList with
  | some d => some (String.ofList (name.toList.drop (d.length + 1)))
  | none =>
    let path := Text.split ':' ((s.value? "PATH").getD "/bin")
    if name.toList.contains '/' || !path.any programDirectories.contains then none else some name

/-- Complain about a command that there is not. -/
def complainNotFound (streams : Streams) (name : String) : Deed Nat := do
  let there := match ← locate name with
    | .ok _ => name.toList.contains '/'
    | .error _ => false
  if there then
    complain streams (name ++ ": Permission denied")
    return 126
  else
    complain streams (name ++ ": not found")
    return notFound

/-- Run a command by its name. -/
def runNamed (streams : Streams) (name : String) (arguments : List String) : Deed Nat := do
  match builtIn? streams name arguments with
  | some deed => deed
  | none =>
    match (programName? (← get) name).bind fun program =>
        (program? streams program arguments).orElse fun _ => builtIn? streams program arguments with
    | some deed => deed
    | none => complainNotFound streams name

/-- The streams after a redirection, or nothing if there is no such file. -/
def redirect (run : List Char → Deed Bytes) (streams : Streams) (r : Redirection) :
    Deed (Option Streams) := do
  let target ← expandWhole run r.target
  let send (sink : Sink) : Streams :=
    if r.stream == 2 then { streams with errors := sink }
    else if r.stream == 1 then { streams with output := sink }
    else streams
  match r.direction with
  | .duplicate =>
    match target with
    | "1" => return some (send streams.output)
    | "2" => return some (send streams.errors)
    | "-" => return some (if r.stream == 0 then { streams with input := [] } else send .nowhere)
    | _ => return some streams
  | .fromFile =>
    if target == "/dev/null" then return some { streams with input := [] }
    if target == "/dev/stdin" then return some streams
    let node ← match ← locate target with
      | .ok l => do pure ((← get).files.node? l)
      | .error _ => pure none
    match node with
    | some (.file bytes) => return some { streams with input := bytes }
    | some _ => return some { streams with input := [] }
    | none =>
      complain streams ("cannot open " ++ target ++ ": No such file")
      return none
  | direction =>
    match target with
    | "/dev/null" => return some (send .nowhere)
    | "/dev/stdout" => return some (send streams.output)
    | "/dev/stderr" => return some (send streams.errors)
    | _ =>
      match ← destination target with
      | .error obstacle =>
        let why := match obstacle with
          | .missing | .notDirectory => "Directory nonexistent"
          | other => obstacleText other
        complain streams ("cannot create " ++ target ++ ": " ++ why)
        return none
      | .ok l =>
        modify fun s =>
          let kept := match direction, s.files.node? l with
            | .onto, some (.file old) => old
            | _, _ => []
          { s with files := s.files.put l (.file kept) }
        return some (send (.file l))

/-- The streams after redirections. -/
def redirectAll (run : List Char → Deed Bytes) (streams : Streams) :
    List Redirection → Deed (Option Streams)
  | [] => pure (some streams)
  | r :: rest => do
    match ← redirect run streams r with
    | some streams => redirectAll run streams rest
    | none => return none

/-- Remember the status of what was run last. -/
def settled (deed : Deed Nat) : Deed Nat := do
  let status ← deed
  modify ({ · with status })
  return status

/-- Run the commands of a pipeline, each on what the one before it wrote. -/
def runPiped (run : Streams → Command → Deed Nat) (streams : Streams) : List Command → Deed Nat
  | [] => pure 0
  | [command] => apart (run streams command)
  | command :: rest => do
    let (written, _) ← capture streams fun streams => apart (run streams command)
    runPiped run { streams with input := written } rest

/-- Run a pipeline. -/
def runPipeline (run : Streams → Command → Deed Nat) (streams : Streams) (p : Pipeline Command) :
    Deed Nat :=
  settled do
    let status ← match p.commands with
      | [command] => run streams command
      | commands => runPiped run streams commands
    return if p.negated then statusOf (status != 0) else status

/-- Run the rest of a chain after a status. -/
def runRest (run : Streams → Command → Deed Nat) (streams : Streams) (status : Nat) :
    List (Bool × Pipeline Command) → Deed Nat
  | [] => pure status
  | (onSuccess, p) :: rest => do
    let status ← if (status == 0) == onSuccess then runPipeline run streams p else pure status
    runRest run streams status rest

/-- Run a script. -/
def runScript (run : Streams → Command → Deed Nat) (streams : Streams) : Script → Deed Nat
  | [] => do return (← get).status
  | chain :: rest => do
    let _ ← settled do
      let status ← runPipeline run streams chain.first
      runRest run streams status chain.rest
    runScript run streams rest

/-- Run a command line. -/
def runSource (run : Streams → Command → Deed Nat) (streams : Streams) (source : List Char) :
    Deed Nat :=
  match parse source with
  | .ok script => do
    modify ({ · with status := 0 })
    runScript run streams script
  | .error flaw => do
    complain streams ("Syntax error: " ++ flaw)
    throw (.exited 2)

/-- Run a script for every field, with a variable that has it. -/
def runEach (deed : Deed Nat) (name : String) : List String → Deed Nat
  | [] => pure 0
  | [field] => do
    modify (·.assign name field)
    deed
  | field :: rest => do
    modify (·.assign name field)
    let _ ← deed
    runEach deed name rest

/-- The script of the first condition that succeeds is run, or else another one. -/
def runChoice (run : Script → Deed Nat) (otherwise : Script) : List (Script × Script) → Deed Nat
  | [] => if otherwise.isEmpty then pure 0 else run otherwise
  | (condition, script) :: rest => do
    if (← run condition) == 0 then run script else runChoice run otherwise rest

/-- Run a script as long as a condition holds. Time is up if that is too often. -/
def runLoop (condition : Deed Bool) (deed : Deed Nat) : (fuel : Nat) → (status : Nat) → Deed Nat
  | 0, _ => throw .late
  | fuel + 1, status => do
    if ← condition then
      let status ← deed
      runLoop condition deed fuel status
    else return status

/-- The most that a loop is repeated. -/
def patience : Nat := 100000

/-- Run a command. -/
def runCommand : (fuel : Nat) → Streams → Command → Deed Nat
  | 0, _, _ => throw .late
  | fuel + 1, streams, command => do
    let inner (source : List Char) : Deed Bytes := do
      let (written, status) ← capture streams fun streams =>
        apart (runSource (runCommand fuel) streams source)
      modify ({ · with status })
      return written
    let script (streams : Streams) (script : Script) : Deed Nat := do
      if script.isEmpty then return 0 else runScript (runCommand fuel) streams script
    let redirected (redirections : List Redirection) (deed : Streams → Deed Nat) : Deed Nat := do
      match ← redirectAll inner streams redirections with
      | none => return 2
      | some streams => deed streams
    match command with
    | .group isApart inside redirections =>
      redirected redirections fun streams =>
        if isApart then apart (script streams inside) else script streams inside
    | .choice branches otherwise redirections =>
      redirected redirections fun streams => runChoice (script streams) otherwise branches
    | .each name words body redirections =>
      redirected redirections fun streams => do
        runEach (script streams body) name (← expand inner words)
    | .loop onSuccess condition body redirections =>
      redirected redirections fun streams =>
        runLoop (do return ((← script streams condition) == 0) == onSuccess)
          (script streams body) patience 0
    | .simple assignments words redirections => do
      let fields ← expand inner words
      let values ← assignments.mapM fun a => do return (a.1, ← expandWhole inner a.2)
      match ← redirectAll inner streams redirections with
      | none => return 2
      | some streams =>
        match fields with
        | [] =>
          modify fun s => values.foldl (fun s v => s.assign v.1 v.2) s
          return (← get).status
        | name :: arguments =>
          let before := (← get).environment
          modify fun s => values.foldl (fun s v => s.assign v.1 v.2) s
          let status ← match name, arguments with
            | "sh", "-c" :: source :: _ =>
              apart (runSource (runCommand fuel) streams source.toList)
            | "eval", _ => runSource (runCommand fuel) streams (" ".intercalate arguments).toList
            | "exec", name :: arguments => do
              throw (.exited (← runNamed streams name arguments))
            | _, _ => runNamed streams name arguments
          if !values.isEmpty then modify ({ · with environment := before })
          return status

/-- How a command line ended, with what it wrote and how long it slept. -/
structure Ending where
  /-- The status, or the signal as a negative number; nothing if the time was up. -/
  code : Option Int
  output : Bytes
  errors : Bytes
  files : Files
  seconds : Float

/-- The most that commands are nested. -/
def depth : Nat := 1000

/-- Run a command line in a directory, for less than a number of seconds. -/
def run (files : Files) (directory : Location) (environment : List (String × String))
    (limit : Float) (source : String) : Ending :=
  let (outcome, s) := (runSource (runCommand depth) {} source.toList).run.run
    { files, directory, environment, limit }
  { code := match outcome with
      | .ok status => some status
      | .error (.exited status) => some status
      | .error (.killed signal) => some (-(signal : Int))
      | .error .late => none
    output := s.buffers.head?.getD []
    errors := (s.buffers[1]?).getD []
    files := s.files
    seconds := s.elapsed }

end Runbook.Shell
