import Runbook.Files.Change
import Runbook.Number.Text

/-! # Sessions of a shell

What the commands of a script work on: files, a directory, variables, and the streams that they write
to. Time passes in sleep only; a session has a limit on it and is cut short there.
-/

namespace Runbook.Shell

/-- Where what is written goes. -/
inductive Sink where
  | buffer (number : Nat)
  | file (l : Location)
  | nowhere
deriving Repr, DecidableEq

/-- The streams of a command. -/
structure Streams where
  input : Bytes := []
  output : Sink := .buffer 0
  errors : Sink := .buffer 1

/-- The state of a shell. -/
structure Session where
  files : Files
  directory : Location
  environment : List (String × String)
  /-- The status of the last command. -/
  status : Nat := 0
  /-- What was written to each buffer. -/
  buffers : List Bytes := [[], []]
  /-- The seconds that commands have slept. -/
  elapsed : Float := 0.0
  limit : Float

/-- What ends a shell before its script does. -/
inductive Stop where
  | exited (status : Nat)
  | killed (signal : Nat)
  /-- Its time is up. -/
  | late
deriving Repr, DecidableEq

/-- What a command does in a session. -/
abbrev Deed := ExceptT Stop (StateM Session)

/-- The shell's name for itself in messages. -/
def title : String := "/bin/sh"

/-- The number of the shell's own process. -/
def ownProcess : String := "4242"

/-- The value of a variable, or of one of the parameters that the shell sets. -/
def Session.value? (s : Session) : String → Option String
  | "?" => some (Number.intText s.status)
  | "$" => some ownProcess
  | "0" => some title
  | "#" => some "0"
  | "PWD" => some s.directory.text
  | name => (s.environment.find? (·.1 == name)).map (·.2)

/-- The session with a value for a variable. -/
def Session.assign (s : Session) (name value : String) : Session :=
  { s with environment := (name, value) :: s.environment.filter (·.1 != name) }

/-- The wording of an obstacle to reading. -/
def obstacleText : Files.Obstacle → String
  | .missing => "No such file or directory"
  | .exists => "File exists"
  | .notDirectory => "Not a directory"
  | .isDirectory => "Is a directory"
  | .nameTooLong => "File name too long"
  | .tooManyLinks => "Too many levels of symbolic links"

/-- Write to a sink. -/
def emit (sink : Sink) (bytes : Bytes) : Deed Unit :=
  match sink with
  | .nowhere => pure ()
  | .buffer n => modify fun s =>
    { s with buffers := s.buffers.mapIdx fun i b => if i == n then b ++ bytes else b }
  | .file l => modify fun s =>
    let before := match s.files.node? l with
      | some (.file old) => old
      | _ => []
    { s with files := s.files.put l (.file (before ++ bytes)) }

/-- Write a line. -/
def say (sink : Sink) (line : String) : Deed Unit := emit sink (Text.encode (line ++ "\n"))

/-- Complain in the shell's own name. -/
def complain (streams : Streams) (complaint : String) : Deed Unit :=
  say streams.errors (title ++ ": 1: " ++ complaint)

/-- Let seconds pass. -/
def pass (seconds : Float) : Deed Unit := do
  let elapsed := (← get).elapsed + seconds
  if elapsed < (← get).limit then modify ({ · with elapsed }) else throw .late

/-- A deed whose changes to variables and the directory are forgotten, and which can exit for itself
alone. -/
def apart (deed : Deed Nat) : Deed Nat := do
  let before ← get
  let status ← tryCatch deed fun
    | .exited status => pure status
    | stop => throw stop
  modify ({ · with environment := before.environment, directory := before.directory })
  return status

/-- What a deed writes, with the streams that it is given. -/
def capture (streams : Streams) (deed : Streams → Deed Nat) : Deed (Bytes × Nat) := do
  let n := (← get).buffers.length
  modify fun s => { s with buffers := s.buffers ++ [[]] }
  let status ← deed { streams with output := .buffer n }
  let written := ((← get).buffers[n]?).getD []
  modify fun s => { s with buffers := s.buffers.take n }
  return (written, status)

/-- The location that a path leads to in a session, if there is something. -/
def locate (path : String) : Deed (Except Files.Obstacle Location) := do
  let s ← get
  return s.files.walk Files.linkLimit (if Location.isAbsolute path then [] else s.directory)
    (Location.namesOf path)

/-- The location of the file that a path is written to. -/
def destination (path : String) : Deed (Except Files.Obstacle Location) := do
  let s ← get
  return s.files.destination (Location.ofPath s.directory path)

end Runbook.Shell
