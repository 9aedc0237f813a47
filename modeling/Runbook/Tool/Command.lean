import Runbook.Shell.Run
import Runbook.Text.Character
import Runbook.Tool.Basic

/-! # The command tool

Runs a command line in a directory of the workspace. Commands in which certain parts occur are never
run. A command that takes too long is cut short.
-/

namespace Runbook.Tool

/-- Parts of commands that are never run. -/
def forbidden : List String :=
  ["rm -rf /", "mkfs", "dd if=", ": > /dev/", "chmod 777 /", ":()\x7b :|:& \x7d;:"]

/-- A part occurs in a command: within a text, or among the items or keys of anything else. -/
def occurs (part : String) : Value → Except Fault Bool
  | .text command => .ok (Text.contains command part)
  | .list items => .ok (items.any (·.equal (.text part)))
  | .tuple items => .ok (items.any (·.equal (.text part)))
  | .dict entries => .ok (Entries.has entries part)
  | v => .error (.notSearchable v.kind)

/-- The first forbidden part of a command. -/
def forbiddenIn? (command : Value) : List String → Except Fault (Option String)
  | [] => .ok none
  | part :: rest => do
    if ← occurs part command then return some part else forbiddenIn? command rest

/-- A value taken as a number of seconds. -/
def secondsOf : Value → Except Fault Float
  | .text s =>
    match Number.readFloat? (String.ofList (Number.unpadded s)) with
    | some x => .ok x
    | none => .error (.malformedNumber s)
  | v => (v.toFloat?).getD (.error (.notReal v.kind))

/-- The variables of every command. -/
def commonVariables : List (String × String) :=
  [("PATH", "/usr/local/sbin:/usr/local/bin:/usr/sbin:/usr/bin:/sbin:/bin"), ("HOME", "/root"),
    ("LANG", "C.UTF-8")]

/-- The variables that entries give. -/
def variablesOf : Entries → Except Fault (List (String × String))
  | [] => .ok []
  | (.text name, v) :: rest =>
    if name.toList.contains '=' then .error .variableName
    else match v with
      | .text value => (variablesOf rest).map ((name, value) :: ·)
      | v => .error (.notEncodable v.kind)
  | (key, _) :: _ => .error (.notEncodable key.kind)

/-- A text holds a zero character. -/
def hasZero (s : String) : Bool := s.toList.contains '\x00'

/-- A command line that is ready to run. -/
structure Errand where
  source : String
  directory : Location
  environment : List (String × String)
  timeout : Float

/-- A command with its parameters made ready, or a reason against it. -/
def prepare (place : Workplace) (parameters : Value) : Except Fault (Except String Errand) := do
  let entries ← parametersOf parameters
  let command := entries.getD "command"
  if !command.truthy then return .error "Missing required parameter: command"
  if let some part ← forbiddenIn? command forbidden then
    return .error ("Blocked dangerous command pattern: " ++ part)
  let directory ← place.files.resolveWithin place.root ((entries.getD "cwd").orElse (.text "."))
  match place.files.isDirectory directory with
  | .error obstacle => throw (Files.fault directory obstacle)
  | .ok false => return .error ("Working directory does not exist: " ++ directory.text)
  | .ok true =>
    let timeout ← secondsOf ((entries.getD "timeout").orElse place.timeout)
    let own ← ((entries.getD "env").orElse (.dict [])).mapping
    match command with
    | .text source =>
      let environment ← variablesOf own
      if hasZero source || environment.any fun v => hasZero v.1 || hasZero v.2 then throw .nulByte
      return .ok { source, directory, timeout, environment := environment.reverse ++ commonVariables }
    | _ => throw .notCommand

/-- The outcome of a command that has ended. -/
def ended (errand : Errand) (code : Int) (output errors : Bytes) : Outcome :=
  let errors := Text.trim (Text.decode errors)
  { success := .bool (code == 0)
    output := .dict [(.text "command", .text errand.source),
      (.text "working_directory", .text errand.directory.text), (.text "exit_code", .int code),
      (.text "stdout", .text (Text.trim (Text.decode output))), (.text "stderr", .text errors),
      (.text "execution_time_ms", .int 0), (.text "timed_out", .bool false)]
    error :=
      if code == 0 then .null
      else .text (if errors.isEmpty then "Command exited with code " ++ Number.intText code
        else errors) }

/-- The outcome of a command that took too long. -/
def tooLong (errand : Errand) : Outcome :=
  { success := .bool false
    output := .dict [(.text "command", .text errand.source), (.text "timed_out", .bool true)]
    error := .text ("Command timed out after " ++ Number.floatText errand.timeout ++ "s") }

/-- Run a command that is ready. -/
def carryOut (place : Workplace) (errand : Errand) : Work :=
  if !(0.0 < errand.timeout) then .on place (.ok (tooLong errand))
  else
    let ending := Shell.run place.files errand.directory errand.environment errand.timeout errand.source
    match ending.code with
    | some code =>
      { outcome := .ok (ended errand code ending.output ending.errors), files := ending.files
        seconds := ending.seconds }
    | none =>
      { outcome := .ok (tooLong errand), files := ending.files, seconds := errand.timeout }

/-- A parameter in a schema. -/
def parameterSchema (kind : String) (description : Option String) : Value :=
  Value.record (("type", .text kind) ::
    (description.map fun d => [("description", Value.text d)]).getD [])

/-- The tool that runs commands. -/
def executeCommand : Tool where
  kind := "ExecuteCommandTask"
  displayName := "Execute Command"
  description := "Run a CLI command on the system"
  schema := Value.record [("type", .text "object"), ("required", .list [.text "command"]),
    ("properties", Value.record [
      ("command", parameterSchema "string" (some "Shell command to execute")),
      ("cwd", parameterSchema "string" (some "Working directory")),
      ("timeout", parameterSchema "number" none), ("env", parameterSchema "object" none)])]
  execute place parameters :=
    match prepare place parameters with
    | .error cause => .on place (.error cause)
    | .ok (.error reason) => .on place (.ok (.failure reason))
    | .ok (.ok errand) => carryOut place errand

end Runbook.Tool
