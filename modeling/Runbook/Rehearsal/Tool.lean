import Runbook.Host
import Runbook.Rehearsal.Stage

/-! # Tools of a rehearsal

A tool replies the same way each time or goes through a list of replies, of which the last repeats. A
reply may take time before it is given.
-/

namespace Runbook.Rehearsal

/-- How long a reply takes. -/
inductive Pace where
  | none
  | milliseconds (n : Value)
  /-- As many milliseconds as the parameter `ms` says. -/
  | parameter

/-- What a tool replies. -/
inductive Response where
  | interrupt (i : Interrupt)
  /-- Its own parameters, and the parameter `value` by itself. -/
  | echo
  /-- What a command would have printed. -/
  | command
  /-- That the latch named by a parameter is open, once it is. -/
  | latch (parameter : String)
  | value (v : Value)

/-- A reply of a tool. -/
structure Reply where
  pace : Pace := .none
  response : Response

/-- A tool, by the replies to its successive calls. -/
abbrev Tool := List Reply

/-- The tool that always gives the same response at once. -/
def always (response : Response) : Tool := [{ response }]

/-- The tools that every rehearsal has unless it takes them away. -/
def stock : List (String × Tool) :=
  let failure := Value.record [("success", .bool false), ("error", .text "tool failed")]
  [("echo", always .echo), ("ok", always (.value (Value.record [("success", .bool true)]))),
    ("fail", always (.value failure)), ("execute_command", always .command),
    ("block", always (.latch "key"))]

/-- The stock of tools with changes laid over it: another tool, or none. -/
def tools (changes : List (String × Option Tool)) : List (String × Tool) :=
  (stock.filter fun t => !changes.any (·.1 == t.1)) ++
    changes.filterMap fun c => c.2.map fun tool => (c.1, tool)

/-- The seconds that a number of milliseconds is. -/
def seconds (ms : Value) : Except Fault Float :=
  match ms.toFloat? with
  | some (.ok x) => .ok (x / 1000.0)
  | some (.error fault) => .error fault
  | none => .error (.raised "TypeError"
      ("unsupported operand type(s) for /: '" ++ ms.kind ++ "' and 'int'"))

/-- Take the time that a reply takes. -/
def keepPace (parameters : Entries) : Pace → Script Stage (Except Interrupt Unit)
  | .none => pure (.ok ())
  | .milliseconds n => wait n
  | .parameter => wait (parameters.getD "ms")
where
  /-- Let a number of milliseconds pass. -/
  wait (ms : Value) : Script Stage (Except Interrupt Unit) := do
    match seconds ms with
    | .error fault => return .error (.fault fault)
    | .ok s =>
      match ← Script.put (.pause s) with
      | .ready => return .ok ()
      | .cancelled => return .error (.cancelled "")

/-- Give a response. -/
def respond (parameters : Entries) : Response → Script Stage (Except Interrupt Value)
  | .interrupt i => pure (.error i)
  | .echo => pure (.ok (Value.record [("success", .bool true), ("echo", parameters.getD "value"),
      ("parameters", .dict parameters)]))
  | .command => pure (.ok (Value.record [("success", .bool true), ("exit_code", .int 0),
      ("stdout", .text ("ran: " ++ (parameters.getD "command").toText)), ("stderr", .text "")]))
  | .latch parameter => do
    let key := parameters.getD parameter
    match ← Script.put (.pass key) with
    | .ready => return .ok (Value.record [("success", .bool true), ("key", key)])
    | .cancelled => return .error (.cancelled "")
  | .value v => pure (.ok v)

/-- The reply to the call after a number of earlier ones. -/
def replyTo (tool : Tool) (before : Nat) : Option Reply := tool[before]?.orElse fun _ => tool.getLast?

/-- Call a tool. -/
def call (available : List (String × Tool)) (name : String) (parameters : Entries) :
    Script Stage (Except Interrupt Value) := do
  let before ← Script.put (.remember (Stage.use ("tool " ++ name)))
  match (available.find? (·.1 == name)).bind fun t => replyTo t.2 before with
  | none => return .ok .null
  | some reply =>
    match ← keepPace parameters reply.pace with
    | .error i => return .error i
    | .ok _ => respond parameters reply.response

end Runbook.Rehearsal
