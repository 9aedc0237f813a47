import Runbook.Engine
import Runbook.Fault.Refusal
import Runbook.Web.Entry
import Runbook.Web.Origin
import Runbook.Web.Route
import Runbook.Web.View

/-! # The interface

Workflows are submitted and executions are managed over requests. Every request has an identifier,
its own or a new one, that the response repeats. A refusal of the engine is answered with its own
status, a value that is not acceptable with 400, an entry that is not filled in properly with 422.
Whatever else goes wrong is answered with 500, in production without telling what it was.
-/

namespace Runbook.Web

/-- An engine that can be reached over requests. -/
structure Interface (σ : Type) where
  settings : Settings
  engine : Engine σ

variable {σ : Type}

/-- The header with the identifier of a request. -/
def requestIdHeader : String := "x-request-id"

/-- The identifier of a request, if it has none of its own the one with a number. -/
def requestId (r : Request) (number : Nat) : String :=
  (r.header? requestIdHeader).getD ("req-" ++ Number.intText number)

/-- A detail as a response tells it. -/
def detail (v : Value) : Value := Value.record [("detail", v)]

/-- The response to an entry with problems. -/
def rejected (problems : List Form.Problem) : Response :=
  Response.document 422 (detail (.list (problems.map fun p =>
    Value.record [("loc", .list p.place), ("type", .text p.flaw.label)])))

/-- The response to cargo that cannot be used. -/
def spoilt : Spoilt → Response
  | .malformed problems => rejected problems
  | .unreadable => Response.document 400 (detail (.text "There was an error parsing the body"))

/-- The part of an entry that is there, or the response to its problems. -/
def Interface.withEntry {α : Type} (r : Request) (read : Cargo → Except (List Form.Problem) α)
    (go : α → Attempt σ Response) : Attempt σ Response :=
  match cargo r with
  | .error s => pure (spoilt s)
  | .ok c =>
    match read c with
    | .error problems => pure (rejected problems)
    | .ok a => go a

namespace Interface

/-- The interface to an engine. -/
def open? (settings : Settings) (engine : Engine σ) : Except Fault (Interface σ) :=
  match prefixFault? settings.apiPrefix with
  | some fault => .error fault
  | none => .ok { settings, engine }

/-- Look at the world. -/
def look {α : Type} (f : World σ → α) : Attempt σ α := Attempt.lift (.look f)

/-- The response that shows an execution. -/
def shown (status : Nat) (e : Execution) : Attempt σ Response := do
  return Response.document status (← Attempt.ofExcept (view e))

/-- Run the workflow of a submission in the background. -/
def submit (i : Interface σ) (s : Submission) : Attempt σ Response := do
  let id ← i.engine.start (.dict s.workflow) s.options
  shown 202 (← look fun w => Engine.record w id)

/-- Cancel an execution. -/
def cancel (i : Interface σ) (id : String) : Attempt σ Response := do
  if ← i.engine.cancel id then
    match ← look fun w => w.ledger.find? id with
    | some e => shown 200 e
    | none => Attempt.fail (.noAttribute "NoneType" "to_dict")
  else Attempt.fail (.notFound ("No active execution '" ++ id ++ "'"))

/-- Answer a manual step. -/
def acknowledge (id : String) (v : Verdict) : Attempt σ Response := do
  let decision : Decision := { approved := .bool v.approved, note := Value.ofText? v.note }
  if ← Attempt.lift (.update (Engine.acknowledge id decision (Value.ofText? v.token))) then
    return Response.document 200 (Value.record
      [("execution_id", .text id), ("approved", .bool v.approved), ("resolved", .bool true)])
  else Attempt.fail (.notFound ("No pending manual step for execution '" ++ id ++ "'"))

/-- What the liveness check tells. -/
def alive (s : Settings) : Value :=
  Value.record [("app", .text s.appName), ("version", .text s.appVersion), ("status", .text "ok")]

/-- The time since the start in hours, minutes and seconds. -/
def uptime (now : Float) : String :=
  let seconds := ((Number.truncate now).toOption.getD 0).toNat
  Number.intText (seconds / 3600 : Nat) ++ "h " ++ Number.intText (seconds % 3600 / 60 : Nat) ++ "m " ++
    Number.intText (seconds % 60 : Nat) ++ "s"

/-- What the health check tells. -/
def health (i : Interface σ) (w : World σ) : Value :=
  let s := i.settings
  Value.record [("app", .text s.appName), ("version", .text s.appVersion),
    ("environment", .text s.environment), ("started_at", Value.moment),
    ("uptime", .text (uptime w.agenda.now)),
    ("uptime_seconds", .float (Number.roundPlaces 1 w.agenda.now)),
    ("python", Value.record [("version", .text ""), ("platform", .text "")]),
    ("engine", i.engine.stats w)]

/-- Answer a request at a part of the interface. -/
def serve (i : Interface σ) (r : Request) (id : String) : Endpoint → Attempt σ Response
  | .guide | .reference => pure (Response.page i.settings.appName)
  | .liveness => pure (Response.document 200 (alive i.settings))
  | .health => do return Response.document 200 (← look i.health)
  | .submit => withEntry r Submission.ofCargo i.submit
  | .listActive => do
    let running ← look fun w => w.ledger.running
    return Response.document 200 (← Attempt.ofExcept (listing running))
  | .listHistory => do
    match historyLimit r.query with
    | .error problems => return rejected problems
    | .ok n =>
      let finished ← Attempt.ofExcept (← look fun w => Engine.history w (.int n))
      return Response.document 200 (← Attempt.ofExcept (listing finished))
  | .clearHistory => do
    Attempt.lift (.change Engine.clearHistory)
    return { status := 204, headers := [("content-type", "application/json")] }
  | .stats => do return Response.document 200 (← look i.engine.stats)
  | .find => do
    match ← look fun w => w.ledger.find? id with
    | some e => shown 200 e
    | none => Attempt.fail (.notFound ("Execution '" ++ id ++ "' not found"))
  | .cancel => i.cancel id
  | .listPending => do
    let pending ← look fun w => Engine.pendingSteps w id
    return Response.document 200 (Value.record [("execution_id", .text id), ("pending", pending)])
  | .acknowledge => withEntry r Verdict.ofCargo (Interface.acknowledge id)

/-- Answer a request by where it leads. -/
def dispatch (i : Interface σ) (r : Request) : Attempt σ Response :=
  match route (routes i.settings) r.method r.path with
  | .endpoint e id => i.serve r id e
  | .wrongMethod allowed =>
    pure ((Response.document 405 (detail (.text "Method Not Allowed"))).withHeader "allow"
      (", ".intercalate allowed))
  | .elsewhere path =>
    let query := if r.query.isEmpty then "" else "?" ++ r.query
    let host := (r.header? "host").getD "test"
    pure { status := 307
           headers := [("location", percentEncode ("http://" ++ host ++ path ++ query))] }
  | .nowhere => pure (Response.document 404 (detail (.text "Not Found")))

/-- The response to a fault that the interface has an answer to. -/
def answered? (requestId : String) (fault : Fault) : Option Response :=
  match fault.family with
  | .refusal status =>
    some (Response.document ((status.integer?.getD 500).toNat) (Value.record
      [("detail", .text fault.message), ("error", Value.ofText? fault.refusalName?),
        ("request_id", .text requestId)]))
  | .value =>
    some (Response.document 400 (Value.record
      [("detail", .text fault.message), ("request_id", .text requestId)]))
  | _ => none

/-- The response to a fault that nobody has reckoned with. -/
def unexpected (s : Settings) (requestId message : String) : Response :=
  let told := if s.isProduction || message.isEmpty then "Internal server error" else message
  Response.document 500 (Value.record [("detail", .text told), ("request_id", .text requestId)])

/-- Answer a request, with the identifier of the request in the response. The time that it took is
told only if all went as it should. -/
def track (i : Interface σ) (r : Request) (number : Nat) : Routine σ Response := do
  let id := requestId r number
  let begun ← Routine.clock
  let outcome ← ExceptT.run (i.dispatch r)
  let ended ← Routine.clock
  let timed (response : Response) : Response :=
    (response.withHeader requestIdHeader id).withHeader "x-process-time"
      (Number.fixedText 2 ((ended - begun) * 1000.0) ++ "ms")
  let untimed (message : String) : Response :=
    (unexpected i.settings id message).withHeader requestIdHeader id
  return match outcome with
    | .ok response => timed response
    | .error (.cancelled message) => untimed message
    | .error (.fault fault) =>
      match answered? id fault with
      | some response => timed response
      | none => untimed fault.message

/-- The request is one that gets an identifier. -/
def isTracked (r : Request) : Bool := (question? r).isNone

/-- Answer the request with a number. -/
def respond (i : Interface σ) (r : Request) (number : Nat) : Routine σ Response :=
  match question? r with
  | some (origin, method) => pure (permission i.settings r origin method)
  | none => do return (markOrigin i.settings (r.header? "origin") (← i.track r number)).forMethod r.method

end Interface

end Runbook.Web
