import Runbook.Settings
import Runbook.Web.Message

/-! # Routes

Which part of the interface answers a request. A path that only lacks a slash at its end, or has one
too many, leads elsewhere; one that is known for another method leads nowhere.
-/

namespace Runbook.Web

/-- A part of the interface. -/
inductive Endpoint where
  | guide
  | reference
  | liveness
  | health
  | submit
  | listActive
  | listHistory
  | clearHistory
  | stats
  | find
  | cancel
  | listPending
  | acknowledge
deriving DecidableEq, Repr

/-- A segment of a path: a fixed name, or the identifier of an execution. -/
inductive Segment where
  | name (s : String)
  | execution
deriving DecidableEq, Repr

/-- A route. -/
structure Route where
  methods : List String
  segments : List Segment
  endpoint : Endpoint

/-- The segments of a fixed path. -/
def fixed (path : String) : List Segment := (Text.split '/' path).map Segment.name

/-- The routes of the health checks under a prefix. -/
def healthRoutes (front : String) : List Route :=
  [⟨["GET"], fixed (front ++ "/health/"), .liveness⟩, ⟨["GET"], fixed (front ++ "/health/status"), .health⟩]

/-- The routes of the executions under a prefix. -/
def executionRoutes (front : String) : List Route :=
  let path (rest : String) := fixed (front ++ "/executions/" ++ rest)
  let one (rest : List String) := fixed (front ++ "/executions") ++ .execution :: rest.map Segment.name
  [⟨["POST"], path "", .submit⟩, ⟨["GET"], path "active", .listActive⟩,
    ⟨["GET"], path "history", .listHistory⟩, ⟨["DELETE"], path "history", .clearHistory⟩,
    ⟨["GET"], path "stats", .stats⟩, ⟨["GET"], one [], .find⟩,
    ⟨["POST"], one ["cancel"], .cancel⟩, ⟨["GET"], one ["manual"], .listPending⟩,
    ⟨["POST"], one ["manual", "acknowledge"], .acknowledge⟩]

/-- All routes, in the order in which they are tried. -/
def routes (s : Settings) : List Route :=
  (if s.isDevelopment then
    [⟨["GET", "HEAD"], fixed "/docs", .guide⟩, ⟨["GET", "HEAD"], fixed "/docs/oauth2-redirect", .guide⟩,
      ⟨["GET", "HEAD"], fixed "/redoc", .reference⟩]
  else []) ++
    healthRoutes "/api" ++ healthRoutes s.apiPrefix ++ executionRoutes s.apiPrefix

/-- What is wrong with a prefix of paths. -/
def prefixFault? (front : String) : Option Fault :=
  let cs := front.toList
  if cs.isEmpty then none
  else if cs.head? != some '/' then
    some (.raised "AssertionError" "A path prefix must start with '/'")
  else if cs.getLast? == some '/' then
    some (.raised "AssertionError"
      "A path prefix must not end with '/', as the routes will start with '/'")
  else none

/-- A path has the segments of a route; the identifier in it, if there is one. -/
def matchSegments : List Segment → List String → Option String
  | [], [] => some ""
  | .name s :: rest, part :: parts => if s == part then matchSegments rest parts else none
  | .execution :: rest, part :: parts =>
    if part.isEmpty then none else (matchSegments rest parts).map fun _ => part
  | _, _ => none

/-- Where a request leads. -/
inductive Destination where
  /-- To a part of the interface, with the identifier in the path. -/
  | endpoint (e : Endpoint) (execution : String)
  /-- Nowhere, but with other methods it would lead somewhere. -/
  | wrongMethod (allowed : List String)
  /-- To another path. -/
  | elsewhere (path : String)
  | nowhere
deriving Repr

/-- The routes that a path matches, with the identifier in it. -/
def candidates (all : List Route) (path : String) : List (Route × String) :=
  all.filterMap fun route => (matchSegments route.segments (Text.split '/' path)).map fun id => (route, id)

/-- The path with a slash at its end, or without those that it has. -/
def otherPath (path : String) : String :=
  if path.toList.getLast? == some '/' then
    String.ofList (path.toList.reverse.dropWhile (· == '/')).reverse
  else path ++ "/"

/-- Where a request leads. -/
def route (all : List Route) (method path : String) : Destination :=
  let found := candidates all path
  match found.find? fun c => c.1.methods.contains method with
  | some (r, id) => .endpoint r.endpoint id
  | none =>
    match found with
    | (r, _) :: _ => .wrongMethod r.methods
    | [] =>
      if path != "/" && !(candidates all (otherPath path)).isEmpty then .elsewhere (otherPath path)
      else .nowhere

end Runbook.Web
