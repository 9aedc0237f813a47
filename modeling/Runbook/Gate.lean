import Runbook.Workflow

/-! # The gate of manual steps

A manual step that awaits an operator opens a request under a token. An operator answers the earliest
request of an execution that is not settled, or the one with a given token; a cancelled execution
releases all of its requests. A request stays listed until the step that waits for it goes on.
-/

namespace Runbook

/-- An operator's answer. Approval counts by its truth, and a note can be anything. -/
structure Decision where
  approved : Value
  note : Value := .null
  cancelled : Bool := false

/-- How far a request has come. -/
inductive Resolution where
  | unsettled
  | decided (decision : Decision)
  /-- The task that waited for it was cancelled. -/
  | abandoned

/-- A request for an operator's answer. -/
structure Gate.Request where
  token : String
  execution : String
  stepIndex : Int
  resolution : Resolution := .unsettled
  /-- It counts among the pending requests of its execution. -/
  listed : Bool := true

/-- The requests that were opened, in order. -/
structure Gate where
  requests : List Gate.Request := []

namespace Gate

/-- Nothing has been answered yet. -/
def Request.isOpen (r : Request) : Bool := r.resolution matches .unsettled

/-- The operator's answer, once it is given. -/
def Request.answer? (r : Request) : Option Decision :=
  match r.resolution with
  | .decided decision => some decision
  | _ => none

/-- The token of the `n`-th request. -/
def tokenOf (n : Nat) : String := "manual_" ++ Workflow.serial n ++ "000"

/-- The request with a token. -/
def find? (g : Gate) (token : String) : Option Request := g.requests.find? (·.token == token)

/-- The gate with one more request, and its token. -/
def request (g : Gate) (execution : String) (stepIndex : Int) : Gate × String :=
  let token := tokenOf (g.requests.length + 1)
  ({ g with requests := g.requests ++ [{ token, execution, stepIndex }] }, token)

/-- The gate with the request under a token changed. -/
def amend (g : Gate) (token : String) (f : Request → Request) : Gate :=
  { g with requests := g.requests.map fun r => if r.token == token then f r else r }

/-- The gate with a request settled, if it was not already. -/
def settle (g : Gate) (token : String) (resolution : Resolution) : Gate :=
  g.amend token fun r => if r.isOpen then { r with resolution } else r

/-- The gate with a request off the list of pending ones. -/
def withdraw (g : Gate) (token : String) : Gate := g.amend token ({ · with listed := false })

/-- The pending requests of an execution. -/
def pending (g : Gate) (execution : String) : List Request :=
  g.requests.filter fun r => r.listed && r.execution == execution

/-- The request that an operator's answer goes to: the earliest of an execution that is not settled,
or the one with a given token. -/
def addressee? (g : Gate) (execution : String) (token : Value) : Option Request :=
  (g.pending execution).find? fun r =>
    (token.isNull || token.equal (.text r.token)) && r.isOpen

/-- The requests of an execution that are not settled. -/
def unsettled (g : Gate) (execution : String) : List Request :=
  (g.pending execution).filter (·.isOpen)

/-- What an execution's release tells those that wait. -/
def released (note : Value) : Decision := { approved := .bool false, note, cancelled := true }

end Gate

end Runbook
