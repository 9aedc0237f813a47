import Runbook.Agenda
import Runbook.Engine.Config
import Runbook.Event.Bus
import Runbook.Gate
import Runbook.Ledger

/-! # The world of an engine

Everything that a running engine and those around it can change: its executions, the requests at the
gate, the registrations for events, the latches that tools wait at, the agenda of tasks, and the
memory of the tools and observers. The journal tells what has happened, newest first.
-/

namespace Runbook

/-- What the journal tells. -/
inductive Happening where
  /-- An execution of a workflow was admitted. -/
  | admitted (execution : String) (workflow : Workflow) (options : Options)
  /-- An event was about to be announced, with the record of its execution at that moment. -/
  | announced (event : Event) (record : Option Execution)
  /-- A callback failed. -/
  | callbackFailed (kind : EventKind) (message : String)
  /-- An execution was found to have used up its time before a step. -/
  | expired (execution : String) (stepIndex : Int) (elapsed : Float)
  /-- The interpreter was entered for a step of the workflow itself. -/
  | entered (execution : String) (stepIndex : Int)
  /-- The interpreter came to an outcome for a step of the workflow itself. -/
  | interpreted (step : Step) (context : Context) (outcome : Except Interrupt StepResult)
  /-- It was asked whether a tool is known. -/
  | asked (execution tool : String) (known : Bool)
  /-- It was asked whether a tool may run in a mode. -/
  | judged (execution tool : String) (parameters : Entries) (mode : Value) (allowed : Except Fault Bool)
  /-- A tool was called. -/
  | called (execution tool : String) (parameters : Entries)
  /-- Another round of a loop began. -/
  | iterated (execution : String) (stepIndex : Int) (round : Nat)
  /-- A cancellation found an active execution. -/
  | cancelled (execution : String)
  /-- The duration of an execution could not be told at its end. -/
  | untimed (execution : String)
  /-- An active execution was retired. -/
  | retired (execution : String)
  /-- The history was cleared. -/
  | cleared

/-- The world of an engine whose tools and observers have a memory of type `σ`. -/
structure World (σ : Type) where
  memory : σ
  agenda : Agenda := {}
  ledger : Ledger := {}
  gate : Gate := {}
  bus : Bus := {}
  latches : List Value := []
  /-- The tasks that run executions in the background. -/
  background : List (String × TaskId) := []
  /-- How many identifiers have been generated for workflows without one. -/
  workflowIds : Nat := 0
  journal : List Happening := []

namespace World

variable {σ : Type}

/-- The world with one more entry in its journal. -/
def note (w : World σ) (h : Happening) : World σ := { w with journal := h :: w.journal }

/-- The latch is open. -/
def isOpen (w : World σ) (key : Value) : Bool := w.latches.any (·.equal key)

/-- The world with a latch open, which lets everyone go on who waits there. -/
def openLatch (w : World σ) (key : Value) : World σ :=
  if w.isOpen key then w
  else { w with
    latches := w.latches ++ [key]
    agenda := w.agenda.releaseAll (fun
      | .latch k => k.equal key
      | _ => false) .ready }

/-- The world with a request at the gate settled, which lets everyone go on who waits for it. -/
def settle (w : World σ) (token : String) (resolution : Resolution) : World σ :=
  { w with
    gate := w.gate.settle token resolution
    agenda := w.agenda.releaseAll (fun
      | .decision t => t == token
      | _ => false) (match resolution with
      | .abandoned => .cancelled
      | _ => .ready) }

/-- The world after an operator's answer, and whether there was a request for it. -/
def acknowledge (w : World σ) (execution : String) (decision : Decision) (token : Value) :
    World σ × Bool :=
  match w.gate.addressee? execution token with
  | some r => (w.settle r.token (.decided decision), true)
  | none => (w, false)

/-- The world after the release of all requests of an execution, and how many there were. -/
def releaseGate (w : World σ) (execution : String) (note : Value) : World σ × Nat :=
  let waiting := w.gate.unsettled execution
  (waiting.foldl (fun w r => w.settle r.token (.decided (Gate.released note))) w, waiting.length)

/-- The world with a task cancelled, and whether it had not ended. A wait is cut short; a task that
waits for others passes the cancellation on to them; any other task is cancelled at its next turn. -/
def cancelTask (fuel : Nat) (id : TaskId) (w : World σ) : World σ × Bool :=
  match fuel with
  | 0 => (w, false)
  | fuel + 1 =>
    if (w.agenda.task? id).isNone then (w, false)
    else
      let atNextTurn (w : World σ) : World σ :=
        { w with agenda := w.agenda.amend id ({ · with cancelled := true }) }
      match w.agenda.wait? id with
      | none => (atNextTurn w, true)
      | some (.decision token) => (w.settle token .abandoned, true)
      | some (.tasks ids _ _) =>
        let (w, any) := ids.foldl (fun (w, any) other =>
          let (w, hit) := cancelTask fuel other w
          (w, any || hit)) (w, false)
        if any then
          match w.agenda.wait? id with
          | some (.tasks ids left _) =>
            ({ w with agenda := w.agenda.rewait id (.tasks ids left true) }, true)
          | _ => (w, true)
        else (atNextTurn w, true)
      | some _ => ({ w with agenda := w.agenda.release id .cancelled }, true)

/-- The world with a task cancelled, and whether it had not ended. -/
def cancel (w : World σ) (id : TaskId) : World σ × Bool :=
  w.cancelTask (w.agenda.created + 1) id

end World

end Runbook
