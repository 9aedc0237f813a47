import Runbook.Fault
import Runbook.StepResult

/-! # The agenda

Tasks take turns: one runs until it has to wait, and then the next job of the queue is done. Nothing
takes time but waiting. When the queue is empty the clock can be moved to the next moment at which a
timer is due.

A timer that is due is put into the queue, and when its turn comes it puts the task that waits for it
there; a task that ends does the same for those that wait for it.
-/

namespace Runbook

/-- Tasks are numbered in the order of their creation. -/
abbrev TaskId := Nat

/-- How a wait ends. -/
inductive Wake where
  | ready
  | cancelled
deriving DecidableEq, Repr

/-- What a task can wait for. -/
inductive Cue where
  /-- That a number of seconds passes; if it is not positive, the end of the queue. -/
  | time (seconds : Float)
  /-- An operator's answer to the request under a token. -/
  | decision (token : String)
  /-- The opening of a latch. -/
  | latch (key : Value)
  /-- The end of tasks. -/
  | tasks (ids : List TaskId)

/-- A wait that has begun. -/
inductive Wait where
  | timer (due : Float)
  /-- The timer is due, and its turn has not come. -/
  | ringing
  | decision (token : String)
  | latch (key : Value)
  /-- `left` of the tasks have not reported their end. -/
  | tasks (ids : List TaskId) (left : Nat) (cancelled : Bool)

/-- Who is told that a task has ended. -/
inductive Watcher where
  /-- A task that waits for it. -/
  | waiter (task : TaskId)
  /-- The table of background tasks, which has it under the identifier of an execution. -/
  | background (execution : String)
deriving DecidableEq, Repr

/-- Something to do when its turn comes. -/
inductive Job where
  | resume (task : TaskId) (wake : Wake)
  | ring (task : TaskId)
  /-- One of the tasks that a task waits for has ended. -/
  | report (task : TaskId)
  | forget (execution : String)
deriving DecidableEq, Repr

/-- A task that has not ended. -/
structure Task where
  id : TaskId
  /-- Its next turn is to be a cancellation. -/
  cancelled : Bool := false
  /-- Who is told of its end, in order. -/
  watchers : List Watcher := []

/-- What a branch of a parallel step leaves behind. -/
abbrev Outcome := Except Interrupt StepResult

/-- The clock, the queue, the waits in the order in which they began, and the tasks. -/
structure Agenda where
  now : Float := 0.0
  ready : List Job := []
  waits : List (TaskId × Wait) := []
  tasks : List Task := []
  created : Nat := 0
  /-- What ended branches left behind and nobody has collected. -/
  outcomes : List (TaskId × Outcome) := []

namespace Agenda

/-- The agenda with a job at the end of the queue. -/
def enqueue (a : Agenda) (job : Job) : Agenda := { a with ready := a.ready ++ [job] }

/-- The task with a number, unless it has ended. -/
def task? (a : Agenda) (id : TaskId) : Option Task := a.tasks.find? (·.id == id)

/-- What a task waits for. -/
def wait? (a : Agenda) (id : TaskId) : Option Wait := (a.waits.find? (·.1 == id)).map (·.2)

/-- The agenda with a task changed. -/
def amend (a : Agenda) (id : TaskId) (f : Task → Task) : Agenda :=
  { a with tasks := a.tasks.map fun t => if t.id == id then f t else t }

/-- The agenda with the wait of a task replaced. -/
def rewait (a : Agenda) (id : TaskId) (wait : Wait) : Agenda :=
  { a with waits := a.waits.map fun w => if w.1 == id then (id, wait) else w }

/-- The agenda with a task that waits no longer and is to be resumed. -/
def release (a : Agenda) (id : TaskId) (wake : Wake) : Agenda :=
  enqueue { a with waits := a.waits.filter (·.1 != id) } (.resume id wake)

/-- The agenda with every wait of a sort ended, in the order in which the waits began. -/
def releaseAll (a : Agenda) (sort : Wait → Bool) (wake : Wake) : Agenda :=
  ((a.waits.filter fun w => sort w.2).map (·.1)).foldl (fun a id => a.release id wake) a

/-- The agenda with a new task, whose first turn is at the end of the queue, and its number. -/
def create (a : Agenda) : Agenda × TaskId :=
  let id := a.created
  (enqueue { a with tasks := a.tasks ++ [{ id := id }], created := id + 1 } (.resume id .ready), id)

/-- The agenda with someone more to be told when a task ends, or told already if it has ended. -/
def watch (a : Agenda) (id : TaskId) (watcher : Watcher) (job : Job) : Agenda :=
  if (a.task? id).isSome then a.amend id fun t => { t with watchers := t.watchers ++ [watcher] }
  else a.enqueue job

/-- What is done for a watcher when a task has ended. -/
def Watcher.job : Watcher → Job
  | .waiter task => .report task
  | .background execution => .forget execution

/-- The agenda after the end of a task. -/
def finish (a : Agenda) (id : TaskId) : Agenda :=
  let watchers := ((a.task? id).map (·.watchers)).getD []
  watchers.foldl (fun a w => a.enqueue (Watcher.job w))
    { a with tasks := a.tasks.filter (·.id != id) }

/-- The agenda after one of the tasks that a task waits for has reported its end. -/
def hear (a : Agenda) (id : TaskId) : Agenda :=
  match a.wait? id with
  | some (.tasks ids left cancelled) =>
    if left ≤ 1 then a.release id (if cancelled then .cancelled else .ready)
    else a.rewait id (.tasks ids (left - 1) cancelled)
  | _ => a

/-- The agenda after a timer's turn. -/
def ring (a : Agenda) (id : TaskId) : Agenda :=
  match a.wait? id with
  | some .ringing => a.release id .ready
  | _ => a

/-- The agenda with one more wait. -/
def suspend (a : Agenda) (id : TaskId) (wait : Wait) : Agenda :=
  { a with waits := a.waits ++ [(id, wait)] }

/-- The agenda with a task that waits for others to end. -/
def join (a : Agenda) (id : TaskId) (ids : List TaskId) : Agenda :=
  ids.foldl (fun a other => a.watch other (.waiter id) (.report id))
    (a.suspend id (.tasks ids ids.length false))

/-- The agenda with a task that waits for a time: an instant in the future, or else its next turn. -/
def sleep (a : Agenda) (id : TaskId) (seconds : Float) : Agenda :=
  if seconds ≤ 0.0 then a.enqueue (.resume id .ready)
  else a.suspend id (.timer (a.now + seconds))

/-- When a timer is due. -/
def due? : Wait → Option Float
  | .timer due => some due
  | _ => none

/-- The earlier of two moments. -/
def earlier (x y : Float) : Float := if y < x then y else x

/-- The moment at which the next timer is due. -/
def nextDue? (a : Agenda) : Option Float :=
  match a.waits.filterMap (due? ·.2) with
  | [] => none
  | due :: rest => some (rest.foldl earlier due)

/-- The agenda with the timers that are due in the queue, the earliest first and those of one moment
in the order in which they were set. -/
def ringDue (a : Agenda) : Agenda :=
  let timers := a.waits.filterMap fun w => match w.2 with
    | .timer due => if a.now < due then none else some (due, w.1)
    | _ => none
  (timers.mergeSort fun x y => !(y.1 < x.1)).foldl
    (fun a timer => (a.rewait timer.2 .ringing).enqueue (.ring timer.2)) a

/-- The agenda with the clock at the moment at which the next timer is due; the clock never goes
back. -/
def elapse? (a : Agenda) : Option Agenda :=
  (nextDue? a).map fun due => ringDue { a with now := if a.now < due then due else a.now }

end Agenda

end Runbook
