import Runbook.Host
import Runbook.Rehearsal.Stage

/-! # Callbacks and observers of a rehearsal

Callbacks write down that they were called, and then perhaps fail or change the registrations, also while an event is
being announced. An observer acts on events of one kind, perhaps only those of one step, and perhaps only the `n`-th of
them.
-/

namespace Runbook.Rehearsal

/-! ## Callbacks -/

/-- What a callback does besides writing down that it was called. -/
inductive Habit where
  | nothing
  | fail
  /-- Take back the registration with a number. -/
  | unsubscribe (handle : Nat)
  /-- Register the callback `late` for the same kind of event. -/
  | register
  /-- Wait, and write down that it is over. -/
  | linger
  /-- Wait, write down that it is over, and fail. -/
  | lingerAndFail

/-- The seconds that a lingering callback takes. -/
def lingering : Float := 0.125

/-- The end of a callback that fails under its own name. -/
def failing (callback : String) : Except Interrupt Unit :=
  .error (.fault (.raised "RuntimeError" callback))

/-- Write something down. -/
def write (line : String) : Script Stage Unit :=
  Script.put (.remember fun s => ((), s.write line))

/-- Wait and write down the beginning and the end. -/
def linger (callback : String) (last : Except Interrupt Unit) :
    Script Stage (Except Interrupt Unit) := do
  write (callback ++ ":start")
  match ← Script.put (.pause lingering) with
  | .cancelled => return .error (.cancelled "")
  | .ready =>
    write (callback ++ ":end")
    return last

/-- A callback is called with an event. -/
def Habit.follow (callback : String) (event : Event) : Habit → Script Stage (Except Interrupt Unit)
  | nothing => do
    write callback
    return .ok ()
  | fail => do
    write callback
    return failing callback
  | unsubscribe handle => do
    write callback
    let handles ← Script.put (.remember fun s => (s.handles, s))
    if let some (kind, other) := handles[handle]? then
      let _ ← Script.put (.unsubscribe kind other)
    return .ok ()
  | register => do
    write callback
    Script.put (.subscribe event.kind "late")
    return .ok ()
  | .linger => Rehearsal.linger callback (.ok ())
  | lingerAndFail => Rehearsal.linger callback (failing callback)

/-! ## Observers -/

/-- What an observer does. -/
inductive Reaction where
  | interrupt (i : Interrupt)
  /-- Cancel the execution that the event is about. -/
  | cancel
  /-- Answer its manual step, when the queue has come to it. -/
  | acknowledge (decision : Decision) (token : Value)
  /-- Put variables into its scope. -/
  | assign (bindings : Entries)
  | openLatch (key : Value)
  | pause (seconds : Float)
  /-- Take its own registration back. -/
  | unsubscribe
  | start (workflow : Value)

/-- An observer of a rehearsal. -/
structure Observer where
  kind : EventKind
  reaction : Reaction
  /-- The step that it looks at; every event if there is none. -/
  stepIndex : Option Int := none
  /-- Which of the events it looks at it acts on; all of them if there is none. -/
  nth : Option Nat := none

/-- What is left of an answer that is not looked at. -/
def ignoring {α : Type} (r : Except Interrupt α) : Except Interrupt Unit := r.map fun _ => ()

/-- React to an event. -/
def react (callback : String) (event : Event) : Reaction → Script Stage (Except Interrupt Unit)
  | .interrupt i => pure (.error i)
  | .cancel => do return ignoring (← Script.put (.cancel event.execution))
  | .acknowledge decision token => do
    Script.put (.acknowledge event.execution decision token)
    return .ok ()
  | .assign bindings => do
    Script.put (.assign event.execution bindings)
    return .ok ()
  | .openLatch key => do
    Script.put (.openLatch key)
    return .ok ()
  | .pause seconds => do
    match ← Script.put (.pause seconds) with
    | .ready => return .ok ()
    | .cancelled => return .error (.cancelled "")
  | .unsubscribe => do
    let _ ← Script.put (.unsubscribe event.kind callback)
    return .ok ()
  | .start workflow => do return ignoring (← Script.put (.start workflow .null))

/-- The event is one that an observer looks at. -/
def Observer.looksAt (o : Observer) (event : Event) : Bool :=
  match o.stepIndex with
  | none => true
  | some i => event.stepIndex? == some i

/-- The name under which the observer with a number is registered. -/
def observerName (n : Nat) : String := "observer " ++ Number.intText n

/-- The number of the observer with a name. -/
def observers (all : List Observer) : List (String × Observer) :=
  (all.zipIdx).map fun (o, n) => (observerName n, o)

/-- An observer is called with an event. -/
def observe (all : List Observer) (callback : String) (event : Event) :
    Script Stage (Except Interrupt Unit) := do
  match (observers all).find? (·.1 == callback) with
  | none => return .ok ()
  | some (_, o) =>
    if !o.looksAt event then return .ok ()
    let before ← Script.put (.remember (Stage.use callback))
    match o.nth with
    | none => react callback event o.reaction
    | some n => if before + 1 == n then react callback event o.reaction else return .ok ()

end Runbook.Rehearsal
