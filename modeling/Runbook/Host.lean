import Runbook.Engine
import Runbook.Machine

/-! # Tools and observers

What stands around an engine: tools that its steps call, and observers that its events go to. Each is
a script that can use a memory of its own, wait, and ask the engine for what callers can ask of it.
Nothing else of the engine is within its reach.
-/

namespace Runbook

/-- What a tool or observer with a memory of type `σ` can ask for. -/
inductive Ask (σ : Type) : Type → Type 1 where
  /-- Use its memory. -/
  | remember {β : Type} (f : σ → β × σ) : Ask σ β
  /-- Let a number of seconds pass. -/
  | pause (seconds : Float) : Ask σ Wake
  /-- Wait until a latch is open. -/
  | pass (key : Value) : Ask σ Wake
  | openLatch (key : Value) : Ask σ Unit
  | cancel (execution : String) : Ask σ (Except Interrupt Bool)
  | start (workflow options : Value) : Ask σ (Except Interrupt String)
  /-- Answer a manual step, when the queue has come to it. -/
  | acknowledge (execution : String) (decision : Decision) (token : Value) : Ask σ Unit
  /-- Put variables into the scope of an execution. -/
  | assign (execution : String) (bindings : Entries) : Ask σ Unit
  | subscribe (kind : EventKind) (callback : String) : Ask σ Unit
  | unsubscribe (kind : EventKind) (callback : String) : Ask σ Bool

/-- What a tool or observer does. -/
inductive Script (σ : Type) : Type → Type 1 where
  | done {α : Type} (a : α) : Script σ α
  | ask {α β : Type} (question : Ask σ β) (k : β → Script σ α) : Script σ α

/-- The tools and observers around an engine, by name. -/
structure Host (σ : Type) where
  tool : String → Entries → Script σ (Except Interrupt Value)
  observer : String → Event → Script σ (Except Interrupt Unit)

namespace Script

variable {σ α β : Type}

/-- One script followed by another that depends on what the first yields. -/
def bind : Script σ α → (α → Script σ β) → Script σ β
  | done a, f => f a
  | ask question k, f => ask question fun b => bind (k b) f

instance : Monad (Script σ) where
  pure := done
  bind := bind

/-- Ask for something. -/
def put (question : Ask σ β) : Script σ β := ask question done

end Script

namespace Host

variable {σ : Type}

/-- How an engine does what it is asked for. -/
def answer (e : Engine σ) : {β : Type} → Ask σ β → Routine σ β
  | _, .remember f => .update fun w =>
    let (b, memory) := f w.memory
    (b, { w with memory })
  | _, .pause seconds => .await (.time seconds)
  | _, .pass key => .await (.latch key)
  | _, .openLatch key => .change (·.openLatch key)
  | _, .cancel execution => ExceptT.run (e.cancel execution)
  | _, .start workflow options => ExceptT.run (e.start workflow options)
  | _, .acknowledge execution decision token => do
    let _ ← Routine.create fun _ =>
      .change fun w => (Engine.acknowledge execution decision token w).2
    return ()
  | _, .assign execution bindings =>
    .change (Engine.amend execution (·.mergeOutputs bindings))
  | _, .subscribe kind callback => .change fun w => { w with bus := w.bus.subscribe kind callback }
  | _, .unsubscribe kind callback => .update fun w =>
    let (bus, found) := w.bus.unsubscribe kind callback
    (found, { w with bus })

/-- What a task does when it runs a script. -/
def follow {α : Type} (e : Engine σ) : Script σ α → Routine σ α
  | .done a => .done a
  | .ask question k => (answer e question).bind fun b => follow e (k b)

/-- How the errands of an engine are run by its tools and observers. -/
def service (host : Host σ) (e : Engine σ) : Service σ
  | .tool name parameters => follow e (host.tool name parameters)
  | .observer callback event =>
    (follow e (host.observer callback event)).bind fun r => .done (r.map fun _ => .null)

end Host

end Runbook
