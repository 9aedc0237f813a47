import Runbook.World

/-! # Routines

What a task does, as a tree: it changes the world in steps that nothing can interrupt, waits, calls
the tools and observers around the engine, and creates other tasks. The tree is finite; a call stands
for whatever the tool or observer turns out to do. `Attempt` is a routine that can end in a fault or
a cancellation.
-/

namespace Runbook

/-- A call of something around the engine. -/
inductive Errand where
  | tool (name : String) (parameters : Entries)
  | observer (callback : String) (event : Event)

/-- What a task does in a world with a memory of type `σ`. -/
inductive Routine (σ : Type) : Type → Type 1 where
  | done {α : Type} (a : α) : Routine σ α
  /-- Change the world. -/
  | act {α β : Type} (f : World σ → β × World σ) (k : β → Routine σ α) : Routine σ α
  /-- Let the other tasks go on until a cue. -/
  | wait {α : Type} (cue : Cue) (k : Wake → Routine σ α) : Routine σ α
  /-- Run an errand. -/
  | call {α : Type} (errand : Errand) (k : Except Interrupt Value → Routine σ α) : Routine σ α
  /-- Create a task, which is told its own number. -/
  | spawn {α : Type} (body : TaskId → Routine σ Unit) (k : TaskId → Routine σ α) : Routine σ α

namespace Routine

variable {σ α β γ : Type}

/-- One routine followed by another that depends on what the first yields. -/
def bind : Routine σ α → (α → Routine σ β) → Routine σ β
  | done a, f => f a
  | act g k, f => act g fun b => bind (k b) f
  | wait cue k, f => wait cue fun wake => bind (k wake) f
  | call errand k, f => call errand fun r => bind (k r) f
  | spawn body k, f => spawn body fun id => bind (k id) f

instance : Monad (Routine σ) where
  pure := done
  bind := bind

theorem bind_done (p : Routine σ α) : p.bind done = p := by
  induction p with
  | done => rfl
  | act g k ih => simp only [bind, ih]
  | wait cue k ih => simp only [bind, ih]
  | call errand k ih => simp only [bind, ih]
  | spawn body k _ ih => simp only [bind, ih]

theorem bind_bind (p : Routine σ α) (f : α → Routine σ β) (g : β → Routine σ γ) :
    (p.bind f).bind g = p.bind fun a => (f a).bind g := by
  induction p with
  | done => rfl
  | act h k ih => simp only [bind, ih]
  | wait cue k ih => simp only [bind, ih]
  | call errand k ih => simp only [bind, ih]
  | spawn body k _ ih => simp only [bind, ih]

instance : LawfulMonad (Routine σ) := LawfulMonad.mk' _ bind_done (fun _ _ => rfl) bind_bind

/-- Change the world. -/
def change (f : World σ → World σ) : Routine σ Unit := act (fun w => ((), f w)) done

/-- Look at the world. -/
def look (f : World σ → α) : Routine σ α := act (fun w => (f w, w)) done

/-- Change the world and tell about it. -/
def update (f : World σ → α × World σ) : Routine σ α := act f done

/-- Let the other tasks go on until a cue. -/
def await (cue : Cue) : Routine σ Wake := wait cue done

/-- Create a task. -/
def create (body : TaskId → Routine σ Unit) : Routine σ TaskId := spawn body done

/-- Run an errand. -/
def perform (errand : Errand) : Routine σ (Except Interrupt Value) := call errand done

/-- The clock. -/
def clock : Routine σ Float := look (·.agenda.now)

end Routine

/-- A routine that can end in a fault or a cancellation. -/
abbrev Attempt (σ : Type) := ExceptT Interrupt (Routine σ)

namespace Attempt

variable {σ α β : Type}

/-- A routine that cannot fail, as part of one that can. -/
def lift (p : Routine σ α) : Attempt σ α := ExceptT.lift p

/-- The outcome of a pure computation. -/
def ofExcept : Except Fault α → Attempt σ α
  | .ok a => pure a
  | .error fault => throw (.fault fault)

/-- End in a fault. -/
def fail (fault : Fault) : Attempt σ α := throw (.fault fault)

/-- Wait for a cue; a cancellation of the wait ends the attempt. -/
def await (cue : Cue) : Attempt σ Unit := do
  match ← lift (Routine.await cue) with
  | .ready => pure ()
  | .cancelled => throw (.cancelled "")

/-- Run an errand. -/
def perform (errand : Errand) : Attempt σ Value := ExceptT.mk (Routine.perform errand)

/-- An attempt, and then whatever there is to do in any case. -/
def ensuring (attempt : Attempt σ α) (last : Routine σ Unit) : Attempt σ α :=
  ExceptT.mk ((ExceptT.run attempt).bind fun outcome => last.bind fun _ => .done outcome)

theorem run_pure (a : α) : ExceptT.run (pure a : Attempt σ α) = .done (.ok a) := rfl

theorem run_throw (e : Interrupt) : ExceptT.run (throw e : Attempt σ α) = .done (.error e) := rfl

theorem run_bind (p : Attempt σ α) (f : α → Attempt σ β) :
    ExceptT.run (p >>= f) = (ExceptT.run p).bind fun outcome => match outcome with
      | .ok a => ExceptT.run (f a)
      | .error e => .done (.error e) := by
  change Routine.bind p _ = Routine.bind p _
  congr 1
  funext outcome
  cases outcome <;> rfl

theorem run_tryCatch (p : Attempt σ α) (handle : Interrupt → Attempt σ α) :
    ExceptT.run (tryCatch p handle) = (ExceptT.run p).bind fun outcome => match outcome with
      | .ok a => .done (.ok a)
      | .error e => ExceptT.run (handle e) := by
  change Routine.bind p _ = Routine.bind p _
  congr 1
  funext outcome
  cases outcome <;> rfl

theorem run_lift (p : Routine σ α) : ExceptT.run (lift p) = p.bind fun a => .done (.ok a) := rfl

theorem run_ofExcept (r : Except Fault α) :
    ExceptT.run (ofExcept r : Attempt σ α) = .done (r.mapError .fault) := by
  cases r <;> rfl

theorem run_fail (fault : Fault) :
    ExceptT.run (fail fault : Attempt σ α) = .done (.error (.fault fault)) := rfl

theorem run_perform (errand : Errand) :
    ExceptT.run (perform errand : Attempt σ Value) = Routine.perform errand := rfl

end Attempt

end Runbook
