import Runbook.Rehearsal.Cast

/-! # Acts of a rehearsal

What can be done with the engine of a rehearsal, act by act. Every act is a task of its own; when it
has ended, everything goes on that can go on without the clock being moved.
-/

namespace Runbook.Rehearsal

/-- Something to do with an engine. -/
inductive Act where
  | execute (workflow options : Value)
  | start (workflow options : Value)
  /-- Let seconds pass. -/
  | advance (seconds : Float)
  | openLatch (key : Value)
  | cancel (execution : String)
  | acknowledge (execution : String) (arguments : Entries)
  | pending (execution : String)
  | find (execution : String)
  | active
  | history (limit : Value)
  | clearHistory
  | stats
  | shutdown
  /-- Acts with nothing in between. -/
  | together (acts : List Act)
deriving Inhabited

/-- An execution as a rehearsal shows it: its record, and whether the place of its error is known. -/
def shown (e : Execution) : Value :=
  match e.toValue with
  | .dict entries => .dict (Entries.put entries (.text "traceback") (.bool e.traced))
  | v => v

variable {σ : Type}

/-- The execution with an identifier as a rehearsal shows it. -/
def look (id : String) : Attempt σ Value :=
  Attempt.lift (.look fun w => shown (Engine.record w id))

/-- The arguments of an operator's answer. -/
def answerSignature : Signature where
  owner := "WorkflowEngine.acknowledge_manual_step"
  parameters := [⟨"approved", some (.bool true)⟩, ⟨"note", some .null⟩, ⟨"token", some .null⟩]

/-- An active execution in a list. -/
def brief (e : Execution) : Value := .list [e.id, .text e.status.label, .int e.currentStep]

/-- A finished execution in a list. -/
def briefFinished (e : Execution) : Value := .list [e.id, e.workflowId, .text e.status.label]

mutual

/-- What a task does that performs an act. -/
def perform (e : Engine σ) : Act → Attempt σ Value
  | .execute workflow options => do look (← e.execute workflow options)
  | .start workflow options => do look (← e.start workflow options)
  | .advance seconds => do
    Attempt.await (.time seconds)
    return .null
  | .openLatch key => do
    Attempt.lift (.change (·.openLatch key))
    return .null
  | .cancel id => do return .bool (← e.cancel id)
  | .acknowledge id arguments => do
    let bound ← Attempt.ofExcept (answerSignature.byName arguments)
    let decision : Decision := { approved := boundValue bound "approved", note := boundValue bound "note" }
    return .bool (← Attempt.lift (.update (Engine.acknowledge id decision (boundValue bound "token"))))
  | .pending id => Attempt.lift (.look fun w => Engine.pendingSteps w id)
  | .find id =>
    Attempt.lift (.look fun w => ((w.ledger.find? id).map shown).getD .null)
  | .active => Attempt.lift (.look fun w => .list (w.ledger.running.map brief))
  | .history limit => do
    let finished ← Attempt.ofExcept (← Attempt.lift (.look fun w => Engine.history w limit))
    return .list (finished.map briefFinished)
  | .clearHistory => do
    Attempt.lift (.change Engine.clearHistory)
    return .null
  | .stats => Attempt.lift (.look e.stats)
  | .shutdown => do
    Engine.shutdown
    return .null
  | .together acts => do return .list (← performAll e acts)

/-- What a task does that performs acts one after the other. -/
def performAll (e : Engine σ) : List Act → Attempt σ (List Value)
  | [] => pure []
  | act :: rest => do
    let v ← perform e act
    let vs ← performAll e rest
    return v :: vs

end

/-- What is known after an act: what it came to, and what has happened since the one before. -/
structure Report where
  outcome : Except Interrupt Value
  happenings : List Happening

/-- The most steps that a machine takes for an act. -/
def patience : Nat := 1000000000

/-- What is said of an act that never ends. -/
def stuck : Except Interrupt Value := .error (.fault (.raised "RuntimeError" "the act does not end"))

/-- Perform something as a task with a number of its own. -/
def playTask [Keeps σ] (service : Service σ) (n : Nat) (attempt : Attempt σ Value)
    (m : Machine σ) : Machine σ × Report :=
  let before := m.world.journal.length
  let (m, id) := m.launch fun _ => do
    let outcome ← ExceptT.run attempt
    .change fun w => { w with memory := Keeps.keep n outcome w.memory }
  let m := (m.complete service id patience).settle service patience
  let journal := m.world.journal
  (m, { outcome := (Keeps.kept? m.world.memory n).getD stuck
        happenings := (journal.take (journal.length - before)).reverse })

/-- Perform acts one by one. -/
def play [Keeps σ] (e : Engine σ) (host : Host σ) (m : Machine σ) (n : Nat) :
    List Act → List Report
  | [] => []
  | act :: rest =>
    let (m, report) := playTask (host.service e) n (perform e act) m
    report :: play e host m (n + 1) rest

end Runbook.Rehearsal
