import Runbook.Proofs.Governance

/-! # Calls of tools are permitted

A tool is called only directly after it was found to be known and, if there is an authority to ask, to be
allowed with these very parameters in the mode that has been on record for the execution ever since it was
admitted. A call that is refused comes to a result in error at once, and nothing is called.
-/

namespace Runbook

open Machine

variable {σ : Type} {e : Engine σ} {host : Host σ} {m : Machine σ} {w w' : World σ} {context : Context}

/-! ## Refusals -/

namespace Interpreter

variable {i : Interpreter σ}

/-- The tool and the parameters that a tool or command step calls it with. -/
def callOf (i : Interpreter σ) (context : Context) : Step → Option (Value × Entries)
  | .tool _ name parameters _ => some (.text name, Value.resolveEntries context.scope parameters)
  | .command _ command directory _ => some (i.policies.commandTool,
    (.text "command", command.resolve context.scope) ::
      if directory.truthy then [(.text "cwd", directory.resolve context.scope)] else [])
  | _ => none

end Interpreter

/-- The tool is not known, or it is not found to be allowed. -/
def Authority.Refuses (authority : Authority σ) (tool : Value) (parameters : Entries) (mode : Value)
    (memory : σ) : Prop :=
  ∀ name, tool = .text name → (authority.knows name memory).1 = false ∨
    ∃ permits, authority.permits = some permits ∧
      (permits name parameters mode (authority.knows name memory).2).1 ≠ .ok true

namespace Interpreter

variable {i : Interpreter σ}

theorem invoke_refused {tool : Value} {parameters : Entries}
    (refuses : i.authority.Refuses tool parameters context.mode w.memory) :
    ∃ fault w', (ExceptT.run (i.invoke tool parameters context)).ahead w =
      (.done (.error (.fault fault)), w') := by
  unfold invoke
  split
  · next name =>
    rw [Attempt.ahead_update_bind]
    cases known : (i.ask context name w).1 with
    | false => exact ⟨_, _, rfl⟩
    | true =>
      obtain ⟨permits, configured, denied⟩ := (refuses name rfl).resolve_left (by
        rw [show (i.authority.knows name w.memory).1 = true from known]
        decide)
      change ∃ fault w', (ExceptT.run
        (Attempt.lift (.update (i.judge context name parameters)) >>= _)).ahead _ = _
      rw [Attempt.ahead_update_bind]
      have verdict : (i.judge context name parameters (i.ask context name w).2).1 ≠ .ok true := by
        rw [judge, configured]
        exact denied
      rcases answer : (i.judge context name parameters (i.ask context name w).2).1 with fault | _ | _
      · exact ⟨_, _, rfl⟩
      · exact ⟨_, _, rfl⟩
      · exact absurd answer verdict
  · exact ⟨_, w, rfl⟩

/-- A fault that an attempt comes to by itself makes a result in error of it. -/
theorem timed_fault {attempt : Attempt σ StepResult} {fault : Fault} (index : Nat)
    (fails : (ExceptT.run attempt).ahead w = (.done (.error (.fault fault)), w')) :
    ∃ outcome r, (ExceptT.run (timed context attempt)).ahead w = (.done outcome, w') ∧
      resultOf index outcome = some r ∧ r.status = .error := by
  let result := StepResult.ofError context.stepIndex (.text fault.message)
  have rest : (ExceptT.run (timed context attempt)).ahead w =
      (ExceptT.run (Attempt.ofExcept (Execution.milliseconds (w'.agenda.now - w.agenda.now)) >>=
        fun durationMs => pure { result with durationMs })).ahead w' := by
    change (ExceptT.run (tryCatch attempt _ >>= _)).ahead w = _
    rw [Attempt.run_bind, Attempt.run_tryCatch, Routine.bind_bind, Routine.ahead_bind _ fails]
    rfl
  rw [rest]
  -- No time passes between the two readings of the clock, but a clock that shows no finite moment
  -- still leaves a fault here, of which the engine makes a result in error as well.
  cases Execution.milliseconds (w'.agenda.now - w.agenda.now) with
  | error untimed => exact ⟨_, _, rfl, rfl, rfl⟩
  | ok durationMs => exact ⟨_, _, rfl, rfl, rfl⟩

/-- A tool or command step whose call is refused comes to a result in error, and calls nothing. -/
theorem interpret_refused {step : Step} {tool : Value} {parameters : Entries} (index : Nat)
    (calls : i.callOf context step = some (tool, parameters))
    (refuses : i.authority.Refuses tool parameters context.mode w.memory) :
    ∃ outcome r w', (ExceptT.run (i.interpret step context)).ahead w = (.done outcome, w') ∧
      resultOf index outcome = some r ∧ r.status = .error := by
  obtain ⟨fault, w', refused⟩ := invoke_refused refuses
  have failed {α : Type} (f : Entries → Attempt σ α) :
      (ExceptT.run (i.invoke tool parameters context >>= f)).ahead w =
        (.done (.error (.fault fault)), w') := by
    rw [Attempt.run_bind, Routine.ahead_bind _ refused]
    rfl
  cases step with
  | tool common name given outputs =>
    cases calls
    rw [interpret]
    obtain ⟨outcome, r, ended, error⟩ := timed_fault index (failed _)
    exact ⟨outcome, r, w', ended, error⟩
  | command common command directory outputs =>
    cases calls
    rw [interpret]
    obtain ⟨outcome, r, ended, error⟩ := timed_fault index (failed _)
    exact ⟨outcome, r, w', ended, error⟩
  | _ => cases calls

end Interpreter

/-! ## Calls -/

/-- Every call that is made is told of by the latest entry of the journal. Directly before each such entry
the tool was found to be known, and to be allowed with these parameters in the mode that is on record for
the execution in every machine on the way to this one. And a tool or command step whose call is refused
comes to a result in error without a call. -/
theorem tool_calls_permitted (reachable : Reachable e host (fun _ => False) m) :
    (∀ task name parameters k, m.running = some (task, .call (.tool name parameters) k) →
      ∃ id earlier, m.world.journal = .called id name parameters :: earlier) ∧
    (∀ id name parameters later earlier,
      m.world.journal = later ++ .called id name parameters :: earlier →
        ∃ mode before, earlier = answersBefore e id name parameters mode ++ before ∧
          (∃ x, m.world.ledger.record? id = some x ∧ x.mode = mode) ∧
          ∀ m₀ x₀, Reachable e host (fun _ => False) m₀ → Run e host (fun _ => False) m₀ m →
            m₀.world.ledger.record? id = some x₀ → x₀.mode = mode) ∧
    ∀ id step context tool parameters (w : World σ) index,
      (e.interpreter id).callOf context step = some (tool, parameters) →
      e.authority.Refuses tool parameters context.mode w.memory →
        ∃ outcome r w', (ExceptT.run ((e.interpreter id).interpret step context)).ahead w =
            (.done outcome, w') ∧
          resultOf index outcome = some r ∧ r.status = .error := by
  have governs : (e.conduct fun _ => False).Governs e host fun _ => False :=
    Engine.conduct_governs host.spares_nothing
  refine ⟨fun task name parameters k runs => governs.allows reachable runs, ?_, ?_⟩
  · intro id name parameters later earlier journal
    have licensed := (governs.valid reachable).licensed
    rw [show m.world.books.journal = _ from journal] at licensed
    obtain ⟨x, before, found, answers⟩ := licensed.cleared
    refine ⟨x.mode, before, answers, ⟨x, found, rfl⟩, fun m₀ x₀ reachable₀ run found₀ => ?_⟩
    obtain ⟨x', found', evolves⟩ := (governs.later reachable₀ run).records id x₀ found₀
    rw [show m.world.books.record? id = some x from found] at found'
    obtain rfl := Option.some.inj found'
    rw [Execution.mode, Execution.mode, evolves.metadata]
  · intro id step context tool parameters w index calls refuses
    exact Interpreter.interpret_refused index calls refuses

/-- An engine whose authority allows one tool only. -/
def guardedEngine : Engine Unit where
  authority := { knows := fun _ memory => (true, memory)
                 permits := some fun name _ _ memory => (.ok (name == "first"), memory) }

/-- The guarded engine when the first of two tools is called. -/
def callingTool : Machine Unit :=
  (Machine.blank () {}).executing guardedEngine idleHost twoTools .null 12

/-- A tool is about to be called without parameters. -/
def Machine.isCalling (m : Machine Unit) (tool : String) : Bool :=
  match m.running with
  | some (_, .call (.tool name parameters) _) => name == tool && parameters.isEmpty
  | _ => false

/-- A call of a tool that was found to be known and to be allowed. -/
theorem callingTool_permitted : ∃ task k id mode before,
    callingTool.running = some (task, .call (.tool "first" []) k) ∧
    callingTool.world.journal = .called id "first" [] :: .judged id "first" [] mode (.ok true) ::
      .asked id "first" true :: before ∧
    ∃ x, callingTool.world.ledger.record? id = some x ∧ x.mode = mode := by
  have reachable : Reachable guardedEngine idleHost (fun _ => False) callingTool := reachable_executing ..
  obtain ⟨calls, cleared, _⟩ := tool_calls_permitted reachable
  have calling : callingTool.isCalling "first" = true := by decide +kernel
  unfold Machine.isCalling at calling
  split at calling
  · next task name parameters k runs =>
    obtain ⟨named, empty⟩ := Bool.and_eq_true_iff.mp calling
    obtain rfl : name = "first" := by simpa using named
    obtain rfl : parameters = [] := by simpa using empty
    obtain ⟨id, earlier, journal⟩ := calls task "first" [] k runs
    obtain ⟨mode, before, answers, record, _⟩ := cleared id "first" [] [] earlier journal
    rw [answers] at journal
    exact ⟨task, k, id, mode, before, runs, journal, record⟩
  · cases calling

end Runbook
