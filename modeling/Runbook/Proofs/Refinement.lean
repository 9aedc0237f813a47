import Runbook.Proofs.Governance

/-! # Executions refine a fold over their steps

As long as it is not cancelled, the record of an execution is that of a fold: it begins with the
variables of the workflow, overridden by those of the caller, and takes in the result of one step after
the other, until a result does not let it go on or its time is used up. The record belongs to the engine:
tools, observers and visitors are taken to assign no variables to it, and are free in all else.
-/

namespace Runbook

open Machine

variable {σ : Type} {e : Engine σ} {host : Host σ} {spared : String → Prop} {m : Machine σ}
  {id : String} {workflow : Workflow} {options : Options} {x : Execution} {journal : List Happening}

/-! ## The fold -/

/-- The value is a number. -/
def Value.IsNumber : Value → Prop
  | .bool _ | .int _ | .float _ => True
  | _ => False

/-- Numbers can be compared. -/
theorem Value.exceeds_of_isNumber {v : Value} (seconds : Float) (number : v.IsNumber) :
    ∃ verdict, (Value.float seconds).exceeds v = .ok verdict := by
  cases v with
  | bool b => exact ⟨_, rfl⟩
  | int n => exact ⟨_, rfl⟩
  | float y => exact ⟨_, rfl⟩
  | _ => exact number.elim

/-- A record is what a fold over the steps of a workflow comes to. `scope i` are the variables before
step `i`, as far as there are results. -/
structure Folds (e : Engine σ) (id : String) (workflow : Workflow) (options : Options)
    (scope : Nat → Entries) (x : Execution) (journal : List Happening) : Prop where
  /-- The variables of the workflow, overridden by those of the caller. -/
  start : ∃ given, (options.scope.orElse (.dict [])).mapping = .ok given ∧
    scope 0 = workflow.scope.merge given
  bound : x.results.length ≤ workflow.steps.length
  /-- Each result is the one that its step comes to against the variables before it, and publishes its
  outputs. -/
  result : ∀ (i : Nat) r, x.results[i]? = some r → ∃ step, workflow.steps[i]? = some step ∧
    r.stepIndex = i ∧ Warranted e id x.mode step i (scope i) journal r ∧
    scope (i + 1) = (scope i).merge r.outputs
  /-- All results but the last let the execution go on. -/
  passes : ∀ (i : Nat) r step, i + 1 < x.results.length → x.results[i]? = some r →
    workflow.steps[i]? = some step → Passes step r
  final : x.scope = scope x.results.length
  errors : x.errors = errorsOf x.results

/-- The fold is over: all steps have a result, or the last result does not let the execution go on, or
the time was used up before the next step. -/
structure FoldsOut (id : String) (workflow : Workflow) (budget : Value) (x : Execution)
    (journal : List Happening) : Prop where
  cursor : x.currentStep = x.results.length
  reason : x.results.length = workflow.steps.length ∨
    (∃ r step, x.results[x.results.length - 1]? = some r ∧
      workflow.steps[x.results.length - 1]? = some step ∧ ¬Passes step r) ∨
    ∃ now, .expired id x.results.length (x.elapsed now) ∈ journal ∧
      (Value.float (x.elapsed now)).exceeds budget = .ok true

theorem Account.folds (account : Account e id workflow options x journal) :
    ∃ scope, Folds e id workflow options scope x journal := by
  obtain ⟨given, mapping, walk, final⟩ := account.fold
  refine ⟨fun i => scopeAfter (workflow.scope.merge given) (x.results.take i), {
    start := ⟨given, mapping, rfl⟩
    bound := walk.length_le
    result := fun i r found => ?_
    passes := walk.passes
    final := by rw [List.take_length, final]
    errors := account.errors }⟩
  obtain ⟨step, listed, index, warranted⟩ := walk.warranted i r found
  refine ⟨step, listed, index, warranted, ?_⟩
  rw [List.take_add_one, found]
  exact scopeAfter_append _ _ r

theorem Stopped.foldsOut (stopped : Stopped id workflow x journal) (number : x.timeout.IsNumber) :
    FoldsOut id workflow x.timeout x journal := by
  refine ⟨stopped.cursor, ?_⟩
  rcases stopped.reason with (all | ⟨earlier, r, step, results, listed, stops⟩) | ⟨_, expired | incomparable⟩
  · exact .inl all
  · refine .inr (.inl ⟨r, step, ?_, ?_, stops⟩)
    · simp [results]
    · simpa [results] using listed
  · exact .inr (.inr expired)
  · obtain ⟨now, fault, incomparable⟩ := incomparable
    obtain ⟨verdict, comparable⟩ := Value.exceeds_of_isNumber (x.elapsed now) number
    rw [comparable] at incomparable
    cases incomparable

/-! ## Executions -/

/-- An execution that has a number of seconds as its budget follows the fold, unless it is cancelled, and
when it has ended the fold is over. -/
theorem execution_folds (spares : host.Spares spared) (free : spared id)
    (reachable : Reachable e host spared m) (admitted : .admitted id workflow options ∈ m.world.journal)
    (number : (options.timeout.orElse e.config.defaultTimeout).IsNumber)
    (found : m.world.ledger.record? id = some x) (notCancelled : x.status ≠ .cancelled) :
    (∃ scope, Folds e id workflow options scope x m.world.journal) ∧
      (x.status ≠ .running → FoldsOut id workflow (options.timeout.orElse e.config.defaultTimeout) x
        m.world.journal) := by
  have sound := (reachable.valid spares).sound id x found
  obtain ⟨account, stopped⟩ := sound.account free notCancelled workflow options admitted
  refine ⟨account.folds, fun ended => ?_⟩
  rw [← account.timeout] at number ⊢
  exact (stopped ended).foldsOut number

/-- The open engine after an execution of two tools, the first of which reports no success. -/
def failedTool : Machine Unit := (Machine.blank () {}).executing openEngine idleHost twoTools .null 60

/-- An execution that stops after the first of two steps. -/
theorem failedTool_folds : ∃ workflow options x,
    .admitted (Engine.executionId 1) workflow options ∈ failedTool.world.journal ∧
    failedTool.world.ledger.record? (Engine.executionId 1) = some x ∧ x.status = .failed ∧
    workflow.steps.length = 2 ∧ x.results.length = 1 ∧
    (∃ scope, Folds openEngine (Engine.executionId 1) workflow options scope x failedTool.world.journal) ∧
    FoldsOut (Engine.executionId 1) workflow (.float 300.0) x failedTool.world.journal := by
  have admission : failedTool.world.journal.findSome? (Happening.admission? fun id workflow options =>
      (id, workflow.steps.length, options.timeout.isNull)) = some (Engine.executionId 1, 2, true) := by
    decide +kernel
  obtain ⟨_, workflow, options, told, known⟩ := Happening.exists_admitted _ admission
  simp only [Prod.mk.injEq] at known
  obtain ⟨rfl, two, null⟩ := known
  have budget : options.timeout.orElse openEngine.config.defaultTimeout = .float 300.0 := by
    cases timeout : options.timeout with
    | null => rfl
    | _ =>
      rw [timeout] at null
      cases null
  have record : (failedTool.world.ledger.record? (Engine.executionId 1)).map
      (fun x => (x.status, x.results.length)) = some (.failed, 1) := by decide +kernel
  obtain ⟨x, found, known⟩ := Option.map_eq_some_iff.mp record
  obtain ⟨failed, one⟩ := Prod.mk.inj known
  have spares : idleHost.Spares fun _ => True := ⟨fun _ _ => trivial, fun _ _ => trivial⟩
  obtain ⟨folds, out⟩ := execution_folds spares trivial (reachable_executing ..) told
    (by rw [budget]; trivial) found (by rw [failed]; decide)
  rw [budget] at out
  exact ⟨workflow, options, x, told, found, failed, two, one, folds, out (by rw [failed]; decide)⟩

end Runbook
