import Runbook.Engine
import Runbook.Proofs.Keys
import Runbook.Proofs.Yield

/-! # Accounts of executions

A step that is interpreted to its end is completed, failed or in error, and never skipped: only a
pre-check skips, and that comes before. The report carries the index of the context, counts as a
success exactly if the step is completed, and publishes nothing if it is in error.

The record of an execution accounts for what came of its steps, one after the other: each result is the
one that its step comes to against the variables as the results before it left them, and nothing
follows a result that does not let the execution go on. `Walk` states this for the results of a
workflow's first steps, `Account` for a record and what it was admitted with, and `Stopped` why there
are no further results.
-/

namespace Runbook

variable {σ α : Type}

/-! ## What the interpreter reports -/

/-- A result as the interpreter reports it for a step against a context. -/
structure StepResult.Regular (context : Context) (r : StepResult) : Prop where
  stepIndex : r.stepIndex = context.stepIndex
  success : r.success = true ↔ r.status = .completed
  notSkipped : r.status ≠ .skipped
  silent : r.status = .error → r.outputs = []

/-- An attempt yields only regular results. -/
def Attempt.Regular (context : Context) (p : Attempt σ StepResult) : Prop :=
  p.Ensures (·.Regular context)

namespace Interpreter

theorem finished_regular (context : Context) (success : Bool) (details : Details)
    (outputs : Entries) (error : Value) :
    (finished context success details outputs error).Regular context := by
  cases success <;> constructor <;> simp [finished]

theorem ofError_regular (context : Context) (error : Value) :
    (StepResult.ofError context.stepIndex error).Regular context := by
  constructor <;> simp [StepResult.ofError]

/-- Faults become results, and only the duration of a result is amended. -/
theorem timed_ensures {P : StepResult → Prop} {context : Context} {p : Attempt σ StepResult}
    (error : ∀ message : String, P (.ofError context.stepIndex (.text message)))
    (amended : ∀ r durationMs, P r → P { r with durationMs }) (ensures : p.Ensures P) :
    (timed context p).Ensures P := by
  refine .last fun started => .bind (P := P) ?_ fun r holds => .last fun ended => .last fun durationMs =>
    .pure (amended r durationMs holds)
  intro r yields
  rcases (Attempt.yields_tryCatch _ _ _).mp yields with direct | ⟨interrupt, _, handled⟩
  · exact ensures r direct
  · cases interrupt with
    | fault fault => exact Attempt.Ensures.pure (error _) r handled
    | cancelled message => exact absurd handled (Attempt.not_yields_throw _ _)

private theorem timed_regular {context : Context} {p : Attempt σ StepResult}
    (regular : Attempt.Regular context p) : Attempt.Regular context (timed context p) :=
  timed_ensures (fun _ => ofError_regular context _)
    (fun _ _ regular => ⟨regular.stepIndex, regular.success, regular.notSkipped, regular.silent⟩) regular

private theorem adoptBranch_regular (i : Interpreter σ) (context : Context) (met : Bool)
    (taken : Taken) (branch : StepResult) :
    (i.adoptBranch context met taken branch).Regular context := by
  unfold adoptBranch
  cases i.policies.conditionalResults <;> exact finished_regular ..

private theorem loopResult_regular (context : Context) (r : Rounds) :
    (loopResult context r).Regular context := by
  unfold loopResult
  split <;> exact finished_regular ..

private theorem parallelResult_regular (context : Context) (results : List StepResult) :
    ∀ r, parallelResult context results = .ok r → r.Regular context := by
  intro r result
  unfold parallelResult at result
  split at result
  · cases result
    exact finished_regular ..
  · cases joined : Value.join "; " ((results.map (·.error)).filter (·.truthy)) with
    | error fault => simp [joined, bind, Except.bind] at result
    | ok errors =>
      simp only [joined, bind, Except.bind] at result
      cases result
      exact finished_regular ..

private theorem runManual_regular (i : Interpreter σ) (step : Step) (given : Value)
    (context : Context) : Attempt.Regular context (i.runManual step given context) := by
  unfold runManual
  cases i.policies.manualSteps with
  | auto => exact .last fun _ => .pure (finished_regular ..)
  | await =>
    refine .last fun token => .last fun _ => .last fun decision => ?_
    split <;> exact .pure (finished_regular ..)

/-- Whatever a step is, its interpretation yields only regular results. -/
theorem interpret_regular (i : Interpreter σ) (step : Step) (context : Context) :
    Attempt.Regular context (i.interpret step context) := by
  cases step with
  | tool common name parameters outputs =>
    rw [interpret]
    exact timed_regular (.last fun _ => .last fun _ =>
      .pure (finished_regular ..))
  | command common command directory outputs =>
    rw [interpret]
    exact timed_regular (.last fun _ => .last fun _ =>
      .pure (finished_regular ..))
  | conditional common condition thenStep elseStep =>
    rw [interpret]
    refine timed_regular (.last fun met => ?_)
    split
    · exact .last fun result => .pure (adoptBranch_regular ..)
    · exact .last fun result => .pure (adoptBranch_regular ..)
    · exact .pure (finished_regular ..)
  | loop common items itemVariable indexVariable limit body =>
    rw [interpret]
    refine timed_regular (.last fun items => ?_)
    cases body with
    | none => exact .fail _
    | some body =>
      exact .last fun limit => .last fun chosen => .last fun done =>
        .pure (loopResult_regular context done)
  | parallel common steps =>
    rw [interpret]
    exact timed_regular (.last fun ids => .last fun _ => .last fun outcomes =>
      .last fun results => .ofExcept (parallelResult_regular context results))
  | delay common delay =>
    rw [interpret]
    exact timed_regular (.last fun ms => .last fun _ =>
      .pure (finished_regular ..))
  | manual common instructions =>
    rw [interpret]
    exact timed_regular (runManual_regular i _ instructions context)
  | unknown common tag fields =>
    rw [interpret]
    exact timed_regular (.fail _)

end Interpreter

/-! ## Results and variables -/

/-- The variables after results have published their outputs. -/
def scopeAfter (start : Entries) (results : List StepResult) : Entries :=
  results.foldl (fun scope r => scope.merge r.outputs) start

/-- The step and the error of each result that is in error. -/
def errorsOf (results : List StepResult) : List Value :=
  (results.filter (·.status == .error)).map fun r =>
    Value.record [("step_index", .int r.stepIndex), ("error", r.error)]

/-- What the engine makes of an outcome of the interpreter; a cancellation has no result. -/
def resultOf (index : Nat) : Except Interrupt StepResult → Option StepResult
  | .ok r => some r
  | .error (.fault fault) => some (.ofError index (.text fault.message))
  | .error (.cancelled _) => none

theorem scopeAfter_append (start : Entries) (results : List StepResult) (r : StepResult) :
    scopeAfter start (results ++ [r]) = (scopeAfter start results).merge r.outputs := by
  simp [scopeAfter]

theorem errorsOf_append (results : List StepResult) (r : StepResult) :
    errorsOf (results ++ [r]) = errorsOf results ++ if r.status = .error then
      [Value.record [("step_index", .int r.stepIndex), ("error", r.error)]] else [] := by
  by_cases error : r.status = .error <;> simp [errorsOf, error]

/-- A result for a step: it tells which one, and if it is skipped or in error it is no success and
publishes nothing. -/
structure StepResult.Sensible (index : Nat) (r : StepResult) : Prop where
  stepIndex : r.stepIndex = index
  failure : r.status = .skipped ∨ r.status = .error → r.success = false ∧ r.outputs = []

theorem skipped_sensible (index : Nat) : (StepResult.skipped index).Sensible index :=
  ⟨rfl, fun _ => ⟨rfl, rfl⟩⟩

theorem ofError_sensible (index : Nat) (error : Value) :
    (StepResult.ofError index error).Sensible index :=
  ⟨rfl, fun _ => ⟨rfl, rfl⟩⟩

theorem StepResult.Regular.sensible {context : Context} {r : StepResult} {index : Nat}
    (regular : r.Regular context) (same : context.stepIndex = index) : r.Sensible index := by
  refine ⟨regular.stepIndex.trans same, ?_⟩
  rintro (skipped | error)
  · exact absurd skipped regular.notSkipped
  · refine ⟨?_, regular.silent error⟩
    cases success : r.success with
    | false => rfl
    | true =>
      have completed := regular.success.mp success
      rw [error] at completed
      cases completed

/-! ## What comes of a step -/

/-- The result is what comes of a step against variables: an error if the pre-check raises, the skipped
result if it does not hold, and else what the interpreter came to. -/
def Warranted (e : Engine σ) (id : String) (mode : Value) (step : Step) (index : Nat)
    (scope : Entries) (journal : List Happening) (r : StepResult) : Prop :=
  match Condition.allHold scope step.common.conditions with
  | .error fault => r = .ofError index (.text fault.message)
  | .ok false => r = .skipped index
  | .ok true => ∃ outcome, .interpreted step ⟨id, index, scope, mode⟩ outcome ∈ journal ∧
    (ExceptT.run ((e.interpreter id).interpret step ⟨id, index, scope, mode⟩)).Yields outcome ∧
    resultOf index outcome = some r

/-- The execution goes on after a step with a result: the step was skipped, or successful, or in error
and optional, or unsuccessful and said not to stop. -/
def Passes (step : Step) (r : StepResult) : Prop :=
  r.status = .skipped ∨ r.success = true ∨ (r.status = .error ∧ step.common.optional = true) ∨
    (r.success = false ∧ r.status ≠ .error ∧ step.common.stopOnFailure = some false)

variable {e : Engine σ} {id : String} {mode : Value} {step : Step} {index : Nat} {scope : Entries}
  {journal : List Happening} {r : StepResult}

theorem Warranted.append (warranted : Warranted e id mode step index scope journal r)
    (new : List Happening) : Warranted e id mode step index scope (new ++ journal) r := by
  unfold Warranted at warranted ⊢
  split
  · next known => simpa [known] using warranted
  · next known => simpa [known] using warranted
  · next known =>
    simp only [known] at warranted
    obtain ⟨outcome, told, yields, result⟩ := warranted
    exact ⟨outcome, List.mem_append_right new told, yields, result⟩

theorem Warranted.sensible (warranted : Warranted e id mode step index scope journal r) :
    r.Sensible index := by
  unfold Warranted at warranted
  split at warranted
  · subst warranted
    exact ofError_sensible index _
  · subst warranted
    exact skipped_sensible index
  · obtain ⟨outcome, _, yields, result⟩ := warranted
    cases outcome with
    | ok inner =>
      obtain rfl : inner = r := Option.some.inj result
      exact (Interpreter.interpret_regular _ _ _ inner yields).sensible rfl
    | error interrupt =>
      cases interrupt with
      | fault fault =>
        obtain rfl := Option.some.inj result
        exact ofError_sensible index _
      | cancelled message => cases result

theorem goesOn_iff (sensible : r.Sensible index) : Engine.goesOn step r = true ↔ Passes step r := by
  unfold Engine.goesOn Passes
  cases status : r.status with
  | skipped => simp
  | error => simp [(sensible.failure (.inr status)).1]
  | completed =>
    cases r.success <;> simp
  | failed =>
    cases r.success <;> simp

/-! ## What comes of a workflow -/

variable {steps : List Step} {start : Entries} {results : List StepResult} {workflow : Workflow}
  {options : Options} {x : Execution}

/-- The results are those of a workflow's first steps, in order, each of them warranted by the
variables as the results before it left them; all but the last let the execution go on. -/
structure Walk (e : Engine σ) (id : String) (mode : Value) (steps : List Step) (start : Entries)
    (journal : List Happening) (results : List StepResult) : Prop where
  warranted : ∀ (i : Nat) r, results[i]? = some r → ∃ step, steps[i]? = some step ∧ r.stepIndex = i ∧
    Warranted e id mode step i (scopeAfter start (results.take i)) journal r
  passes : ∀ (i : Nat) r step, i + 1 < results.length → results[i]? = some r → steps[i]? = some step →
    Passes step r

/-- Every result lets the execution go on. -/
def AllPass (steps : List Step) (results : List StepResult) : Prop :=
  ∀ (i : Nat) r step, results[i]? = some r → steps[i]? = some step → Passes step r

theorem Walk.nil (e : Engine σ) (id : String) (mode : Value) (steps : List Step) (start : Entries)
    (journal : List Happening) : Walk e id mode steps start journal [] :=
  ⟨by simp, by simp⟩

theorem Walk.append (walk : Walk e id mode steps start journal results) (new : List Happening) :
    Walk e id mode steps start (new ++ journal) results := by
  refine ⟨fun i r found => ?_, walk.passes⟩
  obtain ⟨step, listed, index, warranted⟩ := walk.warranted i r found
  exact ⟨step, listed, index, warranted.append new⟩

/-- There are no more results than steps. -/
theorem Walk.length_le (walk : Walk e id mode steps start journal results) :
    results.length ≤ steps.length := by
  cases length : results.length with
  | zero => exact Nat.zero_le _
  | succ n =>
    obtain ⟨r, found⟩ : ∃ r, results[n]? = some r := ⟨_, List.getElem?_eq_getElem (by omega)⟩
    obtain ⟨step, listed, _⟩ := walk.warranted n r found
    have bound := (List.getElem?_eq_some_iff.mp listed).1
    omega

/-- What stands in a list with one more result at the end. -/
theorem getElem?_snoc {i : Nat} {s : StepResult} (found : (results ++ [r])[i]? = some s) :
    i < results.length ∧ results[i]? = some s ∨ i = results.length ∧ s = r := by
  rcases Nat.lt_trichotomy i results.length with before | rfl | after
  · exact .inl ⟨before, List.getElem?_append_left before ▸ found⟩
  · exact .inr ⟨rfl, by simpa using found.symm⟩
  · rw [List.getElem?_eq_none (by rw [List.length_append]; exact after)] at found
    cases found

/-- The result of the next step goes to the end, if all before it let the execution go on. -/
theorem Walk.snoc (walk : Walk e id mode steps start journal results)
    (pass : AllPass steps results) (listed : steps[results.length]? = some step)
    (warranted : Warranted e id mode step results.length (scopeAfter start results) journal r) :
    Walk e id mode steps start journal (results ++ [r]) where
  warranted i s found := by
    rcases getElem?_snoc found with ⟨before, found⟩ | ⟨rfl, rfl⟩
    · rw [List.take_append_of_le_length (Nat.le_of_lt before)]
      exact walk.warranted i s found
    · rw [List.take_left]
      exact ⟨step, listed, warranted.sensible.stepIndex, warranted⟩
  passes i s step' before found listed' := by
    rw [List.length_append, List.length_singleton] at before
    rw [List.getElem?_append_left (by omega)] at found
    exact pass i s step' found listed'

theorem AllPass.snoc (pass : AllPass steps results) (listed : steps[results.length]? = some step)
    (last : Passes step r) : AllPass steps (results ++ [r]) := by
  intro i s step' found listed'
  rcases getElem?_snoc found with ⟨_, found⟩ | ⟨rfl, rfl⟩
  · exact pass i s step' found listed'
  · rw [listed] at listed'
    obtain rfl := Option.some.inj listed'
    exact last

/-- What holds of the results of an execution whatever its variables are: each is one for its step, all but
the last let the execution go on, and there are none before the time is found to be comparable with its
budget. A summary is set only at an end, and sums the results up. -/
structure Tally (e : Engine σ) (workflow : Workflow) (options : Options) (x : Execution) : Prop where
  totalSteps : x.totalSteps = workflow.steps.length
  timeout : x.timeout = options.timeout.orElse e.config.defaultTimeout
  bound : x.results.length ≤ workflow.steps.length
  sensible : ∀ (i : Nat) r, x.results[i]? = some r → r.Sensible i
  comparable : x.results ≠ [] → ∃ seconds verdict, (Value.float seconds).exceeds x.timeout = .ok verdict
  summary : x.summary = .null ∨ x.status ≠ .running ∧ x.summary = Engine.summary x.totalSteps x.results

/-- The results, the errors and the variables of an execution are what running its steps one after the
other comes to. -/
structure Replays (e : Engine σ) (id : String) (workflow : Workflow) (options : Options)
    (x : Execution) (journal : List Happening) : Prop where
  errors : x.errors = errorsOf x.results
  fold : ∃ given, (options.scope.orElse (.dict [])).mapping = .ok given ∧
    Walk e id x.mode workflow.steps (workflow.scope.merge given) journal x.results ∧
    x.scope = scopeAfter (workflow.scope.merge given) x.results

/-- The record of an execution accounts for the results, the errors and the variables. -/
structure Account (e : Engine σ) (id : String) (workflow : Workflow) (options : Options)
    (x : Execution) (journal : List Happening) : Prop
    extends Tally e workflow options x, Replays e id workflow options x journal

/-- No step is left that could run: all have a result, or the last result does not let the execution go on. -/
def Exhausted (workflow : Workflow) (x : Execution) : Prop :=
  x.results.length = workflow.steps.length ∨
    ∃ earlier r step, x.results = earlier ++ [r] ∧ workflow.steps[earlier.length]? = some step ∧ ¬Passes step r

/-- A step is left, but before it the time was used up, or cannot be compared with its budget. -/
def Overdue (id : String) (workflow : Workflow) (x : Execution) (journal : List Happening) : Prop :=
  x.results.length < workflow.steps.length ∧
    ((∃ now, .expired id x.results.length (x.elapsed now) ∈ journal ∧
      (Value.float (x.elapsed now)).exceeds x.timeout = .ok true) ∨
    (∃ now fault, (Value.float (x.elapsed now)).exceeds x.timeout = .error fault))

/-- Why there are no more results. The cursor stands behind the last result. -/
structure Stopped (id : String) (workflow : Workflow) (x : Execution) (journal : List Happening) :
    Prop where
  cursor : x.currentStep = x.results.length
  reason : Exhausted workflow x ∨ Overdue id workflow x journal

/-- How an execution that ended by itself came to its status: after its steps it is completed or failed,
as its results have it, and sums them up; and it is an error, with nothing summed up, when it was overdue. -/
inductive Judged (id : String) (workflow : Workflow) (x : Execution) (journal : List Happening) : Prop
  | concluded (exhausted : Exhausted workflow x)
      (status : x.status = if x.results.all (·.countsAsSuccess) then .completed else .failed)
      (summary : x.summary = Engine.summary x.totalSteps x.results)
      (told : ∃ record, .announced (.completed id) record ∈ journal)
  | aborted (overdue : Overdue id workflow x journal) (status : x.status = .error) (summary : x.summary = .null)
      (told : ∃ record, .announced (.failed id) record ∈ journal)

theorem Replays.append (replays : Replays e id workflow options x journal) (new : List Happening) :
    Replays e id workflow options x (new ++ journal) := by
  obtain ⟨given, mapping, walk, scope⟩ := replays.fold
  exact ⟨replays.errors, given, mapping, walk.append new, scope⟩

theorem Overdue.append (overdue : Overdue id workflow x journal) (new : List Happening) :
    Overdue id workflow x (new ++ journal) := by
  refine ⟨overdue.1, overdue.2.imp_left ?_⟩
  rintro ⟨now, told, used⟩
  exact ⟨now, List.mem_append_right new told, used⟩

theorem Stopped.append (stopped : Stopped id workflow x journal) (new : List Happening) :
    Stopped id workflow x (new ++ journal) :=
  ⟨stopped.cursor, stopped.reason.imp_right fun overdue => overdue.append new⟩

theorem Judged.append (judged : Judged id workflow x journal) (new : List Happening) :
    Judged id workflow x (new ++ journal) := by
  cases judged with
  | concluded exhausted status summary told =>
    obtain ⟨record, told⟩ := told
    exact .concluded exhausted status summary ⟨record, List.mem_append_right new told⟩
  | aborted overdue status summary told =>
    obtain ⟨record, told⟩ := told
    exact .aborted (overdue.append new) status summary ⟨record, List.mem_append_right new told⟩

/-! Assignments to its variables change nothing of this. -/

theorem Tally.assign (tally : Tally e workflow options x) (scope : Entries) :
    Tally e workflow options { x with scope } :=
  ⟨tally.totalSteps, tally.timeout, tally.bound, tally.sensible, tally.comparable, tally.summary⟩

theorem Stopped.assign (stopped : Stopped id workflow x journal) (scope : Entries) :
    Stopped id workflow { x with scope } journal :=
  ⟨stopped.cursor, stopped.reason⟩

theorem Judged.assign (judged : Judged id workflow x journal) (scope : Entries) :
    Judged id workflow { x with scope } journal := by
  cases judged with
  | concluded exhausted status summary told => exact .concluded exhausted status summary told
  | aborted overdue status summary told => exact .aborted overdue status summary told

theorem absorb_results (index : Nat) (r : StepResult) (x : Execution) :
    (Engine.absorb index r x).results = x.results ++ [r] := by
  unfold Engine.absorb
  cases r.status <;> rfl

/-- A result changes nothing of a record but results, errors and variables. -/
theorem absorb_same (index : Nat) (r : StepResult) (x : Execution) :
    ∃ scope results errors, Engine.absorb index r x = { x with scope, results, errors } := by
  unfold Engine.absorb
  cases r.status <;> exact ⟨_, _, _, rfl⟩

/-- A result takes no key away. -/
theorem absorb_keys (index : Nat) (r : StepResult) (x : Execution) :
    x.scope.keys <+: (Engine.absorb index r x).scope.keys := by
  unfold Engine.absorb
  cases r.status with
  | skipped => exact List.prefix_rfl
  | error => exact List.prefix_rfl
  | completed => exact Entries.keys_prefix_merge x.scope r.outputs
  | failed => exact Entries.keys_prefix_merge x.scope r.outputs

/-- A record without a summary that has taken in the result of the next step. -/
theorem Tally.absorb (tally : Tally e workflow options x) (running : x.status = .running)
    (room : x.results.length < workflow.steps.length) (sensible : r.Sensible x.results.length)
    (comparable : ∃ seconds verdict, (Value.float seconds).exceeds x.timeout = .ok verdict) :
    Tally e workflow options (Engine.absorb x.results.length r x) := by
  have longer := absorb_results x.results.length r x
  obtain ⟨scope, results, errors, same⟩ := absorb_same x.results.length r x
  rw [same] at longer ⊢
  obtain rfl : results = x.results ++ [r] := longer
  refine ⟨tally.totalSteps, tally.timeout, ?_, fun i s found => ?_, fun _ => comparable, .inl ?_⟩
  · rw [List.length_append]
    exact room
  · rcases getElem?_snoc found with ⟨_, found⟩ | ⟨rfl, rfl⟩
    · exact tally.sensible i s found
    · exact sensible
  · exact tally.summary.resolve_right fun ended => ended.1 running

/-- A record that has taken in the result of the next step accounts for it as well. -/
theorem Replays.absorb (replays : Replays e id workflow options x journal)
    (pass : AllPass workflow.steps x.results)
    (listed : workflow.steps[x.results.length]? = some step)
    (warranted : Warranted e id x.mode step x.results.length x.scope journal r) :
    Replays e id workflow options (Engine.absorb x.results.length r x) journal := by
  obtain ⟨given, mapping, walk, scope⟩ := replays.fold
  rw [scope] at warranted
  have longer := walk.snoc pass listed warranted
  have sensible := warranted.sensible
  have errors := errorsOf_append x.results r
  have merged := scopeAfter_append (workflow.scope.merge given) x.results r
  rw [sensible.stepIndex] at errors
  rw [← scope] at merged
  unfold Engine.absorb
  cases status : r.status with
  | skipped =>
    have silent := (sensible.failure (.inl status)).2
    simp only [status, reduceCtorEq, if_false, List.append_nil] at errors
    rw [silent] at merged
    exact ⟨replays.errors.trans errors.symm, given, mapping, longer, merged.symm⟩
  | error =>
    have silent := (sensible.failure (.inr status)).2
    simp only [status, if_true] at errors
    rw [silent] at merged
    refine ⟨?_, given, mapping, longer, merged.symm⟩
    exact (congrArg (· ++ [Engine.errorEntry x.results.length r.error]) replays.errors).trans errors.symm
  | completed =>
    simp only [status, reduceCtorEq, if_false, List.append_nil] at errors
    exact ⟨replays.errors.trans errors.symm, given, mapping, longer, merged.symm⟩
  | failed =>
    simp only [status, reduceCtorEq, if_false, List.append_nil] at errors
    exact ⟨replays.errors.trans errors.symm, given, mapping, longer, merged.symm⟩

end Runbook
