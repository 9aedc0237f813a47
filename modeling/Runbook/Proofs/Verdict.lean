import Runbook.Proofs.Headway
import Runbook.Proofs.Refinement

/-! # The status of an execution that ended by itself

An execution that nobody cancelled ends in one of three ways, and what its record and the journal tell
decides which: it is completed if every step has a result that is successful or skipped, an error if it was
aborted before a step because its time was used up or could not be compared with its budget, and failed
otherwise. The summary, where there is one, counts each result once.
-/

namespace Runbook

open Books Machine

variable {σ : Type} {e : Engine σ} {host : Host σ} {m : Machine σ} {id : String} {workflow : Workflow}
  {options : Options} {x : Execution} {journal : List Happening} {step : Step} {r : StepResult}
  {results : List StepResult}

/-! ## What a status says -/

/-- Only numbers can be compared. -/
theorem Value.isNumber_of_exceeds {v : Value} {seconds : Float} {verdict : Bool}
    (compared : (Value.float seconds).exceeds v = .ok verdict) : v.IsNumber := by
  cases v with
  | bool | int | float => trivial
  | _ => cases compared

theorem passes_of_countsAsSuccess (success : r.countsAsSuccess = true) : Passes step r := by
  rcases Bool.or_eq_true_iff.mp success with successful | skipped
  · exact .inr (.inl successful)
  · exact .inl (by simpa using skipped)

/-- All results are successful or skipped only if no step has been left out. -/
theorem Exhausted.length_of_success (exhausted : Exhausted workflow x)
    (success : x.results.all (·.countsAsSuccess) = true) : x.results.length = workflow.steps.length := by
  rcases exhausted with all | ⟨earlier, r, step, results, _, stops⟩
  · exact all
  · rw [results, List.all_append, Bool.and_eq_true] at success
    have last : r.countsAsSuccess = true := by simpa using success.2
    exact absurd (passes_of_countsAsSuccess last) stops

theorem Exhausted.results_ne_nil (exhausted : Exhausted workflow x) (steps : workflow.steps ≠ []) :
    x.results ≠ [] := by
  rcases exhausted with all | ⟨earlier, r, step, results, _⟩
  · intro none
    rw [none] at all
    exact steps (List.length_eq_zero_iff.mp all.symm)
  · rw [results]
    simp

/-- The boundary before a step ended the execution: the time was found to be used up there, or there is no
number to compare it with, so that it was the first boundary. -/
def AbortedAtBoundary (id : String) (workflow : Workflow) (budget : Value) (journal : List Happening) : Prop :=
  (∃ index seconds, .expired id index seconds ∈ journal) ∨ workflow.steps ≠ [] ∧ ¬budget.IsNumber

/-- Every step has a result, and every result is successful or skipped. -/
def Accomplished (workflow : Workflow) (results : List StepResult) : Prop :=
  results.length = workflow.steps.length ∧ ∀ r ∈ results, r.success = true ∨ r.status = .skipped

theorem all_countsAsSuccess_iff :
    results.all (·.countsAsSuccess) = true ↔ ∀ r ∈ results, r.success = true ∨ r.status = .skipped := by
  simp [StepResult.countsAsSuccess]

/-- An execution whose completion was announced had not been aborted at a boundary before. -/
theorem not_aborted_of_completed {l : Leg} {record : Option Execution} (way : leg id journal = some l)
    (told : .announced (.completed id) record ∈ journal) (index : Int) (seconds : Float) :
    .expired id index seconds ∉ journal := by
  intro expired
  have expires : .expires index ∈ moves id journal :=
    List.mem_filterMap.mpr ⟨_, expired, by simp [Happening.move?]⟩
  have completes : .completes ∈ moves id journal :=
    List.mem_filterMap.mpr ⟨_, told, by simp [Happening.move?, Event.move?, Event.execution]⟩
  exact (Leg.not_completes_of_expires way expires).1 completes

/-- An execution that was concluded after its steps was not aborted at a boundary. -/
theorem Exhausted.not_aborted {l : Leg} {record : Option Execution} (exhausted : Exhausted workflow x)
    (tally : Tally e workflow options x) (way : leg id journal = some l)
    (told : .announced (.completed id) record ∈ journal) :
    ¬AbortedAtBoundary id workflow (options.timeout.orElse e.config.defaultTimeout) journal := by
  rintro (⟨index, seconds, expired⟩ | ⟨steps, number⟩)
  · exact not_aborted_of_completed way told index seconds expired
  · obtain ⟨seconds, verdict, compared⟩ := tally.comparable (exhausted.results_ne_nil steps)
    rw [tally.timeout] at compared
    exact number (Value.isNumber_of_exceeds compared)

/-- An overdue execution was aborted at a boundary, and has not accomplished its steps. -/
theorem Overdue.aborted (overdue : Overdue id workflow x journal) :
    AbortedAtBoundary id workflow x.timeout journal ∧ ¬Accomplished workflow x.results := by
  obtain ⟨left, reason⟩ := overdue
  refine ⟨?_, fun accomplished => Nat.ne_of_lt left accomplished.1⟩
  rcases reason with ⟨now, expired, _⟩ | ⟨now, fault, incomparable⟩
  · exact .inl ⟨_, _, expired⟩
  · refine .inr ⟨?_, fun number => ?_⟩
    · intro none
      rw [none] at left
      exact absurd left (Nat.not_lt_zero _)
    · obtain ⟨verdict, compared⟩ := Value.exceeds_of_isNumber (x.elapsed now) number
      cases incomparable.symm.trans compared

/-- What the status of an execution that ended by itself says. -/
theorem Judged.status_iff {l : Leg} (judged : Judged id workflow x journal) (tally : Tally e workflow options x)
    (way : leg id journal = some l) :
    (x.status = .completed ↔ Accomplished workflow x.results) ∧
    (x.status = .error ↔
      AbortedAtBoundary id workflow (options.timeout.orElse e.config.defaultTimeout) journal) ∧
    (x.status = .completed ∨ x.status = .error ∨ x.status = .failed) := by
  cases judged with
  | concluded exhausted status summary told =>
    obtain ⟨record, told⟩ := told
    have sound := exhausted.not_aborted tally way told
    cases success : x.results.all (·.countsAsSuccess) with
    | true =>
      rw [success, if_pos rfl] at status
      have accomplished : Accomplished workflow x.results :=
        ⟨exhausted.length_of_success success, all_countsAsSuccess_iff.mp success⟩
      simp [status, accomplished, sound]
    | false =>
      rw [success, if_neg Bool.false_ne_true] at status
      have missed : ¬Accomplished workflow x.results := by
        intro accomplished
        rw [all_countsAsSuccess_iff.mpr accomplished.2] at success
        cases success
      simp [status, missed, sound]
  | aborted overdue status _ =>
    obtain ⟨aborted, missed⟩ := overdue.aborted
    rw [tally.timeout] at aborted
    simp [status, missed, aborted]

/-! ## Summaries -/

/-- A summary counts each result once: as completed, as skipped or as failed. It tells of a success if none
failed. -/
structure SumsUp (summary : Value) (totalSteps : Int) (results : List StepResult) : Prop where
  counts : ∃ (success : Bool) (completed skipped failed : Nat),
    summary = Value.record [("success", .bool success), ("total_steps", .int totalSteps),
      ("completed_steps", .int completed), ("skipped_steps", .int skipped), ("failed_steps", .int failed)] ∧
    completed = results.countP (·.success) ∧ skipped = results.countP (·.status == .skipped) ∧
    completed + skipped + failed = results.length ∧ (success = true ↔ failed = 0)
  apart : ∀ r ∈ results, r.status = .skipped → r.success = false

/-- Results that are not both skipped and successful are completed, skipped or failed. -/
theorem countP_add_countP (apart : ∀ r ∈ results, r.status = .skipped → r.success = false) :
    results.countP (·.success) + results.countP (·.status == .skipped) + results.countP (!·.countsAsSuccess) =
      results.length := by
  induction results with
  | nil => rfl
  | cons r rest ih =>
    have later := ih fun s member => apart s (List.mem_cons_of_mem r member)
    have first : (if r.success then 1 else 0) + (if r.status == .skipped then 1 else 0) +
        (if !r.countsAsSuccess then 1 else 0) = 1 := by
      unfold StepResult.countsAsSuccess
      have never := apart r List.mem_cons_self
      by_cases skipped : r.status = .skipped
      · simp [skipped, never skipped]
      · cases r.success <;> simp [skipped]
    simp only [List.countP_cons, List.length_cons]
    omega

theorem summary_sumsUp (totalSteps : Int) (apart : ∀ r ∈ results, r.status = .skipped → r.success = false) :
    SumsUp (Engine.summary totalSteps results) totalSteps results where
  counts := by
    refine ⟨results.all (·.countsAsSuccess), _, _, results.countP (!·.countsAsSuccess), ?_, rfl, rfl,
      countP_add_countP apart, ?_⟩
    · simp [Engine.summary, List.countP_eq_length_filter]
    · simp [List.countP_eq_zero]
  apart := apart

theorem Tally.apart (tally : Tally e workflow options x) :
    ∀ r ∈ x.results, r.status = .skipped → r.success = false := by
  intro r member skipped
  obtain ⟨i, found⟩ := List.mem_iff_getElem?.mp member
  exact ((tally.sensible i r found).failure (.inl skipped)).1

/-! ## Executions -/

/-- An execution that has ended without being cancelled, in a time that could be told, is completed exactly if
every step has a result and all are successful or skipped, an error exactly if it was aborted at a boundary,
and failed otherwise. The results are those of its first steps, in order. If it is completed or failed it has
a summary, and a summary counts each result once. -/
theorem status_of_results (reachable : Reachable e host (fun _ => False) m)
    (admitted : .admitted id workflow options ∈ m.world.journal)
    (found : m.world.ledger.record? id = some x) (notCancelled : x.status ≠ .cancelled)
    (timed : .untimed id ∉ m.world.journal) :
    (x.status ≠ .running →
      (x.status = .completed ↔ Accomplished workflow x.results) ∧
      (x.status = .error ↔ AbortedAtBoundary id workflow (options.timeout.orElse e.config.defaultTimeout)
        m.world.journal) ∧
      (x.status = .failed ↔ ¬Accomplished workflow x.results ∧
        ¬AbortedAtBoundary id workflow (options.timeout.orElse e.config.defaultTimeout) m.world.journal) ∧
      (x.status ≠ .error → x.summary ≠ .null)) ∧
    (∀ (i : Nat) r, x.results[i]? = some r → r.stepIndex = i) ∧
    (x.summary ≠ .null → SumsUp x.summary workflow.steps.length x.results) := by
  have sound := (reachable.valid host.spares_nothing).sound id x found
  obtain ⟨tally, ended⟩ := sound.tally notCancelled workflow options admitted
  obtain ⟨l, way⟩ := reachable.way host.spares_nothing id
  refine ⟨fun notRunning => ?_, fun i r result => (tally.sensible i r result).stepIndex, fun some => ?_⟩
  · have judged : Judged id workflow x m.world.journal := (ended notRunning).2.resolve_left timed
    obtain ⟨completed, error, three⟩ := judged.status_iff tally way
    refine ⟨completed, error, ?_, fun noError => ?_⟩
    · rw [← completed, ← error]
      rcases three with is | is | is <;> simp [is]
    · cases judged with
      | concluded _ _ summary _ =>
        rw [summary]
        exact fun same => nomatch same
      | aborted _ status _ => exact absurd status noError
  · obtain ⟨_, summary⟩ := tally.summary.resolve_left some
    rw [summary, tally.totalSteps]
    exact summary_sumsUp _ tally.apart

/-- An execution that stops after the first of two steps is failed, and its summary counts that step. -/
theorem failedTool_status : ∃ workflow options x,
    .admitted (Engine.executionId 1) workflow options ∈ failedTool.world.journal ∧
    failedTool.world.ledger.record? (Engine.executionId 1) = some x ∧ x.status = .failed ∧
    ¬Accomplished workflow x.results ∧
    ¬AbortedAtBoundary (Engine.executionId 1) workflow (options.timeout.orElse openEngine.config.defaultTimeout)
      failedTool.world.journal ∧
    SumsUp x.summary workflow.steps.length x.results := by
  have admission : failedTool.world.journal.findSome? (Happening.admission? fun id _ _ => id) =
      some (Engine.executionId 1) := by decide +kernel
  obtain ⟨_, workflow, options, told, rfl⟩ := Happening.exists_admitted _ admission
  have record : (failedTool.world.ledger.record? (Engine.executionId 1)).map
      (fun x => (x.status, x.summary.isNull)) = some (.failed, false) := by decide +kernel
  obtain ⟨x, found, known⟩ := Option.map_eq_some_iff.mp record
  obtain ⟨failed, summed⟩ := Prod.mk.inj known
  have timed : .untimed (Engine.executionId 1) ∉ failedTool.world.journal := by
    intro member
    have none : failedTool.world.journal.any (· matches .untimed _) = false := by decide +kernel
    rw [List.any_eq_true.mpr ⟨_, member, rfl⟩] at none
    cases none
  obtain ⟨status, _, sums⟩ :=
    status_of_results (reachable_executing ..) told found (by rw [failed]; decide) timed
  obtain ⟨_, _, otherwise, _⟩ := status (by rw [failed]; decide)
  obtain ⟨missed, unaborted⟩ := otherwise.mp failed
  refine ⟨workflow, options, x, told, found, failed, missed, unaborted, sums fun null => ?_⟩
  rw [null] at summed
  cases summed

end Runbook
