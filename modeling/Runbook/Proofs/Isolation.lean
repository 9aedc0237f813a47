import Runbook.Proofs.Parallel
import Runbook.Proofs.Verdict

/-! # Executions do not interfere

Executions share an engine, with its interpreter, its gate and its bus. If tools, authorities and the provider of the
mode answer by what they are asked alone, and nobody is cancelled, waited for as an operator or overtaken by the
time, that makes no difference to any of them: whatever else the engine is asked for, and in whatever order the
tasks take their turns, an execution ends as it does alone.
-/

namespace Runbook

open Books Interpreter Machine

variable {σ : Type} {e : Engine σ} {host : Host σ} {time time' : Timeline} {harsh : Prop} {m m' : Machine σ}
  {id id' : String} {mode : Value} {steps : List Runbook.Step} {step : Runbook.Step} {start scope : Entries}
  {index n : Nat} {journal journal' : List Happening} {r r' : StepResult} {results results' : List StepResult}
  {workflow workflow' : Workflow} {options : Options} {x x' : Execution}

/-! ## What depends on results but for their durations -/

/-- What the durations of results have no part in is the same for results that are the same without them. -/
theorem congr_of_bare {α : Type} {f : List StepResult → α}
    (bared : ∀ results, f (results.map StepResult.bare) = f results)
    (same : results.map StepResult.bare = results'.map StepResult.bare) : f results = f results' := by
  rw [← bared results, same, bared results']

theorem scopeAfter_congr (same : results.map StepResult.bare = results'.map StepResult.bare) :
    scopeAfter start results = scopeAfter start results' :=
  congr_of_bare (fun results => by simp [scopeAfter, List.foldl_map]) same

theorem errorsOf_congr (same : results.map StepResult.bare = results'.map StepResult.bare) :
    errorsOf results = errorsOf results' :=
  congr_of_bare (fun results => by simp [errorsOf, List.filter_map, Function.comp_def]) same

theorem all_countsAsSuccess_congr (same : results.map StepResult.bare = results'.map StepResult.bare) :
    results.all (·.countsAsSuccess) = results'.all (·.countsAsSuccess) :=
  congr_of_bare (f := fun results => results.all (·.countsAsSuccess))
    (fun results => by simp [List.all_map, Function.comp_def]) same

theorem summary_congr (total : Int) (same : results.map StepResult.bare = results'.map StepResult.bare) :
    Engine.summary total results = Engine.summary total results' :=
  congr_of_bare (fun results => by simp [Engine.summary, List.filter_map, List.all_map, Function.comp_def]) same

theorem passes_congr (same : r.bare = r'.bare) : Passes step r ↔ Passes step r' := by
  have bared (r : StepResult) : Passes step r.bare ↔ Passes step r := by simp [Passes]
  rw [← bared r, same, bared r']

/-! ## The results of two executions -/

/-- Whatever two executions had interpreted alike came to the same for both, durations apart. -/
def Alike (id id' : String) (mode : Value) (journal journal' : List Happening) : Prop :=
  ∀ step (index : Int) scope outcome outcome', .interpreted step ⟨id, index, scope, mode⟩ outcome ∈ journal →
    .interpreted step ⟨id', index, scope, mode⟩ outcome' ∈ journal' → bareOutcome outcome = bareOutcome outcome'

theorem Alike.symm (alike : Alike id id' mode journal journal') : Alike id' id mode journal' journal :=
  fun step index scope _ _ told told' => (alike step index scope _ _ told' told).symm

theorem resultOf_congr {outcome outcome' : Outcome} (same : bareOutcome outcome = bareOutcome outcome')
    (result : resultOf index outcome = some r) (result' : resultOf index outcome' = some r') : r.bare = r'.bare := by
  rcases outcome with (fault | message) | inner
  · rcases outcome' with (fault' | message') | inner'
    · cases same
      exact congrArg StepResult.bare (Option.some.inj (result.symm.trans result'))
    · cases same
    · cases same
  · cases result
  · rcases outcome' with _ | inner'
    · cases same
    · cases result
      cases result'
      exact Except.ok.inj same

theorem Warranted.like (alike : Alike id id' mode journal journal')
    (warranted : Warranted e id mode step index scope journal r)
    (warranted' : Warranted e id' mode step index scope journal' r') : r.bare = r'.bare := by
  unfold Warranted at warranted warranted'
  split at warranted
  · next raises =>
    rw [raises] at warranted'
    rw [warranted, warranted']
  · next fails =>
    rw [fails] at warranted'
    rw [warranted, warranted']
  · next holds =>
    rw [holds] at warranted'
    obtain ⟨outcome, told, _, result⟩ := warranted
    obtain ⟨outcome', told', _, result'⟩ := warranted'
    exact resultOf_congr (alike step index scope _ _ told told') result result'

/-- As far as both go, two walks through the same steps from the same variables come to the same. -/
theorem Walk.like (alike : Alike id id' mode journal journal') (walk : Walk e id mode steps start journal results)
    (walk' : Walk e id' mode steps start journal' results') (here : n ≤ results.length) (there : n ≤ results'.length) :
    (results.take n).map StepResult.bare = (results'.take n).map StepResult.bare := by
  induction n with
  | zero => rfl
  | succ n ih =>
    have before := ih (Nat.le_of_succ_le here) (Nat.le_of_succ_le there)
    have found : results[n]? = some results[n] := List.getElem?_eq_getElem here
    have found' : results'[n]? = some results'[n] := List.getElem?_eq_getElem there
    obtain ⟨step, listed, _, warranted⟩ := walk.warranted n _ found
    obtain ⟨step', listed', _, warranted'⟩ := walk'.warranted n _ found'
    obtain rfl := Option.some.inj (listed.symm.trans listed')
    rw [← scopeAfter_congr before] at warranted'
    rw [List.take_add_one, List.take_add_one, found, found', List.map_append, List.map_append, before]
    exact congrArg _ (congrArg (fun r => [r]) (warranted.like alike warranted'))

/-! ## The ends of two executions -/

/-- The workflows have the same steps and begin with the same variables. Their names may be different. -/
structure Workflow.Matches (workflow workflow' : Workflow) : Prop where
  steps : workflow'.steps = workflow.steps
  scope : workflow'.scope = workflow.scope

theorem Workflow.Matches.symm (same : workflow.Matches workflow') : workflow'.Matches workflow :=
  ⟨same.steps.symm, same.scope.symm⟩

/-- The execution has ended by itself, and it was not found to be out of time. -/
structure Ended (e : Engine σ) (id : String) (workflow : Workflow) (options : Options) (x : Execution)
    (journal : List Happening) : Prop
    extends Account e id workflow options x journal, Stopped id workflow x journal where
  judged : Judged id workflow x journal
  timely : ∀ index seconds, .expired id index seconds ∉ journal

namespace Ended

/-- There are results only if the budget is a number. -/
theorem number_of_results (ended : Ended e id workflow options x journal) (some : x.results ≠ []) :
    x.timeout.IsNumber := by
  obtain ⟨seconds, verdict, compared⟩ := ended.comparable some
  exact Value.isNumber_of_exceeds compared

/-- It is overdue only if its budget is no number, and then it has no results. -/
theorem not_number_of_overdue (ended : Ended e id workflow options x journal)
    (overdue : Overdue id workflow x journal) : ¬x.timeout.IsNumber := by
  rcases overdue.aborted.1 with ⟨index, seconds, expired⟩ | ⟨_, number⟩
  · exact absurd expired (ended.timely index seconds)
  · exact number

variable (ended : Ended e id workflow options x journal) (ended' : Ended e id' workflow' options x' journal')
  (matching : workflow.Matches workflow') (alike : Alike id id' x.mode journal journal') (moded : x'.mode = x.mode)

include ended ended' in
theorem timeout_eq : x'.timeout = x.timeout := ended'.timeout.trans ended.timeout.symm

include ended ended' matching alike moded

/-- As far as both go, the results are the same. -/
theorem take_like (here : n ≤ x.results.length) (there : n ≤ x'.results.length) :
    (x.results.take n).map StepResult.bare = (x'.results.take n).map StepResult.bare := by
  obtain ⟨given, mapping, walk, _⟩ := ended.fold
  obtain ⟨given', mapping', walk', _⟩ := ended'.fold
  obtain rfl := Except.ok.inj (mapping.symm.trans mapping')
  rw [moded, matching.steps, matching.scope] at walk'
  exact walk.like alike walk' here there

/-- An execution goes on as long as the other one does. -/
theorem length_le : x'.results.length ≤ x.results.length := by
  by_contra more
  have longer := Nat.lt_of_not_le more
  have number : x.timeout.IsNumber :=
    timeout_eq ended ended' ▸ ended'.number_of_results (List.length_pos_iff.mp (by omega))
  obtain ⟨_, _, walk', _⟩ := ended'.fold
  rcases ended.reason with (all | ⟨earlier, r, step, results, listed, stops⟩) | overdue
  · have bound := ended'.bound
    rw [matching.steps] at bound
    omega
  · -- The other execution has the same result here, and went on after it.
    have here : earlier.length < x.results.length := by simp [results]
    have there : earlier.length < x'.results.length := Nat.lt_trans here longer
    have last : x.results[earlier.length]? = some r := by simp [results]
    have same := congrArg (·[earlier.length]?)
      (take_like ended ended' matching alike moded (Nat.le_refl _) (Nat.le_of_lt longer))
    simp only [List.getElem?_map, List.getElem?_take_of_lt here, last, List.getElem?_eq_getElem there] at same
    have next : earlier.length + 1 < x'.results.length := by
      have length := congrArg List.length results
      rw [List.length_append, List.length_singleton] at length
      omega
    have goesOn := walk'.passes _ _ _ next (List.getElem?_eq_getElem there) (matching.steps ▸ listed)
    exact stops ((passes_congr (Option.some.inj same)).mpr goesOn)
  · exact ended.not_number_of_overdue overdue number

/-- Durations apart, the results are the same. -/
theorem results_like : x.results.map StepResult.bare = x'.results.map StepResult.bare := by
  have most := length_le ended ended' matching alike moded
  have length : x.results.length = x'.results.length :=
    Nat.le_antisymm (length_le ended' ended matching.symm (moded ▸ alike.symm) moded.symm) most
  have same := take_like ended ended' matching alike moded (Nat.le_refl _) (Nat.le_of_eq length)
  rwa [List.take_length, length, List.take_length] at same

omit alike moded in
/-- If one of the executions went through its steps, the other one was not overdue. -/
theorem not_overdue (exhausted : Exhausted workflow x) : ¬Overdue id' workflow' x' journal' := by
  intro overdue
  have steps : workflow.steps ≠ [] := matching.steps ▸ List.length_pos_iff.mp (Nat.zero_lt_of_lt overdue.1)
  exact ended'.not_number_of_overdue overdue
    (timeout_eq ended ended' ▸ ended.number_of_results (exhausted.results_ne_nil steps))

end Ended

/-- The executions have come to the same, but for the durations of their results. -/
structure Execution.EndsAs (x x' : Execution) : Prop where
  status : x.status = x'.status
  results : x.results.map StepResult.bare = x'.results.map StepResult.bare
  errors : x.errors = x'.errors
  scope : x.scope = x'.scope
  currentStep : x.currentStep = x'.currentStep
  summary : x.summary = x'.summary

theorem Ended.endsAs (ended : Ended e id workflow options x journal)
    (ended' : Ended e id' workflow' options x' journal') (matching : workflow.Matches workflow')
    (alike : Alike id id' x.mode journal journal') (moded : x'.mode = x.mode) : x.EndsAs x' := by
  have same := results_like ended ended' matching alike moded
  have length : x.results.length = x'.results.length := by simpa using congrArg List.length same
  have ends : x.status = x'.status ∧ x.summary = x'.summary := by
    cases ended.judged with
    | concluded exhausted status summary =>
      cases ended'.judged with
      | concluded _ status' summary' =>
        rw [status, status', summary, summary', all_countsAsSuccess_congr same, summary_congr _ same,
          ended.totalSteps, ended'.totalSteps, matching.steps]
        exact ⟨rfl, rfl⟩
      | aborted overdue => exact absurd overdue (not_overdue ended ended' matching exhausted)
    | aborted overdue status summary =>
      cases ended'.judged with
      | concluded exhausted => exact absurd overdue (not_overdue ended' ended matching.symm exhausted)
      | aborted _ status' summary' => exact ⟨status.trans status'.symm, summary.trans summary'.symm⟩
  obtain ⟨given, mapping, _, scope⟩ := ended.fold
  obtain ⟨given', mapping', _, scope'⟩ := ended'.fold
  obtain rfl := Except.ok.inj (mapping.symm.trans mapping')
  exact {
    status := ends.1
    results := same
    errors := by rw [ended.errors, ended'.errors, errorsOf_congr same]
    scope := by rw [scope, scope', matching.scope, scopeAfter_congr same]
    currentStep := by rw [ended.cursor, ended'.cursor, length]
    summary := ends.2 }

/-! ## All that happens around an engine -/

/-- A client asks the engine for one thing after another: never for a cancellation or a shutdown, and never to change
the variables of an execution. -/
def Client (e : Engine σ) (body : TaskId → Routine σ Unit) : Prop :=
  ∃ p, body = (fun _ => p) ∧ Caller e False p ∧ Visit e (fun _ => True) p

theorem Client.guest {body : TaskId → Routine σ Unit} (client : Client e body) : Guest e False body := by
  obtain ⟨p, rfl, caller, _⟩ := client
  exact .caller caller

theorem Visit.spares_less {spared spared' : String → Prop} {p : Routine σ Unit} (visit : Visit e spared p)
    (less : ∀ id, spared' id → spared id) : Visit e spared' p := by
  induction visit with
  | leave => exact .leave
  | look f k _ ih => exact .look f k ih
  | ask question k spares _ ih =>
    refine .ask question k ?_ ih
    cases question with
    | assign other bindings => exact fun listed => spares (less other listed)
    | _ => trivial
  | execute workflow options k _ ih => exact .execute workflow options k ih
  | shutdown k _ ih => exact .shutdown k ih
  | clearHistory k _ ih => exact .clearHistory k ih

namespace Machine

theorem Unfolds.mono {Welcome Welcome' : (TaskId → Routine σ Unit) → Prop}
    (unfolds : Unfolds e host time harsh Welcome m m') (more : ∀ body, Welcome body → Welcome' body) :
    Unfolds e host time harsh Welcome' m m' := by
  induction unfolds with
  | refl => exact .refl _
  | next _ last ih =>
    refine ih.next ?_
    cases last with
    | work taken => exact .work taken
    | arrive body welcome => exact .arrive body (more body welcome)
    | elapse elapsed shows => exact .elapse elapsed shows
    | wind seconds shows => exact .wind _ seconds shows
    | cancel id possible => exact .cancel _ id possible

/-- What happens around an engine is a run of it if its guests are visitors. -/
theorem Unfolds.run {spared : String → Prop} {Welcome : (TaskId → Routine σ Unit) → Prop}
    (unfolds : Unfolds e host time harsh Welcome m m')
    (visits : ∀ body, Welcome body → ∀ id, Visit e spared (body id)) : Run e host spared m m' := by
  induction unfolds with
  | refl => exact .refl _
  | next _ last ih =>
    refine ih.next ?_
    cases last with
    | work taken => exact .work taken
    | arrive body welcome => exact .visit body (visits body welcome)
    | elapse elapsed => exact .elapse elapsed
    | wind seconds => exact .wind _ seconds
    | cancel id => exact .cancel _ id

end Machine

/-- An engine whose executions cannot be told anything by each other: the mode, the permissions and the tools depend
on nothing but what is asked, no operator is waited for, and whoever is called cancels nothing and assigns no
variables. -/
structure Isolating (e : Engine σ) (host : Host σ) : Prop where
  auto : e.config.policies.manualSteps = .auto
  mode : ∀ memory memory', (e.currentMode memory).1 = (e.currentMode memory').1
  authority : e.authority.Steady
  calm : host.Calm
  steady : host.Steady
  spares : host.Spares fun _ => True

/-- A machine that had only clients does not go on, although no task is left waiting at a latch, and an execution is on
record that was never found to be out of time. -/
structure Machine.Settles (e : Engine σ) (host : Host σ) (time : Timeline) (m : Machine σ) (id : String)
    (workflow : Workflow) (options : Options) (x : Execution) : Prop where
  unfolds : ∃ memory bus, Unfolds e host time False (Client e) (blank memory bus) m
  spent : m.Spent (host.service e)
  unlatched : ¬m.Latched
  admitted : .admitted id workflow options ∈ m.world.journal
  found : m.world.ledger.record? id = some x
  timely : ∀ index seconds, .expired id index seconds ∉ m.world.journal

namespace Machine.Settles

variable (isolating : Isolating e host) (settles : Settles e host time m id workflow options x)

include settles

theorem develops : Develops e host time False m := by
  obtain ⟨memory, bus, unfolds⟩ := settles.unfolds
  exact ⟨memory, bus, unfolds.mono fun _ => Client.guest⟩

theorem arises : Arises e host m := by
  obtain ⟨memory, bus, unfolds⟩ := settles.unfolds
  refine ⟨_, blank_pristine memory bus, unfolds.run ?_⟩
  rintro _ ⟨p, rfl, _, visit⟩ _
  exact visit.spares_less fun _ none => none.elim

theorem reachable : Reachable e host (fun _ => True) m := by
  obtain ⟨memory, bus, unfolds⟩ := settles.unfolds
  refine ⟨_, blank_fresh memory bus, unfolds.run ?_⟩
  rintro _ ⟨p, rfl, _, visit⟩ _
  exact visit

include isolating

theorem bonded : ∃ bonds pledges, m.Bonded (e.climate host time False fun _ => isolating.calm) bonds pledges :=
  settles.develops.bonded (fun _ => isolating.auto) fun _ => isolating.calm

/-- Nothing is left of the execution that could go on. -/
theorem notRunning : x.status ≠ .running := by
  intro running
  obtain ⟨bonds, pledges, bonded⟩ := settles.bonded isolating
  have rest := bonded.rest_of_spent not_false settles.spent settles.unlatched
  obtain ⟨roster, manned⟩ := settles.arises.manned
  have sound := (settles.reachable.valid isolating.spares).sound id x settles.found
  have begun := bonded.begun_of_rest not_false rest (Ledger.mem_admitted.mpr ⟨x, settles.found⟩)
  obtain ⟨t, d, found, _⟩ := manned.staffed.driven id (sound.enlisted running) begun
  have alive := manned.enlisted t d found
  rw [bonded.nobody_left not_false rest] at alive
  cases alive

theorem ended : Ended e id workflow options x m.world.journal := by
  obtain ⟨bonds, pledges, bonded⟩ := settles.bonded isolating
  have sound := (settles.reachable.valid isolating.spares).sound id x settles.found
  have notCancelled := ((bonded.fair.records id x settles.found).untouched not_false).2
  have notRunning := settles.notRunning isolating
  obtain ⟨account, stopped⟩ := sound.account trivial notCancelled workflow options settles.admitted
  have judged := ((sound.tally notCancelled workflow options settles.admitted).2 notRunning).2
  exact {
    toAccount := account
    toStopped := stopped notRunning
    judged := judged.resolve_left fun untimed => bonded.fair.journal _ untimed
    timely := settles.timely }

theorem exists_mode : ∃ memory, (e.currentMode memory).1 = .ok x.mode := by
  obtain ⟨bonds, pledges, bonded⟩ := settles.bonded isolating
  exact (bonded.fair.records id x settles.found).mode

end Machine.Settles

/-- A machine does not go on forever unless tools have executions started. Once it has settled, whatever else the
engine was asked for and in whatever order its tasks took their turns, an execution has ended, and it has ended as it
does whenever its workflow is run with the same options in an engine with the same configuration, be it alone or
among others: with the same status, results, errors, variables, cursor and summary, durations apart. -/
theorem executions_isolated (time time' : Timeline) (isolating : Isolating e host) :
    (host.Frugal → ∀ m : Machine σ, m.WindsDown (host.service e)) ∧
      ∀ (m m' : Machine σ) (id id' : String) (workflow workflow' : Workflow) (options : Options) (x x' : Execution),
        Settles e host time m id workflow options x → Settles e host time' m' id' workflow' options x' →
        workflow.Matches workflow' → x.status ≠ .running ∧ x.EndsAs x' := by
  refine ⟨fun frugal => frugal.windsDown e, fun m m' id id' workflow workflow' options x x' settles settles' matching =>
    ⟨settles.notRunning isolating, (settles.ended isolating).endsAs (settles'.ended isolating) matching ?_ ?_⟩⟩
  · intro step index scope outcome outcome' told told'
    obtain ⟨_, comes⟩ := settles.develops.comes (fun _ => isolating.auto) (fun _ => isolating.calm) told
    obtain ⟨_, comes'⟩ := settles'.develops.comes (fun _ => isolating.auto) (fun _ => isolating.calm) told'
    exact comes.like ⟨isolating.auto, isolating.authority⟩ (isolating.steady.weather _) comes'
  · obtain ⟨memory, mode⟩ := settles.exists_mode isolating
    obtain ⟨memory', mode'⟩ := settles'.exists_mode isolating
    exact Except.ok.inj (mode'.symm.trans ((isolating.mode memory' memory).trans mode))

/-! ## Two clients at a time -/

/-- A client who has a workflow executed. -/
def executes (workflow : Value) (_ : TaskId) : Routine Unit Unit :=
  (ExceptT.run (openEngine.execute workflow .null)).bind fun _ => .done ()

/-- A workflow with two calls of tools side by side. -/
def sideBySide : Value :=
  let step (name : String) := Value.record [("type", .text "tool"), ("toolName", .text name)]
  Value.record [("id", .text "s"), ("name", .text "S"),
    ("steps", .list [Value.record [("type", .text "parallel"), ("steps", .list [step "third", step "fourth"])]])]

/-- The open engine after two workflows were executed at a time. -/
def inCompany : Machine Unit :=
  (((blank () {}).launch (executes sideBySide)).1.launch (executes twoTools)).1.settle (idleHost.service openEngine) 200

theorem executes_client (workflow : Value) : Client openEngine (executes workflow) :=
  ⟨_, rfl, .execute workflow .null _ fun _ => .leave, .execute workflow .null _ fun _ => .leave⟩

theorem openEngine_isolating : Isolating openEngine idleHost where
  auto := rfl
  mode _ _ := rfl
  authority := ⟨fun _ _ _ => rfl, fun _ same => nomatch same⟩
  calm := idleHost_calm
  steady := idleHost_steady
  spares := ⟨fun _ _ => trivial, fun _ _ => trivial⟩

/-- It is told that the workflow of two tools was admitted. -/
def admitsTwoTools (id : String) : Happening → Bool
  | .admitted other ⟨_, _, [.tool ⟨.null, .null, [], false, none⟩ first [] [],
      .tool ⟨.null, .null, [], false, none⟩ second [] []], []⟩ ⟨.dict [], .null, .text trigger, .null⟩ =>
    other == id && first == "first" && second == "second" && trigger == "manual"
  | _ => false

theorem exists_admission (told : journal.any (admitsTwoTools id) = true) :
    ∃ workflow, .admitted id workflow {} ∈ journal ∧
      workflow.steps = [.tool {} "first" [] [], .tool {} "second" [] []] ∧ workflow.scope = [] := by
  obtain ⟨h, member, tested⟩ := List.any_eq_true.mp told
  unfold admitsTwoTools at tested
  split at tested
  · simp only [Bool.and_eq_true, beq_iff_eq] at tested
    obtain ⟨⟨⟨rfl, rfl⟩, rfl⟩, rfl⟩ := tested
    exact ⟨_, member, rfl, rfl⟩
  · cases tested

/-- A machine that has been seen not to go on has completed an execution of two tools. -/
theorem exists_settles (m : Machine Unit) (id : String)
    (unfolds : ∃ memory bus, Unfolds openEngine idleHost stillTime False (Client openEngine) (blank memory bus) m)
    (rests : (m.running.isNone && m.world.agenda.ready.isEmpty && m.world.agenda.waits.isEmpty) = true)
    (told : m.world.journal.any (admitsTwoTools id) = true)
    (failed : (m.world.ledger.record? id).map (·.status) = some .failed)
    (timely : (m.world.journal.any (· matches .expired ..)) = false) :
    ∃ workflow x, Settles openEngine idleHost stillTime m id workflow {} x ∧ x.status = .failed ∧
      workflow.steps = [.tool {} "first" [] [], .tool {} "second" [] []] ∧ workflow.scope = [] := by
  simp only [Bool.and_eq_true, Option.isNone_iff_eq_none, List.isEmpty_iff] at rests
  obtain ⟨⟨idle, ready⟩, waits⟩ := rests
  obtain ⟨workflow, admitted, steps, scope⟩ := exists_admission told
  obtain ⟨x, found, status⟩ := Option.map_eq_some_iff.mp failed
  have spent : m.Spent (idleHost.service openEngine) :=
    spent_iff.mpr ⟨idle, ready, fun _ _ member => List.not_mem_nil (waits ▸ member)⟩
  refine ⟨workflow, x, ⟨unfolds, spent, ?_, admitted, found, fun _ _ expired => ?_⟩, status, steps, scope⟩
  · rintro ⟨_, _, member⟩
    exact List.not_mem_nil (waits ▸ member)
  · rw [List.any_eq_true.mpr ⟨_, expired, rfl⟩] at timely
    cases timely

/-- The execution of two tools comes to the same beside another one and alone, although it is not the first one
there. -/
theorem twoTools_isolated : inCompany.WindsDown (idleHost.service openEngine) ∧ ∃ workflow workflow' x x',
    Settles openEngine idleHost stillTime inCompany (Engine.executionId 2) workflow {} x ∧
    Settles openEngine idleHost stillTime failedTool (Engine.executionId 1) workflow' {} x' ∧
    x.status = .failed ∧ x.EndsAs x' := by
  have isolated := executions_isolated stillTime stillTime openEngine_isolating
  refine ⟨isolated.1 idleHost_frugal inCompany, ?_⟩
  obtain ⟨workflow, x, settles, failed, steps, scope⟩ := exists_settles inCompany
    (Engine.executionId 2) ⟨(), {}, Unfolds.trans (((Unfolds.refl _).next (.arrive _ (executes_client _))).next
      (.arrive _ (executes_client _))) (unfolds_settle _ _ _)⟩
    (by decide +kernel) (by decide +kernel) (by decide +kernel) (by decide +kernel)
  obtain ⟨workflow', x', settles', _, steps', scope'⟩ := exists_settles failedTool
    (Engine.executionId 1) ⟨(), {}, Unfolds.trans ((Unfolds.refl _).next (.arrive _ (executes_client _)))
      (unfolds_settle _ _ _)⟩ (by decide +kernel) (by decide +kernel) (by decide +kernel) (by decide +kernel)
  have matching : workflow.Matches workflow' := ⟨steps'.trans steps.symm, scope'.trans scope.symm⟩
  exact ⟨workflow, workflow', x, x', settles, settles', failed,
    (isolated.2 _ _ _ _ _ _ _ _ _ settles settles' matching).2⟩

end Runbook
