import Runbook.Proofs.Company
import Runbook.Proofs.Likeness

/-! # Branches side by side

If nobody is cancelled, no operator is waited for, and tools and authorities answer by what they are asked alone, a
parallel step is a map: its details hold one result for each branch, in the order of the branches, and it is what the
branch comes to alone. In what order the branches take their turns, and what else goes on, does not matter.
-/

namespace Runbook

open Interpreter

variable {σ : Type} {e : Engine σ} {host : Host σ} {time : Timeline} {i : Interpreter σ} {d : Weather}
  {context : Context}

/-! ## Errors that are texts -/

/-- The value is a text if it says anything at all. -/
def Value.Spoken (v : Value) : Prop := v.truthy = true → v.asText?.isSome = true

theorem Value.spoken_text (s : String) : (text s).Spoken := fun _ => rfl

theorem Value.spoken_null : null.Spoken := fun truthy => nomatch truthy

theorem Value.Spoken.orElse {v w : Value} (first : v.Spoken) (second : w.Spoken) : (v.orElse w).Spoken := by
  unfold Value.orElse
  split
  · exact first
  · exact second

/-- Texts can be put together. -/
theorem Value.exists_join (separator : String) {items : List Value} (texts : ∀ v ∈ items, v.asText?.isSome = true) :
    ∃ s, Value.join separator items = .ok s := by
  have pieces (index : Nat) : ∃ pieces, Value.join.go index items = .ok pieces := by
    induction items generalizing index with
    | nil => exact ⟨[], rfl⟩
    | cons v rest ih =>
      obtain ⟨mine, others⟩ := List.forall_mem_cons.mp texts
      obtain ⟨pieces, same⟩ := ih others (index + 1)
      cases v with
      | text s => exact ⟨s :: pieces, by rw [Value.join.go, same]; rfl⟩
      | status s => exact ⟨s.label :: pieces, by rw [Value.join.go, same]; rfl⟩
      | _ => cases mine
  obtain ⟨pieces, same⟩ := pieces 0
  exact ⟨separator.intercalate pieces, by rw [Value.join, same]; rfl⟩

/-- The errors that tools report are texts. -/
def Weather.Plain (d : Weather) : Prop :=
  ∀ name parameters (report : Entries), d.Answers (.tool name parameters) (.ok (.dict report)) →
    (report.getD "error").Spoken

namespace Interpreter

theorem Called.spoken (plain : d.Plain) {parameters raw : Entries} {tool : Value}
    (called : i.Called d context parameters tool (.ok raw)) : (raw.getD "error").Spoken := by
  generalize same : (.ok raw : Except Interrupt Entries) = came at called
  cases called with
  | unknown | refused => cases same
  | answered _ _ answers =>
    obtain ⟨answer, rfl, rfl⟩ := map_eq_ok same.symm
    cases answer with
    | dict report => exact plain _ _ report answers
    | _ => exact Value.spoken_null

theorem callOutcome_spoken {raw : Except Interrupt Entries} {outputs : Entries} {details : Entries → Details}
    {otherwise : String} {r : StepResult} (spoken : ∀ report : Entries, raw = .ok report → (report.getD "error").Spoken)
    (came : callOutcome context outputs details otherwise raw = .ok r) : r.error.Spoken := by
  cases raw with
  | error => cases came
  | ok raw =>
    obtain ⟨published, _, same⟩ := bind_eq_ok (mapError_eq_ok came)
    cases same
    change (callError _ raw otherwise).Spoken
    unfold callError
    split
    · exact Value.spoken_null
    · exact (spoken raw rfl).orElse (Value.spoken_text _)

theorem loopResult_spoken (context : Context) (rounds : Rounds) : (loopResult context rounds).error.Spoken := by
  unfold loopResult
  split
  · exact Value.spoken_text _
  · simp only [finished]
    split
    · exact Value.spoken_null
    · exact Value.spoken_text _

theorem joined_spoken {outcomes : List Outcome} {r : StepResult} (came : joined context outcomes = .ok r) :
    r.error.Spoken := by
  unfold joined at came
  cases settles : settled context outcomes with
  | error interrupt =>
    rw [settles] at came
    cases came
  | ok results =>
    rw [settles] at came
    have joins := mapError_eq_ok came
    unfold parallelResult at joins
    split at joins
    · cases joins
      exact Value.spoken_null
    · obtain ⟨errors, _, same⟩ := bind_eq_ok joins
      cases same
      exact (Value.spoken_text errors).orElse (Value.spoken_text _)

theorem Amounts.spoken (plain : d.Plain) (auto : i.policies.manualSteps = .auto) {step : Step} {r : StepResult}
    (amounts : i.Amounts d step context (.ok r))
    (nested : ∀ {inner : Step} {context : Context} {r : StepResult}, inner.Inside step →
      i.ComesNested d inner context (.ok r) → r.error.Spoken) : r.error.Spoken := by
  cases step with
  | tool | command =>
    rw [Amounts] at amounts
    obtain ⟨raw, called, came⟩ := amounts
    exact callOutcome_spoken (fun report same => (same ▸ called).spoken plain) came.symm
  | conditional =>
    rw [Amounts] at amounts
    rcases amounts with ⟨_, _, same⟩ | ⟨_, _, _, same⟩ | ⟨met, branch, chosen, inner, _, came, same⟩
    · cases same
    · cases same
      exact Value.spoken_null
    · obtain ⟨result, rfl, rfl⟩ := map_eq_ok same.symm
      have spoken := nested (.branch chosen) came
      unfold adoptBranch
      cases i.policies.conditionalResults with
      | nest => exact Value.spoken_null
      | adopt => exact spoken
  | loop =>
    rw [Amounts] at amounts
    rcases amounts with ⟨_, _, same⟩ | ⟨_, _, _, ended, _, _, same⟩
    · cases same
    · obtain ⟨rounds, _, rfl⟩ := map_eq_ok same.symm
      exact loopResult_spoken context rounds
  | parallel =>
    rw [Amounts] at amounts
    rcases amounts with ⟨outcomes, _, same⟩ | ⟨_, _, same⟩
    · exact joined_spoken same.symm
    · cases same
  | delay _ delay =>
    rw [Amounts] at amounts
    rcases amounts with same | ⟨_, _, same⟩
    · obtain ⟨_, _, rfl⟩ := map_eq_ok (mapError_eq_ok same.symm)
      exact Value.spoken_null
    · cases same
  | manual =>
    rw [Amounts] at amounts
    generalize same : (.ok r : Outcome) = came at amounts
    cases amounts with
    | told =>
      cases same
      exact Value.spoken_null
    | approved awaits | rejected awaits => cases auto.symm.trans awaits
    | cut cut =>
      obtain ⟨_, _, rfl⟩ := cut
      cases same
  | unknown =>
    rw [Amounts] at amounts
    cases amounts

theorem ComesNested.spoken_of {step : Step} {r : StepResult} (comes : i.ComesNested d step context (.ok r))
    (spoken : i.Comes d step context (.ok r) → r.error.Spoken) : r.error.Spoken := by
  rcases comes.skipped_or with rfl | came
  · exact Value.spoken_null
  · exact spoken came

/-- Whatever kind of step it is, its error is a text if the errors of tools are and no operator is waited for: a
conditional step passes on the error of its branch, and all the others tell their own. -/
theorem Comes.spoken (plain : d.Plain) (auto : i.policies.manualSteps = .auto) {step : Step} {r : StepResult}
    (comes : i.Comes d step context (.ok r)) : r.error.Spoken := by
  induction step using Step.byParts generalizing context r with
  | whole step ih =>
  rw [Comes] at comes
  obtain ⟨inner, came, reports⟩ := comes
  generalize same : (.ok r : Outcome) = outcome at reports
  cases reports with
  | result r =>
    cases same
    have spoken := came.spoken plain auto fun inside came => came.spoken_of (ih _ inside)
    exact spoken
  | fault =>
    cases same
    exact Value.spoken_text _
  | cancelled => cases same

theorem ComesNested.spoken (plain : d.Plain) (auto : i.policies.manualSteps = .auto) {step : Step} {r : StepResult}
    (comes : i.ComesNested d step context (.ok r)) : r.error.Spoken :=
  comes.spoken_of (Comes.spoken plain auto)

/-! ## One entry for each branch -/

/-- What the outcome of a branch counts as: a result as itself, and a fault as a result in error. -/
inductive CountsAs (context : Context) : Outcome → StepResult → Prop
  | result (r : StepResult) : CountsAs context (.ok r) r
  | fault (fault : Fault) :
      CountsAs context (.error (.fault fault)) (.ofError context.stepIndex (.text fault.message))

theorem settled_eq {outcomes : List Outcome} {results : List StepResult}
    (counts : List.Forall₂ (CountsAs context) outcomes results) : settled context outcomes = .ok results := by
  induction counts with
  | nil => rfl
  | cons mine _ ih =>
    cases mine with
    | result | fault =>
      rw [settled, ih]
      rfl

/-- Branches are put together without fault if their errors are texts. -/
theorem exists_parallelResult (context : Context) {results : List StepResult}
    (spoken : ∀ r ∈ results, r.error.Spoken) : ∃ error, parallelResult context results =
      .ok (finished context (results.all (·.countsAsSuccess)) (.branches results) [] error) := by
  unfold parallelResult
  split
  · next all =>
    rw [all]
    exact ⟨.null, rfl⟩
  · next fails =>
    obtain ⟨errors, joins⟩ : ∃ s, Value.join "; " ((results.map (·.error)).filter (·.truthy)) = .ok s := by
      refine Value.exists_join _ fun v member => ?_
      obtain ⟨told, truthy⟩ := List.mem_filter.mp member
      obtain ⟨r, listed, rfl⟩ := List.mem_map.mp told
      exact spoken r listed truthy
    rw [joins, Bool.eq_false_iff.mpr fails]
    exact ⟨_, rfl⟩

/-- The outcome of a branch that nobody cancels counts as a result whose error is a text. -/
theorem ComesNested.counts (mild : ¬d.harsh) (plain : d.Plain) (auto : i.policies.manualSteps = .auto) {step : Step}
    {outcome : Outcome} (comes : i.ComesNested d step context outcome) :
    ∃ r, CountsAs context outcome r ∧ r.error.Spoken := by
  rcases outcome with (fault | message) | r
  · exact ⟨_, .fault fault, Value.spoken_text _⟩
  · rw [comesNested_iff] at comes
    split at comes
    · cases comes
    · cases comes
    · exact absurd (comes.bears message rfl) mild
  · exact ⟨r, .result r, comes.spoken plain auto⟩

/-- The outcomes of branches that nobody cancels count as results whose errors are texts. -/
theorem ComesEach.counts (mild : ¬d.harsh) (plain : d.Plain) (auto : i.policies.manualSteps = .auto)
    {steps : List Step} {outcomes : List Outcome} (each : i.ComesEach d steps (context.derive []) outcomes) :
    ∃ results, List.Forall₂ (CountsAs context) outcomes results ∧ (∀ r ∈ results, r.error.Spoken) ∧
      List.Forall₂ (fun step r => ∃ outcome, i.ComesNested d step context outcome ∧ CountsAs context outcome r)
        steps results := by
  have pairs := comesEach_iff.mp each
  induction pairs with
  | nil => exact ⟨[], .nil, List.forall_mem_nil _, .nil⟩
  | cons came pairs ih =>
    obtain ⟨results, counts, spoken, alone⟩ := ih (comesEach_iff.mpr pairs)
    have came := came.resolve_right fun cut => mild cut.1
    obtain ⟨r, mine, said⟩ := ComesNested.counts mild plain auto came
    exact ⟨r :: results, .cons mine counts, List.forall_mem_cons.mpr ⟨said, spoken⟩, .cons ⟨_, came, mine⟩ alone⟩

/-- What a parallel step comes to: one result for each branch, which is what the branch can come to. -/
theorem Comes.parallel (mild : ¬d.harsh) (plain : d.Plain) (auto : i.policies.manualSteps = .auto)
    {common : Step.Common} {steps : List Step} {outcome : Outcome}
    (comes : i.Comes d (.parallel common steps) context outcome) :
    ∃ r results, outcome = .ok r ∧ r.details = .branches results ∧ r.outputs = [] ∧
      (r.success = true ↔ ∀ result ∈ results, result.countsAsSuccess = true) ∧
      List.Forall₂ (fun step r => ∃ outcome, i.ComesNested d step context outcome ∧ CountsAs context outcome r)
        steps results := by
  rw [Comes] at comes
  obtain ⟨inner, amounts, reports⟩ := comes
  rw [Amounts] at amounts
  obtain ⟨outcomes, each, rfl⟩ := amounts.resolve_right fun cut => mild cut.1
  obtain ⟨results, counts, spoken, alone⟩ := each.counts mild plain auto
  obtain ⟨error, same⟩ := exists_parallelResult context spoken
  rw [joined, settled_eq counts] at reports
  simp only [same] at reports
  cases reports
  exact ⟨_, results, rfl, rfl, rfl, by simp [finished], alone⟩

/-- Durations apart, outcomes that are alike count as results that are. -/
theorem CountsAs.like {outcome outcome' : Outcome} {r : StepResult} (counts : CountsAs context outcome r)
    (same : bareOutcome outcome = bareOutcome outcome') :
    ∃ r', CountsAs context outcome' r' ∧ r'.bare = r.bare := by
  rcases outcome' with (fault | message) | r'
  · cases counts with
    | result => cases same
    | fault =>
      cases same
      exact ⟨_, .fault _, rfl⟩
  · cases counts <;> cases same
  · cases counts with
    | result => exact ⟨r', .result r', (Except.ok.inj same).symm⟩
    | fault => cases same

end Interpreter

/-! ## All that happens around an engine -/

/-- Each tool answers by its parameters alone. -/
def Host.Steady (host : Host σ) : Prop :=
  ∀ name parameters answer answer', (host.tool name parameters).Returns False answer →
    (host.tool name parameters).Returns False answer' → answer = answer'

/-- The errors that tools report are texts. -/
def Host.Plain (host : Host σ) : Prop :=
  ∀ name parameters (report : Entries), (host.tool name parameters).Returns False (.ok (.dict report)) →
    (report.getD "error").Spoken

theorem Host.Steady.weather (steady : host.Steady) (calm : ¬False → host.Calm) : (host.weather False calm).Steady :=
  ⟨id, steady⟩

theorem Host.Plain.weather (plain : host.Plain) (calm : ¬False → host.Calm) : (host.weather False calm).Plain := plain

/-- In whatever order branches take their turns, a parallel step has one result for each branch, in the order of the
branches, and it is what the branch counts as when it is interpreted by itself in the scope of the parallel step.
The parallel step publishes nothing, and it is successful exactly if each branch counts as a success. -/
theorem parallel_maps_branches (befits : i.Befits False) (auto : e.config.policies.manualSteps = .auto)
    (authority : i.authority.Steady) (calm : host.Calm) (steady : host.Steady) (plain : host.Plain)
    (common : Step.Common) (steps : List Step) (context : Context) :
    Machine.Gives e host time False (i.interpret (.parallel common steps) context) fun outcome =>
      ∃ r results, outcome = .ok r ∧ r.details = .branches results ∧ r.outputs = [] ∧
        (r.success = true ↔ ∀ result ∈ results, result.countsAsSuccess = true) ∧
        List.Forall₂ (fun step result => Machine.Gives e host time False (i.interpretNested step context) fun alone =>
          ∃ r', CountsAs context alone r' ∧ r'.bare = result.bare) steps results := by
  have auto' : i.policies.manualSteps = .auto := befits.auto id
  refine .of_meets (fun _ => auto) (fun _ => calm) ((befits.interpret_meets _ context).mono fun outcome comes => ?_)
  obtain ⟨r, results, rfl, details, outputs, success, entries⟩ :=
    comes.parallel id (plain.weather fun _ => calm) auto'
  refine ⟨r, results, rfl, details, outputs, success, entries.imp fun step result came => ?_⟩
  obtain ⟨outcome, came, counts⟩ := came
  refine .of_meets (fun _ => auto) (fun _ => calm) ((befits.nested_meets step context).mono fun alone comes => ?_)
  exact counts.like (came.like ⟨auto', authority⟩ (steady.weather fun _ => calm) comes)

/-- A step whose pre-check raises, as a number in it is beyond all floating-point numbers, and a call of a tool. -/
def raisingBesideTool : List Step :=
  [.delay { conditions := [⟨"x", ">", .int (.ofNat (Nat.pow 10 400))⟩] } (.int 0), .tool {} "probe" [] []]

theorem idleHost_steady : idleHost.Steady := fun _ _ _ _ returns returns' => returns.trans returns'.symm

theorem idleHost_plain : idleHost.Plain := fun _ _ _ returns => nomatch returns

/-- The fault of the first branch is an entry in error, and the other entry is what the call comes to alone. -/
theorem raisingBesideTool_maps : ∃ r first second alone,
    (Machine.attempting openEngine idleHost ((openEngine.interpreter "exec").interpret
      (.parallel {} raisingBesideTool) ⟨"exec", 0, [(.text "x", .int 1)], .text "code"⟩) () 60).Left 0 (.ok r) ∧
    r.details = .branches [first, second] ∧ r.outputs = [] ∧
    first.error = .text "int too large to convert to float" ∧
    (Machine.attempting openEngine idleHost ((openEngine.interpreter "exec").interpretNested
      (.tool {} "probe" [] []) ⟨"exec", 0, [(.text "x", .int 1)], .text "code"⟩) () 60).Left 0 (.ok alone) ∧
    alone.bare = second.bare := by
  have befits : (openEngine.interpreter "exec").Befits False := Engine.befits (fun _ => rfl) "exec"
  have authority : openEngine.authority.Steady := ⟨fun _ _ _ => rfl, fun _ same => nomatch same⟩
  have maps : Machine.Gives openEngine idleHost stillTime False _ _ := parallel_maps_branches befits rfl authority
    idleHost_calm idleHost_steady idleHost_plain {} raisingBesideTool ⟨"exec", 0, [(.text "x", .int 1)], .text "code"⟩
  obtain ⟨outcome, left, _⟩ := Machine.exists_left_of_any (m := Machine.attempting openEngine idleHost
    ((openEngine.interpreter "exec").interpret (.parallel {} raisingBesideTool)
      ⟨"exec", 0, [(.text "x", .int 1)], .text "code"⟩) () 60) (t := 0) (p := fun _ => true) (by decide +kernel)
  obtain ⟨r, results, rfl, details, outputs, -, entries⟩ := maps.kept _ _ _ (Machine.stay_attempting ..) left
  obtain ⟨raised, raisedLeft, message⟩ := Machine.exists_left_of_any (m := Machine.attempting openEngine idleHost
    ((openEngine.interpreter "exec").interpretNested (.delay { conditions := [⟨"x", ">", .int (.ofNat (Nat.pow 10 400))⟩] } (.int 0))
      ⟨"exec", 0, [(.text "x", .int 1)], .text "code"⟩) () 60) (t := 0) (p := isFault "int too large to convert to float")
    (by decide +kernel)
  obtain ⟨called, calledLeft, returns⟩ := Machine.exists_left_of_any (m := Machine.attempting openEngine idleHost
    ((openEngine.interpreter "exec").interpretNested (.tool {} "probe" [] [])
      ⟨"exec", 0, [(.text "x", .int 1)], .text "code"⟩) () 60) (t := 0) (p := (·.isOk)) (by decide +kernel)
  cases entries with
  | @cons _ first _ _ mine rest =>
    cases rest with
    | @cons _ second _ _ other none =>
      cases none
      obtain ⟨_, counts, same⟩ := mine.kept _ _ _ (Machine.stay_attempting ..) raisedLeft
      obtain ⟨alone, counts', same'⟩ := other.kept _ _ _ (Machine.stay_attempting ..) calledLeft
      cases counts with
      | result => cases message
      | fault fault =>
        cases counts' with
        | fault => cases returns
        | result =>
          refine ⟨r, first, second, alone, left, details, outputs, ?_, calledLeft, same'⟩
          rw [← first.bare_error, ← same, StepResult.bare_error, ← eq_of_beq message]
          rfl

end Runbook
