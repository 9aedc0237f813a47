import Runbook.Proofs.Upshot

/-! # Steps that come to the same

Durations apart, what a step comes to is settled by the step, its variables and the mode, if tools and authorities
answer by what they are asked alone, no operator is waited for and nobody is cancelled. Two interpretations of it
agree, whoever asks for them, in whatever order their branches take their turns and whatever else goes on.
-/

namespace Runbook

variable {σ : Type}

/-! ## What settles what a step comes to -/

/-- What an authority says depends on nothing but what it is asked. -/
structure Authority.Steady (authority : Authority σ) : Prop where
  knows : ∀ name memory memory', (authority.knows name memory).1 = (authority.knows name memory').1
  permits : ∀ permits, authority.permits = some permits → ∀ name parameters mode memory memory',
    (permits name parameters mode memory).1 = (permits name parameters mode memory').1

/-- An interpreter waits for no operators, and its authority is steady. -/
structure Interpreter.Steady (i : Interpreter σ) : Prop where
  auto : i.policies.manualSteps = .auto
  authority : i.authority.Steady

/-- Nobody is cancelled, and each tool answers by its parameters alone. -/
structure Weather.Steady (d : Weather) : Prop where
  mild : ¬d.harsh
  answers : ∀ name parameters answer answer', d.Answers (.tool name parameters) answer →
    d.Answers (.tool name parameters) answer' → answer = answer'

/-! ## Results without durations -/

mutual

/-- The result with all durations left out. -/
def StepResult.bare : StepResult → StepResult
  | ⟨stepIndex, status, success, outputs, error, _, details⟩ =>
    ⟨stepIndex, status, success, outputs, error, 0, details.bare⟩

/-- The details with the durations of the results in them left out. -/
def Details.bare : Details → Details
  | .branch met taken (some result) => .branch met taken (some result.bare)
  | .iterations done cancelled => .iterations (Iteration.bares done) cancelled
  | .branches results => .branches (StepResult.bares results)
  | details => details

/-- The rounds of a loop without durations. -/
def Iteration.bares : List Iteration → List Iteration
  | [] => []
  | ⟨index, item, result⟩ :: rest => ⟨index, item, result.bare⟩ :: Iteration.bares rest

/-- Several results without durations. -/
def StepResult.bares : List StepResult → List StepResult
  | [] => []
  | r :: rest => r.bare :: StepResult.bares rest

end

/-- The round without durations. -/
def Iteration.bare (round : Iteration) : Iteration := { round with result := round.result.bare }

theorem Iteration.bares_eq_map (done : List Iteration) : Iteration.bares done = done.map Iteration.bare := by
  induction done with
  | nil => rfl
  | cons round rest ih =>
    cases round
    exact congrArg (_ :: ·) ih

theorem StepResult.bares_eq_map (results : List StepResult) : StepResult.bares results = results.map StepResult.bare := by
  induction results with
  | nil => rfl
  | cons r rest ih => exact congrArg (r.bare :: ·) ih

namespace StepResult

variable (r : StepResult)

@[simp] theorem bare_stepIndex : r.bare.stepIndex = r.stepIndex := by cases r; rfl

@[simp] theorem bare_status : r.bare.status = r.status := by cases r; rfl

@[simp] theorem bare_success : r.bare.success = r.success := by cases r; rfl

@[simp] theorem bare_outputs : r.bare.outputs = r.outputs := by cases r; rfl

@[simp] theorem bare_error : r.bare.error = r.error := by cases r; rfl

theorem bare_timed (durationMs : Int) : ({ r with durationMs }).bare = r.bare := by cases r; rfl

@[simp] theorem bare_countsAsSuccess : r.bare.countsAsSuccess = r.countsAsSuccess := by cases r; rfl

end StepResult

namespace Interpreter

variable {d : Weather} {i : Interpreter σ} {context : Context}

/-- The outcome without durations. -/
def bareOutcome (outcome : Outcome) : Outcome := outcome.map StepResult.bare

theorem bare_finished (context : Context) (success : Bool) (details : Details) (outputs : Entries) (error : Value) :
    (finished context success details outputs error).bare = finished context success details.bare outputs error := rfl

theorem bare_adoptBranch (i : Interpreter σ) (context : Context) (met : Bool) (taken : Taken) (branch : StepResult) :
    (i.adoptBranch context met taken branch).bare = i.adoptBranch context met taken branch.bare := by
  unfold adoptBranch
  cases i.policies.conditionalResults with
  | nest => exact bare_finished ..
  | adopt =>
    rw [branch.bare_countsAsSuccess, branch.bare_outputs, branch.bare_error]
    exact bare_finished ..

theorem bareOutcome_adopt (i : Interpreter σ) (context : Context) (met : Bool) (taken : Taken) (branch : Outcome) :
    bareOutcome (branch.map (i.adoptBranch context met taken)) =
      (bareOutcome branch).map (i.adoptBranch context met taken) := by
  cases branch with
  | error => rfl
  | ok branch => exact congrArg Except.ok (bare_adoptBranch i context met taken branch)

/-! ## Loops -/

/-- The rounds without durations. -/
def Rounds.bare (rounds : Rounds) : Rounds := { rounds with done := rounds.done.map Iteration.bare }

theorem bare_recorded (i : Interpreter σ) (soFar : Rounds) (index : Nat) (item : Value) (result : StepResult) :
    (i.recorded soFar index item result).bare = i.recorded soFar.bare index item result.bare := by
  rw [recorded, recorded, result.bare_success, result.bare_outputs]
  rfl

theorem bare_loopResult (context : Context) (rounds : Rounds) :
    (loopResult context rounds).bare = loopResult context rounds.bare := by
  have done : rounds.bare.done.reverse = rounds.done.reverse.map Iteration.bare := List.map_reverse.symm
  have failed : rounds.bare.done.reverse.find? (fun round => !round.result.countsAsSuccess) =
      (rounds.done.reverse.find? fun round => !round.result.countsAsSuccess).map Iteration.bare := by
    have success : (fun round : Iteration => !round.result.countsAsSuccess) ∘ Iteration.bare =
        fun round => !round.result.countsAsSuccess := by
      funext round
      simp [Iteration.bare]
    rw [done, List.find?_map, success]
  unfold loopResult
  simp only
  rw [failed, done]
  change _ = if rounds.cancelled = true then _ else _
  split
  · rw [bare_finished, Details.bare, Iteration.bares_eq_map]
  · rw [bare_finished, Details.bare, Iteration.bares_eq_map]
    cases rounds.done.reverse.find? fun round => !round.result.countsAsSuccess with
    | none => rfl
    | some round =>
      simp only [Option.map_some, Option.isNone_some, Iteration.bare, StepResult.bare_error]
      rfl

theorem bareOutcome_loop (context : Context) (ended : Except Interrupt Rounds) :
    bareOutcome (ended.map (loopResult context)) = (ended.map Rounds.bare).map (loopResult context) := by
  cases ended with
  | error => rfl
  | ok rounds => exact congrArg Except.ok (bare_loopResult context rounds)

/-! ## Steps side by side -/

theorem bare_settled (context : Context) (outcomes : List Outcome) :
    (settled context outcomes).map (·.map StepResult.bare) = settled context (outcomes.map bareOutcome) := by
  induction outcomes with
  | nil => rfl
  | cons first rest ih =>
    rcases first with (fault | message) | result
    · change (Except.map _ ((settled context rest).map _)) = (settled context (rest.map bareOutcome)).map _
      rw [← ih]
      cases settled context rest <;> rfl
    · rfl
    · change (Except.map _ ((settled context rest).map _)) = (settled context (rest.map bareOutcome)).map _
      rw [← ih]
      cases settled context rest <;> rfl

theorem bare_parallelResult (context : Context) (results : List StepResult) :
    (parallelResult context results).map StepResult.bare = parallelResult context (results.map StepResult.bare) := by
  have all : (results.map StepResult.bare).all (·.countsAsSuccess) = results.all (·.countsAsSuccess) := by
    simp [List.all_map, Function.comp_def]
  have errors : (results.map StepResult.bare).map (·.error) = results.map (·.error) := by simp
  unfold parallelResult
  rw [all, errors]
  split
  · change Except.ok _ = Except.ok _
    rw [bare_finished, Details.bare, StepResult.bares_eq_map]
  · cases Value.join "; " ((results.map (·.error)).filter (·.truthy)) with
    | error fault => rfl
    | ok text =>
      change Except.ok _ = Except.ok _
      rw [bare_finished, Details.bare, StepResult.bares_eq_map]

theorem bare_joined (context : Context) (outcomes : List Outcome) :
    bareOutcome (joined context outcomes) = joined context (outcomes.map bareOutcome) := by
  unfold joined
  rw [← bare_settled]
  cases settled context outcomes with
  | error => rfl
  | ok results =>
    change bareOutcome ((parallelResult context results).mapError .fault) = (parallelResult context _).mapError .fault
    rw [← bare_parallelResult]
    cases parallelResult context results <;> rfl

/-- It does not matter for the outcomes of branches which execution they are for. -/
theorem joined_execution (context : Context) (execution : String) (outcomes : List Outcome) :
    joined { context with execution } outcomes = joined context outcomes := by
  have same : settled { context with execution } outcomes = settled context outcomes := by
    induction outcomes with
    | nil => rfl
    | cons first rest ih =>
      rcases first with (fault | message) | result
      · rw [settled, settled, ih]
      · rfl
      · rw [settled, settled, ih]
  rw [joined, joined, same]
  rfl

/-! ## Tools -/

variable {execution : String} {isCancelled : World σ → Bool}

theorem Steady.judges_unique (steady : i.Steady) {name : String} {parameters : Entries} {mode : Value}
    {verdict verdict' : Except Fault Bool} (judges : i.Judges name parameters mode verdict)
    (judges' : i.Judges name parameters mode verdict') : verdict = verdict' := by
  unfold Judges at judges judges'
  cases permits : i.authority.permits with
  | none =>
    rw [permits] at judges judges'
    exact judges.trans judges'.symm
  | some ask =>
    rw [permits] at judges judges'
    obtain ⟨memory, rfl⟩ := judges
    obtain ⟨memory', rfl⟩ := judges'
    exact steady.authority.permits ask permits name parameters mode memory memory'

/-- A call comes to the same, whoever it is for. -/
theorem Called.unique (steady : i.Steady) (still : d.Steady) {parameters : Entries} {tool : Value}
    {raw raw' : Except Interrupt Entries} (called : i.Called d context parameters tool raw)
    (called' : ({ i with isCancelled } : Interpreter σ).Called d { context with execution } parameters tool raw') :
    raw = raw' := by
  have apart {name : String} {memory : σ}
      (stranger : ∀ other, Value.text name = .text other → ∃ memory, (i.authority.knows other memory).1 = false)
      (knows : (i.authority.knows name memory).1 = true) : False := by
    obtain ⟨memory', unknown⟩ := stranger name rfl
    cases (steady.authority.knows name memory memory').symm.trans knows ▸ unknown
  cases called with
  | unknown stranger =>
    cases called' with
    | unknown => rfl
    | refused knows | answered knows => exact (apart stranger knows).elim
  | refused knows judges denied =>
    cases called' with
    | unknown stranger => exact (apart stranger knows).elim
    | refused _ judges' => rw [steady.judges_unique judges judges']
    | answered _ judges' => exact absurd (steady.judges_unique judges judges') denied
  | answered knows judges answers =>
    cases called' with
    | unknown stranger => exact (apart stranger knows).elim
    | refused _ judges' denied => exact absurd (steady.judges_unique judges' judges) denied
    | answered _ _ answers' => rw [still.answers _ _ _ _ answers answers']

/-! ## Rounds -/

/-- Rounds whose bodies come to the same come to the same. -/
theorem Rounding.like (still : d.Steady) {itemVariable indexVariable : Value} {stops : Bool}
    {Body Body' : Context → Outcome → Prop} {index : Nat} {soFar soFar' : Rounds} {items : List Value}
    {ended ended' : Except Interrupt Rounds}
    (rounding : i.Rounding d context itemVariable indexVariable stops Body index soFar items ended)
    (rounding' : ({ i with isCancelled } : Interpreter σ).Rounding d { context with execution } itemVariable
      indexVariable stops Body' index soFar' items ended')
    (body : ∀ context outcome outcome', Body context outcome → Body' { context with execution } outcome' →
      bareOutcome outcome = bareOutcome outcome')
    (before : soFar.bare = soFar'.bare) : ended.map Rounds.bare = ended'.map Rounds.bare := by
  induction rounding generalizing soFar' with
  | done =>
    cases rounding' with
    | done => exact congrArg Except.ok before
  | cancelled _ harsh => exact absurd harsh still.mild
  | unscoped scopes =>
    cases rounding' with
    | cancelled _ harsh => exact absurd harsh still.mild
    | unscoped scopes' =>
      cases scopes.symm.trans scopes'
      rfl
    | interrupted scopes' | stopped scopes' | next scopes' => cases scopes.symm.trans scopes'
  | interrupted scopes came =>
    cases rounding' with
    | cancelled _ harsh => exact absurd harsh still.mild
    | unscoped scopes' => cases scopes.symm.trans scopes'
    | interrupted scopes' came' =>
      cases scopes.symm.trans scopes'
      cases body _ _ _ came came'
      rfl
    | stopped scopes' came' | next scopes' came' =>
      cases scopes.symm.trans scopes'
      cases body _ _ _ came came'
  | @stopped index soFar item rest scope result scopes came ends =>
    cases rounding' with
    | cancelled _ harsh => exact absurd harsh still.mild
    | unscoped scopes' => cases scopes.symm.trans scopes'
    | interrupted scopes' came' =>
      cases scopes.symm.trans scopes'
      cases body _ _ _ came came'
    | stopped scopes' came' =>
      cases scopes.symm.trans scopes'
      have same := Except.ok.inj (body _ _ _ came came')
      refine congrArg Except.ok ?_
      rw [bare_recorded, bare_recorded, same, before]
      rfl
    | @next _ _ _ _ _ result' _ scopes' came' goes =>
      cases scopes.symm.trans scopes'
      have same := Except.ok.inj (body _ _ _ came came')
      rw [← result'.bare_countsAsSuccess, ← same, result.bare_countsAsSuccess, ends] at goes
      cases goes
  | @next index soFar item rest scope result _ scopes came goes _ ih =>
    cases rounding' with
    | cancelled _ harsh => exact absurd harsh still.mild
    | unscoped scopes' => cases scopes.symm.trans scopes'
    | interrupted scopes' came' =>
      cases scopes.symm.trans scopes'
      cases body _ _ _ came came'
    | @stopped _ _ _ _ _ result' scopes' came' ends =>
      cases scopes.symm.trans scopes'
      have same := Except.ok.inj (body _ _ _ came came')
      rw [← result'.bare_countsAsSuccess, ← same, result.bare_countsAsSuccess, goes] at ends
      cases ends
    | next scopes' came' _ later' =>
      cases scopes.symm.trans scopes'
      have same := Except.ok.inj (body _ _ _ came came')
      refine ih later' ?_
      rw [bare_recorded, bare_recorded, same, before]
      rfl

/-! ## Steps of every kind -/

theorem Reports.like {inner inner' outcome outcome' : Outcome} (reports : Reports context inner outcome)
    (reports' : Reports { context with execution } inner' outcome') (same : bareOutcome inner = bareOutcome inner') :
    bareOutcome outcome = bareOutcome outcome' := by
  cases reports with
  | result r durationMs =>
    cases reports' with
    | result r' durationMs' =>
      change Except.ok _ = Except.ok _
      rw [r.bare_timed, r'.bare_timed]
      exact same
    | fault | cancelled => cases same
  | fault =>
    cases reports' with
    | result => cases same
    | fault =>
      cases same
      rfl
    | cancelled => cases same
  | cancelled =>
    cases reports' with
    | result | fault => cases same
    | cancelled => exact same

/-- The verdict of a pre-check is the same. -/
theorem ComesNested.like_of {step : Step} {outcome outcome' : Outcome} (comes : i.ComesNested d step context outcome)
    (comes' : ({ i with isCancelled } : Interpreter σ).ComesNested d step { context with execution } outcome')
    (same : ∀ outcome outcome', i.Comes d step context outcome →
      ({ i with isCancelled } : Interpreter σ).Comes d step { context with execution } outcome' →
        bareOutcome outcome = bareOutcome outcome') : bareOutcome outcome = bareOutcome outcome' := by
  rw [comesNested_iff] at comes comes'
  dsimp only at comes'
  split at comes
  · next raises =>
    rw [raises] at comes'
    rw [comes, comes']
  · next fails =>
    rw [fails] at comes'
    rw [comes, comes']
  · next holds =>
    rw [holds] at comes'
    exact same _ _ comes comes'

theorem ComesEach.like (still : d.Steady) {steps : List Step} {outcomes outcomes' : List Outcome}
    (each : i.ComesEach d steps context outcomes)
    (each' : ({ i with isCancelled } : Interpreter σ).ComesEach d steps { context with execution } outcomes')
    (same : ∀ step ∈ steps, ∀ outcome outcome', i.ComesNested d step (context.derive []) outcome →
      ({ i with isCancelled } : Interpreter σ).ComesNested d step { context.derive [] with execution } outcome' →
        bareOutcome outcome = bareOutcome outcome') : outcomes.map bareOutcome = outcomes'.map bareOutcome := by
  induction steps generalizing outcomes outcomes' with
  | nil =>
    rw [ComesEach] at each each'
    rw [each, each']
  | cons step rest ih =>
    rw [ComesEach] at each each'
    obtain ⟨first, others, rfl, came, each⟩ := each
    obtain ⟨first', others', rfl, came', each'⟩ := each'
    have mine := came.resolve_right fun cut => still.mild cut.1
    have mine' := came'.resolve_right fun cut => still.mild cut.1
    rw [List.map_cons, List.map_cons, same step List.mem_cons_self _ _ mine mine',
      ih each each' fun step member => same step (List.mem_cons_of_mem _ member)]

/-- Steps amount to the same if those inside them come to the same. -/
theorem Amounts.like (steady : i.Steady) (still : d.Steady) {step : Step} {outcome outcome' : Outcome}
    (amounts : i.Amounts d step context outcome)
    (amounts' : ({ i with isCancelled } : Interpreter σ).Amounts d step { context with execution } outcome')
    (nested : ∀ {inner : Step} {context : Context} {outcome outcome' : Outcome}, inner.Inside step →
      i.ComesNested d inner context outcome →
        ({ i with isCancelled } : Interpreter σ).ComesNested d inner { context with execution } outcome' →
          bareOutcome outcome = bareOutcome outcome') : bareOutcome outcome = bareOutcome outcome' := by
  cases step with
  | tool | command =>
    rw [Amounts] at amounts amounts'
    obtain ⟨raw, called, rfl⟩ := amounts
    obtain ⟨raw', called', rfl⟩ := amounts'
    rw [called.unique steady still called']
    rfl
  | conditional common condition thenStep elseStep =>
    rw [amounts_conditional_iff] at amounts amounts'
    dsimp only at amounts'
    cases verdict : Condition.allHold context.scope condition with
    | error fault =>
      rw [verdict] at amounts amounts'
      rw [amounts, amounts']
    | ok met =>
      cases chosen : branchOf met thenStep elseStep with
      | none =>
        simp only [verdict, chosen] at amounts amounts'
        rw [amounts, amounts']
        rfl
      | some branch =>
        simp only [verdict, chosen] at amounts amounts'
        obtain ⟨inner, came, rfl⟩ := amounts
        obtain ⟨inner', came', rfl⟩ := amounts'
        rw [bareOutcome_adopt, bareOutcome_adopt, nested (.branch chosen) came came']
        rfl
  | loop common items itemVariable indexVariable limit body =>
    rw [Amounts] at amounts amounts'
    rcases amounts with ⟨fault, fails, rfl⟩ | ⟨chosen, round, same, ended, chooses, rounding, rfl⟩
    · rcases amounts' with ⟨fault', fails', rfl⟩ | ⟨_, _, _, _, chooses', _, rfl⟩
      · cases fails.symm.trans fails'
        rfl
      · cases fails.symm.trans chooses'
    · rcases amounts' with ⟨fault', fails', rfl⟩ | ⟨chosen', round', same', ended', chooses', rounding', rfl⟩
      · cases chooses.symm.trans fails'
      · cases chooses.symm.trans chooses'
        subst same
        cases same'
        rw [bareOutcome_loop, bareOutcome_loop,
          rounding.like still rounding' (fun _ _ _ came came' => nested .round came came') rfl]
        rfl
  | parallel _ steps =>
    rw [Amounts] at amounts amounts'
    obtain ⟨outcomes, each, rfl⟩ := amounts.resolve_right fun cut => still.mild cut.1
    obtain ⟨outcomes', each', rfl⟩ := amounts'.resolve_right fun cut => still.mild cut.1
    rw [joined_execution context execution outcomes', bare_joined, bare_joined,
      each.like still each' fun step member _ _ came came' => nested (.side member) came came']
  | delay =>
    rw [Amounts] at amounts amounts'
    rw [amounts.resolve_right fun cut => still.mild cut.1, amounts'.resolve_right fun cut => still.mild cut.1]
    rfl
  | manual =>
    rw [Amounts] at amounts amounts'
    cases amounts with
    | told =>
      cases amounts' with
      | told => rfl
      | approved awaits | rejected awaits => cases steady.auto.symm.trans awaits
      | cut cut => exact absurd cut.1 still.mild
    | approved awaits | rejected awaits => cases steady.auto.symm.trans awaits
    | cut cut => exact absurd cut.1 still.mild
  | unknown =>
    rw [Amounts] at amounts amounts'
    rw [amounts, amounts']

/-- Durations apart, a step comes to the same, whichever execution it is interpreted for. -/
theorem Comes.like (steady : i.Steady) (still : d.Steady) {step : Step} {outcome outcome' : Outcome}
    (comes : i.Comes d step context outcome)
    (comes' : ({ i with isCancelled } : Interpreter σ).Comes d step { context with execution } outcome') :
    bareOutcome outcome = bareOutcome outcome' := by
  induction step using Step.byParts generalizing context outcome outcome' with
  | whole step ih =>
  rw [Comes] at comes comes'
  obtain ⟨inner, came, reports⟩ := comes
  obtain ⟨inner', came', reports'⟩ := comes'
  refine reports.like reports' (came.like steady still came' ?_)
  exact fun inside nested nested' => nested.like_of nested' fun _ _ => ih _ inside

theorem ComesNested.like (steady : i.Steady) (still : d.Steady) {step : Step} {outcome outcome' : Outcome}
    (comes : i.ComesNested d step context outcome)
    (comes' : ({ i with isCancelled } : Interpreter σ).ComesNested d step { context with execution } outcome') :
    bareOutcome outcome = bareOutcome outcome' :=
  comes.like_of comes' fun _ _ => Comes.like steady still

end Interpreter

end Runbook
