import Runbook.Proofs.Branching

/-! # What steps come to

The big step of each kind of step: what carrying it out can come to, given what errands are answered with and
whether anybody is cancelled. An interpretation of a step, in whatever order its branches and everything around
it take their turns, comes to one of the outcomes that its big step has.
-/

namespace Runbook

theorem bind_eq_ok {ε α β : Type} {x : Except ε α} {f : α → Except ε β} {b : β} (same : x >>= f = .ok b) :
    ∃ a, x = .ok a ∧ f a = .ok b := by
  cases x with
  | error => cases same
  | ok a => exact ⟨a, rfl, same⟩

theorem map_eq_ok {ε α β : Type} {x : Except ε α} {f : α → β} {b : β} (same : x.map f = .ok b) :
    ∃ a, x = .ok a ∧ f a = b := by
  cases x with
  | error => cases same
  | ok a => exact ⟨a, rfl, Except.ok.inj same⟩

theorem mapError_eq_ok {ε ε' α : Type} {x : Except ε α} {f : ε → ε'} {a : α} (same : x.mapError f = .ok a) :
    x = .ok a := by
  cases x with
  | error => cases same
  | ok => exact congrArg Except.ok (Except.ok.inj same)

/-! ## Steps inside steps -/

/-- The branch that a conditional step takes. -/
def branchOf (met : Bool) (thenStep elseStep : Option Step) : Option Step := if met then thenStep else elseStep

/-- A step is a part of another one, and not only of a part of it. -/
inductive Step.Inside : Step → Step → Prop
  | branch {common : Common} {condition : List Condition} {thenStep elseStep : Option Step} {inner : Step} {met : Bool}
      (chosen : branchOf met thenStep elseStep = some inner) :
      Inside inner (.conditional common condition thenStep elseStep)
  | round {common : Common} {items itemVariable indexVariable : Value} {limit : Option Int} {inner : Step} :
      Inside inner (.loop common items itemVariable indexVariable limit (some inner))
  | side {common : Common} {steps : List Step} {inner : Step} (member : inner ∈ steps) :
      Inside inner (.parallel common steps)

theorem Step.Inside.smaller {inner step : Step} (inside : inner.Inside step) : sizeOf inner < sizeOf step := by
  cases inside with
  | @branch _ _ thenStep elseStep _ met chosen =>
    rw [Step.conditional.sizeOf_spec]
    cases met with
    | true =>
      obtain rfl : thenStep = some inner := chosen
      rw [Option.some.sizeOf_spec]
      omega
    | false =>
      obtain rfl : elseStep = some inner := chosen
      rw [Option.some.sizeOf_spec]
      omega
  | round =>
    rw [Step.loop.sizeOf_spec, Option.some.sizeOf_spec]
    omega
  | side member =>
    have smaller := List.sizeOf_lt_of_mem member
    rw [Step.parallel.sizeOf_spec]
    omega

/-- What holds of a step if it holds of its parts holds of every step. -/
@[elab_as_elim]
theorem Step.byParts {motive : Step → Prop}
    (whole : ∀ step, (∀ inner : Step, inner.Inside step → motive inner) → motive step) (step : Step) : motive step :=
  whole step fun inner _ => byParts whole inner
termination_by sizeOf step
decreasing_by exact Step.Inside.smaller ‹_›

namespace Interpreter

variable {σ : Type} {c : Climate} {d : Weather} {i : Interpreter σ} {context : Context}

/-! ## Calls -/

/-- The report of a call that came back. -/
def callReport (context : Context) (outputs raw : Entries) (details : Details) (otherwise : String) :
    Except Fault StepResult := do
  let success := (raw.getD "success").truthy
  let published ← Value.extract (.dict outputs) (.dict raw)
  return finished context success details published (callError success raw otherwise)

/-- What a step that calls a tool comes to, after what the call has come to. -/
def callOutcome (context : Context) (outputs : Entries) (details : Entries → Details) (otherwise : String) :
    Except Interrupt Entries → Outcome
  | .ok raw => (callReport context outputs raw (details raw) otherwise).mapError .fault
  | .error interrupt => .error interrupt

theorem call_meets {tool : Value} {parameters outputs : Entries} {details : Entries → Details} {otherwise : String} :
    (do
      let raw ← i.invoke tool parameters context
      let success := (raw.getD "success").truthy
      let published ← Attempt.ofExcept (Value.extract (.dict outputs) (.dict raw))
      return finished context success (details raw) published (callError success raw otherwise) :
        Attempt σ StepResult).Meets c fun outcome => ∃ raw, i.Called c.toWeather context parameters tool raw ∧
          outcome = callOutcome context outputs details otherwise raw := by
  refine .bind (invoke_meets tool parameters) (fun raw called => .ofExcept_bind (fun published read => .pure ?_)
    fun fault read => ?_) fun interrupt called => ⟨_, called, rfl⟩
  · refine ⟨_, called, ?_⟩
    rw [callOutcome, callReport, read]
    rfl
  · refine ⟨_, called, ?_⟩
    rw [callOutcome, callReport, read]
    rfl

/-! ## Loops -/

/-- The rounds that have been run and one more. -/
def recorded (i : Interpreter σ) (soFar : Rounds) (index : Nat) (item : Value) (result : StepResult) : Rounds :=
  { soFar with
    done := { index, item, result } :: soFar.done
    outputs := soFar.outputs.merge
      (if result.success && i.policies.loopOutputs == .propagate then result.outputs else []) }

/-- The items that a loop with a body goes through. -/
def chosenItems (i : Interpreter σ) (context : Context) (items : Value) (limit : Option Int) (body : Option Step) :
    Except Fault (List Value) := do
  let items ← loopItems (items.resolve context.scope)
  match body with
  | none => throw (.invalid "Loop step requires a 'step' body")
  | some _ =>
    let most ← i.loopLimit limit
    Value.frontOf items most

section Rounding

variable (d) (i) (context) (itemVariable indexVariable : Value) (stops : Bool) (Body : Context → Outcome → Prop)

/-- What the rounds of a loop can come to, given what its body can come to in a context. -/
inductive Rounding : Nat → Rounds → List Value → Except Interrupt Rounds → Prop
  | done {index : Nat} {soFar : Rounds} : Rounding index soFar [] (.ok soFar)
  | cancelled {index : Nat} {soFar : Rounds} {item : Value} {rest : List Value} (w : World σ) (harsh : d.harsh)
      (cancelled : i.isCancelled w = true) : Rounding index soFar (item :: rest) (.ok { soFar with cancelled := true })
  | unscoped {index : Nat} {soFar : Rounds} {item : Value} {rest : List Value} {fault : Fault}
      (scopes : roundScope itemVariable indexVariable item index = .error fault) :
      Rounding index soFar (item :: rest) (.error (.fault fault))
  | interrupted {index : Nat} {soFar : Rounds} {item : Value} {rest : List Value} {scope : Entries}
      {interrupt : Interrupt} (scopes : roundScope itemVariable indexVariable item index = .ok scope)
      (came : Body (context.derive scope) (.error interrupt)) :
      Rounding index soFar (item :: rest) (.error interrupt)
  | stopped {index : Nat} {soFar : Rounds} {item : Value} {rest : List Value} {scope : Entries} {result : StepResult}
      (scopes : roundScope itemVariable indexVariable item index = .ok scope)
      (came : Body (context.derive scope) (.ok result)) (ends : (!result.countsAsSuccess && stops) = true) :
      Rounding index soFar (item :: rest) (.ok (i.recorded soFar index item result))
  | next {index : Nat} {soFar : Rounds} {item : Value} {rest : List Value} {scope : Entries} {result : StepResult}
      {outcome : Except Interrupt Rounds}
      (scopes : roundScope itemVariable indexVariable item index = .ok scope)
      (came : Body (context.derive scope) (.ok result)) (goes : (!result.countsAsSuccess && stops) = false)
      (later : Rounding (index + 1) (i.recorded soFar index item result) rest outcome) :
      Rounding index soFar (item :: rest) outcome

end Rounding

/-- In a mild climate the work that an interpreter does is not cancelled. -/
def Watches (i : Interpreter σ) (c : Climate) : Prop := ¬c.harsh → ∀ w, c.Fair w → i.isCancelled w = false

theorem rounds_meets (watches : i.Watches c) {itemVariable indexVariable : Value} {stops : Bool}
    {body : Context → Attempt σ StepResult} {Body : Context → Outcome → Prop}
    (meets : ∀ context, (body context).Meets c (Body context)) (items : List Value) (index : Nat) (soFar : Rounds) :
    (i.rounds itemVariable indexVariable stops context body index soFar items).Meets c
      (i.Rounding c.toWeather context itemVariable indexVariable stops Body index soFar items) := by
  induction items generalizing index soFar with
  | nil => exact .pure .done
  | cons item rest ih =>
    rw [rounds]
    have probed : (Routine.look i.isCancelled : Routine σ Bool).Meets c fun cancelled =>
        cancelled = true → c.harsh ∧ ∃ w, i.isCancelled w = true := by
      refine .look fun w fair cancelled => ⟨?_, w, cancelled⟩
      by_contra mild
      cases (watches mild w fair).symm.trans cancelled
    refine .lift_bind probed fun cancelled known => ?_
    cases cancelled with
    | true =>
      obtain ⟨harsh, w, cancelled⟩ := known rfl
      exact .pure (.cancelled w harsh cancelled)
    | false =>
      refine .lift_bind (note_meets trivial) fun _ _ => .ofExcept_bind (fun scope scopes => ?_) fun _ scopes =>
        .unscoped scopes
      refine .bind (meets (context.derive scope)) (fun result came => ?_) fun _ came => .interrupted scopes came
      dsimp only
      split
      · next ends => exact .pure (.stopped scopes came ends)
      · next goes => exact (ih _ _).mono fun _ later => .next scopes came (Bool.eq_false_iff.mpr goes) later

/-! ## Manual steps -/

/-- What a manual step can come to. -/
inductive Noticed (i : Interpreter σ) (d : Weather) (context : Context) (instructions : Value) : Outcome → Prop
  | told (auto : i.policies.manualSteps = .auto) :
      Noticed i d context instructions (.ok (finished context true (.notice instructions)))
  | approved (awaits : i.policies.manualSteps = .await) (token : String) (decision : Decision)
      (approved : decision.approved.truthy = true) :
      Noticed i d context instructions
        (.ok (finished context true (.decision instructions token decision.note)))
  | rejected (awaits : i.policies.manualSteps = .await) (token : String) (decision : Decision)
      (rejected : decision.approved.truthy = false) :
      Noticed i d context instructions (.ok (finished context false (.decision instructions token decision.note) []
        (decision.note.orElse (.text "Manual step rejected"))))
  | cut {outcome : Outcome} (cut : d.Cut outcome) : Noticed i d context instructions outcome

/-- Only in a harsh climate an interpreter waits for operators, who may let it wait for ever. -/
def Courteous (i : Interpreter σ) (d : Weather) : Prop := ¬d.harsh → i.policies.manualSteps = .auto

theorem awaitAnswer_meets (token : String) (harsh : c.harsh) :
    (awaitAnswer token : Attempt σ Decision).Meets c fun outcome =>
      (∃ decision, outcome = .ok decision) ∨ c.Cut outcome := by
  refine .lift_bind (.await (fun _ same => nomatch same) fun _ _ => harsh) fun wake _ => ?_
  have taken : (Routine.update (takeAnswer token) : Routine σ (Option Decision)).Meets c fun _ => True :=
    .update fun w fair => ⟨fair.spares_aside rfl rfl rfl, trivial⟩
  refine .lift_bind taken fun answer _ => ?_
  split
  · exact .pure (.inl ⟨_, rfl⟩)
  · exact .throw (.inr ⟨harsh, "", rfl⟩)

theorem runManual_meets (courteous : i.Courteous c.toWeather) (step : Step) (given : Value) :
    (i.runManual step given context).Meets c
      (i.Noticed c.toWeather context ((given.orElse step.common.description).resolve context.scope)) := by
  unfold runManual
  cases policy : i.policies.manualSteps with
  | auto => exact .bind (announce_meets _) (fun _ _ => .pure (.told policy)) fun _ done => .cut done.error
  | await =>
    have harsh : c.harsh := by
      by_contra mild
      cases policy.symm.trans (courteous mild)
    have opened : (Routine.update (openRequest context) : Routine σ String).Meets c fun _ => True :=
      .update fun w fair => ⟨fair.spares_aside rfl rfl rfl, trivial⟩
    refine .lift_bind opened fun token _ => .bind (announce_meets _) (fun _ _ => ?_) fun _ done => .cut done.error
    refine .bind (awaitAnswer_meets token harsh) (fun decision _ => ?_) fun _ came => ?_
    · dsimp only
      split
      · next approved => exact .pure (.approved policy token decision approved)
      · next rejected => exact .pure (.rejected policy token decision (Bool.eq_false_iff.mpr rejected))
    · exact .cut (came.resolve_left fun ⟨_, same⟩ => nomatch same).error

/-! ## Steps of every kind -/

/-- How the branch is called that a conditional step takes. -/
def takenOf (met : Bool) : Taken := if met then .thenBranch else .elseBranch

mutual

/-- What carrying out a step can come to, before it is reported. -/
def Amounts (i : Interpreter σ) (d : Weather) : Step → Context → Outcome → Prop
  | .tool _ name parameters outputs, context, outcome =>
    let resolved := Value.resolveEntries context.scope parameters
    ∃ raw, i.Called d context resolved (.text name) raw ∧
      outcome = callOutcome context outputs (.tool name resolved ·) ("Tool '" ++ name ++ "' failed") raw
  | .command _ command directory outputs, context, outcome =>
    let command := command.resolve context.scope
    let place : Entries := if directory.truthy then [(.text "cwd", directory.resolve context.scope)] else []
    ∃ raw, i.Called d context ((.text "command", command) :: place) i.policies.commandTool raw ∧
      outcome = callOutcome context outputs (.command command ·) ("Command failed: " ++ command.toText) raw
  | .conditional _common condition thenStep elseStep, context, outcome =>
    (∃ fault, Condition.allHold context.scope condition = .error fault ∧ outcome = .error (.fault fault)) ∨
    (∃ met, Condition.allHold context.scope condition = .ok met ∧ branchOf met thenStep elseStep = none ∧
      outcome = .ok (finished context true (.branch met .neither none))) ∨
    ∃ met branch, ∃ _ : branchOf met thenStep elseStep = some branch, ∃ inner,
      Condition.allHold context.scope condition = .ok met ∧ i.ComesNested d branch (context.derive []) inner ∧
        outcome = inner.map (i.adoptBranch context met (takenOf met))
  | .loop common items itemVariable indexVariable limit body, context, outcome =>
    (∃ fault, i.chosenItems context items limit body = .error fault ∧ outcome = .error (.fault fault)) ∨
    ∃ chosen round, ∃ _ : body = some round, ∃ rounds, i.chosenItems context items limit body = .ok chosen ∧
      i.Rounding d context itemVariable indexVariable (common.stopOnFailure.getD false)
        (fun context inner => i.ComesNested d round context inner) 0 {} chosen rounds ∧
      outcome = rounds.map (loopResult context)
  | .parallel _ steps, context, outcome =>
    (∃ outcomes, i.ComesEach d steps (context.derive []) outcomes ∧ outcome = joined context outcomes) ∨ d.Cut outcome
  | .delay _ delay, context, outcome =>
    outcome = ((delay.resolve context.scope).toDelay.map fun ms => finished context true (.delay ms)).mapError .fault ∨
      d.Cut outcome
  | .manual common instructions, context, outcome =>
    i.Noticed d context ((instructions.orElse common.description).resolve context.scope) outcome
  | .unknown _ tag _, _, outcome => outcome = .error (.fault (.unknownStepType (.text tag)))
termination_by step => 3 * sizeOf step
decreasing_by
  · have smaller : sizeOf _ < sizeOf (Step.conditional _common condition thenStep elseStep) :=
      Step.Inside.smaller (.branch ‹_›)
    omega
  · subst_vars
    rw [Step.loop.sizeOf_spec, Option.some.sizeOf_spec]
    omega
  · rw [Step.parallel.sizeOf_spec]
    omega

/-- What a step can come to. -/
def Comes (i : Interpreter σ) (d : Weather) : Step → Context → Outcome → Prop
  | step, context, outcome => ∃ inner, i.Amounts d step context inner ∧ Reports context inner outcome
termination_by step => 3 * sizeOf step + 1

/-- What a step inside another one can come to: it is skipped, or its pre-check raises, or it is interpreted. -/
def ComesNested (i : Interpreter σ) (d : Weather) : Step → Context → Outcome → Prop
  | step, context, outcome =>
    (∃ fault, Condition.allHold context.scope step.common.conditions = .error fault ∧
      outcome = .error (.fault fault)) ∨
    (Condition.allHold context.scope step.common.conditions = .ok false ∧
      outcome = .ok (.skipped context.stepIndex)) ∨
    (Condition.allHold context.scope step.common.conditions = .ok true ∧ i.Comes d step context outcome)
termination_by step => 3 * sizeOf step + 2

/-- What steps side by side can come to, each with its own copy of the scope, unless they are cancelled. -/
def ComesEach (i : Interpreter σ) (d : Weather) : List Step → Context → List Outcome → Prop
  | [], _, outcomes => outcomes = []
  | step :: rest, context, outcomes => ∃ first others, outcomes = first :: others ∧
    (i.ComesNested d step (context.derive []) first ∨ d.Cut first) ∧ i.ComesEach d rest context others
termination_by steps => 3 * sizeOf steps

end

/-! ## Interpretations -/

theorem timed_comes {step : Step} {p : Attempt σ StepResult} (meets : p.Meets c (i.Amounts c.toWeather step context)) :
    (timed context p).Meets c (i.Comes c.toWeather step context) :=
  (timed_meets meets).mono fun _ came => by rwa [Comes]

theorem comesEach_iff {steps : List Step} {outcomes : List Outcome} : i.ComesEach d steps context outcomes ↔
    List.Forall₂ (fun step outcome => i.ComesNested d step (context.derive []) outcome ∨ d.Cut outcome) steps
      outcomes := by
  induction steps generalizing outcomes with
  | nil => rw [ComesEach, List.forall₂_nil_left_iff]
  | cons step rest ih =>
    rw [ComesEach, List.forall₂_cons_left_iff]
    simp only [ih]
    constructor
    · rintro ⟨first, others, rfl, came, each⟩
      exact ⟨first, others, came, each, rfl⟩
    · rintro ⟨first, others, came, each, rfl⟩
      exact ⟨first, others, rfl, came, each⟩

/-- A step inside another one comes to what the verdict of its pre-check calls for. -/
theorem comesNested_iff {step : Step} {outcome : Outcome} : i.ComesNested d step context outcome ↔
    match Condition.allHold context.scope step.common.conditions with
    | .error fault => outcome = .error (.fault fault)
    | .ok false => outcome = .ok (.skipped context.stepIndex)
    | .ok true => i.Comes d step context outcome := by
  rw [ComesNested]
  cases Condition.allHold context.scope step.common.conditions with
  | error fault => simp
  | ok holds => cases holds <;> simp

/-- The result of a step inside another one is that of a skipped step, or one that the step comes to by itself. -/
theorem ComesNested.skipped_or {step : Step} {r : StepResult} (comes : i.ComesNested d step context (.ok r)) :
    r = .skipped context.stepIndex ∨ i.Comes d step context (.ok r) := by
  rw [comesNested_iff] at comes
  split at comes
  · cases comes
  · exact .inl (Except.ok.inj comes)
  · exact .inr comes

/-- A conditional step amounts to what its condition calls for. -/
theorem amounts_conditional_iff {common : Step.Common} {condition : List Condition} {thenStep elseStep : Option Step}
    {outcome : Outcome} : i.Amounts d (.conditional common condition thenStep elseStep) context outcome ↔
    match Condition.allHold context.scope condition with
    | .error fault => outcome = .error (.fault fault)
    | .ok met => match branchOf met thenStep elseStep with
      | none => outcome = .ok (finished context true (.branch met .neither none))
      | some branch => ∃ inner, i.ComesNested d branch (context.derive []) inner ∧
          outcome = inner.map (i.adoptBranch context met (takenOf met)) := by
  rw [Amounts]
  cases Condition.allHold context.scope condition with
  | error fault => simp
  | ok met => cases chosen : branchOf met thenStep elseStep <;> simp [chosen]

/-- A step inside another one is interpreted if its pre-check holds. -/
theorem nested_meets {step : Step} (meets : (i.interpret step context).Meets c (i.Comes c.toWeather step context)) :
    (i.interpretNested step context).Meets c (i.ComesNested c.toWeather step context) := by
  rw [interpretNested]
  refine checked_meets (fun fault raises => ?_) (fun fails => ?_) fun holds => meets.mono fun _ came => ?_
  · rw [comesNested_iff, raises]
  · rw [comesNested_iff, fails]
  · rwa [comesNested_iff, holds]

theorem branches_meet {steps : List Step}
    (meets : ∀ step ∈ steps, ∀ context, (i.interpret step context).Meets c (i.Comes c.toWeather step context)) :
    List.Forall₂ (fun (branch : Attempt σ StepResult) promise => branch.Meets c promise) (i.branches steps context)
      (steps.map fun step => i.ComesNested c.toWeather step (context.derive [])) := by
  induction steps with
  | nil =>
    rw [branches]
    exact .nil
  | cons step rest ih =>
    rw [branches]
    obtain ⟨mine, others⟩ := List.forall_mem_cons.mp meets
    exact .cons (nested_meets (mine _)) (ih others)

theorem ComesEach.exists_of_mem {steps : List Step} {outcomes : List Outcome} {outcome : Outcome}
    (each : i.ComesEach d steps context outcomes) (member : outcome ∈ outcomes) :
    ∃ step ∈ steps, i.ComesNested d step (context.derive []) outcome ∨ d.Cut outcome := by
  have pairs := comesEach_iff.mp each
  induction pairs with
  | nil => cases member
  | @cons step first rest others came pairs ih =>
    rcases List.mem_cons.mp member with rfl | later
    · exact ⟨step, List.mem_cons_self, came⟩
    · obtain ⟨step, listed, came⟩ := ih (comesEach_iff.mpr pairs) later
      exact ⟨step, List.mem_cons_of_mem _ listed, came⟩

/-- The conditional step whose branch comes to what it can come to. -/
theorem taken_meets {common : Step.Common} {condition : List Condition} {thenStep elseStep : Option Step} {met : Bool}
    {branch : Step} (holds : Condition.allHold context.scope condition = .ok met)
    (chosen : branchOf met thenStep elseStep = some branch)
    (meets : (i.interpret branch (context.derive [])).Meets c (i.Comes c.toWeather branch (context.derive []))) :
    (do
      let result ← i.interpretNested branch (context.derive [])
      return i.adoptBranch context met (takenOf met) result : Attempt σ StepResult).Meets c
      (i.Amounts c.toWeather (.conditional common condition thenStep elseStep) context) := by
  refine .bind (nested_meets meets) (fun result came => .pure ?_) fun interrupt came => ?_
  all_goals
    rw [Amounts]
    exact .inr (.inr ⟨met, branch, chosen, _, holds, came, rfl⟩)

theorem conditional_meets {common : Step.Common} {condition : List Condition} {thenStep elseStep : Option Step}
    (meets : ∀ met branch, branchOf met thenStep elseStep = some branch → ∀ context,
      (i.interpret branch context).Meets c (i.Comes c.toWeather branch context)) :
    (i.interpret (.conditional common condition thenStep elseStep) context).Meets c
      (i.Comes c.toWeather (.conditional common condition thenStep elseStep) context) := by
  rw [interpret]
  refine timed_comes (.ofExcept_bind (fun met holds => ?_) fun fault raises => ?_)
  · split
    · next branch => exact taken_meets holds rfl (meets true branch rfl _)
    · next branch => exact taken_meets holds rfl (meets false branch rfl _)
    · next noThen noElse =>
      refine .pure ?_
      rw [Amounts]
      refine .inr (.inl ⟨met, holds, ?_, rfl⟩)
      cases met with
      | true => exact Option.eq_none_iff_forall_ne_some.mpr fun branch => noThen branch rfl
      | false => exact Option.eq_none_iff_forall_ne_some.mpr fun branch => noElse branch rfl
  · rw [Amounts]
    exact .inl ⟨fault, raises, rfl⟩

theorem loop_meets (watches : i.Watches c) {common : Step.Common} {items itemVariable indexVariable : Value}
    {limit : Option Int} {body : Option Step}
    (meets : ∀ round, body = some round → ∀ context,
      (i.interpret round context).Meets c (i.Comes c.toWeather round context)) :
    (i.interpret (.loop common items itemVariable indexVariable limit body) context).Meets c
      (i.Comes c.toWeather (.loop common items itemVariable indexVariable limit body) context) := by
  rw [interpret]
  have fails (fault : Fault) (raises : i.chosenItems context items limit body = .error fault) :
      i.Amounts c.toWeather (.loop common items itemVariable indexVariable limit body) context
        (.error (.fault fault)) := by
    rw [Amounts]
    exact .inl ⟨fault, raises, rfl⟩
  refine timed_comes (.ofExcept_bind (fun listed lists => ?_) fun fault lists => fails fault ?_)
  · cases body with
    | none => exact .fail (fails _ (by rw [chosenItems, lists]; rfl))
    | some body =>
      have chooses : i.chosenItems context items limit (some body) =
          (i.loopLimit limit).bind fun most => Value.frontOf listed most := by
        rw [chosenItems, lists]
        rfl
      refine .ofExcept_bind (fun most limits => .ofExcept_bind (fun chosen cuts => ?_) fun fault cuts =>
        fails fault ?_) fun fault limits => fails fault ?_
      · refine .bind (rounds_meets watches (fun context => nested_meets (meets body rfl context)) chosen 0 {})
          (fun rounds came => .pure ?_) fun interrupt came => ?_
        all_goals
          rw [Amounts]
          exact .inr ⟨chosen, body, rfl, _, by rw [chooses, limits]; exact cuts, came, rfl⟩
      · rw [chooses, limits]
        exact cuts
      · rw [chooses, limits]
        rfl
  · rw [chosenItems, lists]
    rfl

/-- An interpretation comes to what the step can come to. -/
theorem interpret_meets (watches : i.Watches c) (courteous : i.Courteous c.toWeather) (step : Step)
    (context : Context) : (i.interpret step context).Meets c (i.Comes c.toWeather step context) := by
  induction step using Step.byParts generalizing context with
  | whole step ih =>
  cases step with
  | tool _ name parameters outputs =>
    rw [interpret]
    refine timed_comes (call_meets.mono fun _ came => ?_)
    rwa [Amounts]
  | command _ command directory outputs =>
    rw [interpret]
    refine timed_comes (call_meets.mono fun _ came => ?_)
    rwa [Amounts]
  | conditional common condition thenStep elseStep =>
    exact conditional_meets fun met branch chosen => ih branch (.branch chosen)
  | loop common items itemVariable indexVariable limit body =>
    refine loop_meets watches fun round same => ?_
    subst same
    exact ih round .round
  | parallel _ steps =>
    rw [interpret]
    refine timed_comes ((runBranches_meets (branches_meet fun step member => ih step (.side member))).mono ?_)
    rintro outcome (⟨outcomes, came, same⟩ | cut)
    · rw [Amounts]
      exact .inl ⟨outcomes, comesEach_iff.mpr (List.forall₂_map_left_iff.mp came), same⟩
    · rw [Amounts]
      exact .inr cut
  | delay _ delay =>
    rw [interpret]
    refine timed_comes ((runDelay_meets delay).mono fun _ came => ?_)
    rwa [Amounts]
  | manual common instructions =>
    rw [interpret]
    refine timed_comes ((runManual_meets courteous (.manual common instructions) instructions).mono fun _ came => ?_)
    rw [Amounts]
    exact came
  | unknown _ tag _ =>
    rw [interpret]
    refine timed_comes (.fail ?_)
    rw [Amounts]

/-! ## Cancellations -/

theorem Called.bears {parameters : Entries} {tool : Value} {raw : Except Interrupt Entries}
    (called : i.Called d context parameters tool raw) : d.Bears raw := by
  cases called with
  | unknown => exact Weather.bears_fault _
  | refused => exact Weather.bears_fault _
  | @answered _ _ answer _ _ answers =>
    intro message same
    cases answer with
    | ok => cases same
    | error interrupt =>
      cases same
      exact d.courteous _ message answers

theorem callOutcome_bears {outputs : Entries} {details : Entries → Details} {otherwise : String}
    {raw : Except Interrupt Entries} (bears : d.Bears raw) :
    d.Bears (callOutcome context outputs details otherwise raw) := by
  cases raw with
  | error => exact bears.error
  | ok raw => exact Weather.bears_mapError _

theorem Rounding.bears {itemVariable indexVariable : Value} {stops : Bool} {Body : Context → Outcome → Prop}
    {index : Nat} {soFar : Rounds} {items : List Value} {outcome : Except Interrupt Rounds}
    (rounding : i.Rounding d context itemVariable indexVariable stops Body index soFar items outcome)
    (body : ∀ context outcome, Body context outcome → d.Bears outcome) : d.Bears outcome := by
  induction rounding with
  | done => exact Weather.bears_ok _
  | cancelled => exact Weather.bears_ok _
  | unscoped => exact Weather.bears_fault _
  | interrupted _ came => exact (body _ _ came).error
  | stopped => exact Weather.bears_ok _
  | next _ _ _ _ ih => exact ih

theorem joined_bears {outcomes : List Outcome} (bears : ∀ outcome ∈ outcomes, d.Bears outcome) :
    d.Bears (joined context outcomes) := by
  have settles : d.Bears (settled context outcomes) := by
    induction outcomes with
    | nil => exact Weather.bears_ok _
    | cons first rest ih =>
      obtain ⟨mine, others⟩ := List.forall_mem_cons.mp bears
      rcases first with (fault | message) | result
      · rw [settled]
        exact (ih others).map
      · exact fun _ _ => mine message rfl
      · rw [settled]
        exact (ih others).map
  unfold joined
  cases outcome : settled context outcomes with
  | error => exact (outcome ▸ settles).error
  | ok results => exact Weather.bears_mapError _

/-- A step amounts to a cancellation only in harsh weather if so do those inside it. -/
theorem Amounts.bears {step : Step} {outcome : Outcome} (amounts : i.Amounts d step context outcome)
    (nested : ∀ {inner : Step} {context : Context} {outcome : Outcome}, inner.Inside step →
      i.ComesNested d inner context outcome → d.Bears outcome) : d.Bears outcome := by
  cases step with
  | tool | command =>
    rw [Amounts] at amounts
    obtain ⟨raw, called, rfl⟩ := amounts
    exact callOutcome_bears called.bears
  | conditional =>
    rw [Amounts] at amounts
    rcases amounts with ⟨fault, _, rfl⟩ | ⟨met, _, _, rfl⟩ | ⟨met, branch, chosen, inner, _, came, rfl⟩
    · exact Weather.bears_fault fault
    · exact Weather.bears_ok _
    · exact (nested (.branch chosen) came).map
  | loop =>
    rw [Amounts] at amounts
    rcases amounts with ⟨fault, _, rfl⟩ | ⟨chosen, round, rfl, rounds, _, rounding, rfl⟩
    · exact Weather.bears_fault fault
    · exact (rounding.bears fun _ _ came => nested .round came).map
  | parallel =>
    rw [Amounts] at amounts
    rcases amounts with ⟨outcomes, each, rfl⟩ | cut
    · refine joined_bears fun outcome member => ?_
      obtain ⟨branch, listed, came | cut⟩ := each.exists_of_mem member
      · exact nested (.side listed) came
      · exact cut.bears
    · exact cut.bears
  | delay =>
    rw [Amounts] at amounts
    rcases amounts with rfl | cut
    · exact Weather.bears_mapError _
    · exact cut.bears
  | manual =>
    rw [Amounts] at amounts
    cases amounts with
    | told => exact Weather.bears_ok _
    | approved => exact Weather.bears_ok _
    | rejected => exact Weather.bears_ok _
    | cut cut => exact cut.bears
  | unknown =>
    rw [Amounts] at amounts
    exact amounts ▸ Weather.bears_fault _

/-- Only in harsh weather a step comes to a cancellation. -/
theorem Comes.bears {step : Step} {outcome : Outcome} (comes : i.Comes d step context outcome) :
    d.Bears outcome := by
  induction step using Step.byParts generalizing context outcome with
  | whole step ih =>
  have nested {inner : Step} {context : Context} {outcome : Outcome} (inside : inner.Inside step)
      (comes : i.ComesNested d inner context outcome) : d.Bears outcome := by
    rw [comesNested_iff] at comes
    split at comes
    · exact comes ▸ Weather.bears_fault _
    · exact comes ▸ Weather.bears_ok _
    · exact ih inner inside comes
  rw [Comes] at comes
  obtain ⟨inner, came, reports⟩ := comes
  cases reports with
  | result => exact Weather.bears_ok _
  | fault => exact Weather.bears_ok _
  | cancelled => exact came.bears nested

end Interpreter

end Runbook
