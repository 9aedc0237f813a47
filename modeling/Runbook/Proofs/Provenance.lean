import Runbook.Proofs.Governance

/-! # Where variables come from

The variables of an execution begin with those of its workflow and of its caller. From then on a key comes
in only under the name of an output that a step declares, and only some steps are heard: those of the
workflow itself, branches of conditional steps where results of branches are adopted, and bodies of loops
where outputs of rounds are propagated. What stands inside a parallel step publishes nothing, and neither
does a loop publish the variables of its rounds. No key is ever taken away.
-/

namespace Runbook

open Machine

variable {σ : Type}

/-! ## Declared outputs -/

namespace Step

/-- The outputs that a step names, with the paths that lead to them. -/
def outputs : Step → Entries
  | .tool _ _ _ outputs => outputs
  | .command _ _ _ outputs => outputs
  | _ => []

/-- The second step is the first one, or is heard through it: it is reached through branches of conditional
steps, if results of branches are adopted, and through bodies of loops, if outputs of rounds are
propagated. -/
inductive Reaches (p : Policies) : Step → Step → Prop
  | itself (step : Step) : Reaches p step step
  | thenBranch {common condition branch other inner} (adopts : p.conditionalResults = .adopt)
      (inside : Reaches p branch inner) : Reaches p (.conditional common condition (some branch) other) inner
  | elseBranch {common condition branch other inner} (adopts : p.conditionalResults = .adopt)
      (inside : Reaches p branch inner) : Reaches p (.conditional common condition other (some branch)) inner
  | body {common items itemVariable indexVariable limit body inner}
      (propagates : p.loopOutputs = .propagate) (inside : Reaches p body inner) :
      Reaches p (.loop common items itemVariable indexVariable limit (some body)) inner

/-- A step declares a key: it is an output of a tool or a command that is heard through the step. -/
def Declares (p : Policies) (step : Step) (key : Value) : Prop :=
  ∃ inner, Reaches p step inner ∧ key ∈ inner.outputs.keys

end Step

/-- All keys under which a result publishes are among those given. -/
def StepResult.Within (declared : Value → Prop) (r : StepResult) : Prop :=
  ∀ key ∈ r.outputs.keys, declared key

variable {declared : Value → Prop} {r : StepResult} {p : Policies} {key : Value}

theorem StepResult.Within.mono {other : Value → Prop} (within : r.Within declared)
    (weaker : ∀ key, declared key → other key) : r.Within other :=
  fun key member => weaker key (within key member)

/-- A result without outputs publishes nothing. -/
theorem within_of_silent (silent : r.outputs = []) : r.Within declared := by
  intro key member
  rw [silent] at member
  cases member

/-- What is taken from a raw result goes by the names of the mapping. -/
theorem keys_extractEach {raw : Value} {mapping parts : Entries}
    (taken : raw.extractEach mapping = .ok parts) : parts.keys = mapping.keys := by
  induction mapping generalizing parts with
  | nil =>
    cases taken
    rfl
  | cons e rest ih =>
    obtain ⟨name, path⟩ := e
    rw [Value.extractEach] at taken
    cases part : raw.nestedAt path with
    | error fault => simp [part, bind, Except.bind] at taken
    | ok value =>
      cases later : raw.extractEach rest with
      | error fault => simp [part, later, bind, Except.bind] at taken
      | ok more =>
        simp only [part, later, bind, Except.bind, pure, Except.pure, Except.ok.injEq] at taken
        subst taken
        exact congrArg (name :: ·) (ih later)

theorem keys_extract {raw : Value} {mapping published : Entries}
    (taken : Value.extract (.dict mapping) raw = .ok published) (member : key ∈ published.keys) :
    key ∈ mapping.keys := by
  unfold Value.extract at taken
  split at taken
  · cases taken
    cases member
  · exact keys_extractEach taken ▸ member

namespace Interpreter

/-! ## Kinds of steps -/

theorem timed_within {context : Context} {attempt : Attempt σ StepResult}
    (within : attempt.Ensures (·.Within declared)) : (timed context attempt).Ensures (·.Within declared) :=
  timed_ensures (fun _ => within_of_silent rfl) (fun _ _ within => within) within

theorem checked_within {step : Step} {context : Context} {attempt : Attempt σ StepResult}
    (within : attempt.Ensures (·.Within declared)) :
    (checked step context attempt).Ensures (·.Within declared) := by
  refine .last fun holds => ?_
  cases holds with
  | true => exact within
  | false => exact .pure (within_of_silent rfl)

/-- The result of a call with what is taken from it. -/
private theorem published_within {context : Context} {mapping raw : Entries} {success : Bool}
    {details : Details} {error : Value} :
    (Attempt.ofExcept (Value.extract (.dict mapping) (.dict raw)) >>= fun published =>
      pure (finished context success details published error) : Attempt σ StepResult).Ensures
        (·.Within (· ∈ mapping.keys)) :=
  .bind (.ofExcept fun _ taken => taken) fun _ taken => .pure fun _ member => keys_extract taken member

theorem runTool_within (i : Interpreter σ) (name : String) (parameters mapping : Entries) (context : Context) :
    (i.runTool name parameters mapping context).Ensures (·.Within (· ∈ mapping.keys)) :=
  .last fun _ => published_within

theorem runCommand_within (i : Interpreter σ) (command directory : Value) (mapping : Entries)
    (context : Context) :
    (i.runCommand command directory mapping context).Ensures (·.Within (· ∈ mapping.keys)) :=
  .last fun _ => published_within

/-- A branch is heard only if results of branches are adopted. -/
theorem adoptBranch_within (i : Interpreter σ) (context : Context) (met : Bool) (taken : Taken)
    (within : i.policies.conditionalResults = .adopt → r.Within declared) :
    (i.adoptBranch context met taken r).Within declared := by
  unfold adoptBranch
  cases adopts : i.policies.conditionalResults with
  | nest => exact within_of_silent rfl
  | adopt => exact within adopts

/-- The rounds of a loop gather what their bodies publish, if outputs of rounds are propagated. -/
theorem rounds_within (i : Interpreter σ) {itemVariable indexVariable : Value} {stops : Bool}
    {context : Context} {body : Context → Attempt σ StepResult}
    (within : i.policies.loopOutputs = .propagate → ∀ inner, (body inner).Ensures (·.Within declared))
    (index : Nat) (soFar : Rounds) (gathered : ∀ key ∈ soFar.outputs.keys, declared key) (items : List Value) :
    (i.rounds itemVariable indexVariable stops context body index soFar items).Ensures
      fun done => ∀ key ∈ done.outputs.keys, declared key := by
  induction items generalizing index soFar with
  | nil =>
    rw [rounds]
    exact .pure gathered
  | cons item rest ih =>
    rw [rounds]
    refine .last fun isCancelled => ?_
    split
    · exact .pure gathered
    refine .last fun _ => .last fun scope => .bind
      (P := fun r => i.policies.loopOutputs = .propagate → r.Within declared) ?_ fun r own => ?_
    · exact fun r yields propagates => within propagates (context.derive scope) r yields
    have gathered' : ∀ key ∈ (soFar.outputs.merge
        (if r.success && i.policies.loopOutputs == .propagate then r.outputs else [])).keys, declared key := by
      intro key member
      rcases Entries.mem_keys_merge member with before | now
      · exact gathered key before
      · split at now
        · next heard =>
          have propagates : i.policies.loopOutputs = .propagate := by
            simpa using (Bool.and_eq_true_iff.mp heard).2
          exact own propagates key now
        · cases now
    simp only
    split
    · exact .pure gathered'
    · exact ih (index + 1) _ gathered'

theorem loopResult_within {context : Context} {done : Rounds}
    (gathered : ∀ key ∈ done.outputs.keys, declared key) : (loopResult context done).Within declared := by
  unfold loopResult
  split
  · exact within_of_silent rfl
  · exact gathered

/-- A parallel step publishes nothing of its branches. -/
theorem parallelResult_within {context : Context} {results : List StepResult}
    (result : parallelResult context results = .ok r) : r.Within declared := by
  unfold parallelResult at result
  split at result
  · cases result
    exact within_of_silent rfl
  · cases joined : Value.join "; " ((results.map (·.error)).filter (·.truthy)) with
    | error fault => simp [joined, bind, Except.bind] at result
    | ok errors =>
      simp only [joined, bind, Except.bind] at result
      cases result
      exact within_of_silent rfl

theorem runManual_within (i : Interpreter σ) (step : Step) (given : Value) (context : Context) :
    (i.runManual step given context).Ensures (·.Within declared) := by
  unfold runManual
  cases i.policies.manualSteps with
  | auto => exact .last fun _ => .pure (within_of_silent rfl)
  | await =>
    refine .last fun token => .last fun _ => .last fun decision => ?_
    split <;> exact .pure (within_of_silent rfl)

/-! ## Steps of every kind -/

mutual

/-- A step publishes only under keys that it declares. -/
theorem interpret_within (i : Interpreter σ) (step : Step) (context : Context) :
    (i.interpret step context).Ensures (·.Within (step.Declares i.policies)) := by
  cases step with
  | tool common name parameters outputs =>
    rw [interpret]
    refine timed_within fun r yields => (runTool_within i name parameters outputs context r yields).mono ?_
    exact fun key member => ⟨_, .itself _, member⟩
  | command common command directory outputs =>
    rw [interpret]
    refine timed_within fun r yields => (runCommand_within i command directory outputs context r yields).mono ?_
    exact fun key member => ⟨_, .itself _, member⟩
  | conditional common condition thenStep elseStep =>
    rw [interpret]
    refine timed_within (.last fun met => ?_)
    split
    · next branch =>
      refine .bind (interpretNested_within i branch (context.derive [])) fun r (within : r.Within _) =>
        .pure (adoptBranch_within i context true .thenBranch fun adopts => within.mono ?_)
      rintro key ⟨inner, inside, member⟩
      exact ⟨inner, .thenBranch adopts inside, member⟩
    · next branch =>
      refine .bind (interpretNested_within i branch (context.derive [])) fun r (within : r.Within _) =>
        .pure (adoptBranch_within i context false .elseBranch fun adopts => within.mono ?_)
      rintro key ⟨inner, inside, member⟩
      exact ⟨inner, .elseBranch adopts inside, member⟩
    · exact .pure (within_of_silent rfl)
  | loop common items itemVariable indexVariable limit body =>
    rw [interpret]
    refine timed_within (.last fun items => ?_)
    cases body with
    | none => exact .fail _
    | some body =>
      refine .last fun limit => .last fun chosen => .bind
        (rounds_within i (fun propagates inner => ?_) 0 {} (fun key member => nomatch member) chosen)
        fun done gathered => .pure (loopResult_within gathered)
      refine fun r yields => (interpretNested_within i body inner r yields).mono ?_
      rintro key ⟨inner, inside, member⟩
      exact ⟨inner, .body propagates inside, member⟩
  | parallel common steps =>
    rw [interpret]
    exact timed_within (.last fun ids => .last fun _ => .last fun outcomes => .last fun results =>
      .ofExcept fun r result => parallelResult_within result)
  | delay common delay =>
    rw [interpret]
    exact timed_within (.last fun ms => .last fun _ => .pure (within_of_silent rfl))
  | manual common instructions =>
    rw [interpret]
    exact timed_within (runManual_within i _ instructions context)
  | unknown common tag fields =>
    rw [interpret]
    exact timed_within (.fail _)

theorem interpretNested_within (i : Interpreter σ) (step : Step) (context : Context) :
    (i.interpretNested step context).Ensures (·.Within (step.Declares i.policies)) := by
  rw [interpretNested]
  exact checked_within (interpret_within i step context)

end

end Interpreter

/-! ## Executions -/

variable {e : Engine σ} {host : Host σ} {spared : String → Prop} {m : Machine σ} {id : String}
  {workflow : Workflow} {options : Options} {x : Execution} {journal : List Happening} {mode : Value}
  {step : Step} {index : Nat} {scope start : Entries} {steps : List Step} {results : List StepResult}

/-- Whatever comes of a step of a workflow, it publishes only under keys that the step declares. -/
theorem Warranted.within (warranted : Warranted e id mode step index scope journal r) :
    r.Within (step.Declares e.config.policies) := by
  unfold Warranted at warranted
  split at warranted
  · subst warranted
    exact within_of_silent rfl
  · subst warranted
    exact within_of_silent rfl
  · obtain ⟨outcome, _, yields, result⟩ := warranted
    rcases outcome with (fault | message) | inner
    · obtain rfl := Option.some.inj result
      exact within_of_silent rfl
    · cases result
    · obtain rfl : inner = r := Option.some.inj result
      exact Interpreter.interpret_within (e.interpreter id) step _ inner yields

/-- A key that is there after results was there before, or one of the results has published it. -/
theorem keys_scopeAfter (member : key ∈ (scopeAfter start results).keys) :
    key ∈ start.keys ∨ ∃ r ∈ results, key ∈ r.outputs.keys := by
  induction results generalizing start with
  | nil => exact .inl member
  | cons r rest ih =>
    have heard : key ∈ (start.merge r.outputs).keys ∨ ∃ r' ∈ rest, key ∈ r'.outputs.keys := ih member
    rcases heard with before | ⟨r', later, own⟩
    · exact (Entries.mem_keys_merge before).imp_right fun own => ⟨r, List.mem_cons_self, own⟩
    · exact .inr ⟨r', List.mem_cons_of_mem r later, own⟩

theorem keys_prefix_scopeAfter (start : Entries) (results : List StepResult) :
    start.keys <+: (scopeAfter start results).keys := by
  induction results generalizing start with
  | nil => exact List.prefix_rfl
  | cons r rest ih => exact (Entries.keys_prefix_merge start r.outputs).trans (ih (start.merge r.outputs))

/-- The keys after the first steps of a workflow were there before, or are declared by a step. -/
theorem Walk.keys (walk : Walk e id mode steps start journal results)
    (member : key ∈ (scopeAfter start results).keys) :
    key ∈ start.keys ∨ ∃ step ∈ steps, step.Declares e.config.policies key := by
  refine (keys_scopeAfter member).imp_right ?_
  rintro ⟨r, listed, own⟩
  obtain ⟨i, found⟩ := List.mem_iff_getElem?.mp listed
  obtain ⟨step, standing, _, warranted⟩ := walk.warranted i r found
  exact ⟨step, List.mem_of_getElem? standing, warranted.within key own⟩

/-- The keys of an execution's variables: those of the workflow and the caller are all there, where of keys
that are equal as values only the first one stands; whatever else is there is declared by a step that is
heard; and however the run goes on, no key is taken away. -/
theorem variables_declared (spares : host.Spares spared) (free : spared id)
    (reachable : Reachable e host spared m) (admitted : .admitted id workflow options ∈ m.world.journal)
    (found : m.world.ledger.record? id = some x) :
    ∃ given, (options.scope.orElse (.dict [])).mapping = .ok given ∧
      (∀ key ∈ workflow.scope.keys, key ∈ x.scope.keys) ∧
      (∀ key ∈ given.keys, ∃ k ∈ x.scope.keys, k = key ∨ k.equal key = true) ∧
      (∀ key ∈ x.scope.keys, key ∈ workflow.scope.keys ∨ key ∈ given.keys ∨
        ∃ step ∈ workflow.steps, step.Declares e.config.policies key) ∧
      ∀ m', Run e host spared m m' →
        ∃ x', m'.world.ledger.record? id = some x' ∧ x.scope.keys <+: x'.scope.keys := by
  have sound := (reachable.valid spares).sound id x found
  obtain ⟨given, mapping, walk, final⟩ := (sound.replays free workflow options admitted).fold
  have kept : (workflow.scope.merge given).keys <+: x.scope.keys := final ▸ keys_prefix_scopeAfter _ x.results
  refine ⟨given, mapping, fun key member => ?_, fun key member => ?_, fun key member => ?_, fun m' run => ?_⟩
  · exact kept.subset ((Entries.keys_prefix_merge workflow.scope given).subset member)
  · obtain ⟨k, there, same⟩ := Entries.keys_of_later workflow.scope member
    exact ⟨k, kept.subset there, same⟩
  · rw [final] at member
    rcases walk.keys member with initial | declared
    · exact (Entries.mem_keys_merge initial).imp_right .inl
    · exact .inr (.inr declared)
  · obtain ⟨x', found', evolves⟩ := (reachable.later spares run).records id x found
    exact ⟨x', found', evolves.keys⟩

/-- The open engine, but that outputs of rounds are propagated. -/
def hearingEngine : Engine Unit := { openEngine with config.policies.loopOutputs := .propagate }

/-- Tools that agree to everything. -/
def agreeingHost : Host Unit := { idleHost with tool := fun _ _ => .done (.ok (.bool true)) }

/-- The machine after an execution whose first step is a loop and whose second one is parallel. -/
def agreed : Machine Unit :=
  let tool (output : String) := Value.record [("type", .text "tool"), ("toolName", .text "agree"),
    ("outputs", Value.record [(output, .text "result")])]
  let workflow := Value.record [("id", .text "a"), ("variables", Value.record [("given", .null)]),
    ("steps", .list [
      Value.record [("type", .text "loop"), ("items", .list [.null]), ("step", tool "heard")],
      Value.record [("type", .text "parallel"), ("steps", .list [tool "unheard"])]])]
  let options := Value.record [("variables", Value.record [("called", .null)])]
  (Machine.blank () {}).executing hearingEngine agreeingHost workflow options 200

/-- What a branch of the parallel step declares is not heard, and neither are the variables of the loop. -/
theorem agreed_declared : ∃ workflow options x,
    .admitted (Engine.executionId 1) workflow options ∈ agreed.world.journal ∧
    agreed.world.ledger.record? (Engine.executionId 1) = some x ∧
    x.scope.keys.map Value.toText = ["given", "called", "heard"] ∧
    workflow.scope.keys.map Value.toText = ["given"] ∧ ∃ given,
    (options.scope.orElse (.dict [])).mapping = .ok given ∧
      ∀ key ∈ x.scope.keys, key ∈ workflow.scope.keys ∨ key ∈ given.keys ∨
        ∃ step ∈ workflow.steps, step.Declares hearingEngine.config.policies key := by
  have admission : agreed.world.journal.findSome? (Happening.admission? fun id workflow _ =>
      (id, workflow.scope.keys.map Value.toText)) = some (Engine.executionId 1, ["given"]) := by decide +kernel
  obtain ⟨_, workflow, options, told, known⟩ := Happening.exists_admitted _ admission
  obtain ⟨rfl, initial⟩ := Prod.mk.inj known
  have record : (agreed.world.ledger.record? (Engine.executionId 1)).map (·.scope.keys.map Value.toText) =
      some ["given", "called", "heard"] := by decide +kernel
  obtain ⟨x, found, keys⟩ := Option.map_eq_some_iff.mp record
  have spares : agreeingHost.Spares fun _ => True := ⟨fun _ _ => trivial, fun _ _ => trivial⟩
  obtain ⟨given, mapping, _, _, declared, _⟩ :=
    variables_declared spares trivial (reachable_executing ..) told found
  exact ⟨workflow, options, x, told, found, keys, initial, given, mapping, declared⟩

end Runbook
