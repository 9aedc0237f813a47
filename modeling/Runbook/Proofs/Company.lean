import Runbook.Proofs.Unfolding
import Runbook.Proofs.Upshot

/-! # The company of an engine

Tools and observers answer whatever their scripts can end in, and guests are callers and those who have a step
interpreted by itself. In this climate the interpretation of a step comes to what its big step has, whoever has
it interpreted and whatever else happens meanwhile.
-/

namespace Runbook

open Machine Interpreter

variable {σ : Type} {e : Engine σ} {host : Host σ} {time : Timeline} {harsh : Prop} {i : Interpreter σ}
  {m m' : Machine σ} {outcome : Outcome}

/-! ## Tools and observers -/

/-- What an errand can be answered with. -/
def Host.Answers (host : Host σ) (harsh : Prop) : Errand → Except Interrupt Value → Prop
  | .tool name parameters, answer => (host.tool name parameters).Returns harsh answer
  | .observer callback event, answer =>
    ∃ r, (host.observer callback event).Returns harsh r ∧ answer = r.map fun _ => .null

/-- Tools and observers neither ask for cancellations nor, unless they are cancelled, end in one. -/
structure Host.Calm (host : Host σ) : Prop where
  tool : ∀ name parameters, (host.tool name parameters).Mild
  observer : ∀ callback event, (host.observer callback event).Mild
  courteous : ∀ errand message, ¬host.Answers False errand (.error (.cancelled message))

theorem idleHost_calm : idleHost.Calm where
  tool _ _ := trivial
  observer _ _ := trivial
  courteous errand message answers := by
    cases errand with
    | tool => cases answers
    | observer =>
      obtain ⟨_, rfl, same⟩ := answers
      cases same

theorem idleHost_frugal : idleHost.Frugal := ⟨fun _ _ => trivial, fun _ _ => trivial⟩

/-- The weather that tools and observers make. -/
def Host.weather (host : Host σ) (harsh : Prop) (calm : ¬harsh → host.Calm) : Weather where
  harsh := harsh
  Answers := host.Answers harsh
  courteous errand message answers := by
    by_contra mild
    obtain rfl := eq_false mild
    exact (calm mild).courteous errand message answers

/-! ## Interpreters -/

/-- Unless somebody may be cancelled, an interpreter does not wait for operators, and stops only for an execution
whose cancellation was asked for. -/
structure Interpreter.Befits (i : Interpreter σ) (harsh : Prop) : Prop where
  auto : ¬harsh → i.policies.manualSteps = .auto
  probe : ¬harsh → ∀ w, i.isCancelled w = true → ∃ id, (Engine.record w id).cancelRequested = true

theorem Interpreter.befits_true (i : Interpreter σ) : i.Befits True :=
  ⟨fun mild => absurd trivial mild, fun mild => absurd trivial mild⟩

theorem Engine.befits (auto : ¬harsh → e.config.policies.manualSteps = .auto) (id : String) :
    (e.interpreter id).Befits harsh := ⟨auto, fun _ _ cancelled => ⟨id, cancelled⟩⟩

/-- The climate around an engine. -/
def Engine.climate (e : Engine σ) (host : Host σ) (time : Timeline) (harsh : Prop) (calm : ¬harsh → host.Calm) :
    Climate where
  toWeather := host.weather harsh calm
  time := time
  Modes mode := ∃ memory, (e.currentMode memory).1 = .ok mode
  Tells step context outcome := ∃ id, (e.interpreter id).Comes (host.weather harsh calm) step context outcome

theorem Interpreter.Befits.watches {c : Climate} (befits : i.Befits c.harsh) : i.Watches c := by
  intro mild w fair
  refine Bool.eq_false_iff.mpr fun stops => ?_
  obtain ⟨id, requested⟩ := befits.probe mild w stops
  cases ((fair.record id).2 mild).1.symm.trans requested

section Climate

variable {calm : ¬harsh → host.Calm}

theorem Interpreter.Befits.interpret_meets (befits : i.Befits harsh) (step : Step) (context : Context) :
    (i.interpret step context).Meets (e.climate host time harsh calm) (i.Comes (host.weather harsh calm) step context) :=
  have watches : i.Watches (e.climate host time harsh calm) := befits.watches
  Interpreter.interpret_meets watches befits.auto step context

theorem Interpreter.Befits.nested_meets (befits : i.Befits harsh) (step : Step) (context : Context) :
    (i.interpretNested step context).Meets (e.climate host time harsh calm)
      (i.ComesNested (host.weather harsh calm) step context) :=
  Interpreter.nested_meets (befits.interpret_meets step context)

theorem Engine.interprets (auto : ¬harsh → e.config.policies.manualSteps = .auto) :
    e.Interprets (e.climate host time harsh calm) where
  modes memory _ current := ⟨memory, current⟩
  steps id step context :=
    ((Engine.befits auto id).interpret_meets step context).mono fun _ comes => ⟨⟨id, comes⟩, comes.bears⟩

theorem Host.suits : host.Suits (e.climate host time harsh calm) where
  tool name parameters := by
    refine ⟨?_, fun _ returns => returns⟩
    by_cases possible : harsh
    · exact .inl possible
    · exact .inr ((calm possible).tool name parameters)
  observer callback event := by
    refine ⟨?_, fun r returns => ⟨r, returns, rfl⟩⟩
    by_cases possible : harsh
    · exact .inl possible
    · exact .inr ((calm possible).observer callback event)

end Climate

/-! ## Guests -/

/-- Who may come: callers of the engine, and those who have a step interpreted by itself. -/
inductive Guest (e : Engine σ) (harsh : Prop) : (TaskId → Routine σ Unit) → Prop
  | caller {p : Routine σ Unit} (caller : Caller e harsh p) : Guest e harsh fun _ => p
  | interprets {i : Interpreter σ} (befits : i.Befits harsh) (step : Step) (context : Context) :
      Guest e harsh (interpreting (i.interpret step context))
  | nests {i : Interpreter σ} (befits : i.Befits harsh) (step : Step) (context : Context) :
      Guest e harsh (interpreting (i.interpretNested step context))

/-- Whoever has something interpreted leaves behind what it comes to. -/
theorem Attempt.Meets.interpreting {c : Climate} {attempt : Attempt σ StepResult} {promise : Outcome → Prop}
    (meets : attempt.Meets c promise) (id : TaskId) :
    (Interpreter.interpreting attempt id).Honours c id { owes := some promise } fun _ b => b.Over c := by
  refine (meets id { owes := some promise } ⟨rfl, rfl, rfl⟩).bind ?_
  rintro outcome _ ⟨rfl, kept⟩ w fair backed
  exact ⟨_, .leaves rfl kept, .inr ⟨rfl, rfl⟩⟩

theorem Guest.honours {calm : ¬harsh → host.Calm} (auto : ¬harsh → e.config.policies.manualSteps = .auto)
    {body : TaskId → Routine σ Unit} (guest : Guest e harsh body) :
    ∃ promise, ∀ id, (body id).Honours (e.climate host time harsh calm) id { owes := promise }
      fun _ b => b.Over (e.climate host time harsh calm) := by
  cases guest with
  | caller caller =>
    refine ⟨none, fun id => ?_⟩
    refine (caller.meets (c := e.climate host time harsh calm) (Engine.interprets auto) id {} ⟨rfl, rfl, rfl⟩).mono ?_
    rintro _ _ ⟨rfl, _⟩
    exact .inr ⟨rfl, rfl⟩
  | interprets befits step context => exact ⟨_, (befits.interpret_meets step context).interpreting⟩
  | nests befits step context => exact ⟨_, (befits.nested_meets step context).interpreting⟩

/-! ## Courses of events -/

/-- What an engine in which nothing had happened has become, with whatever came about. -/
def Machine.Develops (e : Engine σ) (host : Host σ) (time : Timeline) (harsh : Prop) (m : Machine σ) : Prop :=
  ∃ memory bus, Unfolds e host time harsh (Guest e harsh) (blank memory bus) m

/-- A guest comes to make an attempt, and then other things happen. -/
structure Machine.Stay (e : Engine σ) (host : Host σ) (time : Timeline) (harsh : Prop)
    (attempt : Attempt σ StepResult) (m m' : Machine σ) : Prop where
  before : Develops e host time harsh m
  after : Unfolds e host time harsh (Guest e harsh) (m.launch (interpreting attempt)).1 m'

/-- A task has left behind an outcome. -/
def Machine.Left (m : Machine σ) (t : TaskId) (outcome : Outcome) : Prop := (t, outcome) ∈ m.world.agenda.outcomes

namespace Machine

theorem Unfolds.trans {m₁ m₂ m₃ : Machine σ} {Welcome : (TaskId → Routine σ Unit) → Prop}
    (first : Unfolds e host time harsh Welcome m₁ m₂) (second : Unfolds e host time harsh Welcome m₂ m₃) :
    Unfolds e host time harsh Welcome m₁ m₃ := by
  induction second with
  | refl => exact first
  | next _ last ih => exact ih.next last

theorem unfolds_settle (Welcome : (TaskId → Routine σ Unit) → Prop) (fuel : Nat) (m : Machine σ) :
    Unfolds e host time harsh Welcome m (m.settle (host.service e) fuel) := by
  induction fuel generalizing m with
  | zero => exact .refl m
  | succ fuel ih =>
    rw [settle]
    split
    · next m' taken => exact Unfolds.trans (.next (.refl m) (.work taken)) (ih m')
    · exact .refl m

variable (auto : ¬harsh → e.config.policies.manualSteps = .auto) (calm : ¬harsh → host.Calm)

include auto

theorem Develops.bonded (develops : Develops e host time harsh m) :
    ∃ bonds pledges, m.Bonded (e.climate host time harsh calm) bonds pledges := by
  obtain ⟨memory, bus, unfolds⟩ := develops
  have start : (blank memory bus).Bonded (e.climate host time harsh calm) (fun _ => none) fun _ => none :=
    (blank_pristine memory bus).bonded rfl time.zero
  obtain ⟨bonds, pledges, _, bonded⟩ := start.unfolds (Engine.interprets auto) Host.suits
    (fun _ guest => guest.honours auto) unfolds
  exact ⟨bonds, pledges, bonded⟩

/-- What a visitor promised is on record whatever happens later. -/
theorem Stay.bonded {attempt : Attempt σ StepResult} {promise : Outcome → Prop}
    (stay : Stay e host time harsh attempt m m') (meets : attempt.Meets (e.climate host time harsh calm) promise) :
    ∃ bonds pledges, m'.Bonded (e.climate host time harsh calm) bonds pledges ∧
      pledges m.world.agenda.created = some ⟨none, promise⟩ := by
  obtain ⟨bonds, pledges, bonded⟩ := stay.before.bonded auto calm
  have arrived := bonded.launched none (fun _ same => nomatch same) none (meets.interpreting m.world.agenda.created)
  obtain ⟨bonds', pledges', within, bonded'⟩ := arrived.unfolds (Engine.interprets auto) Host.suits
    (fun _ guest => guest.honours auto) stay.after
  exact ⟨bonds', pledges', bonded', within _ _ Pledges.add_self⟩

/-- A visitor leaves behind what the attempt can come to. -/
theorem Stay.kept {attempt : Attempt σ StepResult} {promise : Outcome → Prop}
    (stay : Stay e host time harsh attempt m m') (meets : attempt.Meets (e.climate host time harsh calm) promise)
    (left : m'.Left m.world.agenda.created outcome) : promise outcome := by
  obtain ⟨bonds, pledges, bonded, pledged⟩ := stay.bonded auto calm meets
  obtain ⟨pledge, same, kept⟩ := bonded.outcomes _ outcome left
  obtain rfl := Option.some.inj (pledged.symm.trans same)
  exact kept

/-- If nobody is cancelled or left waiting at a latch, every visitor has left something behind once the machine does
not go on. -/
theorem Stay.exists_left {attempt : Attempt σ StepResult} {promise : Outcome → Prop}
    (stay : Stay e host time harsh attempt m m') (meets : attempt.Meets (e.climate host time harsh calm) promise)
    (mild : ¬harsh) (spent : m'.Spent (host.service e)) (unlatched : ¬m'.Latched) :
    ∃ outcome, m'.Left m.world.agenda.created outcome := by
  obtain ⟨bonds, pledges, bonded, pledged⟩ := stay.bonded auto calm meets
  exact bonded.left_of_rest mild (bonded.rest_of_spent mild spent unlatched) pledged

/-- Whoever makes the attempt leaves behind nothing but outcomes of this kind, whatever else happens. If nobody is
cancelled or left waiting at a latch, there is one once the machine does not go on, and unless tools have executions
started, it does not go on forever. -/
structure Gives (e : Engine σ) (host : Host σ) (time : Timeline) (harsh : Prop) (attempt : Attempt σ StepResult)
    (kind : Outcome → Prop) : Prop where
  kept : ∀ m m' outcome, Stay e host time harsh attempt m m' → m'.Left m.world.agenda.created outcome → kind outcome
  left : ¬harsh → ∀ m m', Stay e host time harsh attempt m m' → m'.Spent (host.service e) → ¬m'.Latched →
    ∃ outcome, m'.Left m.world.agenda.created outcome
  ends : host.Frugal → ∀ m m', Stay e host time harsh attempt m m' → m'.WindsDown (host.service e)

theorem Gives.of_meets {attempt : Attempt σ StepResult} {kind : Outcome → Prop}
    (meets : attempt.Meets (e.climate host time harsh calm) kind) : Gives e host time harsh attempt kind where
  kept _ _ _ stay left := stay.kept auto calm meets left
  left mild _ _ stay spent unlatched := stay.exists_left auto calm meets mild spent unlatched
  ends frugal _ m' _ := frugal.windsDown e m'

/-- What the engine came to for a step of a workflow is what the step can come to. -/
theorem Develops.comes {step : Runbook.Step} {context : Context} (develops : Develops e host time harsh m)
    (member : .interpreted step context outcome ∈ m.world.journal) :
    ∃ id, (e.interpreter id).Comes (host.weather harsh calm) step context outcome := by
  obtain ⟨bonds, pledges, bonded⟩ := develops.bonded auto calm
  exact bonded.fair.journal _ member

/-! ## Single attempts -/

/-- An engine in which nothing had happened, a number of steps after a guest came to make an attempt. -/
def attempting (e : Engine σ) (host : Host σ) (attempt : Attempt σ StepResult) (memory : σ) (fuel : Nat) : Machine σ :=
  ((blank memory {}).launch (interpreting attempt)).1.settle (host.service e) fuel

omit auto in
theorem stay_attempting (attempt : Attempt σ StepResult) (memory : σ) (fuel : Nat) :
    Stay e host time harsh attempt (blank memory {}) (attempting e host attempt memory fuel) :=
  ⟨⟨memory, {}, .refl _⟩, unfolds_settle _ fuel _⟩

omit auto in
/-- An outcome that a task has left behind can be found by a test. -/
theorem exists_left_of_any {t : TaskId} {p : Outcome → Bool}
    (found : (m.world.agenda.outcomes.any fun left => left.1 == t && p left.2) = true) :
    ∃ outcome, m.Left t outcome ∧ p outcome = true := by
  obtain ⟨⟨s, outcome⟩, member, both⟩ := List.any_eq_true.mp found
  obtain ⟨same, tested⟩ := Bool.and_eq_true_iff.mp both
  obtain rfl : s = t := eq_of_beq same
  exact ⟨outcome, member, tested⟩

end Machine

/-- The outcome is a result that passes a test. -/
def Interpreter.isResult (test : StepResult → Bool) : Outcome → Bool
  | .ok r => test r
  | .error _ => false

/-- The outcome is a fault with a message. -/
def Interpreter.isFault (message : String) : Outcome → Bool
  | .error (.fault fault) => fault.message == message
  | _ => false

/-- The clock stands still. -/
def stillTime : Timeline where
  Shows x := x = 0.0
  zero := rfl
  tellable := by
    rintro x y rfl rfl
    have told : (Execution.milliseconds (0.0 - 0.0)).isOk = true := by decide +kernel
    cases same : Execution.milliseconds (0.0 - 0.0) with
    | ok ms => exact ⟨ms, rfl⟩
    | error fault =>
      rw [same] at told
      cases told

end Runbook
