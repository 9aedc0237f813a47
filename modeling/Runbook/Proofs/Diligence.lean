import Runbook.Proofs.Duty
import Runbook.Proofs.Interpretation

/-! # Routines that mind their duties

Whatever an engine, its tools, its observers and its visitors do minds the duty of the task that does
it. Those around the engine leave every duty as it was. The interpretation of a step leaves it as it was
but for the request that it tends, since a task that is cancelled while it announces a request never
takes that request off the gate. The driver ends with nothing to drive.
-/

namespace Runbook

variable {σ α : Type} {e : Engine σ} {d : Duty} {A : Duty → Prop} {id : String}

/-! ## Plain acts -/

theorem note_holds (steady : ∀ d, A d → d.Steady) {h : Happening} (idle : h.Idle) :
    (Routine.change (·.note h) : Routine σ Unit).Holds e A :=
  .change fun d _ known fit => ⟨d, .note (steady d known) (World.stirs_refl fit.orderly) h (.aside idle), known⟩

theorem stir_holds (steady : ∀ d, A d → d.Steady) {f : World σ → α × World σ}
    (stirs : ∀ w : World σ, w.agenda.Orderly → w.Stirs (f w).2) : (Routine.update f).Holds e A :=
  .update fun d w known fit => ⟨d, .stir (steady d known) (stirs w fit.orderly), known⟩

theorem stir_change_holds (steady : ∀ d, A d → d.Steady) {f : World σ → World σ}
    (stirs : ∀ w : World σ, w.agenda.Orderly → w.Stirs (f w)) : (Routine.change f).Holds e A :=
  .change fun d w known fit => ⟨d, .stir (steady d known) (stirs w fit.orderly), known⟩

/-- The world but for what no other task can tell. -/
theorem World.stirs_aside {w : World σ} (orderly : w.agenda.Orderly) (memory : σ) (bus : Bus)
    (workflowIds : Nat) : w.Stirs { w with memory, bus, workflowIds } :=
  ⟨rfl, rfl, rfl, .refl _, orderly.tends⟩

theorem World.stirs_outcomes {w : World σ} (orderly : w.agenda.Orderly)
    (outcomes : List (TaskId × Outcome)) :
    w.Stirs { w with agenda := { w.agenda with outcomes } } :=
  World.stirs_agenda (orderly.congr rfl rfl rfl rfl)

/-! ## Announcements -/

/-- An event that is no move is delivered by anybody. -/
theorem deliver_holds (steady : ∀ d, A d → d.Steady) {event : Event} (aside : event.move? = none)
    (callbacks : List String) : (deliver event callbacks : Attempt σ Unit).Holds e A := by
  induction callbacks with
  | nil => exact .pure ()
  | cons callback rest ih =>
    rw [deliver]
    refine .bind (.lift (.perform steady (congrArg (Option.map _) aside))) ?_
    rintro (interrupt | v)
    · cases interrupt with
      | fault fault => exact .bind (.lift (note_holds steady trivial)) fun _ => ih
      | cancelled message => exact .bind (.throw _) fun _ => ih
    · exact .bind (.pure ()) fun _ => ih

theorem announce_holds (steady : ∀ d, A d → d.Steady) {event : Event} (aside : event.move? = none)
    (tells : ∀ d record, A d → d.Tells (.announced event record) d) :
    (announce event : Attempt σ Unit).Holds e A := by
  refine .bind (.lift (.update fun d w known fit => ?_)) fun callbacks => deliver_holds steady aside callbacks
  exact ⟨d, .note (steady d known) (World.stirs_refl fit.orderly) _ (tells d _ known), known⟩

theorem announcing_holds (steady : ∀ d, A d → d.Steady) {event : Event} (aside : event.move? = none)
    {change : World σ → Except Fault Bool × World σ}
    (act : ∀ d w, A d → d.Fit w → ∃ d', e.Act d w d' (w.announced event change).2 ∧ A d') :
    (announcing event change).Holds e A := by
  refine .bind (.lift (.update act)) fun verdict => .bind (.ofExcept _) ?_
  rintro (_ | callbacks)
  · exact .pure _
  · exact .bind (deliver_holds steady aside callbacks) fun _ => .pure _

namespace Interpreter

/-! ## Steps -/

/-- Duties of interpreting a step of an execution, whatever request they tend. -/
structure Station (id : String) (index : Int) (A : Duty → Prop) : Prop where
  steady : ∀ d, A d → d.Steady
  serves : ∀ d, A d → d.Serves id
  step : ∀ d, A d → d.step = some index
  tends : ∀ d tends, A d → A { d with tends }

/-- The attempt minds every duty of interpreting a step of an execution. -/
def Serves (e : Engine σ) (id : String) (index : Int) (p : Attempt σ α) : Prop :=
  ∀ A, Station id index A → p.Holds e A

variable {i : Interpreter σ} {context : Context} {index : Int}

/-- Nothing more is done after a fault. -/
private theorem unless_holds {c : Bool} {fault : Fault} {rest : Unit → Attempt σ α}
    (holds : ∀ u, (rest u).Holds e A) :
    (if c = true then rest () else Attempt.fail fault >>= rest).Holds e A := by
  split
  · exact holds ()
  · exact .bind (.fail fault) holds

theorem judge_holds (steady : ∀ d, A d → d.Steady) (name : String) (parameters : Entries) :
    (Routine.update (i.judge context name parameters)).Holds e A := by
  refine .update fun d w known fit => ⟨d, ?_, known⟩
  unfold judge
  split
  · exact .stir (steady d known) (World.stirs_refl fit.orderly)
  · exact .note (steady d known) (World.stirs_aside fit.orderly _ w.bus w.workflowIds) _ (.aside trivial)

theorem invoke_holds (steady : ∀ d, A d → d.Steady) (tool : Value) (parameters : Entries) :
    (i.invoke tool parameters context).Holds e A := by
  unfold invoke
  split
  · next name =>
    refine .bind (.lift (.update fun d w known fit => ?_)) fun known => unless_holds fun _ => ?_
    · exact ⟨d, .note (steady d known) (World.stirs_aside fit.orderly _ w.bus w.workflowIds) _ (.aside trivial),
        known⟩
    refine .bind (.lift (judge_holds steady name parameters)) fun verdict =>
      .bind (.ofExcept _) fun allowed => unless_holds fun _ => ?_
    exact .bind (.lift (note_holds steady trivial)) fun _ => .bind (.perform steady rfl) fun _ => .pure _
  · exact .fail _

theorem timed_serves {p : Attempt σ StepResult} (serves : Serves e id index p) :
    Serves e id index (timed context p) := by
  intro A station
  have clock : (Attempt.lift Routine.clock : Attempt σ Float).Holds e A :=
    .lift (.look station.steady _)
  refine .bind clock fun started => .bind ?_ fun result => .bind clock fun ended =>
    .bind (.ofExcept _) fun durationMs => .pure _
  refine .tryCatch (serves A station) ?_
  rintro (fault | message)
  · exact .pure _
  · exact .throw _

theorem checked_serves (step : Step) {p : Attempt σ StepResult} (serves : Serves e id index p) :
    Serves e id index (checked step context p) := by
  refine fun A station => .bind (.ofExcept _) fun verdict => ?_
  cases verdict with
  | false => exact .pure _
  | true => exact serves A station

theorem rounds_serves (itemVariable indexVariable : Value) (stops : Bool)
    {body : Context → Attempt σ StepResult} (serves : ∀ scope, Serves e id index (body (context.derive scope)))
    (round : Nat) (soFar : Rounds) (items : List Value) :
    Serves e id index (i.rounds itemVariable indexVariable stops context body round soFar items) := by
  intro A station
  induction items generalizing round soFar with
  | nil => exact .pure _
  | cons item rest ih =>
    rw [rounds]
    refine .bind (.lift (.look station.steady _)) fun cancelled => ?_
    cases cancelled with
    | true => exact .pure _
    | false =>
      refine .bind (.lift (note_holds station.steady trivial)) fun _ => .bind (.ofExcept _) fun scope =>
        .bind (serves scope A station) fun result => ?_
      simp only
      split
      · exact .pure _
      · exact ih _ _

/-! ## Branches -/

/-- Duties of a branch in a step of an execution. -/
theorem station_works (id : String) (index : Int) :
    Station id index fun d => ∃ tends, d = { works := some id, step := some index, tends } where
  steady := by
    rintro d ⟨tends, rfl⟩
    exact ⟨rfl, rfl⟩
  serves := by
    rintro d ⟨tends, rfl⟩
    exact .inr rfl
  step := by
    rintro d ⟨tends, rfl⟩
    rfl
  tends := by
    rintro d tends ⟨_, rfl⟩
    exact ⟨tends, rfl⟩

/-- Each branch is a task that works for the same step, and that the task has to wait for. -/
theorem createBranches_minds {branches : List (Attempt σ StepResult)}
    (serves : ∀ branch ∈ branches, Serves e id index branch) (phase : d.phase = .steady) (mine : d.Serves id)
    (step : d.step = some index) :
    (createBranches branches).Minds e d fun ids d' => d' = { d with owes := d.owes ++ ids } := by
  induction branches generalizing d with
  | nil =>
    change d = { d with owes := d.owes ++ [] }
    rw [List.append_nil]
  | cons branch rest ih =>
    rw [createBranches]
    refine Routine.Minds.bind (Q := fun id d' => d' = { d with owes := d.owes ++ [id] }) ?_ ?_
    · refine fun child => ⟨_, _, .branch child id index phase mine step, ?_, rfl⟩
      refine (serves branch List.mem_cons_self _ (station_works id index) _ ⟨none, rfl⟩).bind ?_
      rintro outcome _ ⟨tends, rfl⟩ w fit
      exact ⟨_, .stir ⟨rfl, rfl⟩ (World.stirs_outcomes fit.orderly _), rfl, rfl, .inl rfl⟩
    · rintro child _ rfl
      refine Routine.Minds.bind (ih (fun branch member => serves branch (List.mem_cons_of_mem _ member))
        phase mine step) ?_
      rintro ids _ rfl
      change _ = { d with owes := d.owes ++ child :: ids }
      rw [List.append_assoc, List.singleton_append]

theorem runBranches_serves {branches : List (Attempt σ StepResult)}
    (serves : ∀ branch ∈ branches, Serves e id index branch) :
    Serves e id index (runBranches context branches) := by
  intro A station d known
  have steady := station.steady d known
  refine Attempt.minds_lift_bind (createBranches_minds serves steady.phase (station.serves d known)
    (station.step d known)) ?_
  rintro ids _ rfl
  rw [steady.owes, List.nil_append]
  -- The wait is for all branches and nobody else, and the duty is what it was before.
  have back : ({ d with owes := ids } : Duty).rested = d := steady.rested
  refine ⟨⟨steady.phase, .inl ⟨ids, rfl, rfl⟩, fun token same => nomatch same⟩, fun wake => ?_⟩
  rw [back]
  cases wake with
  | cancelled => exact known
  | ready =>
    have collected : (Attempt.lift (.update (collect ids)) : Attempt σ (List Outcome)).Holds e A :=
      .lift (stir_holds station.steady fun w orderly => World.stirs_outcomes orderly _)
    exact Attempt.Holds.bind collected (fun outcomes =>
      .bind (Routine.Holds.done _) fun results => .ofExcept _) d known

/-! ## Manual steps -/

theorem runDelay_serves (delay : Value) : Serves e id index (runDelay delay context : Attempt σ StepResult) :=
  fun _ station => .bind (.ofExcept _) fun _ =>
    .bind (.await station.steady (fun _ same => nomatch same) fun _ same => nomatch same) fun _ => .pure _

/-- The answer is awaited by the task that tends the request, and then tends it no longer. -/
theorem awaitAnswer_minds {A : Duty → Prop} (station : Station id index A) {token : String}
    (known : A { d with tends := some token }) :
    (ExceptT.run (awaitAnswer token : Attempt σ Decision)).Minds e { d with tends := some token }
      fun _ d' => A d' := by
  have steady := station.steady _ known
  refine Attempt.minds_lift_bind (Q := fun _ d' => d' = { d with tends := some token }) ?_ ?_
  · refine ⟨⟨steady.phase, .inr ⟨fun ids same => (nomatch same), steady.owes⟩, fun other same => ?_⟩,
      fun wake => steady.rested⟩
    cases same
    rfl
  rintro wake _ rfl
  refine Attempt.minds_lift_bind (Q := fun _ d' => A d') ?_ fun answer d' known' => ?_
  · exact fun w fit => ⟨_, .takes steady token rfl, station.tends _ none known⟩
  · split <;> exact known'

theorem runManual_serves (step : Step) (given : Value) :
    Serves e context.execution context.stepIndex (i.runManual step given context) := by
  intro A station
  unfold runManual
  cases i.policies.manualSteps with
  | auto =>
    exact .bind (announce_holds station.steady rfl fun d record known =>
      .manual (station.serves d known) (station.step d known) step _ none record) fun _ => .pure _
  | await =>
    intro d known
    refine Attempt.minds_lift_bind (Q := fun token d' => d' = { d with tends := some token }) ?_ ?_
    · exact fun w fit => ⟨_, .opens (station.steady d known) context (station.serves d known), rfl⟩
    rintro token _ rfl
    have opened := station.tends d (some token) known
    -- The announcement leaves the duty exactly as it is, so that the request is still tended after it.
    refine Attempt.minds_bind (Q := fun _ d' => d' = { d with tends := some token })
      (announce_holds (A := (· = { d with tends := some token })) (fun _ same => same ▸ station.steady _ opened)
        rfl (fun d' record same => ?_) _ rfl) ?_ fun _ d' same => same ▸ opened
    · subst same
      exact .manual (station.serves _ opened) (station.step _ opened) step _ (some token) record
    rintro _ _ rfl
    refine Attempt.minds_bind (awaitAnswer_minds station opened) (fun decision d' known' => ?_)
      fun _ d' known' => known'
    simp only
    split <;> exact known'

/-! ## Steps of every kind -/

mutual

theorem interpret_serves (step : Step) (context : Context) :
    Serves e context.execution context.stepIndex (i.interpret step context) := by
  cases step with
  | tool common name parameters outputs =>
    rw [interpret]
    exact timed_serves fun A station => .bind (invoke_holds station.steady _ _) fun _ =>
      .bind (.ofExcept _) fun _ => .pure _
  | command common command directory outputs =>
    rw [interpret]
    exact timed_serves fun A station => .bind (invoke_holds station.steady _ _) fun _ =>
      .bind (.ofExcept _) fun _ => .pure _
  | conditional common condition thenStep elseStep =>
    rw [interpret]
    refine timed_serves fun A station => .bind (.ofExcept _) fun met => ?_
    split
    · exact .bind (interpretNested_serves _ (context.derive []) A station) fun _ => .pure _
    · exact .bind (interpretNested_serves _ (context.derive []) A station) fun _ => .pure _
    · exact .pure _
  | loop common items itemVariable indexVariable limit body =>
    rw [interpret]
    refine timed_serves fun A station => .bind (.ofExcept _) fun items => ?_
    cases body with
    | none => exact .fail _
    | some body =>
      refine .bind (.ofExcept _) fun limit => .bind (.ofExcept _) fun chosen =>
        .bind (rounds_serves _ _ _ (fun scope => ?_) 0 {} chosen A station) fun done => .pure _
      exact interpretNested_serves body (context.derive scope)
  | parallel common steps =>
    rw [interpret]
    exact timed_serves (runBranches_serves (branches_serve steps (context.derive [])))
  | delay common delay =>
    rw [interpret]
    exact timed_serves (runDelay_serves delay)
  | manual common instructions =>
    rw [interpret]
    exact timed_serves (runManual_serves _ instructions)
  | unknown common tag fields =>
    rw [interpret]
    exact timed_serves fun A station => .fail _

theorem interpretNested_serves (step : Step) (context : Context) :
    Serves e context.execution context.stepIndex (i.interpretNested step context) := by
  rw [interpretNested]
  exact checked_serves step (interpret_serves step context)

theorem branches_serve (steps : List Step) (context : Context) :
    ∀ branch ∈ i.branches steps context, Serves e context.execution context.stepIndex branch := by
  cases steps with
  | nil =>
    rw [branches]
    exact fun _ member => nomatch member
  | cons step rest =>
    rw [branches]
    intro branch member
    rcases List.mem_cons.mp member with rfl | later
    · exact interpretNested_serves step (context.derive [])
    · exact branches_serve rest context branch later

end

end Interpreter

namespace Engine

/-! ## The driver -/

/-- The duties of the driver of an execution between two steps, whatever request it tends. -/
def Driving (id : String) (d : Duty) : Prop := ∃ tends, d = { drives := some id, tends }

theorem Driving.drives (driving : Driving id d) : d.drives = some id := by
  obtain ⟨tends, rfl⟩ := driving
  rfl

theorem Driving.free (driving : Driving id d) : d.step = none := by
  obtain ⟨tends, rfl⟩ := driving
  rfl

theorem Driving.steady (driving : Driving id d) : d.Steady := by
  obtain ⟨tends, rfl⟩ := driving
  exact ⟨rfl, rfl⟩

/-- The duties of a driver while it interprets a step. -/
theorem station_driving (id : String) (index : Int) :
    Interpreter.Station id index fun d => ∃ tends, d = { drives := some id, step := some index, tends } where
  steady := by
    rintro d ⟨tends, rfl⟩
    exact ⟨rfl, rfl⟩
  serves := by
    rintro d ⟨tends, rfl⟩
    exact .inl rfl
  step := by
    rintro d ⟨tends, rfl⟩
    rfl
  tends := by
    rintro d tends ⟨_, rfl⟩
    exact ⟨tends, rfl⟩

/-- What a part of the driver's way leaves of the duty. If the part was cancelled, that may have happened while
callbacks were told of a move. -/
def Residue (id : String) (r : Except Interrupt α) (d : Duty) : Prop :=
  Driving id d ∨ (∃ message, r = .error (.cancelled message)) ∧ ∃ tends, d = { drives := some id, phase := .severed, tends }

/-- A part of the way of an execution's driver. -/
def Leads (e : Engine σ) (id : String) (p : Attempt σ α) : Prop :=
  ∀ d, Driving id d → (ExceptT.run p).Minds e d fun r d' => Residue id r d'

/-- After a part that was not cancelled the driver goes on. -/
theorem Residue.ok {a : α} (residue : Residue id (.ok a) d) : Driving id d :=
  residue.resolve_right fun cancelled => nomatch cancelled.1

theorem Residue.fault {fault : Fault} (residue : Residue id (.error (.fault fault) : Except Interrupt α) d) :
    Driving id d :=
  residue.resolve_right fun cancelled => nomatch cancelled.1

theorem Residue.error {β : Type} {interrupt : Interrupt}
    (residue : Residue id (.error interrupt : Except Interrupt α) d) :
    Residue id (.error interrupt : Except Interrupt β) d := by
  refine residue.imp_right fun cancelled => ⟨?_, cancelled.2⟩
  obtain ⟨message, same⟩ := cancelled.1
  cases same
  exact ⟨message, rfl⟩

namespace Leads

theorem of_holds {p : Attempt σ α} (holds : p.Holds e (Driving id)) : Leads e id p :=
  fun d driving => (holds d driving).mono fun _ _ => .inl

theorem pure (a : α) : Leads e id (Pure.pure a : Attempt σ α) := of_holds (.pure a)

theorem bind {β : Type} {p : Attempt σ α} {f : α → Attempt σ β} (first : Leads e id p)
    (next : ∀ a, Leads e id (f a)) : Leads e id (p >>= f) :=
  fun d driving => Attempt.minds_bind (first d driving) (fun a d' residue => next a d' residue.ok)
    fun _ _ residue => residue.error

/-- A move is delivered by the driver. -/
theorem deliver {event : Event} {move : Move} (about : event.execution = id) (moves : event.move? = some move)
    (callbacks : List String) : Leads e id (deliver event callbacks : Attempt σ Unit) := by
  induction callbacks with
  | nil => exact .pure ()
  | cons callback rest ih =>
    intro d driving
    rw [Runbook.deliver]
    refine Attempt.minds_lift_bind (Q := fun r d' => Residue id r d') ?_ ?_
    · refine ⟨driving.steady, fun _ => .inl driving, fun other teller => ?_⟩
      obtain rfl : id = other := by simpa [Errand.teller?, moves, about] using teller
      obtain ⟨tends, rfl⟩ := driving
      exact ⟨rfl, rfl, fun message => .inr ⟨⟨message, rfl⟩, tends, rfl⟩⟩
    rintro ((fault | message) | v) d' residue
    · have noted : (Attempt.lift (.change (·.note (.callbackFailed event.kind fault.message))) :
          Attempt σ Unit).Holds e (Driving id) := .lift (note_holds (fun _ => Driving.steady) trivial)
      exact Leads.bind (of_holds noted) (fun _ => ih) d' residue.fault
    · exact residue.error
    · exact Leads.bind (.pure ()) (fun _ => ih) d' residue.ok

/-- The driver announces a move, with which its execution neither begins nor ends. -/
theorem announce {event : Event} {move : Move} (about : event.execution = id) (moves : event.move? = some move)
    (mere : ∀ record, (Happening.announced event record).Mere) : Leads e id (announce event : Attempt σ Unit) := by
  refine .bind (of_holds (.lift (.update fun d w driving fit => ?_))) fun callbacks => .deliver about moves callbacks
  refine ⟨d, .note driving.steady (World.stirs_refl fit.orderly) _ (.move driving.drives driving.free (mere _)
    (if_pos about |>.trans moves) ?_ fun _ same => nomatch same), driving⟩
  exact fun other different => if_neg (about ▸ different.symm)

/-- The driver announces the end of its execution. -/
theorem announcing {event : Event} {change : World σ → Except Fault Bool × World σ}
    (kind : event = .completed id ∨ event = .failed id) (ends : Ends id change)
    (same : ∀ w : World σ, w.SameSetting (change w).2) : Leads e id (announcing event change) := by
  have about : event.execution = id ∧ ∃ move, event.move? = some move := by
    rcases kind with rfl | rfl <;> exact ⟨rfl, _, rfl⟩
  obtain ⟨about, move, moves⟩ := about
  refine .bind (of_holds (.lift (.update fun d w driving _ => ?_))) fun verdict =>
    .bind (of_holds (.ofExcept _)) ?_
  · exact ⟨d, .finish driving.steady id driving.drives driving.free event kind change ends (same w), driving⟩
  · rintro (_ | callbacks)
    · exact .pure _
    · exact .bind (.deliver about moves callbacks) fun _ => .pure _

end Leads

theorem boundary_holds (index : Nat) :
    (Routine.update (boundary id index) : Routine σ (Except Fault Bool)).Holds e (Driving id) := by
  refine .update fun d w driving fit => ⟨d, ?_, driving⟩
  have steady := driving.steady
  have rest : e.Act d w d w := .stir steady (World.stirs_refl fit.orderly)
  unfold boundary
  simp only
  split
  · exact rest
  · split
    · exact rest
    · exact .note steady (World.stirs_refl fit.orderly) _ (.move driving.drives driving.free trivial (if_pos rfl)
        (fun other different => if_neg different.symm) fun _ same => nomatch same)
    · split
      · exact rest
      · next execution advanced =>
        refine .amend steady id _ fun x found => ?_
        rw [record_eq found] at advanced
        unfold Execution.advance at advanced
        split at advanced
        · cases advanced
        · cases advanced
          rfl

theorem recordResult_holds (index : Nat) (result : StepResult) :
    (Routine.update (recordResult id index result) : Routine σ Bool).Holds e (Driving id) := by
  refine .update fun d w driving fit => ⟨d, ?_, driving⟩
  have steady := driving.steady
  unfold recordResult
  split
  · exact .stir steady (World.stirs_refl fit.orderly)
  · refine .amend steady id _ fun x found => ?_
    obtain ⟨scope, results, errors, changed⟩ := absorb_same index result x
    rw [changed]

/-- The record bears the identifier of the execution, and so does the context of each of its steps. -/
theorem runStep_holds (step : Step) (index : Nat) : (e.runStep id step index).Holds e (Driving id) := by
  intro d driving
  refine Attempt.minds_lift_bind (Q := fun x d' => x.id = .text id ∧ d' = d) ?_ ?_
  · intro w fit
    obtain ⟨x, found⟩ := fit.recorded id driving.drives
    refine ⟨d, .stir driving.steady (World.stirs_refl fit.orderly), ?_, rfl⟩
    change (record w id).id = .text id
    rw [record_eq found]
    exact fit.named id x found
  rintro x d ⟨named, rfl⟩
  have context : (x.context index).execution = id := by
    rw [Execution.context, named]
    rfl
  split
  · exact driving
  · exact driving
  -- While the step is interpreted the driver is at its number.
  have station := station_driving id index
  refine Attempt.minds_lift_bind (Q := fun _ d' => ∃ tends, d' = { drives := some id, step := some index, tends })
    ?_ ?_
  · obtain ⟨tends, rfl⟩ := driving
    exact fun w fit => ⟨_, .note ⟨rfl, rfl⟩ (World.stirs_refl fit.orderly) _ (.enters ⟨rfl, rfl⟩ rfl index), tends, rfl⟩
  rintro _ d₁ within
  have serves : Interpreter.Serves e id index ((e.interpreter id).interpret step (x.context index)) :=
    context ▸ Interpreter.interpret_serves step (x.context index)
  refine Attempt.minds_lift_bind (serves _ station d₁ within) ?_
  rintro outcome d₂ within
  refine Attempt.minds_lift_bind (Q := fun _ d' => Driving id d') ?_ ?_
  · obtain ⟨tends, rfl⟩ := within
    exact fun w fit => ⟨_, .note ⟨rfl, rfl⟩ (World.stirs_refl fit.orderly) _ (.leaves step _ outcome), tends, rfl⟩
  rintro _ d₃ driving
  split <;> exact driving

theorem runSteps_leads (index : Nat) (steps : List Step) : Leads e id (e.runSteps id index steps) := by
  induction steps generalizing index with
  | nil => exact .pure ()
  | cons step rest ih =>
    rw [runSteps]
    refine .bind (.of_holds (.lift (boundary_holds index))) fun verdict =>
      .bind (.of_holds (.ofExcept _)) fun goes => ?_
    split
    · refine .bind (.announce rfl rfl fun _ => trivial) fun _ => .bind (.of_holds (runStep_holds step index))
        fun result => .bind (.of_holds (.lift (recordResult_holds index result))) fun recorded => ?_
      split
      · obtain ⟨about, moves, mere⟩ : (stepEvent id step index result).execution = id ∧
            (stepEvent id step index result).move? = some (.tells index) ∧
            ∀ record, (Happening.announced (stepEvent id step index result) record).Mere := by
          unfold stepEvent
          split <;> exact ⟨rfl, rfl, fun _ => trivial⟩
        refine .bind (.announce about moves mere) fun _ => ?_
        split
        · exact ih (index + 1)
        · exact .pure ()
      · exact .pure ()
    · exact .pure ()

/-- However the driver's way ends, its execution is retired at last, and it has nothing to drive. -/
theorem drive_minds (workflow : Workflow) (phase : d.phase = .admitted id ∨ d.phase = .appointed id)
    (free : d.drives = none ∧ d.works = none) :
    (ExceptT.run (e.drive workflow id)).Minds e d fun _ d' => d' = {} := by
  have course : (ExceptT.run (do
      Runbook.announce (.started id)
      e.runSteps id 0 workflow.steps
      let _ ← Runbook.announcing (.completed id) (conclude id) : Attempt σ Unit)).Minds e d
        fun r d' => Residue id r d' := by
    refine Attempt.minds_bind (Q := fun r d' => Residue id r d') ?_ ?_ fun _ _ residue => residue.error
    · refine Attempt.minds_lift_bind (Q := fun _ d' => Driving id d') ?_ fun callbacks d' driving =>
        Leads.deliver rfl rfl callbacks d' driving
      exact fun w fit => ⟨_, .begin id phase free, none, rfl⟩
    · exact fun _ d' residue => Leads.bind (runSteps_leads 0 workflow.steps) (fun _ =>
        .bind (.announcing (.inl rfl) (conclude_ends id) (conclude_setting id)) fun _ => .pure ()) d' residue.ok
  -- A driver that was interrupted is to do nothing but retire its execution.
  refine Routine.Minds.bind (Q := fun _ d' => d'.drives = some id ∧ d'.owes = [] ∧
    (d'.phase = .steady ∨ d'.phase = .severed ∨ d'.phase = .closing)) ?_ ?_
  · have still {α : Type} {r : Except Interrupt α} {d' : Duty} (residue : Residue id r d') :
        d'.drives = some id ∧ d'.owes = [] ∧ (d'.phase = .steady ∨ d'.phase = .severed) := by
      rcases residue with ⟨tends, rfl⟩ | ⟨_, tends, rfl⟩
      · exact ⟨rfl, rfl, .inl rfl⟩
      · exact ⟨rfl, rfl, .inr rfl⟩
    have retires {α : Type} {r : Except Interrupt α} {d' : Duty} (residue : Residue id r d') :
        d'.drives = some id ∧ d'.owes = [] ∧ (d'.phase = .steady ∨ d'.phase = .severed ∨ d'.phase = .closing) :=
      ⟨(still residue).1, (still residue).2.1, (still residue).2.2.imp_right .inl⟩
    rw [Attempt.run_tryCatch]
    refine course.bind ?_
    rintro ((fault | message) | _) d' residue
    · refine Routine.Minds.mono (Q := fun r d' => Residue id r d') ?_ fun _ _ => retires
      exact Leads.bind (.announcing (.inr rfl) (abort_ends id fault) (abort_setting id fault)) (fun _ => .pure ())
        d' residue.fault
    · obtain ⟨drives, owes, phase⟩ := still residue
      refine Attempt.minds_lift_bind (Q := fun _ d' => d'.drives = some id ∧ d'.owes = [] ∧
        (d'.phase = .steady ∨ d'.phase = .severed ∨ d'.phase = .closing)) ?_ fun verdict d' known => ?_
      · exact fun w fit => ⟨_, .interrupt id drives owes phase, drives, owes, .inr (.inr rfl)⟩
      · cases verdict with
        | error fault => exact known
        | ok _ => exact known
    · exact retires residue
  · rintro outcome d' ⟨drives, owes, phase⟩ w fit
    exact ⟨_, .retire id drives owes phase, rfl⟩

/-! ## What callers can do -/

theorem submit_minds (steady : d.Steady) (workflow options : Value) :
    (ExceptT.run (e.submit workflow options)).Minds e d fun r d' => match r with
      | .ok admitted => d' = { d with phase := .admitted admitted.2 }
      | .error _ => d' = d := by
  refine Attempt.minds_lift_bind (Q := fun _ d' => d' = d) ?_ ?_
  · exact fun w fit => ⟨d, .stir steady (World.stirs_aside fit.orderly w.memory w.bus _), rfl⟩
  rintro (fault | workflow) d rfl
  · rfl
  cases Options.read options with
  | error fault => rfl
  | ok options =>
    refine Attempt.minds_lift_bind (Q := fun r d' => d' = d.enrolled r) ?_ ?_
    · exact fun w fit => ⟨_, .enroll steady workflow options, rfl⟩
    rintro (fault | id) _ rfl
    · rfl
    · rfl

/-- A caller that runs a workflow to its end drives the execution itself. -/
theorem execute_minds (e : Engine σ) (workflow options : Value) :
    (ExceptT.run (e.execute workflow options)).Minds e {} fun _ d' => d' = {} := by
  refine Attempt.minds_bind (submit_minds Duty.steady_free workflow options) ?_ fun _ _ same => same
  rintro ⟨workflow, id⟩ d' same
  obtain rfl : d' = { phase := .admitted id } := same
  exact Attempt.minds_bind (drive_minds workflow (.inl rfl) ⟨rfl, rfl⟩) (fun _ _ same => same)
    fun _ _ same => same

/-- A caller that does not wait hands the execution to the task that drives it, and enters that task in the
table of background tasks. -/
theorem start_minds (e : Engine σ) (steady : d.Steady) (workflow options : Value) :
    (ExceptT.run (e.start workflow options)).Minds e d fun _ d' => d' = d := by
  refine Attempt.minds_bind (submit_minds steady workflow options) ?_ fun _ _ same => same
  rintro ⟨workflow, id⟩ d' same
  obtain rfl : d' = { d with phase := .admitted id } := same
  refine Attempt.minds_lift_bind (Q := fun task d' => d' = { d with phase := .handed id task }) ?_ ?_
  · refine fun child => ⟨_, _, .driver child id rfl, ?_, rfl⟩
    refine Routine.Minds.bind (drive_minds workflow (.inr rfl) ⟨rfl, rfl⟩) ?_
    rintro _ _ rfl
    exact Duty.over_free
  rintro task _ rfl
  refine Attempt.minds_lift_bind (Q := fun _ d' => d' = d) ?_ fun _ _ same => same
  refine fun w fit => ⟨_, .keep id task rfl, ?_⟩
  change { d with phase := .steady } = d
  rw [← steady.phase]

theorem cancel_holds (e : Engine σ) (steady : ∀ d, A d → d.Steady) (id : String) :
    (e.cancel id).Holds e A :=
  announcing_holds steady rfl fun d _ known _ => ⟨d, .withdraw (steady d known) id, known⟩

/-- Whoever shuts the engine down waits for exactly the background tasks. -/
theorem shutdown_minds (e : Engine σ) (steady : d.Steady) :
    (ExceptT.run (shutdown : Attempt σ Unit)).Minds e d fun _ d' => d' = d := by
  refine Attempt.minds_lift_bind (Q := fun tasks d' => d' = { d with owes := tasks }) ?_ ?_
  · exact fun w fit => ⟨_, .gather steady, rfl⟩
  rintro tasks _ rfl
  have back : ({ d with owes := tasks } : Duty).rested = d := steady.rested
  refine ⟨⟨steady.phase, .inl ⟨tasks, rfl, rfl⟩, fun token same => nomatch same⟩, fun wake => ?_⟩
  rw [back]
  cases wake <;> rfl

end Engine

/-! ## Those around the engine -/

/-- Whatever is asked of the engine leaves the duty as it was. -/
theorem Host.answer_minds {β : Type} (question : Ask σ β) (steady : d.Steady) :
    (Host.answer e question).Minds e d fun _ d' => d' = d := by
  have still : ∀ d', d' = d → d'.Steady := fun _ same => same ▸ steady
  suffices holds : (Host.answer e question).Holds e (· = d) from holds d rfl
  cases question with
  | remember f => exact stir_holds still fun w orderly => World.stirs_aside orderly _ w.bus w.workflowIds
  | pause seconds => exact .await still (fun _ same => nomatch same) fun _ same => nomatch same
  | pass key => exact .await still (fun _ same => nomatch same) fun _ same => nomatch same
  | openLatch key => exact stir_change_holds still fun w orderly => World.openLatch_stirs orderly key
  | cancel id => exact e.cancel_holds still id
  | start workflow options =>
    rintro d rfl
    exact e.start_minds steady workflow options
  | acknowledge id decision token =>
    refine .bind ?_ fun _ => .done ()
    rintro d rfl child
    refine ⟨_, _, .aide child steady, fun w fit => ⟨_, .stir Duty.steady_free ?_, Duty.over_free⟩, rfl⟩
    exact Engine.acknowledge_stirs fit.orderly id decision token
  | assign id bindings =>
    exact .change fun d w same _ => ⟨d, .amend (still d same) id _ fun _ _ => rfl, same⟩
  | subscribe kind callback =>
    exact stir_change_holds still fun w orderly => World.stirs_aside orderly w.memory _ w.workflowIds
  | unsubscribe kind callback =>
    exact stir_holds still fun w orderly => World.stirs_aside orderly w.memory _ w.workflowIds

theorem Host.follow_minds {α : Type} (script : Script σ α) (steady : d.Steady) :
    (Host.follow e script).Minds e d fun _ d' => d' = d := by
  induction script with
  | done a => rfl
  | ask question k ih =>
    rw [follow]
    refine (answer_minds question steady).bind ?_
    rintro answer _ rfl
    exact ih answer

theorem Host.service_minds (host : Host σ) (errand : Errand) (steady : d.Steady) :
    (host.service e errand).Minds e d fun _ d' => d' = d := by
  cases errand with
  | tool name parameters => exact follow_minds _ steady
  | observer callback event => exact (follow_minds _ steady).bind fun _ _ same => same

/-- A visitor is free before and after everything that it asks for. -/
theorem visit_minds {spared : String → Prop} {p : Routine σ Unit} (visit : Visit e spared p) :
    p.Minds e {} fun _ d' => d' = {} := by
  have steady : ∀ d : Duty, d = {} → d.Steady := fun _ same => same ▸ Duty.steady_free
  induction visit with
  | leave => rfl
  | look f k _ ih => exact Routine.Minds.bind (Routine.Holds.look steady f {} rfl) fun a _ same => same ▸ ih a
  | ask question k _ _ ih =>
    exact (Host.answer_minds question Duty.steady_free).bind fun a _ same => same ▸ ih a
  | execute workflow options k _ ih =>
    exact (e.execute_minds workflow options).bind fun r _ same => same ▸ ih r
  | shutdown k _ ih => exact (e.shutdown_minds Duty.steady_free).bind fun r _ same => same ▸ ih r
  | clearHistory k _ ih =>
    refine Routine.Minds.bind (Q := fun _ d' => d' = {}) ?_ fun a _ same => same ▸ ih a
    exact fun w _ => ⟨_, .clear Duty.steady_free, rfl⟩

end Runbook
