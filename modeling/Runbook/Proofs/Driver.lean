import Runbook.Proofs.Act
import Runbook.Proofs.Interpretation

/-! # The driver's way through the steps

Between two acts the driver of an execution knows the record as it left it: before a step all results
are there and let the execution go on, while a step is running the cursor is one ahead, and when there is
no further step to run the record says why. It relies on its record only as long as no cancellation has
been requested; after that it neither records a result nor begins a step.

The conduct of an engine tolerates the interpretation of steps. Asides are plain entries, and a tool is
called directly after it was found to be known and to be allowed, which is what a call has to be cleared
by; for the judgement to be the right one the execution has to be on record in the mode of the context.
-/

namespace Runbook

open Books

variable {σ : Type} {e : Engine σ} {spared : String → Prop} {i : Interpreter σ}

/-! ## Calls are cleared -/

/-- The execution is on record in a mode. -/
def Grounded (id : String) (mode : Value) (b : Books) : Prop :=
  ∃ x, b.record? id = some x ∧ x.mode = mode

theorem grounded_lasting (id : String) (mode : Value) :
    (e.conduct spared).Lasting (Grounded id mode) := by
  rintro b b' later ⟨x, found, same⟩
  obtain ⟨x', found', evolves⟩ := later.records _ x found
  refine ⟨x', found', ?_⟩
  rw [Execution.mode, evolves.metadata]
  exact same

theorem Happening.plain_of_isAside {h : Happening} (aside : h.isAside = true) : h.Plain := by
  unfold isAside at aside
  split at aside
  · exact ⟨fun _ => rfl, rfl⟩
  · exact ⟨fun _ => rfl, rfl⟩
  · exact ⟨fun _ => rfl, rfl⟩
  · cases aside

namespace Interpreter

/-- After it was found that a tool is known, a favourable judgement clears the call. -/
private theorem judge_obeys (same : i.authority = e.authority) (context : Context) (name : String)
    (parameters : Entries) {s : Hold (e.conduct spared).Course} {b b' : Books}
    (grounded : Grounded context.execution context.mode b) (ledger : b'.ledger = b.ledger)
    (journal : b'.journal = .asked context.execution name true :: b.journal) :
    (Routine.update (i.judge context name parameters)).Obeys (e.conduct spared) s b'
      fun verdict s' b'' => s' = s ∧ (verdict = .ok true →
        Cleared e b''.ledger context.execution name parameters b''.journal) := by
  obtain ⟨x, found, mode⟩ := grounded
  rintro w rfl
  unfold judge
  rw [same]
  cases permits : e.authority.permits with
  | none =>
    refine ⟨s, World.rest_deed s rfl, rfl, fun _ => ⟨x, b.journal, ?_, ?_⟩⟩
    · exact (congrArg (·.record? context.execution) ledger).trans found
    · rw [answersBefore, permits]
      exact journal
  | some permits' =>
    refine ⟨s, World.note_deed s rfl ⟨fun _ => rfl, rfl⟩, rfl, fun favourable => ⟨x, b.journal, ?_, ?_⟩⟩
    · exact (congrArg (·.record? context.execution) ledger).trans found
    · simp only at favourable
      rw [answersBefore, permits, mode]
      simp only [World.note, favourable]
      exact congrArg (List.cons _) journal

/-- A tool is called directly after it was found to be known and to be allowed. -/
theorem invoke_neutral (same : i.authority = e.authority) (tool : Value) (parameters : Entries)
    (context : Context) : (i.invoke tool parameters context).Neutral (e.conduct spared)
      (Grounded context.execution context.mode) := by
  have lawful := e.conduct_lawful spared
  unfold invoke
  split
  · next name =>
    refine .of_obeys fun s b stands grounded => ?_
    refine .lift_bind lawful (Q := fun known s' b' => s' = s ∧ b'.ledger = b.ledger ∧
      b'.journal = .asked context.execution name known :: b.journal) stands ?_ ?_
    · rintro _ rfl
      exact ⟨s, World.note_deed s rfl ⟨fun _ => rfl, rfl⟩, rfl, rfl, rfl⟩
    rintro known s b₁ stands₁ _ ⟨rfl, ledger, journal⟩
    cases known with
    | false => exact Attempt.obeys_fail_bind rfl
    | true =>
      refine .lift_bind lawful stands₁
        (judge_obeys same context name parameters grounded ledger journal) ?_
      rintro verdict s b₂ stands₂ _ ⟨rfl, cleared⟩
      refine .bind lawful stands₂ (Q := fun allowed s' b' => s' = s ∧ (allowed = true →
        Cleared e b'.ledger context.execution name parameters b'.journal))
        (Attempt.obeys_ofExcept (fun allowed known => ⟨rfl, fun yes => cleared (yes ▸ known)⟩)
          fun _ _ => rfl) ?_ (fun _ _ _ _ _ known => known)
      rintro allowed s b₃ stands₃ _ ⟨rfl, cleared⟩
      cases allowed with
      | false => exact Attempt.obeys_fail_bind rfl
      | true =>
        refine .lift_bind lawful (Q := fun _ s' b' => s' = s ∧
          ∃ earlier, b'.journal = .called context.execution name parameters :: earlier) stands₃ ?_ ?_
        · rintro w rfl
          exact ⟨s, .call _ name parameters (cleared rfl) rfl rfl, rfl, _, rfl⟩
        rintro _ s b₄ stands₄ _ ⟨rfl, earlier, journal⟩
        refine .bind lawful stands₄ (Q := fun _ s' _ => s' = s) (E := fun _ s' _ => s' = s)
          ⟨⟨_, earlier, journal⟩, ?_⟩ (fun _ _ _ _ _ known => known) fun _ _ _ _ _ known => known
        rintro (e | a) _ _ _
        · rfl
        · rfl
  · exact .fail _

end Interpreter

/-- The conduct of an engine tolerates the interpretation of steps. -/
theorem Engine.conduct_tolerates (e : Engine σ) (spared : String → Prop) :
    (e.conduct spared).Tolerates e.authority Grounded where
  lawful := e.conduct_lawful spared
  lasting := grounded_lasting
  aside s _ _ aside _ := World.note_deed s rfl (Happening.plain_of_isAside aside)
  observes _ _ _ := trivial
  invoke _ same tool parameters context := Interpreter.invoke_neutral same tool parameters context

/-- The event tells of no end. -/
def Event.Plain (event : Event) : Prop := ∀ record, (Happening.announced event record).Plain

theorem announce_plain (e : Engine σ) (spared : String → Prop) {event : Event} (plain : event.Plain)
    {s : Hold (e.conduct spared).Course} {b : Books} (stands : (e.conduct spared).Stands s b) :
    (announce event : Attempt σ Unit).Obeys (e.conduct spared) s b (fun _ s' _ => s' = s)
      fun interrupt s' _ => s' = s ∧ ∃ message, interrupt = .cancelled message := by
  refine (e.conduct_tolerates spared).announce_obeys stands ?_
  rintro w rfl
  exact World.note_deed s rfl (plain _)

variable {id : String} {b b' : Books}
  {s s' : Hold Execution} {workflow : Workflow} {options : Options} {x left : Execution} {index : Nat}
  {step : Step} {r : StepResult}

/-! ## What a driver knows -/

/-- A cancellation of the execution has been requested. -/
def Requested (id : String) (b : Books) : Prop :=
  ∃ x, b.record? id = some x ∧ x.cancelRequested = true

theorem not_requested (found : b.record? id = some x) (none : x.cancelRequested = false) : ¬Requested id b := by
  rintro ⟨x', found', requested⟩
  obtain rfl := Option.some.inj (found.symm.trans found')
  cases none.symm.trans requested

/-- The record of a running execution with a result for each of its first steps. The cursor is moved on only
when the time was found to be comparable with its budget. -/
structure Underway (workflow : Workflow) (done place : Nat) (left : Execution) : Prop where
  running : left.status = .running
  results : left.results.length = done
  cursor : left.currentStep = place
  pass : AllPass workflow.steps left.results
  comparable : 0 < place → ∃ seconds verdict, (Value.float seconds).exceeds left.timeout = .ok verdict

/-- There is nothing left for the driver but to end the execution, for a reason, or once more because the
duration could not be told; or it has been cancelled. -/
def Poised (why : Execution → List Happening → Prop) (id : String) (workflow : Workflow) (b : Books)
    (left : Execution) : Prop :=
  Requested id b ∨ (left.status = .running ∧ why left b.journal ∨ .untimed id ∈ b.journal) ∧
    Stopped id workflow left b.journal

/-- The reason that the steps have been run. -/
abbrev IsExhausted (workflow : Workflow) (x : Execution) (_ : List Happening) : Prop := Exhausted workflow x

theorem Underway.agree {place : Nat} (underway : Underway workflow index place left)
    (agree : Agree spared id left x) : Underway workflow index place x := by
  obtain ⟨scope, rfl, _⟩ := agree
  exact ⟨underway.running, underway.results, underway.cursor, underway.pass, underway.comparable⟩

/-- With a result that lets the execution go on, the next step is due. -/
theorem Underway.absorb (underway : Underway workflow index (index + 1) x)
    (listed : workflow.steps[index]? = some step) (sensible : r.Sensible index) (goes : Engine.goesOn step r = true) :
    Underway workflow (index + 1) (index + 1) (Engine.absorb index r x) := by
  have longer := absorb_results index r x
  obtain ⟨scope, results, errors, same⟩ := absorb_same index r x
  rw [same] at longer ⊢
  obtain rfl : results = x.results ++ [r] := longer
  refine ⟨underway.running, ?_, underway.cursor, ?_, underway.comparable⟩
  · rw [List.length_append, List.length_singleton, underway.results]
  · exact underway.pass.snoc (underway.results.symm ▸ listed) ((goesOn_iff sensible).mp goes)

/-- With any other result, nothing is left but to end the execution. -/
theorem Underway.poised_absorb (underway : Underway workflow index (index + 1) x)
    (listed : workflow.steps[index]? = some step) (sensible : r.Sensible index) (stops : Engine.goesOn step r = false) :
    Poised (IsExhausted workflow) id workflow b (Engine.absorb index r x) := by
  have longer := absorb_results index r x
  obtain ⟨scope, results, errors, same⟩ := absorb_same index r x
  rw [same] at longer ⊢
  obtain rfl : results = x.results ++ [r] := longer
  have exhausted : Exhausted workflow { x with scope, results := x.results ++ [r], errors } := by
    refine .inr ⟨x.results, r, step, rfl, underway.results.symm ▸ listed, fun passes => ?_⟩
    rw [(goesOn_iff sensible).mpr passes] at stops
    cases stops
  refine .inr ⟨.inl ⟨underway.running, exhausted⟩, ?_, .inl exhausted⟩
  simp only [List.length_append, List.length_singleton, underway.results]
  exact underway.cursor

theorem requested_lasting (e : Engine σ) (spared : String → Prop) (id : String) :
    (e.conduct spared).Lasting (Requested id) := by
  rintro b b' later ⟨x, found, requested⟩
  obtain ⟨x', found', evolves⟩ := later.records id x found
  exact ⟨x', found', evolves.requested requested⟩

theorem poised_lasting (left : Execution) : (e.conduct spared).Lasting fun b =>
    Poised (IsExhausted workflow) id workflow b left := by
  rintro b b' later (requested | ⟨before, stopped⟩)
  · exact .inl (requested_lasting e spared id b b' later requested)
  · obtain ⟨new, journal⟩ := later.journal
    refine .inr ⟨?_, ?_⟩
    · rw [journal]
      exact before.imp_right fun untimed => List.mem_append_right new untimed
    · rw [journal]
      exact stopped.append new

theorem admitted_lasting (e : Engine σ) (spared : String → Prop) (id : String) (workflow : Workflow)
    (options : Options) :
    (e.conduct spared).Lasting fun b => .admitted id workflow options ∈ b.journal := by
  rintro b b' later admitted
  obtain ⟨new, journal⟩ := later.journal
  rw [journal]
  exact List.mem_append_right new admitted

/-- The record that the books have of an execution agrees with the one that its driver left, unless a
cancellation has been requested. -/
theorem current (stands : (e.conduct spared).Stands s b) (held : s id = some left) :
    ∃ x, b.record? id = some x ∧ Sound e spared id x (b.isActive id) b.journal ∧
      (x.cancelRequested = true ∨ Agree spared id left x ∧ endings id b.journal = 0) := by
  obtain ⟨x, found, known⟩ := stands.backs id left held
  exact ⟨x, found, stands.valid.sound id x found, known⟩

/-! ## One step -/

namespace Engine

private theorem advance_cases (x : Execution) (target : Int) :
    x.advance target = .ok { x with currentStep := target } ∨
      ∃ fault, x.advance target = .error fault ∧ (target ≤ x.currentStep ∨ x.totalSteps < target) := by
  unfold Execution.advance
  split
  · next bad => exact .inr ⟨_, rfl, by simpa using bad⟩
  · exact .inl rfl

/-- Before a step the cursor moves on, unless a cancellation has been requested or the way ends here. -/
theorem boundary_obeys (stands : (e.conduct spared).Stands s b) (held : s id = some left)
    (underway : Underway workflow index index left)
    (admitted : .admitted id workflow options ∈ b.journal)
    (listed : workflow.steps[index]? = some step) :
    (Routine.update (boundary id index) : Routine σ (Except Fault Bool)).Obeys (e.conduct spared) s b
      fun r s' b' => match r with
        | .ok true => Drives id s s' (Underway workflow index (index + 1))
        | .ok false => Drives id s s' fun _ => Requested id b'
        | .error _ => Drives id s s' (Poised (Overdue id workflow) id workflow b') := by
  rintro w rfl
  obtain ⟨x, found, sound, known⟩ := current stands held
  rw [boundary, record_eq found]
  cases requested : x.cancelRequested with
  | true => exact ⟨s, World.rest_deed s rfl, drives_same held ⟨x, found, requested⟩⟩
  | false =>
    obtain ⟨⟨scope, rfl, same⟩, _⟩ := known.resolve_left (by simp [requested])
    have cursor : left.currentStep = left.results.length := by
      rw [underway.cursor, underway.results]
    have notCancelled : left.status ≠ .cancelled := by
      rw [underway.running]
      decide
    have room : left.results.length < workflow.steps.length := by
      rw [underway.results]
      exact (List.getElem?_eq_some_iff.mp listed).1
    have poised {journal : List Happening} (overdue : Overdue id workflow left journal) :
        (left.status = .running ∧ Overdue id workflow left journal ∨ .untimed id ∈ journal) ∧
          Stopped id workflow left journal :=
      ⟨.inl ⟨underway.running, overdue⟩, cursor, .inr overdue⟩
    simp only [Bool.false_eq_true, if_false]
    split
    · next fault incomparable =>
      refine ⟨s, World.rest_deed s rfl, drives_same held (.inr (poised ⟨room, ?_⟩))⟩
      exact .inr ⟨_, fault, incomparable⟩
    · next used =>
      refine ⟨s, World.note_deed s rfl ⟨fun _ => rfl, rfl⟩, drives_same held (.inr (poised ⟨room, ?_⟩))⟩
      refine .inl ⟨w.agenda.now, ?_, used⟩
      rw [underway.results]
      exact List.mem_cons_self
    · next comparable =>
      rcases advance_cases { left with scope } (index + 1) with moved | ⟨fault, bad, outside⟩
      · rw [moved]
        refine ⟨_, proceed_deed stands.valid held found requested underway.running
          (fun _ => _) rfl rfl rfl rfl List.prefix_rfl (fun _ _ _ tally => ?_) fun _ _ _ _ replays => ?_, ?_⟩
        · exact ⟨tally.totalSteps, tally.timeout, tally.bound, tally.sensible, tally.comparable, tally.summary⟩
        · exact ⟨replays.errors, replays.fold⟩
        · exact drives_put s ⟨underway.running, underway.results, rfl, underway.pass,
            fun _ => ⟨_, _, comparable⟩⟩
      · obtain ⟨tally, _⟩ := sound.tally notCancelled workflow options admitted
        have total : left.totalSteps = workflow.steps.length := tally.totalSteps
        have position := underway.cursor
        have count := underway.results
        have outside' : (index : Int) + 1 ≤ left.currentStep ∨ left.totalSteps < index + 1 := outside
        omega

/-- What comes of a step is a result for it, and warranted by the record as the driver left it. The driver's
hold on the record does not matter here: nothing is recorded before the step has come to its result. -/
theorem runStep_obeys (stands : (e.conduct spared).Stands s b) (held : s id = some left) :
    (e.runStep id step index).Obeys (e.conduct spared) s b
      (fun r s' b' => s' = s ∧ r.Sensible index ∧ (Requested id b' ∨
        (spared id → Warranted e id left.mode step index left.scope b'.journal r)))
      fun interrupt s' _ => s' = s ∧ ∃ message, interrupt = .cancelled message := by
  have lawful := e.conduct_lawful spared
  obtain ⟨x, found, sound, known⟩ := current stands held
  have source : Requested id b ∨ (spared id → x = left) := by
    rcases known with requested | ⟨agree, _⟩
    · exact .inl ⟨x, found, requested⟩
    · exact .inr fun spares => agree.eq spares
  have context : x.context index = ⟨id, index, x.scope, x.mode⟩ := by
    rw [Execution.context, sound.self]
    rfl
  unfold runStep
  refine .lift_bind lawful (Q := fun y s' b' => x = y ∧ s' = s ∧ b' = b) stands ?_ ?_
  · rintro w rfl
    exact ⟨s, lawful.rest s _, (record_eq found).symm, rfl, rfl⟩
  rintro _ s b stands _ ⟨rfl, rfl, rfl⟩
  split
  · next fault raised =>
    refine ⟨rfl, ofError_sensible index _, source.imp_right fun same spares => ?_⟩
    rw [Warranted, ← same spares, raised]
  · next skipped =>
    refine ⟨rfl, skipped_sensible index, source.imp_right fun same spares => ?_⟩
    rw [Warranted, ← same spares, skipped]
  · next holds =>
    rw [context]
    refine .lift_bind lawful (Q := fun _ s' b' => s' = s ∧ b'.ledger = b.ledger) stands ?_ ?_
    · rintro w rfl
      exact ⟨s, World.note_deed s rfl ⟨fun _ => rfl, rfl⟩, rfl, rfl⟩
    rintro _ s b₁ stands₁ later₁ ⟨rfl, ledger⟩
    have grounded : Grounded id x.mode b₁ := ⟨x, (congrArg (·.record? id) ledger).trans found, rfl⟩
    have neutral := (e.conduct_tolerates spared).interpret_neutral (i := e.interpreter id) rfl step
      ⟨id, index, x.scope, x.mode⟩
    refine .lift_bind lawful stands₁ (neutral s b₁ stands₁ grounded).yields ?_
    rintro outcome s b₂ stands₂ later₂ ⟨rfl, yields⟩
    refine .lift_bind lawful (Q := fun _ s' b' => s' = s ∧ b'.journal =
      .interpreted step ⟨id, index, x.scope, x.mode⟩ outcome :: b₂.journal) stands₂ ?_ ?_
    · rintro w rfl
      exact ⟨s, World.note_deed s rfl ⟨fun _ => rfl, rfl⟩, rfl, rfl⟩
    rintro _ s b₃ stands₃ later₃ ⟨rfl, journal⟩
    have later := lawful.later_trans later₁ (lawful.later_trans later₂ later₃)
    have warranted (r : StepResult) (result : resultOf index outcome = some r) :
        Requested id b₃ ∨ (spared id → Warranted e id left.mode step index left.scope b₃.journal r) := by
      refine source.imp (requested_lasting e spared id b b₃ later) fun same spares => ?_
      rw [Warranted, ← same spares, holds, journal]
      exact ⟨outcome, List.mem_cons_self, yields, result⟩
    rcases outcome with (fault | message) | r
    · exact ⟨rfl, ofError_sensible index _, warranted _ rfl⟩
    · exact ⟨rfl, message, rfl⟩
    · exact ⟨rfl, (Interpreter.interpret_regular _ _ _ r yields).sensible rfl, warranted r rfl⟩

/-- A result is recorded, and either the next step can begin or the way ends here; but nothing is
recorded when a cancellation has been requested. -/
theorem recordResult_obeys (stands : (e.conduct spared).Stands s b) (held : s id = some left)
    (underway : Underway workflow index (index + 1) left)
    (admitted : .admitted id workflow options ∈ b.journal)
    (listed : workflow.steps[index]? = some step) (sensible : r.Sensible index)
    (source : Requested id b ∨
      (spared id → Warranted e id left.mode step index left.scope b.journal r)) :
    (Routine.update (recordResult id index r) : Routine σ Bool).Obeys (e.conduct spared) s b
      fun recorded s' b' => match recorded with
        | true => Drives id s s' fun left' =>
          (goesOn step r = true → Underway workflow (index + 1) (index + 1) left') ∧
            (goesOn step r = false → Poised (IsExhausted workflow) id workflow b' left')
        | false => Drives id s s' fun _ => Requested id b' := by
  rintro w rfl
  obtain ⟨x, found, sound, known⟩ := current stands held
  rw [recordResult, record_eq found]
  cases requested : x.cancelRequested with
  | true => exact ⟨s, World.rest_deed s rfl, drives_same held ⟨x, found, requested⟩⟩
  | false =>
    obtain ⟨agree, _⟩ := known.resolve_left (by simp [requested])
    have warranted (spares : spared id) :
        Warranted e id x.mode step x.results.length x.scope w.journal r := by
      obtain rfl := agree.eq spares
      rw [underway.results]
      exact source.resolve_left (not_requested found requested) spares
    replace underway := underway.agree agree
    have position : workflow.steps[x.results.length]? = some step := underway.results.symm ▸ listed
    obtain ⟨scope, results, errors, changed⟩ := absorb_same index r x
    refine ⟨s.put id (absorb index r x), ?_, drives_put s
      ⟨underway.absorb listed sensible, underway.poised_absorb listed sensible⟩⟩
    refine proceed_deed stands.valid held found requested underway.running (absorb index r)
      (by rw [changed]) (by rw [changed]) (by rw [changed]) (by rw [changed]) (absorb_keys index r x) ?_ ?_
    · intro workflow' options' told tally
      obtain ⟨rfl, rfl⟩ := sound.chronicle.once _ _ _ _ admitted told
      rw [← underway.results]
      exact tally.absorb underway.running (List.getElem?_eq_some_iff.mp position).1
        (underway.results.symm ▸ sensible) (underway.comparable (Nat.succ_pos index))
    · intro spares workflow' options' told replays
      obtain ⟨rfl, rfl⟩ := sound.chronicle.once _ _ _ _ admitted told
      rw [← underway.results]
      exact replays.absorb underway.pass position (warranted spares)

theorem stepStarted_plain {index : Int} : (Event.stepStarted id step index).Plain :=
  fun _ => ⟨fun _ => rfl, rfl⟩

theorem stepEvent_plain : (stepEvent id step index r).Plain := by
  intro record
  unfold stepEvent
  split <;> exact ⟨fun _ => rfl, rfl⟩

/-! ## All steps -/

/-- A driver that has no further step to run is poised to end the execution. -/
theorem poised_of_exhausted (stands : (e.conduct spared).Stands s b) (held : s id = some left)
    (underway : Underway workflow index index left)
    (admitted : .admitted id workflow options ∈ b.journal)
    (exhausted : workflow.steps.drop index = []) : Poised (IsExhausted workflow) id workflow b left := by
  obtain ⟨x, found, sound, requested | ⟨agree, _⟩⟩ := current stands held
  · exact .inl ⟨x, found, requested⟩
  have notCancelled : x.status ≠ .cancelled := by
    rw [(underway.agree agree).running]
    decide
  obtain ⟨tally, _⟩ := sound.tally notCancelled workflow options admitted
  have most := tally.bound
  have least := List.drop_eq_nil_iff.mp exhausted
  have count := underway.results
  have count' := (underway.agree agree).results
  have all : Exhausted workflow left := .inl (by omega)
  exact .inr ⟨.inl ⟨underway.running, all⟩, underway.cursor.trans (congrArg _ count.symm), .inl all⟩

/-- However the way through the steps ends, the driver is poised to end the execution, unless its own
task has been cancelled. -/
theorem runSteps_obeys (stands : (e.conduct spared).Stands s b) (held : s id = some left)
    (underway : Underway workflow index index left)
    (admitted : .admitted id workflow options ∈ b.journal) (steps : List Step)
    (remaining : workflow.steps.drop index = steps) :
    (e.runSteps id index steps).Obeys (e.conduct spared) s b
      (fun _ s' b' => Drives id s s' (Poised (IsExhausted workflow) id workflow b'))
      fun interrupt s' b' => Drives id s s' fun left' =>
        ∀ fault, interrupt = .fault fault → Poised (Overdue id workflow) id workflow b' left' := by
  have lawful := e.conduct_lawful spared
  have still := admitted_lasting e spared id workflow options
  -- The invariant is `Underway` with results and cursor at `index`, the number of the next step.
  induction steps generalizing index s b left with
  | nil => exact drives_same held (poised_of_exhausted stands held underway admitted remaining)
  | cons step rest ih =>
    have listed : workflow.steps[index]? = some step := by
      rw [← List.head?_drop, remaining]
      rfl
    have remaining' : workflow.steps.drop (index + 1) = rest := by
      rw [← List.tail_drop, remaining]
      rfl
    rw [runSteps]
    refine .lift_bind lawful stands (boundary_obeys stands held underway admitted listed) ?_
    rintro (fault | goes) s₁ b₁ stands₁ later₁ known
    · exact Attempt.obeys_fail_bind (known.mono fun _ poised _ _ => poised)
    refine Attempt.obeys_pure_bind ?_
    cases goes with
    | false => exact known.mono fun _ requested => .inl requested
    | true =>
      obtain ⟨left₁, held₁, underway₁⟩ := known.2
      rw [if_pos rfl]
      have noFault (s' : Hold Execution) (message : String) (drives : Drives id s s' fun _ => True)
          (b' : Books) : Drives id s s' fun left' =>
            ∀ fault, Interrupt.cancelled message = .fault fault → Poised (Overdue id workflow) id workflow b' left' :=
        drives.mono fun _ _ _ same => nomatch same
      refine .bind lawful stands₁ (announce_plain e spared stepStarted_plain stands₁) ?_ ?_
      · rintro _ s₁ b₂ stands₂ later₂ rfl
        refine .bind lawful stands₂ (runStep_obeys stands₂ held₁) ?_ ?_
        · rintro r s₁ b₃ stands₃ later₃ ⟨rfl, sensible, source⟩
          have admitted₃ := still b₂ b₃ later₃ (still b₁ b₂ later₂ (still b b₁ later₁ admitted))
          refine .lift_bind lawful stands₃
            (recordResult_obeys stands₃ held₁ underway₁ admitted₃ listed sensible source) ?_
          rintro recorded s₄ b₄ stands₄ later₄ result
          cases recorded with
          | false => exact (known.trans result).mono fun _ requested => .inl requested
          | true =>
            obtain ⟨left₄, held₄, goes, stops⟩ := result.2
            refine .bind lawful stands₄ (announce_plain e spared stepEvent_plain stands₄) ?_ ?_
            · rintro _ s₄ b₅ stands₅ later₅ rfl
              have admitted₅ := still b₄ b₅ later₅ (still b₃ b₄ later₄ admitted₃)
              cases further : goesOn step r with
              | true =>
                exact (ih stands₅ held₄ (goes further) admitted₅ remaining').mono
                  (fun _ _ _ => (known.trans result).trans) fun _ _ _ => (known.trans result).trans
              | false =>
                have poised := poised_lasting left₄ b₄ b₅ later₅ (stops further)
                exact (known.trans result).trans (drives_same held₄ poised)
            · rintro interrupt s₄ b₅ _ _ ⟨rfl, message, rfl⟩
              exact noFault s₄ message ((known.trans result).mono fun _ _ => trivial) b₅
        · rintro interrupt s₁ b₃ _ _ ⟨rfl, message, rfl⟩
          exact noFault s₁ message (known.mono fun _ _ => trivial) b₃
      · rintro interrupt s₁ b₂ _ _ ⟨rfl, message, rfl⟩
        exact noFault s₁ message (known.mono fun _ _ => trivial) b₂

end Engine

end Runbook
