import Runbook.Proofs.Bond

/-! # Steps and their branches

What the parts that interpretations are made of come to in a climate: announcements, calls of tools, waits, and
branches side by side, of which each leaves behind what it came to and the whole is made of what they left.
-/

namespace Runbook

open Interpreter

variable {σ α : Type} {c : Climate} {t : TaskId} {b : Bond} {i : Interpreter σ} {context : Context}

/-! ## Announcements -/

theorem note_meets {h : Happening} (admits : c.Admits h) :
    (Routine.change (·.note h) : Routine σ Unit).Meets c fun _ => True :=
  .change fun _ fair => fair.spares_note rfl rfl rfl admits

theorem deliver_meets (event : Event) (callbacks : List String) :
    (deliver event callbacks : Attempt σ Unit).Meets c c.Done := by
  induction callbacks with
  | nil => exact .pure (.inl rfl)
  | cons callback rest ih =>
    rw [deliver]
    refine .lift_bind (.perform _) ?_
    rintro (interrupt | v) answers
    · cases interrupt with
      | fault fault => exact .lift_bind (note_meets trivial) fun _ _ => ih
      | cancelled message => exact .throw (.inr ⟨c.courteous _ message answers, message, rfl⟩)
    · exact ih

theorem announce_meets (event : Event) : (announce event : Attempt σ Unit).Meets c c.Done := by
  have noted : (Routine.update (World.announcement event) : Routine σ (List String)).Meets c fun _ => True :=
    .update fun w fair => ⟨fair.spares_note rfl rfl rfl trivial, trivial⟩
  exact .lift_bind noted fun callbacks _ => deliver_meets event callbacks

namespace Interpreter

/-! ## Calls of tools -/

/-- What an authority may say when it is asked whether a tool may run in a mode. -/
def Judges (i : Interpreter σ) (name : String) (parameters : Entries) (mode : Value) (verdict : Except Fault Bool) :
    Prop :=
  match i.authority.permits with
  | none => verdict = .ok true
  | some permits => ∃ memory, (permits name parameters mode memory).1 = verdict

theorem ask_meets (name : String) : (Routine.update (i.ask context name)).Meets c fun known =>
    ∃ memory, (i.authority.knows name memory).1 = known :=
  .update fun w fair => ⟨fair.spares_note rfl rfl rfl trivial, w.memory, rfl⟩

theorem judge_meets (name : String) (parameters : Entries) :
    (Routine.update (i.judge context name parameters)).Meets c (i.Judges name parameters context.mode) := by
  refine .update fun w fair => ?_
  unfold judge Judges
  cases i.authority.permits with
  | none => exact ⟨fair.spares_refl, rfl⟩
  | some permits => exact ⟨fair.spares_note rfl rfl rfl trivial, w.memory, rfl⟩

/-- What is said to a call of a tool that was not found to be allowed. -/
def refusal (tool mode : Value) : Except Fault Bool → Fault
  | .error fault => fault
  | .ok _ => Fault.notPermittedIn tool mode

/-- What a call of a tool with some parameters can come to: it is refused, or it comes to what the tool answers,
as a table. -/
inductive Called (i : Interpreter σ) (c : Weather) (context : Context) (parameters : Entries) :
    Value → Except Interrupt Entries → Prop
  | unknown {tool : Value} (stranger : ∀ name, tool = .text name → ∃ memory, (i.authority.knows name memory).1 = false) :
      Called i c context parameters tool (.error (.fault (.unknownTool tool)))
  | refused {name : String} {memory : σ} {verdict : Except Fault Bool}
      (knows : (i.authority.knows name memory).1 = true) (judges : i.Judges name parameters context.mode verdict)
      (denied : verdict ≠ .ok true) :
      Called i c context parameters (.text name) (.error (.fault (refusal (.text name) context.mode verdict)))
  | answered {name : String} {memory : σ} {answer : Except Interrupt Value}
      (knows : (i.authority.knows name memory).1 = true) (judges : i.Judges name parameters context.mode (.ok true))
      (answers : c.Answers (.tool name parameters) answer) :
      Called i c context parameters (.text name) (answer.map tabulated)

theorem invoke_meets (tool : Value) (parameters : Entries) :
    (i.invoke tool parameters context).Meets c (i.Called c.toWeather context parameters tool) := by
  unfold invoke
  cases tool with
  | text name =>
    refine .lift_bind (ask_meets name) ?_
    rintro known ⟨memory, knows⟩
    cases known with
    | false =>
      refine .throw (.unknown fun _ same => ?_)
      cases same
      exact ⟨memory, knows⟩
    | true =>
      refine .lift_bind (judge_meets name parameters) fun verdict judges =>
        .ofExcept_bind (fun allowed judged => ?_) fun fault judged => ?_
      · subst judged
        cases allowed with
        | false => exact .throw (.refused knows judges fun same => nomatch same)
        | true =>
          exact .lift_bind (note_meets trivial) fun _ _ => .bind (.perform _)
            (fun v answers => .pure (.answered knows judges answers)) fun interrupt answers =>
              .answered knows judges answers
      · subst judged
        exact .refused knows judges fun same => nomatch same
  | _ => exact .fail (.unknown fun name same => nomatch same)

/-! ## Steps -/

/-- How an attempt at a step is reported: a fault becomes a result, and a result bears its duration. -/
inductive Reports (context : Context) : Outcome → Outcome → Prop
  | result (r : StepResult) (durationMs : Int) : Reports context (.ok r) (.ok { r with durationMs })
  | fault (cause : Fault) (durationMs : Int) : Reports context (.error (.fault cause))
      (.ok (.ofError context.stepIndex (.text cause.message) durationMs))
  | cancelled (message : String) : Reports context (.error (.cancelled message)) (.error (.cancelled message))

/-- No clock reading is a reason for a fault. -/
theorem timed_meets {p : Attempt σ StepResult} {Q : Outcome → Prop} (meets : p.Meets c Q) :
    (timed context p).Meets c fun outcome => ∃ inner, Q inner ∧ Reports context inner outcome := by
  refine .lift_bind .clock fun started shows => ?_
  refine .bind (Q := fun outcome =>
    (∃ r, outcome = .ok r ∧ ∀ durationMs, ∃ inner, Q inner ∧ Reports context inner (.ok { r with durationMs })) ∨
      ∃ message, outcome = .error (.cancelled message) ∧ Q outcome) (.tryCatch meets ?_ ?_) ?_ ?_
  · exact fun r known => .inl ⟨r, rfl, fun ms => ⟨_, known, .result r ms⟩⟩
  · rintro (fault | message) known
    · exact .pure (.inl ⟨_, rfl, fun ms => ⟨_, known, .fault fault ms⟩⟩)
    · exact .throw (.inr ⟨message, rfl, known⟩)
  · rintro r (⟨r', same, reports⟩ | ⟨message, same, _⟩)
    · obtain rfl := Except.ok.inj same
      refine .lift_bind .clock fun ended later => ?_
      obtain ⟨ms, told⟩ := c.time.tellable started ended shows later
      refine .ofExcept_bind (fun durationMs _ => .pure (reports durationMs)) fun fault untold => ?_
      cases told.symm.trans untold
    · cases same
  · rintro interrupt (⟨r, same, _⟩ | ⟨message, same, known⟩)
    · cases same
    · obtain rfl := Except.error.inj same
      exact ⟨_, known, .cancelled message⟩

/-- A nested step is skipped, or its pre-check raises, or it is interpreted. -/
theorem checked_meets {step : Step} {p : Attempt σ StepResult} {Q : Outcome → Prop}
    (fault : ∀ cause, Condition.allHold context.scope step.common.conditions = .error cause →
      Q (.error (.fault cause)))
    (skipped : Condition.allHold context.scope step.common.conditions = .ok false →
      Q (.ok (.skipped context.stepIndex)))
    (meets : Condition.allHold context.scope step.common.conditions = .ok true → p.Meets c Q) :
    (checked step context p).Meets c Q := by
  refine .ofExcept_bind (fun holds verdict => ?_) fault
  cases holds with
  | false => exact .pure (skipped verdict)
  | true => exact meets verdict

theorem runDelay_meets (delay : Value) : (runDelay delay context : Attempt σ StepResult).Meets c fun outcome =>
    outcome = ((delay.resolve context.scope).toDelay.map fun ms => finished context true (.delay ms)).mapError .fault ∨
      c.Cut outcome := by
  refine .ofExcept_bind (fun ms read => ?_) fun fault read => .inl (by rw [read]; rfl)
  refine .bind (.await (fun _ same => nomatch same) fun _ same => nomatch same) (fun _ _ => .pure (.inl ?_))
    fun _ done => .inr done.error
  rw [read]
  rfl

/-! ## Branches -/

/-- Each branch is a task that is to leave behind what the branch comes to. -/
theorem createBranches_honours {branches : List (Attempt σ StepResult)} {promises : List (Outcome → Prop)}
    (joined : b.joined = false)
    (meets : List.Forall₂ (fun (branch : Attempt σ StepResult) promise => branch.Meets c promise) branches promises) :
    (createBranches branches).Honours c t b fun ids b' =>
      ids.length = promises.length ∧ b' = { b with branches := b.branches ++ ids.zip promises } := by
  induction meets generalizing b with
  | nil => exact ⟨rfl, by simp⟩
  | @cons branch promise branches promises first rest ih =>
    rw [createBranches]
    refine Routine.Honours.bind (Q := fun child b' => b' = { b with branches := b.branches ++ [(child, promise)] }) ?_ ?_
    · refine fun child => ⟨_, _, .branch promise joined, ?_, rfl⟩
      refine (first child { owes := some promise } ⟨rfl, rfl, rfl⟩).bind ?_
      rintro outcome _ ⟨rfl, kept⟩ w fair backed
      exact ⟨_, .leaves rfl kept, .inr ⟨rfl, rfl⟩⟩
    · rintro child _ rfl
      refine (ih (b := { b with branches := b.branches ++ [(child, promise)] }) joined).bind ?_
      rintro ids _ ⟨same, rfl⟩
      exact ⟨congrArg Nat.succ same, by simp⟩

/-- What is taken from branches that have ended is what they were to leave behind, and where one left nothing
behind it was cancelled. -/
theorem collect_spec {w : World σ} {ids : List TaskId} {promises : List (Outcome → Prop)}
    (same : ids.length = promises.length)
    (kept : ∀ branch ∈ ids.zip promises, (∀ outcome, (branch.1, outcome) ∈ w.agenda.outcomes → branch.2 outcome) ∧
      (¬c.harsh → ∃ outcome, (branch.1, outcome) ∈ w.agenda.outcomes)) :
    List.Forall₂ (fun promise outcome => promise outcome ∨ c.Cut outcome) promises (collect ids w).1 := by
  change List.Forall₂ _ promises (ids.map _)
  induction ids generalizing promises with
  | nil =>
    cases promises with
    | nil => exact .nil
    | cons => cases same
  | cons id rest ih =>
    cases promises with
    | nil => cases same
    | cons promise promises =>
      obtain ⟨mine, others⟩ := List.forall_mem_cons.mp (show ∀ branch ∈ (id, promise) :: rest.zip promises, _ from kept)
      refine .cons ?_ (ih (Nat.succ.inj same) others)
      simp only
      cases found : w.agenda.outcomes.find? (·.1 == id) with
      | some left =>
        have named : left.1 = id := by simpa using List.find?_some found
        exact .inl (mine.1 left.2 (named ▸ List.mem_of_find?_eq_some found))
      | none =>
        refine .inr ⟨?_, "", rfl⟩
        by_contra calm
        obtain ⟨outcome, member⟩ := mine.2 calm
        exact absurd (List.find?_eq_none.mp found _ member) (by simp)

/-- What the outcomes of branches come to together. -/
def joined (context : Context) (outcomes : List Outcome) : Outcome :=
  match settled context outcomes with
  | .ok results => (parallelResult context results).mapError .fault
  | .error interrupt => .error interrupt

/-- Branches side by side come to what their outcomes, in the order of the branches, come to together. -/
theorem runBranches_meets {branches : List (Attempt σ StepResult)} {promises : List (Outcome → Prop)}
    (meets : List.Forall₂ (fun (branch : Attempt σ StepResult) promise => branch.Meets c promise) branches promises) :
    (runBranches context branches).Meets c fun outcome =>
      (∃ outcomes, List.Forall₂ (fun promise outcome => promise outcome ∨ c.Cut outcome) promises outcomes ∧
        outcome = joined context outcomes) ∨ c.Cut outcome := by
  intro t b free
  obtain ⟨owes, charge, branches', joined'⟩ := b
  obtain ⟨rfl, rfl, rfl⟩ : branches' = [] ∧ joined' = false ∧ charge = none :=
    ⟨free.branches, free.joined, free.charge⟩
  rw [runBranches, Attempt.run_bind, Attempt.run_lift, Routine.bind_bind]
  refine (createBranches_honours rfl meets).bind ?_
  rintro ids _ ⟨same, rfl⟩
  have named : (ids.zip promises).map (·.1) = ids := List.map_fst_zip (Nat.le_of_eq same)
  refine ⟨⟨rfl, named.symm⟩, fun wake mild => ?_⟩
  cases wake with
  | cancelled =>
    refine ⟨rfl, .inr ⟨?_, "", rfl⟩⟩
    by_contra calm
    cases mild calm
  | ready =>
    intro w fair backed
    have collected := collect_spec same (backed rfl)
    refine ⟨{ owes }, ?_, ?_⟩
    · have deed : Bond.Deed c t { owes, branches := ids.zip promises, joined := true } w { owes } _ := .collects rfl
      rwa [named] at deed
    · have whole (outcomes : List Outcome) : ExceptT.run (do
          let results ← ExceptT.mk (pure (settled context outcomes))
          Attempt.ofExcept (parallelResult context results) : Attempt σ StepResult) =
            .done (Interpreter.joined context outcomes) := by
        rw [Attempt.run_bind, Interpreter.joined]
        cases settled context outcomes with
        | error => rfl
        | ok results => exact Attempt.run_ofExcept _
      change (ExceptT.run (do
          let results ← ExceptT.mk (pure (settled context (collect ids w).1))
          Attempt.ofExcept (parallelResult context results) : Attempt σ StepResult)).Honours c t _ _
      rw [whole]
      exact ⟨rfl, .inl ⟨_, collected, rfl⟩⟩

end Interpreter

end Runbook
