import Runbook.Proofs.Branching
import Runbook.Proofs.Ledger

/-! # What an engine does in a climate

Whatever an engine does for its callers, its tools and its observers, and whatever these do by themselves,
spares the tasks of others and what they left behind, as long as the interpretation of steps does. Records and
journal stay as the climate has them: in a mild one nobody cancels an execution.
-/

namespace Runbook

open Interpreter

variable {σ α : Type} {c : Climate} {e : Engine σ} {w w' : World σ} {id : String} {t : TaskId} {b : Bond}

/-! ## Books -/

namespace Climate.Fair

/-- Records are changed in what a climate does not care about. -/
theorem amend (fair : c.Fair w) (id : String) {f : Execution → Execution}
    (sane : ∀ x, Engine.record w id = x → c.Sane x → c.Sane (f x)) : c.Spares w (Engine.amend id f w) := by
  have keeps : c.Keeps w (Engine.amend id f w) := fair.keeps rfl (fun other x found => ?_) fair.journal
  · exact keeps.spares (Ledger.admitted_amend ..) fun _ told => told
  rw [Engine.amend, Ledger.record?_amend] at found
  split at found
  · next same =>
    subst same
    obtain ⟨x', before, rfl⟩ := Option.map_eq_some_iff.mp found
    exact sane x' (Engine.record_eq before) (fair.records _ x' before)
  · exact fair.records other x found

/-- An execution ends, and its duration can be told. -/
theorem finish (fair : c.Fair w) (id : String) (status : ExecutionStatus)
    (mild : ¬c.harsh → status ≠ .cancelled) :
    (Engine.finish id status w).1 = .ok () ∧ c.Spares w (Engine.finish id status w).2 := by
  obtain ⟨ms, told⟩ := c.time.tellable _ _ (fair.record id).1 fair.moment
  have ended : (Engine.record w id).finish status w.agenda.now =
      ({ Engine.record w id with status, ended := true, durationMs := some ms }, none) := by
    unfold Execution.finish Execution.elapsed
    simp only [told]
  unfold Engine.finish
  rw [ended]
  refine ⟨rfl, fair.amend id fun x found sane => ?_⟩
  rw [found]
  exact ⟨sane.started, sane.mode, fun calm => ⟨(sane.untouched calm).1, mild calm⟩⟩

theorem conclude (fair : c.Fair w) (id : String) : c.Spares w (Engine.conclude id w).2 := by
  unfold Engine.conclude
  simp only
  split
  · exact fair.spares_refl
  · have summed := fair.amend id (f := ({ · with
      summary := Engine.summary (Engine.record w id).totalSteps (Engine.record w id).results }))
      fun _ _ sane => ⟨sane.started, sane.mode, sane.untouched⟩
    exact summed.trans (summed.fair.finish id _ fun _ => by split <;> simp).2

theorem abort (fair : c.Fair w) (id : String) (fault : Fault) : c.Spares w (Engine.abort id fault w).2 := by
  unfold Engine.abort
  split
  · exact fair.spares_refl
  · have traced := fair.amend id (f := ({ · with error := .text fault.message, traced := true }))
      fun _ _ sane => ⟨sane.started, sane.mode, sane.untouched⟩
    exact traced.trans (traced.fair.finish id _ fun _ => by simp).2

theorem interrupt (fair : c.Fair w) (harsh : c.harsh) (id : String) : c.Spares w (Engine.interrupt id w).2 := by
  unfold Engine.interrupt
  split
  · have marked := fair.amend id (f := ({ · with error := .text "Execution task was cancelled" }))
      fun _ _ sane => ⟨sane.started, sane.mode, sane.untouched⟩
    exact marked.trans (marked.fair.finish id _ fun calm => absurd harsh calm).2
  · exact fair.spares_refl

theorem retire (fair : c.Fair w) (e : Engine σ) (id : String) : c.Spares w (e.retire id w) := by
  unfold Engine.retire
  split
  · refine Climate.Keeps.spares (fair.keeps rfl (fun other x found => ?_)
      (List.forall_mem_cons.mpr ⟨trivial, fair.journal⟩)) (Ledger.admitted_retire ..) fun _ => List.mem_cons_of_mem _
    rw [World.note, Ledger.record?_retire] at found
    exact fair.records other x found
  · exact fair.spares_refl

theorem withdraw (fair : c.Fair w) (harsh : c.harsh) (e : Engine σ) (id : String) :
    c.Spares w (e.withdraw id w).2 := by
  unfold Engine.withdraw
  split
  · have marked := fair.amend id (f := ({ · with cancelRequested := true }))
      fun _ _ sane => ⟨sane.started, sane.mode, fun calm => absurd harsh calm⟩
    obtain ⟨told, ended⟩ := marked.fair.finish id .cancelled fun calm => absurd harsh calm
    split
    · next failed => exact nomatch told.symm.trans (congrArg Prod.fst failed)
    · next w₁ finished =>
      rw [finished] at ended
      have retired := ended.fair.retire e id
      have released : c.Spares (e.retire id w₁) ((e.retire id w₁).releaseGate id (.text "Execution cancelled")).1 := by
        have stirs := World.releaseGate_stirs (w := e.retire id w₁) retired.fair.orderly id (.text "Execution cancelled")
        exact retired.fair.spares_agenda (stirs.agenda.stands (World.releaseGate_retains _ _ _))
          (fun calm => absurd harsh calm) stirs.ledger stirs.journal
      exact marked.trans (ended.trans (retired.trans (released.trans
        (released.fair.spares_note rfl rfl rfl trivial))))
  · exact fair.spares_refl

theorem boundary (fair : c.Fair w) (id : String) (index : Nat) : c.Spares w (Engine.boundary id index w).2 := by
  unfold Engine.boundary
  simp only
  split
  · exact fair.spares_refl
  · split
    · exact fair.spares_refl
    · exact fair.spares_note rfl rfl rfl trivial
    · split
      · exact fair.spares_refl
      · next execution advanced =>
        refine fair.amend id fun x found sane => ?_
        rw [found] at advanced
        unfold Execution.advance at advanced
        split at advanced
        · cases advanced
        · cases advanced
          exact ⟨sane.started, sane.mode, sane.untouched⟩

theorem recordResult (fair : c.Fair w) (id : String) (index : Nat) (result : StepResult) :
    c.Spares w (Engine.recordResult id index result w).2 := by
  unfold Engine.recordResult
  split
  · exact fair.spares_refl
  · refine fair.amend id fun x _ sane => ?_
    unfold Engine.absorb
    cases result.status <;> exact ⟨sane.started, sane.mode, sane.untouched⟩

/-- Either an execution is admitted, or none is. -/
theorem enroll (fair : c.Fair w) (modes : ∀ memory mode, (e.currentMode memory).1 = .ok mode → c.Modes mode)
    (workflow : Workflow) (options : Options) :
    (∃ fault, (e.enroll workflow options w).1 = .error fault ∧ c.Spares w (e.enroll workflow options w).2) ∨
      ∃ id, (e.enroll workflow options w).1 = .ok id ∧ c.Keeps w (e.enroll workflow options w).2 ∧
        ∀ other, (e.enroll workflow options w).2.Unbegun other → w.Unbegun other ∨ other = id := by
  unfold Engine.enroll
  split
  · exact .inl ⟨_, rfl, fair.spares_refl⟩
  · exact .inl ⟨_, rfl, fair.spares_refl⟩
  split
  · exact .inl ⟨_, rfl, fair.spares_aside rfl rfl rfl⟩
  next mode memory current =>
  simp only
  split
  · exact .inl ⟨_, rfl, Climate.Keeps.spares (fair.keeps rfl fair.records fair.journal) rfl fun _ told => told⟩
  refine .inr ⟨_, rfl, fair.keeps rfl (fun other x found => ?_)
    (List.forall_mem_cons.mpr ⟨trivial, fair.journal⟩), ?_⟩
  · rw [World.note, Ledger.record?, Ledger.enroll, List.find?_append, Option.map_or, Option.or_eq_some_iff] at found
    rcases found with before | ⟨_, new⟩
    · exact fair.records other x before
    · obtain ⟨⟨key, x'⟩, member, rfl⟩ := Option.map_eq_some_iff.mp new
      cases List.mem_singleton.mp (List.mem_of_find?_eq_some member)
      exact ⟨fair.moment, modes w.memory mode (congrArg Prod.fst current), fun _ => ⟨rfl, by rintro ⟨⟩⟩⟩
  · rintro other ⟨recorded, unbegun⟩
    rw [World.note, World.Recorded, Ledger.admitted, Ledger.enroll, List.map_append, List.mem_append] at recorded
    refine recorded.imp (fun recorded => ⟨recorded, ?_⟩) List.mem_singleton.mp
    rintro ⟨record, told⟩
    exact unbegun ⟨record, List.mem_cons_of_mem _ told⟩

/-- A task is entered in the table of background tasks. -/
theorem keep (fair : c.Fair w) (id : String) (task : TaskId) : c.Spares w (Engine.keep id task w) :=
  fair.spares_agenda (fair.orderly.stands_watch task id)
    (fun _ => w.agenda.soothes_watch (by simp) fun _ same => nomatch same) rfl rfl

theorem openLatch (fair : c.Fair w) (key : Value) : c.Spares w (w.openLatch key) := by
  have stirs := World.openLatch_stirs fair.orderly key
  exact fair.spares_agenda (stirs.agenda.stands (w.openLatch_retains key)) (fun _ => w.openLatch_soothes key)
    stirs.ledger stirs.journal

theorem acknowledge (fair : c.Fair w) (id : String) (decision : Decision) (token : Value) :
    c.Spares w (Engine.acknowledge id decision token w).2 := by
  unfold Engine.acknowledge
  split
  · change c.Spares w (w.acknowledge id decision token).1
    unfold World.acknowledge
    split
    · next r _ =>
      have stirs := World.settle_stirs fair.orderly r.token (.decided decision)
      exact fair.spares_agenda (stirs.agenda.stands (w.settle_retains r.token _))
        (fun _ => w.decide_soothes r.token decision) stirs.ledger stirs.journal
    · exact fair.spares_refl
  · exact fair.spares_refl

end Climate.Fair

/-! ## The driver -/

theorem announcing_meets {event : Event} {change : World σ → Except Fault Bool × World σ}
    (spares : ∀ w, c.Fair w → c.Spares w (change w).2) : (announcing event change).Meets c c.Bears := by
  have announced : (Routine.update (World.announced event change)).Meets c fun _ => True := by
    refine .update fun w fair => ⟨?_, trivial⟩
    have changed := spares w fair
    unfold World.announced
    split
    · next made =>
      rw [made] at changed
      exact changed
    · next made =>
      rw [made] at changed
      exact changed
    · next w₁ made =>
      rw [made] at changed
      exact changed.trans (changed.fair.spares_note rfl rfl rfl trivial)
  refine .lift_bind announced fun verdict _ => .ofExcept_bind (fun callbacks _ => ?_) fun _ _ _ same => nomatch same
  cases callbacks with
  | none => exact .pure fun _ same => nomatch same
  | some callbacks =>
    exact .bind (deliver_meets event callbacks) (fun _ _ => .pure fun _ same => nomatch same)
      fun _ done => done.bears.error

namespace Engine

/-- Executions are admitted in the modes of a climate, and their steps come to what it tells of them. -/
structure Interprets (e : Engine σ) (c : Climate) : Prop where
  modes : ∀ memory mode, (e.currentMode memory).1 = .ok mode → c.Modes mode
  steps : ∀ id step context, ((e.interpreter id).interpret step context).Meets c fun outcome =>
    c.Tells step context outcome ∧ c.Bears outcome

variable (interprets : e.Interprets c)

include interprets

theorem runStep_meets (id : String) (step : Step) (index : Nat) : (e.runStep id step index).Meets c c.Bears := by
  have found : (Routine.look fun w : World σ => record w id).Meets c fun _ => True := .look fun _ _ => trivial
  refine .lift_bind found fun x _ => ?_
  split
  · exact .pure (Weather.bears_ok _)
  · exact .pure (Weather.bears_ok _)
  · refine .lift_bind (note_meets trivial) fun _ _ => .lift_bind (interprets.steps id step (x.context index)) ?_
    rintro outcome ⟨tells, bears⟩
    refine .lift_bind (note_meets tells) fun _ _ => ?_
    split
    · exact .pure (Weather.bears_ok _)
    · exact .pure (Weather.bears_ok _)
    · exact .throw bears

theorem runSteps_meets (id : String) (index : Nat) (steps : List Step) :
    (e.runSteps id index steps).Meets c c.Bears := by
  induction steps generalizing index with
  | nil => exact .pure (Weather.bears_ok ())
  | cons step rest ih =>
    rw [runSteps]
    have checked : (Routine.update (boundary id index) : Routine σ (Except Fault Bool)).Meets c fun _ => True :=
      .update fun w fair => ⟨fair.boundary id index, trivial⟩
    refine .lift_bind checked fun verdict _ => .ofExcept_bind (fun goes _ => ?_) fun fault _ =>
      Weather.bears_fault fault
    split
    · refine .bind (announce_meets _) (fun _ _ => ?_) fun _ done => done.bears
      refine .bind (runStep_meets interprets id step index) (fun result _ => ?_) fun _ bears => bears.error
      have recorded : (Routine.update (recordResult id index result) : Routine σ Bool).Meets c fun _ => True :=
        .update fun w fair => ⟨fair.recordResult id index result, trivial⟩
      refine .lift_bind recorded fun kept _ => ?_
      split
      · refine .bind (announce_meets _) (fun _ _ => ?_) fun _ done => done.bears
        split
        · exact ih (index + 1)
        · exact .pure (Weather.bears_ok ())
      · exact .pure (Weather.bears_ok ())
    · exact .pure (Weather.bears_ok ())

/-- The execution that a task has charge of is begun and driven to its end, and in a mild climate no cancellation
comes between. -/
theorem drive_honours (workflow : Workflow) (charge : b.charge = some id) (free : { b with charge := none }.Free) :
    (ExceptT.run (e.drive workflow id)).Honours c t b fun outcome b' =>
      b' = { b with charge := none } ∧ c.Bears outcome := by
  have announced : (ExceptT.run (announce (.started id) : Attempt σ Unit)).Honours c t b fun outcome b' =>
      b' = { b with charge := none } ∧ c.Done outcome := by
    refine Attempt.honours_lift_bind (Q := fun _ b' => b' = { b with charge := none }) ?_ ?_
    · exact fun w fair _ => ⟨_, .begins id charge (fair.spares_note rfl rfl rfl trivial)
        fun unbegun => unbegun.2 ⟨_, List.mem_cons_self⟩, rfl⟩
    · rintro callbacks _ rfl
      exact deliver_meets _ callbacks t _ free
  have course : (ExceptT.run (do
      announce (.started id)
      e.runSteps id 0 workflow.steps
      let _ ← announcing (.completed id) (conclude id) : Attempt σ Unit)).Honours c t b fun outcome b' =>
        b' = { b with charge := none } ∧ c.Bears outcome := by
    refine Attempt.honours_bind announced ?_ fun _ _ known => ⟨known.1, known.2.bears⟩
    rintro _ _ ⟨rfl, _⟩
    have rest : (do
        e.runSteps id 0 workflow.steps
        let _ ← announcing (.completed id) (conclude id) : Attempt σ Unit).Meets c c.Bears := by
      refine .bind (runSteps_meets interprets id 0 workflow.steps) (fun _ _ => ?_) fun _ bears => bears
      exact .bind (announcing_meets fun w fair => fair.conclude id) (fun _ _ => .pure (Weather.bears_ok ()))
        fun _ bears => bears.error
    exact rest t _ free
  unfold drive
  refine Routine.Honours.bind (Q := fun outcome b' => b' = { b with charge := none } ∧ c.Bears outcome) ?_ ?_
  · rw [Attempt.run_tryCatch]
    refine course.bind ?_
    rintro ((fault | message) | _) _ ⟨rfl, bears⟩
    · have aborted : (do let _ ← announcing (.failed id) (abort id fault) : Attempt σ Unit).Meets c c.Bears :=
        .bind (announcing_meets fun w fair => fair.abort id fault) (fun _ _ => .pure (Weather.bears_ok ()))
          fun _ bears => bears.error
      exact aborted t _ free
    · have harsh := bears message rfl
      have interrupted : (Routine.update (interrupt id) : Routine σ (Except Fault Unit)).Meets c fun _ => True :=
        .update fun w fair => ⟨fair.interrupt harsh id, trivial⟩
      have handled : (do
          Attempt.ofExcept (← Attempt.lift (.update (interrupt id)))
          throw (.cancelled message) : Attempt σ Unit).Meets c c.Bears :=
        .lift_bind interrupted fun verdict _ => .ofExcept_bind (fun _ _ => .throw fun _ _ => harsh)
          fun fault _ => Weather.bears_fault fault
      exact handled t _ free
    · exact ⟨rfl, bears⟩
  · rintro outcome _ ⟨rfl, bears⟩
    have retired : (Routine.change (e.retire id)).Meets c fun _ => True := .change fun w fair => fair.retire e id
    exact (retired.bind fun _ _ => .done bears) t _ free

/-- Whoever submits a workflow has charge of the execution that was admitted, if one was. -/
theorem submit_honours (workflow options : Value) (free : b.Free) :
    (ExceptT.run (e.submit workflow options)).Honours c t b fun outcome b' =>
      (∃ fault, outcome = .error (.fault fault) ∧ b' = b) ∨
        ∃ workflow id, outcome = .ok (workflow, id) ∧ b' = { b with charge := some id } := by
  have read : (Routine.update (readWorkflow workflow) : Routine σ (Except Fault Workflow)).Meets c fun _ => True :=
    .update fun w fair => ⟨fair.spares_aside rfl rfl rfl, trivial⟩
  refine Attempt.honours_lift_bind (read t b free) ?_
  rintro (fault | workflow) b' ⟨same, _⟩
  · exact .inl ⟨fault, rfl, same⟩
  obtain rfl : b = b' := same.symm
  cases chosen : Options.read options with
  | error fault => exact .inl ⟨fault, rfl, rfl⟩
  | ok options =>
    refine Attempt.honours_lift_bind (Q := fun verdict b' => (∃ fault, verdict = .error fault ∧ b' = b) ∨
      ∃ id, verdict = .ok id ∧ b' = { b with charge := some id }) ?_ ?_
    · intro w fair _
      rcases fair.enroll interprets.modes workflow options with ⟨fault, refused, spares⟩ | ⟨id, admitted, keeps, only⟩
      · exact ⟨b, .spares spares, .inl ⟨fault, refused, rfl⟩⟩
      · exact ⟨_, .admits id free.charge keeps only, .inr ⟨id, admitted, rfl⟩⟩
    · rintro _ _ (⟨fault, rfl, rfl⟩ | ⟨id, rfl, rfl⟩)
      · exact .inl ⟨fault, rfl, rfl⟩
      · exact .inr ⟨workflow, id, rfl, rfl⟩

theorem execute_meets (workflow options : Value) : (e.execute workflow options).Meets c c.Bears := by
  intro t b free
  refine Attempt.honours_bind (submit_honours interprets workflow options free) ?_ ?_
  · rintro admitted _ (⟨_, same, _⟩ | ⟨workflow, id, same, rfl⟩)
    · cases same
    · cases same
      refine Attempt.honours_bind (drive_honours interprets workflow rfl (free.discharged.symm ▸ free)) ?_ ?_
      · rintro _ _ ⟨rfl, _⟩
        exact ⟨free.discharged, Weather.bears_ok _⟩
      · rintro interrupt _ ⟨rfl, bears⟩
        exact ⟨free.discharged, bears.error⟩
  · rintro interrupt _ (⟨fault, same, rfl⟩ | ⟨_, _, same, _⟩)
    · cases same
      exact ⟨rfl, Weather.bears_fault fault⟩
    · cases same

/-- Whoever starts a workflow has its driver take charge of the execution. -/
theorem start_meets (workflow options : Value) : (e.start workflow options).Meets c c.Bears := by
  intro t b free
  refine Attempt.honours_bind (submit_honours interprets workflow options free) ?_ ?_
  · rintro admitted _ (⟨_, same, _⟩ | ⟨workflow, id, same, rfl⟩)
    · cases same
    · cases same
      refine Attempt.honours_lift_bind (Q := fun _ b' => b' = b) ?_ ?_
      · refine fun child => ⟨_, _, .driver id rfl, ?_, free.discharged⟩
        refine (drive_honours interprets workflow rfl ⟨rfl, rfl, rfl⟩).bind ?_
        rintro _ _ ⟨rfl, _⟩
        exact .inr ⟨rfl, rfl⟩
      · rintro task _ rfl
        have kept : (do
            Attempt.lift (.change (keep id task))
            return id : Attempt σ String).Meets c c.Bears :=
          .lift_bind (.change fun w fair => fair.keep id task) fun _ _ => .pure (Weather.bears_ok _)
        exact kept t _ free
  · rintro interrupt _ (⟨fault, same, rfl⟩ | ⟨_, _, same, _⟩)
    · cases same
      exact ⟨rfl, Weather.bears_fault fault⟩
    · cases same

end Engine

/-! ## Those around the engine -/

/-- Nobody is to be cancelled. -/
def Ask.Mild {β : Type} : Ask σ β → Prop
  | .cancel _ => False
  | _ => True

/-- The script never asks for a cancellation. -/
def Script.Mild {α : Type} : Script σ α → Prop
  | .done _ => True
  | .ask question k => question.Mild ∧ ∀ b, (k b).Mild

/-- What a question can bring. In a mild climate no wait is broken off, and nothing that is begun is cancelled. -/
def Ask.Brings (harsh : Prop) {β : Type} : Ask σ β → β → Prop
  | .pause _, wake => ¬harsh → wake = .ready
  | .pass _, wake => ¬harsh → wake = .ready
  | .start _ _, answer => ∀ message, answer = .error (.cancelled message) → harsh
  | _, _ => True

/-- The script can end with a value, whatever its questions bring. -/
def Script.Returns (harsh : Prop) {α : Type} : Script σ α → α → Prop
  | .done a, r => r = a
  | .ask question k, r => ∃ b, question.Brings harsh b ∧ (k b).Returns harsh r

/-- What the tools and observers answer is what the climate has, and in a mild one they ask for no cancellation. -/
structure Host.Suits (host : Host σ) (c : Climate) : Prop where
  tool : ∀ name parameters, (c.harsh ∨ (host.tool name parameters).Mild) ∧
    ∀ r, (host.tool name parameters).Returns c.harsh r → c.Answers (.tool name parameters) r
  observer : ∀ callback event, (c.harsh ∨ (host.observer callback event).Mild) ∧
    ∀ r, (host.observer callback event).Returns c.harsh r → c.Answers (.observer callback event) (r.map fun _ => .null)

namespace Host

variable (interprets : e.Interprets c)

include interprets

theorem answer_meets {β : Type} (question : Ask σ β) (mild : c.harsh ∨ question.Mild) :
    (answer e question).Meets c (question.Brings c.harsh) := by
  cases question with
  | remember f => exact .update fun w fair => ⟨fair.spares_aside rfl rfl rfl, trivial⟩
  | pause seconds => exact .await (by simp) (by simp)
  | pass key => exact .await (by simp) (by simp)
  | openLatch key => exact .change fun w fair => fair.openLatch key
  | cancel id =>
    have harsh : c.harsh := mild.resolve_right fun none => none
    exact (announcing_meets fun w fair => fair.withdraw harsh e id).mono fun _ _ => trivial
  | start workflow options => exact Engine.start_meets interprets workflow options
  | acknowledge id decision token =>
    refine .bind (.create fun _ => .change fun w fair => ?_) fun _ _ => .done trivial
    exact fair.acknowledge id decision token
  | assign id bindings =>
    exact .change fun w fair => fair.amend id fun _ _ sane => ⟨sane.started, sane.mode, sane.untouched⟩
  | subscribe kind callback => exact .change fun w fair => fair.spares_aside rfl rfl rfl
  | unsubscribe kind callback => exact .update fun w fair => ⟨fair.spares_aside rfl rfl rfl, trivial⟩

theorem follow_meets {α : Type} {script : Script σ α} {Q : α → Prop} (mild : c.harsh ∨ script.Mild)
    (returns : ∀ a, script.Returns c.harsh a → Q a) : (follow e script).Meets c Q := by
  induction script with
  | done a => exact .done (returns a rfl)
  | ask question k ih =>
    rw [follow]
    refine (answer_meets interprets question (mild.imp_right And.left)).bind fun b brings => ?_
    exact ih b (mild.imp_right fun mild => mild.2 b) fun a returned => returns a ⟨b, brings, returned⟩

/-- Errands are answered as the climate has it. -/
theorem service_meets {host : Host σ} (suits : host.Suits c) (errand : Errand) :
    (host.service e errand).Meets c (c.Answers errand) := by
  cases errand with
  | tool name parameters =>
    have suited := suits.tool name parameters
    exact follow_meets interprets suited.1 suited.2
  | observer callback event =>
    have suited := suits.observer callback event
    exact (follow_meets interprets suited.1 suited.2).bind fun _ answers => .done answers

end Host

/-- Callers ask the engine for one thing after another. In a mild climate they ask for no cancellation. -/
inductive Caller (e : Engine σ) (harsh : Prop) : Routine σ Unit → Prop
  | leave : Caller e harsh (.done ())
  | look {α : Type} (f : World σ → α) (k : α → Routine σ Unit) (rest : ∀ a, Caller e harsh (k a)) :
      Caller e harsh ((Routine.look f).bind k)
  | ask {β : Type} (question : Ask σ β) (k : β → Routine σ Unit) (mild : harsh ∨ question.Mild)
      (rest : ∀ b, Caller e harsh (k b)) : Caller e harsh ((Host.answer e question).bind k)
  | execute (workflow options : Value) (k : Except Interrupt String → Routine σ Unit)
      (rest : ∀ r, Caller e harsh (k r)) : Caller e harsh ((ExceptT.run (e.execute workflow options)).bind k)
  | clearHistory (k : Unit → Routine σ Unit) (rest : ∀ a, Caller e harsh (k a)) :
      Caller e harsh ((Routine.change Engine.clearHistory).bind k)

theorem Caller.meets (interprets : e.Interprets c) {p : Routine σ Unit} (caller : Caller e c.harsh p) :
    p.Meets c fun _ => True := by
  induction caller with
  | leave => exact .done trivial
  | look f k _ ih =>
    have looked : (Routine.look f).Meets c fun _ => True := .look fun _ _ => trivial
    exact looked.bind fun a _ => ih a
  | ask question k mild _ ih => exact (Host.answer_meets interprets question mild).bind fun b _ => ih b
  | execute workflow options k _ ih =>
    exact Routine.Meets.bind (Engine.execute_meets interprets workflow options) fun r _ => ih r
  | clearHistory k _ ih =>
    refine .bind (.change fun w fair => ?_) fun a _ => ih a
    exact Climate.Keeps.spares (fair.keeps rfl fair.records (List.forall_mem_cons.mpr ⟨trivial, fair.journal⟩)) rfl
      fun _ => List.mem_cons_of_mem _

end Runbook
