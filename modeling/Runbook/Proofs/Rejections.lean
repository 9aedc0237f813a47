import Runbook.Proofs.Capacity
import Runbook.Proofs.Yield

/-! # Rejected submissions

A submission has to be read, its options have to be read, there has to be room for it, somebody has to tell
the mode, and its variables have to be a table. The first of all this that is not so decides, before anybody
else has a turn, and nothing comes of the submission: no execution, no task, and no event.
-/

namespace Runbook

open Machine

variable {σ α β : Type} {e : Engine σ} {host : Host σ} {m m' : Machine σ} {w w' : World σ} {task : TaskId}
  {workflow options : Value} {definition : Workflow} {settings : Options} {fault : Fault}

/-- Nothing has happened to a world but that numbers have been drawn and the memory around the engine has been
used. -/
def World.Intact (w w' : World σ) : Prop :=
  w' = { w with memory := w'.memory, workflowIds := w'.workflowIds
                ledger := { w.ledger with generated := w'.ledger.generated } }

namespace Attempt

/-- What comes after a fault that is met at once does not count. -/
theorem ahead_bind_error {p : Attempt σ α} {interrupt : Interrupt} (f : α → Attempt σ β)
    (first : (ExceptT.run p).ahead w = (.done (.error interrupt), w')) :
    (ExceptT.run (p >>= f)).ahead w = (.done (.error interrupt), w') := by
  rw [run_bind]
  exact Routine.ahead_bind _ first

end Attempt

namespace Engine

/-- Why an engine does not admit an execution with such options. -/
inductive Refuses (e : Engine σ) (settings : Options) (w : World σ) : Fault → Prop
  | incomparable {fault : Fault}
      (unclear : (Value.int w.ledger.active.length).reaches e.config.maxConcurrent = .error fault) :
      Refuses e settings w fault
  | full (full : (Value.int w.ledger.active.length).reaches e.config.maxConcurrent = .ok true) :
      Refuses e settings w (.atCapacity e.config.maxConcurrent)
  | mode {fault : Fault} (room : (Value.int w.ledger.active.length).reaches e.config.maxConcurrent = .ok false)
      (untold : (e.currentMode w.memory).1 = .error fault) : Refuses e settings w fault
  | scope {fault : Fault} {mode : Value}
      (room : (Value.int w.ledger.active.length).reaches e.config.maxConcurrent = .ok false)
      (told : (e.currentMode w.memory).1 = .ok mode)
      (unfit : (settings.scope.orElse (.dict [])).mapping = .error fault) : Refuses e settings w fault

/-- Why nothing comes of a submission. -/
inductive Rejects (e : Engine σ) (workflow options : Value) (w : World σ) : Fault → Prop
  | malformed {fault : Fault} (unread : (Workflow.read w.workflowIds workflow).1 = .error fault) :
      Rejects e workflow options w fault
  | options {fault : Fault} {definition : Workflow}
      (reads : (Workflow.read w.workflowIds workflow).1 = .ok definition)
      (unread : Options.read options = .error fault) : Rejects e workflow options w fault
  | refused {fault : Fault} {definition : Workflow} {settings : Options}
      (reads : (Workflow.read w.workflowIds workflow).1 = .ok definition)
      (chooses : Options.read options = .ok settings) (refuses : e.Refuses settings w fault) :
      Rejects e workflow options w fault

/-- What becomes of a submission. -/
def submission (e : Engine σ) (workflow options : Value) (w : World σ) :
    Except Fault (Workflow × String) × World σ :=
  match readWorkflow workflow w with
  | (.error fault, w) => (.error fault, w)
  | (.ok definition, w) =>
    match Options.read options with
    | .error fault => (.error fault, w)
    | .ok settings =>
      match e.enroll definition settings w with
      | (.error fault, w) => (.error fault, w)
      | (.ok id, w) => (.ok (definition, id), w)

/-- A submission gets to its end by itself. -/
theorem submit_alone (e : Engine σ) (workflow options : Value) (w : World σ) :
    (ExceptT.run (e.submit workflow options)).ahead w =
      (.done ((e.submission workflow options w).1.mapError .fault), (e.submission workflow options w).2) := by
  rw [submit, Attempt.ahead_update_bind, submission]
  obtain ⟨outcome, w₁⟩ := readWorkflow workflow w
  cases outcome with
  | error fault => rfl
  | ok definition =>
    simp only
    cases Options.read options with
    | error fault => rfl
    | ok settings =>
      change Routine.ahead (Routine.act _ _) _ = _
      rw [Routine.ahead]
      simp only
      rcases e.enroll definition settings w₁ with ⟨fault | id, w₂⟩ <;> rfl

/-- Either there is a reason to refuse an admission, and everything is as it was, or the execution is admitted. -/
theorem enroll_spec (e : Engine σ) (definition : Workflow) (settings : Options) (w : World σ) :
    (∃ fault, (e.enroll definition settings w).1 = .error fault ∧ e.Refuses settings w fault ∧
      w.Intact (e.enroll definition settings w).2) ∨
    ∃ id, (e.enroll definition settings w).1 = .ok id ∧
      (e.enroll definition settings w).2.ledger.isActive id = true ∧
      (e.enroll definition settings w).2.journal = .admitted id definition settings :: w.journal := by
  unfold enroll
  split
  · next unclear => exact .inl ⟨_, rfl, .incomparable unclear, rfl⟩
  · next full => exact .inl ⟨_, rfl, .full full, rfl⟩
  next room =>
  split
  · next untold => exact .inl ⟨_, rfl, .mode room (by rw [untold]), rfl⟩
  next told =>
  simp only
  split
  · next unfit => exact .inl ⟨_, rfl, .scope room (by rw [told]) unfit, rfl⟩
  · exact .inr ⟨_, rfl, Ledger.isActive_enroll_self .., rfl⟩

theorem enroll_of_refuses (definition : Workflow) (refuses : e.Refuses settings w fault) :
    (e.enroll definition settings w).1 = .error fault := by
  unfold enroll
  cases refuses with
  | incomparable unclear => rw [unclear]
  | full full => rw [full]
  | mode room untold =>
    rw [room]
    rcases told : e.currentMode w.memory with ⟨outcome, memory⟩
    obtain rfl : outcome = .error fault := by rwa [told] at untold
    rfl
  | scope room told unfit =>
    rw [room]
    rcases tells : e.currentMode w.memory with ⟨outcome, memory⟩
    obtain rfl : outcome = .ok _ := by rwa [tells] at told
    simp only [unfit]

/-- How many workflows have been numbered does not matter for an admission. -/
theorem refuses_numbered (n : Nat) :
    e.Refuses settings { w with workflowIds := n } fault ↔ e.Refuses settings w fault := by
  constructor <;> intro refuses <;> cases refuses with
  | incomparable unclear => exact .incomparable unclear
  | full full => exact .full full
  | mode room untold => exact .mode room untold
  | scope room told unfit => exact .scope room told unfit

/-- Either there is a reason to reject a submission, and everything is as it was, or its execution is admitted. -/
theorem submission_spec (e : Engine σ) (workflow options : Value) (w : World σ) :
    (∃ fault, (e.submission workflow options w).1 = .error fault ∧ e.Rejects workflow options w fault ∧
      w.Intact (e.submission workflow options w).2) ∨
    ∃ definition id settings, (e.submission workflow options w).1 = .ok (definition, id) ∧
      (e.submission workflow options w).2.ledger.isActive id = true ∧
      (e.submission workflow options w).2.journal = .admitted id definition settings :: w.journal := by
  unfold submission
  split
  · next fault w₁ unread =>
    obtain ⟨n, rfl⟩ : ∃ n, w₁ = { w with workflowIds := n } := ⟨_, (congrArg Prod.snd unread).symm⟩
    exact .inl ⟨fault, rfl, .malformed (congrArg Prod.fst unread), rfl⟩
  next definition w₁ read =>
  have reads : (Workflow.read w.workflowIds workflow).1 = .ok definition := congrArg Prod.fst read
  obtain ⟨n, rfl⟩ : ∃ n, w₁ = { w with workflowIds := n } := ⟨_, (congrArg Prod.snd read).symm⟩
  split
  · next unread => exact .inl ⟨_, rfl, .options reads unread, rfl⟩
  next settings chooses =>
  have admission := e.enroll_spec definition settings { w with workflowIds := n }
  split
  · next refused =>
    rw [refused] at admission
    obtain ⟨fault, same, refuses, intact⟩ | ⟨_, same, _⟩ := admission
    · cases same
      exact .inl ⟨_, rfl, .refused reads chooses ((refuses_numbered n).mp refuses), intact⟩
    · cases same
  · next id w₂ admitted =>
    rw [admitted] at admission
    obtain ⟨_, same, _⟩ | ⟨_, same, active, told⟩ := admission
    · cases same
    · cases same
      exact .inr ⟨definition, id, settings, rfl, active, told⟩

theorem submission_of_rejects (rejects : e.Rejects workflow options w fault) :
    (e.submission workflow options w).1 = .error fault := by
  rcases read : readWorkflow workflow w with ⟨outcome, w₁⟩
  have reads : (Workflow.read w.workflowIds workflow).1 = outcome := congrArg Prod.fst read
  obtain ⟨n, rfl⟩ : ∃ n, w₁ = { w with workflowIds := n } := ⟨_, (congrArg Prod.snd read).symm⟩
  rw [submission, read]
  cases rejects with
  | malformed unread =>
    obtain rfl := reads.symm.trans unread
    rfl
  | options known unread =>
    obtain rfl := reads.symm.trans known
    simp only [unread]
  | @refused definition settings known chooses refuses =>
    obtain rfl := reads.symm.trans known
    have refused := enroll_of_refuses definition ((refuses_numbered n).mpr refuses)
    simp only [chooses]
    rcases admission : e.enroll definition settings { w with workflowIds := n } with ⟨outcome, w₂⟩
    obtain rfl : outcome = .error fault := by rwa [admission] at refused
    rfl

theorem submission_intact (failed : (e.submission workflow options w).1 = .error fault) :
    w.Intact (e.submission workflow options w).2 := by
  rcases e.submission_spec workflow options w with ⟨_, _, _, intact⟩ | ⟨_, _, _, done, _⟩
  · exact intact
  · cases failed.symm.trans done

/-- The calls by which a workflow is submitted: to run it to its end, or in the background. -/
def Submits (e : Engine σ) (workflow options : Value) (call : Routine σ (Except Interrupt String)) : Prop :=
  call = ExceptT.run (e.execute workflow options) ∨ call = ExceptT.run (e.start workflow options)

/-- Such a call ends in the fault of a submission that fails. -/
theorem Submits.alone {call : Routine σ (Except Interrupt String)} (submits : e.Submits workflow options call)
    (failed : (e.submission workflow options w).1 = .error fault) :
    call.ahead w = (.done (.error (.fault fault)), (e.submission workflow options w).2) := by
  have first : (ExceptT.run (e.submit workflow options)).ahead w =
      (.done (.error (.fault fault)), (e.submission workflow options w).2) := by
    rw [submit_alone, failed]
    rfl
  rcases submits with rfl | rfl
  · exact Attempt.ahead_bind_error _ first
  · exact Attempt.ahead_bind_error _ first

end Engine

/-- A submission is rejected if and only if there is a reason for it, and otherwise its execution is admitted.
A call with a rejected one returns its fault before anybody else has a turn, so that nobody is told of anything,
and leaves the books, the gate, the tasks and the journal as they were, from whatever machine it is made. -/
theorem rejection_changes_nothing (e : Engine σ) (host : Host σ) (workflow options : Value) :
    (∀ w, (∃ fault, e.Rejects workflow options w fault) ∨
      ∃ definition id settings w', (ExceptT.run (e.submit workflow options)).ahead w =
          (.done (.ok (definition, id)), w') ∧
        w'.ledger.isActive id = true ∧ w'.journal = .admitted id definition settings :: w.journal) ∧
    ∀ (m : Machine σ) (task : TaskId) (call : Routine σ (Except Interrupt String))
      (rest : Except Interrupt String → Routine σ Unit) (fault : Fault),
      e.Submits workflow options call → m.running = some (task, call.bind rest) →
      e.Rejects workflow options m.world fault →
      ∃ w', m.world.Intact w' ∧ call.ahead m.world = (.done (.error (.fault fault)), w') ∧
        (∃ m', m.Returns e host task call m' (.error (.fault fault))) ∧
        ∀ m' outcome, m.Returns e host task call m' outcome →
          outcome = .error (.fault fault) ∧ m'.world = w' ∧ m'.parked = m.parked := by
  constructor
  · intro w
    rcases e.submission_spec workflow options w with ⟨fault, _, rejects, _⟩ | ⟨definition, id, settings, done, told⟩
    · exact .inl ⟨fault, rejects⟩
    · refine .inr ⟨definition, id, settings, _, ?_, told⟩
      rw [Engine.submit_alone, done]
      rfl
  · intro m task call rest fault submits runs rejects
    have failed := Engine.submission_of_rejects rejects
    have alone := submits.alone failed
    exact ⟨_, Engine.submission_intact failed, alone, ⟨_, returns_of_ahead runs alone⟩,
      fun m' outcome ⟨_, _, completes⟩ => completes.of_ahead alone⟩

/-- A visitor who wants another workflow executed. -/
def crowd (_ : TaskId) : Routine Unit Unit :=
  (ExceptT.run (narrowEngine.execute emptyWorkflow .null)).bind fun _ => .done ()

/-- The narrow engine while its only execution pauses, with the visitor about to submit the other workflow. -/
def crowdedPause : Machine Unit := (narrowPause.launch crowd).1.settle (idleHost.service narrowEngine) 1

theorem crowdedPause_running :
    crowdedPause.running = some (narrowPause.world.agenda.created, crowd narrowPause.world.agenda.created) :=
  running_of_quiet crowd (by decide +kernel)

/-- There is no room for the other workflow, and the execution that pauses is active as before. -/
theorem crowded_submission_rejected : ∃ w' m', crowdedPause.world.Intact w' ∧
    crowdedPause.Returns narrowEngine idleHost narrowPause.world.agenda.created
      (ExceptT.run (narrowEngine.execute emptyWorkflow .null)) m' (.error (.fault (.atCapacity (.int 1)))) ∧
    m'.world = w' ∧ m'.world.ledger.active = [Engine.executionId 1] := by
  obtain ⟨definition, reads⟩ : ∃ definition,
      (Workflow.read crowdedPause.world.workflowIds emptyWorkflow).1 = .ok definition := by
    have readable : (Workflow.read crowdedPause.world.workflowIds emptyWorkflow).1.isOk = true := by decide +kernel
    cases outcome : (Workflow.read crowdedPause.world.workflowIds emptyWorkflow).1 with
    | error fault =>
      rw [outcome] at readable
      cases readable
    | ok definition => exact ⟨definition, rfl⟩
  have counted : crowdedPause.world.ledger.active = [Engine.executionId 1] := by decide +kernel
  have refuses : narrowEngine.Refuses {} crowdedPause.world (.atCapacity (.int 1)) := by
    refine .full ?_
    rw [counted]
    rfl
  obtain ⟨w', intact, _, ⟨m', returns⟩, only⟩ := (rejection_changes_nothing narrowEngine idleHost emptyWorkflow
    .null).2 crowdedPause _ _ _ _ (.inl rfl) crowdedPause_running (.refused reads rfl refuses)
  obtain ⟨_, rfl, _⟩ := only m' _ returns
  refine ⟨_, m', intact, returns, rfl, ?_⟩
  rw [intact]
  exact counted

end Runbook
