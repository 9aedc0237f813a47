import Runbook.Proofs.Calls
import Runbook.Proofs.Fate
import Runbook.Proofs.Finality

/-! # What a shutdown comes to

A shutdown cancels the tasks that run executions in the background, and waits until they have ended. A task
that has begun retires its execution on the way out. One that was cancelled before its first turn does
nothing at all: its execution is left active, and nobody is there any more to run it.
-/

namespace Runbook

open Machine

variable {σ : Type} {e : Engine σ} {host : Host σ} {m m' : Machine σ} {roster roster' : Roster}
  {w w' : World σ} {d d' : Duty} {task : TaskId} {tasks : List TaskId} {id : String}

/-! ## Executions that are left to tasks -/

/-- Nobody answers for the execution but one of the tasks, if anybody does at all. -/
structure LeftTo (roster : Roster) (w : World σ) (id : String) (tasks : List TaskId) : Prop where
  recorded : w.Recorded id
  held : Unanswered roster id ∨ ∃ t ∈ tasks, Entrusted roster w id t

namespace LeftTo

theorem shift (left : LeftTo roster w id tasks) (staffed : Staffed roster w) (shift : e.Shift roster w roster' w') :
    LeftTo roster' w' id tasks where
  recorded := shift.recorded staffed left.recorded
  held := left.held.imp (·.shift left.recorded staffed shift)
    fun ⟨t, member, entrusted⟩ => ⟨t, member, entrusted.shift staffed shift⟩

/-- An execution that runs in the background is left to the tasks of the table. -/
theorem of_placed (placed : Placed roster w id) (kept : Kept roster w) :
    LeftTo roster w id (w.background.map (·.2)) where
  recorded := placed.recorded
  held := by
    rcases placed.task with ⟨t, listed⟩ | unanswered
    · exact .inr ⟨t, List.mem_map_of_mem listed, kept.entries id t listed⟩
    · exact .inl unanswered

/-- When the tasks have ended nobody answers for the execution. -/
theorem unanswered (left : LeftTo roster w id tasks) (ended : ∀ t ∈ tasks, roster t = none) :
    Unanswered roster id := by
  rcases left.held with unanswered | ⟨t, member, entrusted⟩
  · exact unanswered
  · exact entrusted.unanswered (ended t member)

end LeftTo

/-! ## Executions that have not begun -/

/-- It announces the first event of the execution. -/
def Happening.isStart (id : String) : Happening → Bool
  | .announced (.started other) _ => other == id
  | _ => false

/-- The execution has begun, or was cancelled, or its duration could not be told when it was, or else it runs
and is active. -/
def World.Ready (w : World σ) (id : String) : Prop :=
  w.HasBegun id ∨ .cancelled id ∈ w.journal ∨ .untimed id ∈ w.journal ∨
    w.ledger.isActive id = true ∧ w.ledger.status? id = some .running

namespace World

variable {new : List Happening}

theorem hasBegun_iff : w.HasBegun id ↔ w.journal.any (·.isStart id) = true := by
  rw [HasBegun, List.any_eq_true]
  constructor
  · rintro ⟨record, told⟩
    exact ⟨_, told, by simp [Happening.isStart]⟩
  · rintro ⟨h, told, start⟩
    unfold Happening.isStart at start
    split at start
    · obtain rfl := beq_iff_eq.mp start
      exact ⟨_, told⟩
    · cases start

instance : Decidable (w.HasBegun id) := decidable_of_iff _ hasBegun_iff.symm

theorem HasBegun.append (begun : w.HasBegun id) (journal : w'.journal = new ++ w.journal) : w'.HasBegun id := by
  obtain ⟨record, told⟩ := begun
  exact ⟨record, journal ▸ List.mem_append_right new told⟩

theorem Ready.append (ready : w.Ready id) (journal : w'.journal = new ++ w.journal) (same : w.SameFate w' id) :
    w'.Ready id := by
  rcases ready with begun | cancelled | untimed | ⟨active, running⟩
  · exact .inl (begun.append journal)
  · exact .inr (.inl (journal ▸ List.mem_append_right new cancelled))
  · exact .inr (.inr (.inl (journal ▸ List.mem_append_right new untimed)))
  · exact .inr (.inr (.inr ⟨same.active.trans active, same.status.trans running⟩))

end World

namespace Engine.Shift

theorem ready (shift : e.Shift roster w roster' w') (staffed : Staffed roster w) (ledger : w.ledger.Orderly)
    (ready : w.Recorded id → w.Ready id) (recorded' : w'.Recorded id) : w'.Ready id := by
  have stays {new : List Happening} (journal : w'.journal = new ++ w.journal) (same : w.SameFate w' id) :
      w'.Ready id := (ready (same.recorded.mp recorded')).append journal same
  obtain ⟨new, journal, same | ⟨t, d, d', found, _, fate⟩⟩ := shift.fate staffed ledger id
  · exact stays journal same
  have driven (drives : d.drives = some id) : w'.Ready id :=
    .inl ((staffed.serving t d id found (.inl drives)).2.1.append journal)
  cases fate with
  | same same => exact stays journal same
  | admitted active running => exact .inr (.inr (.inr ⟨active, running⟩))
  | ended drives | cut drives | retired drives => exact driven drives
  | untimed told => exact .inr (.inr (.inl told))
  | withdrawn told => exact .inr (.inl told)

/-- Nobody begins an execution that nobody answers for. -/
theorem begun (shift : e.Shift roster w roster' w') (staffed : Staffed roster w)
    (unanswered : Unanswered roster id) (begun : w'.HasBegun id) : w.HasBegun id := by
  rcases shift.books fun t d id found => staffed.recorded found with
    ⟨t, d, d', found, _, affair⟩ | ⟨_, journal⟩
  · exact (affair.begun begun).resolve_right (unanswered t d found)
  · rwa [World.HasBegun, journal] at begun

end Engine.Shift

namespace Machine

theorem Arises.ready (arises : Arises e host m) (recorded : m.world.Recorded id) : m.world.Ready id := by
  have holds : ∃ roster, m.Manned e roster ∧ (m.world.Recorded id → m.world.Ready id) := by
    refine arises.holds (I := fun _ m => m.world.Recorded id → m.world.Ready id) (fun m pristine recorded => ?_)
      fun roster m roster' m' arises manned ready _ shift _ => ?_
    · rw [World.Recorded, Ledger.admitted, pristine.records] at recorded
      cases recorded
    · exact shift.ready manned.staffed arises.valid.orderly ready
  obtain ⟨_, _, ready⟩ := holds
  exact ready recorded

/-- An execution that nobody answers for does not begin any more. -/
theorem Manned.never_begins (manned : m.Manned e roster) (arises : Arises e host m)
    (unanswered : Unanswered roster id) (recorded : m.world.Recorded id) (unbegun : ¬m.world.HasBegun id)
    (run : Run e host (fun _ => False) m m') : ¬m'.world.HasBegun id := by
  have holds : ∃ roster', m'.Manned e roster' ∧
      Unanswered roster' id ∧ m'.world.Recorded id ∧ ¬m'.world.HasBegun id := by
    refine manned.run (I := fun roster m => Unanswered roster id ∧ m.world.Recorded id ∧ ¬m.world.HasBegun id)
      arises ⟨unanswered, recorded, unbegun⟩ ?_ run
    rintro roster m roster' m' _ manned ⟨unanswered, recorded, unbegun⟩ _ shift _
    exact ⟨unanswered.shift recorded manned.staffed shift, shift.recorded manned.staffed recorded,
      fun begun => unbegun (shift.begun manned.staffed unanswered begun)⟩
  obtain ⟨_, _, _, _, unbegun'⟩ := holds
  exact unbegun'

end Machine

/-! ## Calls that start executions -/

/-- When a start returns, the execution is in the table of background tasks. -/
theorem Machine.Completes.start {rest : Except Interrupt String → Routine σ Unit} {workflow options : Value}
    (completes : Completes e host task rest m (ExceptT.run (e.start workflow options)) m' (.ok id)) :
    ∃ t, (id, t) ∈ m'.world.background := by
  rw [Engine.start, Attempt.run_bind] at completes
  obtain ⟨m₁, outcome, _, completes⟩ := completes.bind
  rcases outcome with interrupt | ⟨workflow, other⟩
  · cases completes
  · cases completes with
    | spawn completes =>
      cases completes with
      | act completes =>
        cases completes
        exact ⟨m₁.world.agenda.created, List.mem_append_right _ (List.mem_singleton_self _)⟩

/-- From the return of a start on, the execution runs in the background, until nobody answers for it. -/
theorem Machine.Arises.placed {starter : TaskId} {workflow options : Value} {m₀ m₁ : Machine σ}
    (arises : Arises e host m₀)
    (started : m₀.Returns e host starter (ExceptT.run (e.start workflow options)) m₁ (.ok id))
    (run : Run e host (fun _ => False) m₁ m) :
    ∃ roster, m.Manned e roster ∧ Placed roster m.world id := by
  obtain ⟨rest, runs, completes⟩ := started
  have arises₁ := arises.run (completes.run runs).1
  obtain ⟨roster₁, manned₁⟩ := arises₁.manned
  obtain ⟨t, listed⟩ := completes.start
  have placed : Placed roster₁ m₁.world id := ⟨(manned₁.kept.entries id t listed).recorded, .inl ⟨t, listed⟩⟩
  exact manned₁.run (I := fun roster m => Placed roster m.world id) arises₁ placed
    (fun _ _ _ _ _ manned placed _ shift _ => placed.shift manned.kept manned.staffed manned.enlisted shift) run

/-! ## Calls of a shutdown -/

/-- A task that waits for others is resumed only when they have ended. -/
theorem Machine.Manned.ended_of_resumes (manned : m.Manned e roster) (awaits : m.world.agenda.Awaits task tasks)
    {p : Routine σ Unit} (idle : m.running = none) (resumes : m.step? (host.service e) = some m')
    (going : m'.running = some (task, p)) : ∀ t ∈ tasks, roster t = none := by
  obtain ⟨wake, ready, queue⟩ := ready_of_resumes idle resumes going
  intro t member
  rcases awaits.joins with joins | gone
  · exact absurd (Agenda.Joins.paused (a := { m.world.agenda with ready }) joins)
      (manned.orderly.dequeue_resume queue)
  · exact manned.absent (gone t member)

/-- A task that waits for others to end goes on waiting for just those. -/
theorem Machine.Manned.awaits_park (manned : m.Manned e roster) {k : Wake → Routine σ Unit}
    (runs : m.running = some (task, .wait (.tasks tasks) k)) :
    (m.park task (.tasks tasks) k).world.agenda.Awaits task tasks := by
  obtain ⟨_, _, d, found, awaits, _⟩ := manned.running task _ runs
  obtain ⟨_, parked⟩ := manned.parks runs
  obtain ⟨d', found', _, waits⟩ := parked.parked task k (by rw [park_parked]; simp)
  obtain rfl := Option.some.inj (found.symm.trans found')
  rcases awaits.owes with ⟨ids, same, owes⟩ | ⟨none, _⟩
  · rwa [← owes, ← Cue.tasks.inj same] at waits
  · exact absurd rfl (none tasks)

/-- A call that waits for tasks goes on when nobody answers any more for an execution that was left to them. -/
theorem Machine.Manned.waited {α : Type} {rest : α → Routine σ Unit} {k : Wake → Routine σ α} {a : α}
    (manned : m.Manned e roster) (arises : Arises e host m)
    (runs : m.running = some (task, (Routine.wait (.tasks tasks) k).bind rest))
    (completes : Completes e host task rest m (.wait (.tasks tasks) k) m' a) (left : LeftTo roster m.world id tasks) :
    ∃ roster' wake resumed, resumed.Manned e roster' ∧ Unanswered roster' id ∧
      Completes e host task rest resumed (k wake) m' a := by
  have step : Machine.Step e host (fun _ => False) m
      (m.advance (host.service e) task ((Routine.wait (.tasks tasks) k).bind rest)) := .work (step?_of_running runs)
  have arises₁ := arises.run (.next (.refl m) step)
  cases completes with
  | goesOn immediate completes =>
    obtain ⟨roster₁, shift, manned₁⟩ := manned.step arises.valid step
    have nobody : tasks = [] := by
      rw [immediate?] at immediate
      split at immediate
      · next empty => exact List.isEmpty_iff.mp empty
      · cases immediate
    have unanswered := left.unanswered (by simp [nobody])
    exact ⟨roster₁, _, _, manned₁, unanswered.shift left.recorded manned.staffed shift, completes⟩
  | waits suspends meanwhile idle resumes going completes =>
    have parks : m.advance (host.service e) task ((Routine.wait (.tasks tasks) k).bind rest) =
        m.park task (.tasks tasks) fun wake => (k wake).bind rest := by
      rw [Routine.bind, advance, suspends]
    rw [parks] at meanwhile arises₁
    obtain ⟨shift, manned₁⟩ := manned.parks runs
    -- Until it is resumed the task waits for those tasks, and the execution stays left to them.
    have holds := manned₁.run (I := fun roster m => LeftTo roster m.world id tasks ∧ m.world.agenda.Awaits task tasks)
      arises₁ ⟨left.shift manned.staffed shift, manned.awaits_park runs⟩
      (fun _ _ _ _ _ manned holds _ shift _ =>
        ⟨holds.1.shift manned.staffed shift, holds.2.later shift.continues⟩) meanwhile
    obtain ⟨roster₂, manned₂, left₂, awaits⟩ := holds
    have unanswered := left₂.unanswered (manned₂.ended_of_resumes awaits idle resumes going)
    obtain ⟨roster₃, shift₃, manned₃⟩ := manned₂.step (arises₁.run meanwhile).valid (.work resumes)
    exact ⟨roster₃, _, _, manned₃, unanswered.shift left₂.recorded manned₂.staffed shift₃, completes⟩

/-- How a shutdown ends when its wait does. -/
def Engine.shutdownEnd : Wake → Except Interrupt Unit
  | .ready => .ok ()
  | .cancelled => .error (.cancelled "")

/-- A shutdown cancels the tasks of the table, and waits for them. -/
theorem Engine.run_shutdown : ExceptT.run (Engine.shutdown : Attempt σ Unit) =
    .act cancelBackground fun tasks => .wait (.tasks tasks) fun wake => .done (shutdownEnd wake) := by
  change Routine.act _ _ = Routine.act _ _
  congr 1
  funext tasks
  change Routine.wait _ _ = Routine.wait _ _
  congr 1
  funext wake
  cases wake <;> rfl

/-- When a shutdown returns, nobody answers for an execution that ran in the background. -/
theorem Machine.Manned.shutdown {outcome : Except Interrupt Unit} (manned : m.Manned e roster)
    (arises : Arises e host m) (placed : Placed roster m.world id)
    (stopped : m.Returns e host task (ExceptT.run Engine.shutdown) m' outcome) :
    ∃ roster', m'.Manned e roster' ∧ Unanswered roster' id := by
  obtain ⟨rest, runs, completes⟩ := stopped
  rw [Engine.run_shutdown] at runs completes
  cases completes with
  | act completes =>
    have step : Machine.Step e host (fun _ => False) m _ := .work (step?_of_running runs)
    obtain ⟨roster₁, shift, manned₁⟩ := manned.step arises.valid step
    obtain ⟨roster₂, _, _, manned₂, unanswered, completes⟩ := manned₁.waited (arises.run (.next (.refl m) step)) rfl
      completes ((LeftTo.of_placed placed manned.kept).shift manned.staffed shift)
    obtain ⟨rfl, _⟩ := completes.of_done
    exact ⟨roster₂, manned₂, unanswered⟩

/-- When a shutdown returns, every execution that was started in the background before has been retired and
has ended, if it had begun. If it had not, it never will. Unless it was cancelled, or its duration could
not be told when it was, it is still active and counts as running. -/
theorem shutdown_ends_begun {m₀ m₁ m₂ m₃ : Machine σ} {starter stopper : TaskId} {workflow options : Value}
    {outcome : Except Interrupt Unit} (arises : Arises e host m₀)
    (started : m₀.Returns e host starter (ExceptT.run (e.start workflow options)) m₁ (.ok id))
    (between : Run e host (fun _ => False) m₁ m₂)
    (stopped : m₂.Returns e host stopper (ExceptT.run Engine.shutdown) m₃ outcome) :
    (m₃.world.HasBegun id → m₃.world.ledger.isActive id = false ∧
      ∃ x, m₃.world.ledger.record? id = some x ∧ x.status ≠ .running) ∧
    (¬m₃.world.HasBegun id →
      (.cancelled id ∉ m₃.world.journal → .untimed id ∉ m₃.world.journal →
        m₃.world.ledger.isActive id = true ∧
          ∃ x, m₃.world.ledger.record? id = some x ∧ x.status = .running) ∧
      ∀ m, Run e host (fun _ => False) m₃ m → ¬m.world.HasBegun id) := by
  obtain ⟨_, runs, completes⟩ := started
  have arises₂ : Arises e host m₂ := arises.run ((completes.run runs).1.trans between)
  obtain ⟨roster₂, manned₂, placed⟩ := arises.placed ⟨_, runs, completes⟩ between
  obtain ⟨roster₃, manned₃, unanswered⟩ := manned₂.shutdown arises₂ placed stopped
  obtain ⟨_, runs', completes'⟩ := stopped
  have arises₃ : Arises e host m₃ := arises₂.run (completes'.run runs').1
  have recorded : m₃.world.Recorded id := arises₂.recorded (completes'.run runs').1 placed.recorded
  obtain ⟨x, found⟩ := Ledger.mem_admitted.mp recorded
  refine ⟨fun begun => ?_, fun unbegun => ⟨fun uncancelled timed => ?_, fun m run => ?_⟩⟩
  · have inactive := manned₃.staffed.inactive unanswered begun
    refine ⟨inactive, x, found, fun running => ?_⟩
    cases inactive.symm.trans ((arises₃.valid.sound id x found).enlisted running)
  · rcases arises₃.ready recorded with begun | cancelled | untimed | ⟨active, running⟩
    · exact absurd begun unbegun
    · exact absurd cancelled uncancelled
    · exact absurd untimed timed
    · rw [Ledger.status?, found] at running
      exact ⟨active, x, found, Option.some.inj running⟩
  · exact manned₃.never_begins arises₃ unanswered recorded unbegun run

/-- The call of a visitor who starts an execution that pauses. -/
def startPause : Routine Unit (Except Interrupt String) := ExceptT.run (openEngine.start pausingWorkflow .null)

/-- A visitor who starts an execution and shuts the engine down at once. -/
def shuttingDown (_ : TaskId) : Routine Unit Unit :=
  startPause.bind fun _ => (ExceptT.run Engine.shutdown).bind fun _ => .done ()

/-- A visitor who does the same, but gives way to other tasks in between. -/
def shuttingDownLater (_ : TaskId) : Routine Unit Unit :=
  startPause.bind fun _ => (Host.answer openEngine (.pause 0.0)).bind fun _ =>
    (ExceptT.run Engine.shutdown).bind fun _ => .done ()

/-- The open engine when a visitor is about to begin. -/
def visitedBy (visitor : TaskId → Routine Unit Unit) : Machine Unit :=
  ((Machine.blank () {}).launch visitor).1.settle (idleHost.service openEngine) 1

theorem visitedBy_running (visitor : TaskId → Routine Unit Unit) :
    (visitedBy visitor).running = some (0, visitor 0) :=
  running_of_idle visitor rfl rfl rfl rfl

theorem visitedBy_arises {visitor : TaskId → Routine Unit Unit}
    (visits : ∀ id, Visit openEngine (fun _ => False) (visitor id)) :
    Arises openEngine idleHost (visitedBy visitor) :=
  (blank_pristine () {}).arises.run ((Run.next (.refl _) (.visit visitor visits)).trans (run_settle 1 _))

/-- The task of the execution is cancelled before its first turn. When the shutdown returns the execution is
active, and counts as running. -/
theorem unbegun_left_active : ∃ m₀ m₁ m₃ : Machine Unit, Arises openEngine idleHost m₀ ∧
    m₀.Returns openEngine idleHost 0 startPause m₁ (.ok (Engine.executionId 1)) ∧
    m₁.Returns openEngine idleHost 0 (ExceptT.run Engine.shutdown) m₃ (.ok ()) ∧
    m₃.world.ledger.isActive (Engine.executionId 1) = true ∧
    m₃.world.ledger.status? (Engine.executionId 1) = some .running := by
  have arises : Arises openEngine idleHost (visitedBy shuttingDown) :=
    visitedBy_arises fun _ => .ask (.start pausingWorkflow .null) _ trivial fun _ => .shutdown _ fun _ => .leave
  let left (m : Machine Unit) : Bool := m.world.ledger.isActive (Engine.executionId 1) &&
    m.world.ledger.status? (Engine.executionId 1) == some .running
  obtain ⟨m₁, started, arises₁, runs, passed⟩ := exists_returns_ok 10 (Engine.executionId 1) (fun m =>
    (m.pursue (idleHost.service openEngine) 0 40 (.inl (ExceptT.run Engine.shutdown))).any fun r =>
      r.2.toOption == some () && left r.1) arises (visitedBy_running _) (by decide +kernel)
  obtain ⟨m₃, stopped, _, _, passed⟩ := exists_returns_ok 40 () left arises₁ runs passed
  rw [Bool.and_eq_true, beq_iff_eq] at passed
  exact ⟨_, m₁, m₃, arises, started, stopped, passed⟩

/-- When its task has had a turn before the shutdown, the execution is retired. -/
theorem begun_retired : ∃ m₁ m₂ m₃ : Machine Unit,
    (visitedBy shuttingDownLater).Returns openEngine idleHost 0 startPause m₁ (.ok (Engine.executionId 1)) ∧
    Run openEngine idleHost (fun _ => False) m₁ m₂ ∧
    m₂.Returns openEngine idleHost 0 (ExceptT.run Engine.shutdown) m₃ (.ok ()) ∧
    m₃.world.ledger.isActive (Engine.executionId 1) = false ∧
    ∃ x, m₃.world.ledger.record? (Engine.executionId 1) = some x ∧ x.status ≠ .running := by
  have arises : Arises openEngine idleHost (visitedBy shuttingDownLater) :=
    visitedBy_arises fun _ => .ask (.start pausingWorkflow .null) _ trivial fun _ =>
      .ask (.pause 0.0) _ trivial fun _ => .shutdown _ fun _ => .leave
  let stops (m : Machine Unit) : Bool :=
    (m.pursue (idleHost.service openEngine) 0 60 (.inl (ExceptT.run Engine.shutdown))).any fun r =>
      r.2.toOption == some () && decide (r.1.world.HasBegun (Engine.executionId 1))
  obtain ⟨m₁, started, arises₁, runs₁, passed⟩ := exists_returns_ok 10 (Engine.executionId 1) (fun m =>
    (m.pursue (idleHost.service openEngine) 0 60 (.inl (Host.answer openEngine (.pause 0.0)))).any fun r =>
      stops r.1) arises (visitedBy_running _) (by decide +kernel)
  obtain ⟨m₂, _, ⟨_, paused, completes⟩, arises₂, runs₂, passed⟩ :=
    exists_returns 60 (fun m _ => stops m) arises₁ runs₁ passed
  obtain ⟨m₃, stopped, _, _, begun⟩ := exists_returns_ok 60 ()
    (fun m => decide (m.world.HasBegun (Engine.executionId 1))) arises₂ runs₂ passed
  have between := (completes.run paused).1
  exact ⟨m₁, m₂, m₃, started, between, stopped,
    (shutdown_ends_begun arises started between stopped).1 (of_decide_eq_true begun)⟩

end Runbook
