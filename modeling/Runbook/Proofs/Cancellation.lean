import Runbook.Proofs.Calls
import Runbook.Proofs.Finality
import Runbook.Proofs.Headway

/-! # Steps after a cancellation

The driver looks for a cancellation before it announces a step as started, and does not look again before it
enters the interpreter. So no step is announced as started after a cancellation has found the execution, and
the only one that can still be entered is one that was announced before: its observers can take their time
over the news, and the cancellation comes meanwhile.
-/

namespace Runbook

open Books Machine

variable {σ : Type} {e : Engine σ} {host : Host σ} {m₀ m₁ m₂ : Machine σ} {id : String} {task : TaskId}

/-- A cancellation that returns that it found the execution is in the journal. -/
theorem Machine.Reachable.cancelled_of_returns (reachable : Reachable e host (fun _ => False) m₀)
    (cancelled : m₀.Returns e host task (ExceptT.run (e.cancel id)) m₁ (.ok true)) :
    Reachable e host (fun _ => False) m₁ ∧ .cancelled id ∈ m₁.world.journal := by
  obtain ⟨rest, runs, completes⟩ := cancelled
  obtain ⟨run, _⟩ := completes.run runs
  refine ⟨reachable.run run, ?_⟩
  rw [e.run_cancel] at runs completes
  cases completes with
  | act later =>
    have step : Machine.Step e host (fun _ => False) m₀ _ := .work (step?_of_running runs)
    have reachable' := reachable.run (.next (.refl m₀) step)
    -- What the cancellation returns is decided in this act.
    cases outcome : (World.announced (.cancelled id) (e.withdraw id) m₀.world).1 with
    | error fault =>
      rw [outcome] at later
      cases later.of_done.2
    | ok found =>
      cases found with
      | none =>
        rw [outcome] at later
        cases later.of_done.2
      | some callbacks =>
        have granted : (e.withdraw id m₀.world).1 = .ok true := by
          unfold World.announced at outcome
          split at outcome <;> simp_all
        have told := Engine.cancelled_mem_of_withdraw (reachable.valid host.spares_nothing) granted
        obtain ⟨new, journal⟩ := reachable'.grows host.spares_nothing (later.run rfl).1
        rw [journal]
        exact List.mem_append_right new told

/-- After a cancellation has returned that it found the execution, no step is announced as started any more.
Nor is one entered, but for the one, if any, that had been announced as started and not been entered when
the cancellation returned, and that one at most once. -/
theorem entries_after_cancel (reachable : Reachable e host (fun _ => False) m₀)
    (cancelled : m₀.Returns e host task (ExceptT.run (e.cancel id)) m₁ (.ok true))
    (run : Run e host (fun _ => False) m₁ m₂) :
    ∃ new, m₂.world.journal = new ++ m₁.world.journal ∧
      (∀ index, .starts index ∉ moves id new) ∧
      (entries (moves id new) = [] ∨ ∃ index, leg id m₁.world.journal = some (.announced index) ∧
        entries (moves id new) = [index]) := by
  obtain ⟨reachable₁, told⟩ := reachable.cancelled_of_returns cancelled
  obtain ⟨new, journal⟩ := reachable₁.grows host.spares_nothing run
  have noStart (index : Int) : .starts index ∉ moves id new := by
    refine Heeds.no_start ?_ told index
    rw [← journal]
    exact ((reachable₁.run run).tracked host.spares_nothing).heeded id
  obtain ⟨l, before⟩ := reachable₁.way host.spares_nothing id
  obtain ⟨l', after⟩ := (reachable₁.run run).way host.spares_nothing id
  have way : l.along (moves id new) = some l' := by
    rwa [journal, leg_append, before] at after
  refine ⟨new, journal, noStart, ?_⟩
  rcases Leg.entries_of_no_start way noStart with ⟨none, _⟩ | ⟨index, rfl, once, _⟩
  · exact .inl none
  · exact .inr ⟨index, before, once⟩

/-- Observers who wait until someone lets them go on. -/
def heldHost : Host Unit where
  tool _ _ := .done (.ok .null)
  observer _ _ := .ask (.pass .null) fun _ => .done (.ok ())

/-- The open engine while an observer holds up the first of two steps, which has been announced as started. -/
def heldStart : Machine Unit :=
  (Machine.blank () (({} : Bus).subscribe .stepStarted "watch")).executing openEngine heldHost twoTools .null 30

/-- The call of a visitor who cancels the execution. -/
def cancelHeld : Routine Unit (Except Interrupt Bool) := ExceptT.run (openEngine.cancel (Engine.executionId 1))

/-- The visitor who cancels the execution, and then lets the observer go on. -/
def cancelAndRelease (_ : TaskId) : Routine Unit Unit :=
  cancelHeld.bind fun _ => (Host.answer openEngine (.openLatch .null)).bind fun _ => .done ()

/-- The machine with the visitor about to cancel the execution. -/
def cancellingStart : Machine Unit := (heldStart.launch cancelAndRelease).1.settle (heldHost.service openEngine) 1

theorem cancellingStart_running :
    cancellingStart.running = some (heldStart.world.agenda.created, cancelAndRelease heldStart.world.agenda.created) :=
  running_of_quiet cancelAndRelease (by decide +kernel)

theorem cancellingStart_arises : Arises openEngine heldHost cancellingStart := by
  have visited : Machine.Step openEngine heldHost (fun _ => False) heldStart (heldStart.launch cancelAndRelease).1 :=
    .visit cancelAndRelease fun _ => .ask (.cancel (Engine.executionId 1)) _ trivial fun _ =>
      .ask (.openLatch .null) _ trivial fun _ => .leave
  exact (arises_executing ..).run ((Run.next (.refl _) visited).trans (run_settle 1 _))

/-- No step has been entered in a machine, but the first one is after some more steps of it. -/
def Machine.entersLater (m : Machine Unit) : Bool :=
  entries (moves (Engine.executionId 1) m.world.journal) == [] &&
    entries (moves (Engine.executionId 1) (m.settle (heldHost.service openEngine) 40).world.journal) == [0]

/-- The cancellation returns that it found the execution, and then the first step is entered. -/
theorem entered_after_cancel : ∃ (m₀ m₁ m₂ : Machine Unit) (task : TaskId),
    Reachable openEngine heldHost (fun _ => False) m₀ ∧ m₀.Returns openEngine heldHost task cancelHeld m₁ (.ok true) ∧
    Run openEngine heldHost (fun _ => False) m₁ m₂ ∧ entries (moves (Engine.executionId 1) m₁.world.journal) = [] ∧
    entries (moves (Engine.executionId 1) m₂.world.journal) = [0] := by
  obtain ⟨m₁, cancelled, _, _, later⟩ := exists_returns_ok 10 true Machine.entersLater cancellingStart_arises
    cancellingStart_running (by decide +kernel)
  rw [entersLater, Bool.and_eq_true, beq_iff_eq, beq_iff_eq] at later
  exact ⟨_, m₁, _, _, cancellingStart_arises.reachable, cancelled, run_settle 40 m₁, later⟩

/-- Before the cancellation the first step had been announced as started. -/
theorem held_start_announced : ∃ (m₁ : Machine Unit) (task : TaskId) (new : List Happening),
    cancellingStart.Returns openEngine heldHost task cancelHeld m₁ (.ok true) ∧
    (m₁.settle (heldHost.service openEngine) 40).world.journal = new ++ m₁.world.journal ∧
    leg (Engine.executionId 1) m₁.world.journal = some (.announced 0) ∧
    entries (moves (Engine.executionId 1) new) = [0] := by
  obtain ⟨m₁, cancelled, _, _, later⟩ := exists_returns_ok 10 true Machine.entersLater cancellingStart_arises
    cancellingStart_running (by decide +kernel)
  rw [entersLater, Bool.and_eq_true, beq_iff_eq, beq_iff_eq] at later
  obtain ⟨new, journal, _, only⟩ := entries_after_cancel cancellingStart_arises.reachable cancelled (run_settle 40 m₁)
  have once : entries (moves (Engine.executionId 1) new) = [0] := by
    obtain ⟨before, after⟩ := later
    rwa [journal, moves_append, entries_append, before, List.append_nil] at after
  rcases only with none | ⟨index, announced, same⟩
  · cases none.symm.trans once
  · obtain rfl : index = 0 := List.head_eq_of_cons_eq (same.symm.trans once)
    exact ⟨m₁, _, new, cancelled, journal, announced, once⟩

end Runbook
