import Runbook.Proofs.Courtesy
import Runbook.Proofs.Foresight

/-! # What executions come to is settled

A task that owns the ledger drives its execution to an end that is settled when it begins: the ledger and the clock
say at every step whether there is time left, what there is to do and what becomes of the record. Announcements come
between all of that, and change nothing about it.
-/

namespace Runbook

open Interpreter

variable {σ α β : Type} {h : Habits} {e : Engine σ} {x y z : Moment} {l l' l'' : Ledger} {t : TaskId} {b : Post}
  {id : String} {w w' : World σ}

/-! ## Routines that own the ledger -/

/-- Followed by the owner of the ledger, the routine comes to a settled end and moment, and leaves a settled ledger. -/
structure Routine.Reckons (h : Habits) (p : Routine σ α) (x : Moment) (l : Ledger) (a : α) (y : Moment) (l' : Ledger) :
    Prop where
  later : x ≤ y
  calm : l'.Calm
  punctual : ∀ t b, b.Free → b.ledger = some l → y ≤ b.term →
    p.Punctual h t b x fun a' b' y' => a' = a ∧ b' = { b with ledger := some l' } ∧ y' = y

/-- The moment and the ledger settle what the routine comes to, when, and what the ledger is then. -/
def Routine.Reckoned (h : Habits) (p : Routine σ α) : Prop := ∀ x (l : Ledger), l.Calm → ∃ a y l', p.Reckons h x l a y l'

/-- The same of an attempt, whatever it comes to. -/
def Attempt.Reckoned (h : Habits) (p : Attempt σ α) : Prop := Routine.Reckoned h (ExceptT.run p)

/-- An act that depends on nothing but the ledger and the clock, and touches nothing else that tasks care about. -/
structure World.Clerical (f : World σ → α × World σ) : Prop where
  agenda : ∀ w, (f w).2.agenda = w.agenda
  calm : ∀ w, w.ledger.Calm → (f w).2.ledger.Calm
  settled : ∀ w w', w'.ledger = w.ledger → w'.agenda.now = w.agenda.now →
    (f w').1 = (f w).1 ∧ (f w').2.ledger = (f w).2.ledger

namespace Routine.Reckoned

theorem bind {p : Routine σ α} {f : α → Routine σ β} (first : p.Reckoned h) (next : ∀ a, (f a).Reckoned h) :
    (p.bind f).Reckoned h := by
  intro x l calm
  obtain ⟨a, y, l', reckons⟩ := first x l calm
  obtain ⟨c, z, l'', reckons'⟩ := next a y l' reckons.calm
  refine ⟨c, z, l'', le_trans reckons.later reckons'.later, reckons'.calm, fun t b free owns early => ?_⟩
  apply (reckons.punctual t b free owns (le_trans reckons'.later early)).bind
  rintro _ _ _ ⟨rfl, rfl, rfl⟩
  exact reckons'.punctual t _ ⟨free.branches, free.joined⟩ rfl early

/-- Whatever is settled without the ledger leaves the ledger as it is. -/
theorem of_foreseen {p : Routine σ α} (foreseen : p.Foreseen h) : p.Reckoned h := by
  intro x l calm
  obtain ⟨a, y, arrives⟩ := foreseen x
  refine ⟨a, y, l, arrives.later, calm, fun t b free owns early => ?_⟩
  apply (arrives.punctual t b free early).mono
  rintro _ _ _ ⟨rfl, rfl, rfl⟩
  exact ⟨rfl, by rw [← owns], rfl⟩

theorem update [Nonempty σ] {f : World σ → α × World σ} (clerical : World.Clerical f) :
    (Routine.update f).Reckoned h := by
  intro x l calm
  obtain ⟨memory⟩ := ‹Nonempty σ›
  -- Any world with this ledger and clock shows what all of them come to.
  let sample : World σ := { memory, agenda := { now := x.seconds }, ledger := l }
  refine ⟨(f sample).1, x, (f sample).2.ledger, le_refl x, clerical.calm sample calm, fun t b _ owns _ w sees => ?_⟩
  obtain ⟨answer, ledger⟩ := clerical.settled sample w (sees.owned l owns) sees.clock
  have owner : b.ledger ≠ none := by simp [owns]
  refine ⟨_, .writes owner (clerical.calm w sees.calm) (clerical.agenda w), answer, ?_, rfl⟩
  rw [ledger]

end Routine.Reckoned

namespace Attempt.Reckoned

theorem of_foreseen {p : Attempt σ α} (foreseen : p.Foreseen h) : p.Reckoned h :=
  Routine.Reckoned.of_foreseen foreseen

theorem bind {p : Attempt σ α} {f : α → Attempt σ β} (first : p.Reckoned h) (next : ∀ a, (f a).Reckoned h) :
    (p >>= f).Reckoned h := by
  rw [Reckoned, run_bind]
  apply Routine.Reckoned.bind first
  intro outcome
  cases outcome with
  | error interrupt => exact .of_foreseen (.done _)
  | ok a => exact next a

theorem lift_bind {p : Routine σ α} {f : α → Attempt σ β} (first : p.Reckoned h) (next : ∀ a, (f a).Reckoned h) :
    (Attempt.lift p >>= f).Reckoned h := by
  rw [Reckoned, run_bind, run_lift, Routine.bind_bind]
  exact Routine.Reckoned.bind first next

theorem tryCatch {p : Attempt σ α} {handle : Interrupt → Attempt σ α} (first : p.Reckoned h)
    (handled : ∀ interrupt, (handle interrupt).Reckoned h) : (MonadExcept.tryCatch p handle).Reckoned h := by
  rw [Reckoned, run_tryCatch]
  apply Routine.Reckoned.bind first
  intro outcome
  cases outcome with
  | error interrupt => exact handled interrupt
  | ok a => exact .of_foreseen (.done _)

theorem ensuring {p : Attempt σ α} {last : Routine σ Unit} (first : p.Reckoned h) (then_ : last.Reckoned h) :
    (p.ensuring last).Reckoned h :=
  Routine.Reckoned.bind first fun _ => then_.bind fun _ => .of_foreseen (.done _)

end Attempt.Reckoned

/-! ## Acts of the engine -/

theorem Ledger.Calm.amend {f : Execution → Execution} (calm : l.Calm)
    (kept : ∀ x, x.cancelRequested = false → (f x).cancelRequested = false) : (l.amend id f).Calm := by
  intro other x found
  rw [record?_amend] at found
  split at found
  · obtain ⟨x', before, rfl⟩ := Option.map_eq_some_iff.mp found
    exact kept x' (calm id x' before)
  · exact calm other x found

theorem Ledger.Calm.record (calm : w.ledger.Calm) (id : String) : (Engine.record w id).cancelRequested = false := by
  unfold Engine.record
  cases found : w.ledger.record? id with
  | none => rfl
  | some x => exact calm id x found

theorem Ledger.Calm.retire (calm : l.Calm) (limit : Option Nat) (id : String) : (l.retire limit id).Calm := by
  intro other x found
  rw [record?_retire] at found
  exact calm other x found

theorem Execution.cancelRequested_finish (x : Execution) (status : ExecutionStatus) (now : Float) :
    (x.finish status now).1.cancelRequested = x.cancelRequested := by
  unfold finish
  simp only
  split <;> rfl

theorem Execution.cancelRequested_advance {x x' : Execution} {target : Int} (advanced : x.advance target = .ok x') :
    x'.cancelRequested = x.cancelRequested := by
  unfold advance at advanced
  split at advanced
  · cases advanced
  · cases advanced
    rfl

theorem Engine.cancelRequested_absorb (index : Nat) (result : StepResult) (x : Execution) :
    (absorb index result x).cancelRequested = x.cancelRequested := by
  unfold absorb
  cases result.status <;> rfl

namespace World.Clerical

theorem finish_calm (calm : w.ledger.Calm) (id : String) (status : ExecutionStatus) :
    (Engine.finish id status w).2.ledger.Calm := by
  have ended : (Engine.amend id (fun _ => ((Engine.record w id).finish status w.agenda.now).1) w).ledger.Calm :=
    calm.amend fun _ _ => by rw [Execution.cancelRequested_finish, calm.record]
  unfold Engine.finish
  simp only
  split <;> exact ended

theorem finish_agenda (id : String) (status : ExecutionStatus) (w : World σ) :
    (Engine.finish id status w).2.agenda = w.agenda := by
  unfold Engine.finish
  simp only
  split <;> rfl

theorem finish_settled (id : String) (status : ExecutionStatus) (ledger : w'.ledger = w.ledger)
    (now : w'.agenda.now = w.agenda.now) : (Engine.finish id status w').1 = (Engine.finish id status w).1 ∧
      (Engine.finish id status w').2.ledger = (Engine.finish id status w).2.ledger := by
  unfold Engine.finish Engine.record Engine.amend
  simp only [ledger, now]
  split <;> simp [World.note]

theorem look {f : World σ → α} (settled : ∀ w w' : World σ, w'.ledger = w.ledger → f w' = f w) :
    Clerical fun w : World σ => (f w, w) where
  agenda _ := rfl
  calm _ calm := calm
  settled w w' ledger _ := ⟨settled w w' ledger, ledger⟩

theorem boundary (id : String) (index : Nat) : Clerical (Engine.boundary (σ := σ) id index) where
  agenda w := by
    unfold Engine.boundary
    simp only
    split
    · rfl
    · split
      · rfl
      · rfl
      · split <;> rfl
  calm w calm := by
    unfold Engine.boundary
    simp only
    split
    · exact calm
    · split
      · exact calm
      · exact calm
      · split
        · exact calm
        · next advanced =>
          exact calm.amend fun _ _ => (Execution.cancelRequested_advance advanced).trans (calm.record id)
  settled w w' ledger now := by
    unfold Engine.boundary Engine.record Engine.amend
    simp only [ledger, now]
    split
    · simp [ledger]
    · split
      · simp [ledger]
      · simp [ledger, World.note]
      · split <;> simp [ledger]

theorem recordResult (id : String) (index : Nat) (result : StepResult) :
    Clerical (Engine.recordResult (σ := σ) id index result) where
  agenda w := by
    unfold Engine.recordResult
    split <;> rfl
  calm w calm := by
    unfold Engine.recordResult
    split
    · exact calm
    · exact calm.amend fun x none => (Engine.cancelRequested_absorb ..).trans none
  settled w w' ledger _ := by
    unfold Engine.recordResult Engine.record Engine.amend
    simp only [ledger]
    split <;> simp [ledger]

/-- An end that is recorded after the record has been changed in a way that the record itself settles. -/
theorem ending (id : String) (status : Execution → ExecutionStatus) (f : Execution → Execution → Execution)
    (kept : ∀ x y, y.cancelRequested = false → (f x y).cancelRequested = false) :
    Clerical fun w : World σ =>
      Engine.finish id (status (Engine.record w id)) (Engine.amend id (f (Engine.record w id)) w) where
  agenda w := finish_agenda id _ _
  calm w calm := by
    have amended : (Engine.amend id (f (Engine.record w id)) w).ledger.Calm := calm.amend fun y none => kept _ y none
    exact finish_calm amended id _
  settled w w' ledger now := by
    have same : Engine.record w' id = Engine.record w id := by rw [Engine.record, ledger, Engine.record]
    rw [same]
    have amended : (Engine.amend id (f (Engine.record w id)) w').ledger =
        (Engine.amend id (f (Engine.record w id)) w).ledger := by rw [Engine.amend, ledger, Engine.amend]
    exact finish_settled id _ amended now

/-- What is yielded is told in another way. -/
theorem map {f : World σ → α × World σ} (clerical : Clerical f) (g : α → β) :
    Clerical fun w => (g (f w).1, (f w).2) where
  agenda := clerical.agenda
  calm := clerical.calm
  settled w w' ledger now := (clerical.settled w w' ledger now).imp_left (congrArg g)

/-- An act that the record of an execution may stop. -/
theorem guarded {f : World σ → α × World σ} (clerical : Clerical f) (id : String) (stops : Execution → Bool) (a : α) :
    Clerical fun w => if stops (Engine.record w id) then (a, w) else f w where
  agenda w := by
    split
    · rfl
    · exact clerical.agenda w
  calm w calm := by
    split
    · exact calm
    · exact clerical.calm w calm
  settled w w' ledger now := by
    have same : Engine.record w' id = Engine.record w id := by rw [Engine.record, ledger, Engine.record]
    rw [same]
    split
    · exact ⟨rfl, ledger⟩
    · exact clerical.settled w w' ledger now

theorem conclude (id : String) : Clerical (Engine.conclude (σ := σ) id) :=
  ((ending id (fun x => if x.results.all (·.countsAsSuccess) then .completed else .failed)
    (fun x y => { y with summary := Engine.summary x.totalSteps x.results }) fun _ _ none => none).map
      fun finished => finished.map fun _ => true).guarded id (·.status == .cancelled) (.ok false)

theorem abort (id : String) (fault : Fault) : Clerical (Engine.abort (σ := σ) id fault) :=
  ((ending id (fun _ => .error) (fun _ y => { y with error := .text fault.message, traced := true })
    fun _ _ none => none).map fun finished => finished.map fun _ => true).guarded id (·.status == .cancelled) (.ok false)

theorem interrupt (id : String) : Clerical (Engine.interrupt (σ := σ) id) := by
  have ends := (ending (σ := σ) id (fun _ => .cancelled)
    (fun _ y => { y with error := .text "Execution task was cancelled" }) fun _ _ none => none).guarded id
      (fun x => !x.isActive) (.ok ())
  convert ends using 2
  unfold Engine.interrupt
  cases (Engine.record _ id).isActive <;> rfl

theorem retire (id : String) : Clerical fun w : World σ => ((), e.retire id w) where
  agenda w := by
    unfold Engine.retire
    dsimp only
    split <;> rfl
  calm w calm := by
    unfold Engine.retire
    dsimp only
    split
    · exact calm.retire _ id
    · exact calm
  settled w w' ledger _ := by
    unfold Engine.retire
    rw [ledger]
    refine ⟨rfl, ?_⟩
    dsimp only
    split <;> simp [World.note, ledger]

end World.Clerical

/-! ## The way through the steps -/

namespace Engine

section

variable [Nonempty σ] (auto : e.config.policies.manualSteps = .auto) (steady : e.authority.Steady)

include auto steady

end

end Engine

end Runbook
