import Runbook.Proofs.Arrival
import Runbook.Proofs.Capacity
import Runbook.Proofs.Reckoning

/-! # The debut of an execution

Nobody is called for an event before an execution has been admitted, so what its submission comes to does not depend
on who would be called. Then one task is alone with it, and is on time.
-/

namespace Runbook

open Machine

variable {σ α β : Type} {h : Habits} {final : Ledger} {e : Engine σ} {m m' m₁ : Machine σ} {service : Service σ}
  {x y : Moment} {t : TaskId} {p : Routine σ Unit}

/-! ## Admission -/

theorem Ledger.Calm.enroll {l : Ledger} (calm : l.Calm) (id : String) {x : Execution}
    (fresh : x.cancelRequested = false) : (l.enroll id x).Calm := by
  intro other x' found
  rw [record?, Ledger.enroll, List.find?_append] at found
  cases known : l.records.find? (·.1 == other) with
  | some r =>
    rw [known] at found
    exact calm other x' (by rw [record?, known]; exact found)
  | none =>
    rw [known, Option.none_or, List.find?_singleton] at found
    split at found
    · cases found
      exact fresh
    · cases found

namespace Engine

variable {workflow options : Value}

end Engine

/-! ## Machines with one task -/

namespace Machine

/-- There is nobody but a task that is running, to which nobody listens but the table of background tasks. -/
structure Alone (w : World σ) (task : Task) (x : Moment) : Prop where
  clock : w.agenda.now = x.seconds
  tasks : w.agenda.tasks = [task]
  ready : w.agenda.ready = []
  waits : w.agenda.waits = []
  outcomes : w.agenda.outcomes = []
  old : task.id < w.agenda.created
  unmarked : task.cancelled = false
  unwatched : ∀ id, .waiter id ∉ task.watchers

namespace Alone

variable {w : World σ} {task : Task} (alone : Alone w task x)

include alone

theorem alive : w.agenda.alive = [task.id] := by
  rw [Agenda.alive, alone.tasks]
  rfl

theorem paused : w.agenda.paused = [] := by
  rw [Agenda.paused, alone.waits, alone.ready]
  rfl

theorem due : w.agenda.due = [] := by
  have told : task.watchers.filterMap Watcher.waiter? = [] := by
    refine List.filterMap_eq_nil_iff.mpr fun watcher member => ?_
    cases watcher with
    | waiter id => exact absurd member (alone.unwatched id)
    | background => rfl
  rw [Agenda.due, alone.ready, alone.tasks, List.flatMap_singleton, told]
  rfl

theorem left (t : TaskId) : w.agenda.left? t = none := by
  rw [Agenda.left?, alone.outcomes]
  rfl

theorem orderly : w.agenda.Orderly := by
  refine ⟨alone.alive ▸ List.nodup_singleton _, fun id member => ?_, alone.paused ▸ .nil, fun id member => ?_,
    fun id => ?_, fun id ids joins => ?_⟩
  · rw [alone.alive] at member
    exact List.mem_singleton.mp member ▸ alone.old
  · rw [alone.paused] at member
    cases member
  · rw [alone.due, Agenda.left_of_not_paused (alone.paused ▸ List.not_mem_nil), List.count_nil]
  · have pausing := joins.paused
    rw [alone.paused] at pausing
    cases pausing

theorem serene : w.agenda.Serene := by
  have idle (id : TaskId) (wait : Wait) : (id, wait) ∉ w.agenda.waits := alone.waits ▸ List.not_mem_nil
  refine ⟨fun other member => ?_, fun id queued => ?_, fun id ids left cut waits => absurd waits (idle _ _),
    fun other member => ?_, fun id token waits => absurd waits (idle _ _), fun id waits => absurd waits (idle _ _)⟩
  · rw [alone.tasks] at member
    exact List.mem_singleton.mp member ▸ alone.unmarked
  · rw [alone.ready] at queued
    cases queued
  · rw [alone.tasks] at member
    exact fun id watches => absurd (List.mem_singleton.mp member ▸ watches) (alone.unwatched id)

theorem heeded : w.agenda.Heeded := by
  intro other member id ids left cut watches
  rw [alone.tasks] at member
  exact absurd (List.mem_singleton.mp member ▸ watches) (alone.unwatched id)

end Alone

/-- The posts when there is only one. -/
def Posts.only (t : TaskId) (b : Post) : Posts := Function.update (fun _ => none) t (some b)

theorem Posts.only_eq_some {s t : TaskId} {b c : Post} (known : Posts.only t b s = some c) : s = t ∧ c = b := by
  rcases noted_cases known with ⟨same, post⟩ | ⟨-, none⟩
  · exact ⟨same, (Option.some.inj post).symm⟩
  · cases none

theorem Posts.booked_only (t : TaskId) {b : Post} {l : Ledger} (owns : b.ledger = some l) :
    (Posts.only t b).Booked l final := by
  have single {s : TaskId} {l' : Ledger} (yours : (Posts.only t b).Owns s l') : s = t ∧ l' = l := by
    obtain ⟨c, known, mine⟩ := yours
    obtain ⟨same, rfl⟩ := only_eq_some known
    exact ⟨same, Option.some.inj (mine.symm.trans owns)⟩
  refine ⟨fun s t l₁ l₂ first second => (single first).1.trans (single second).1.symm,
    fun s l first => (single first).2.symm, fun none => absurd ?_ (none t l)⟩
  exact ⟨b, Function.update_self .., owns⟩

/-- The post of a task that is alone is kept when nothing is to be left behind or collected. -/
theorem Alone.kept {w : World σ} {task : Task} (alone : Alone w task x) {b : Post} (none : b.branches = []) :
    (Posts.only task.id b).Kept w.agenda x := by
  refine ⟨fun s => ?_, fun s c known branch member => ?_, fun s s' c c' known _ branch member => ?_,
    fun s c outcome _ _ => alone.left s, fun s outcome known => ?_⟩
  · rw [alone.alive, List.mem_singleton]
    constructor
    · rintro rfl
      exact ⟨b, Function.update_self ..⟩
    · rintro ⟨c, known⟩
      exact (Posts.only_eq_some known).1
  · obtain ⟨-, rfl⟩ := Posts.only_eq_some known
    rw [none] at member
    cases member
  · obtain ⟨-, rfl⟩ := Posts.only_eq_some known
    rw [none] at member
    cases member
  · rw [alone.left] at known
    cases known

/-- A task that reckons is on time when it begins alone. -/
theorem Alone.timely {w : World σ} {task : Task} (alone : Alone w task x) (calm : w.ledger.Calm)
    (reckons : p.Reckons h x w.ledger () y final) : ({ world := w, running := some (task.id, p) } : Machine σ).Timely h
      final (Posts.only task.id { term := y, ledger := some w.ledger }) x where
  clock := alone.clock
  orderly := alone.orderly
  serene := alone.serene
  heeded := alone.heeded
  calm
  kept := alone.kept rfl
  booked := Posts.booked_only task.id rfl
  apart := .nil
  paused s := by
    change s ∈ [] ↔ s ∈ w.agenda.paused
    rw [alone.paused]
  busy s living := by
    have living : s ∈ w.agenda.alive := living
    rw [alone.alive] at living
    cases List.mem_singleton.mp living
    exact .inl ⟨p, rfl⟩
  parked _ _ listed := absurd listed List.not_mem_nil
  running s p' going := by
    cases going
    have idle : task.id ∉ w.agenda.paused := alone.paused ▸ List.not_mem_nil
    have gathered : Post.Gathered { term := y, ledger := some w.ledger } w.agenda :=
      fun joined => absurd joined Bool.false_ne_true
    refine ⟨idle, _, Function.update_self .., reckons.later, gathered, ?_⟩
    apply (reckons.punctual task.id { term := y, ledger := some w.ledger } ⟨rfl, rfl⟩ rfl (le_refl y)).mono
    rintro _ _ _ ⟨rfl, rfl, rfl⟩
    exact ⟨⟨rfl, rfl, rfl⟩, fun l same => (Option.some.inj same).symm⟩

/-! ## The beginning of a play -/

theorem Plays.forced {m m₁ m' : Machine σ} (plays : m.Plays service m') (spent : m'.Spent service)
    (taken : m.step? service = some m₁) : m₁.Plays service m' := by
  cases plays with
  | refl => exact absurd (.inl taken) (spent m₁)
  | work _ taken' rest =>
    cases taken.symm.trans taken'
    exact rest
  | elapse idle => cases taken.symm.trans idle

/-- What a task does before it waits, runs an errand or creates a task, nobody interrupts. -/
theorem Plays.of_ahead {q : Routine σ α} {f : α → Routine σ Unit} {a : α} {w : World σ} (plays : m.Plays service m')
    (spent : m'.Spent service) (runs : m.running = some (t, q.bind f)) (alone : q.ahead m.world = (.done a, w)) :
    ({ m with world := w, running := some (t, f a) } : Machine σ).Plays service m' := by
  induction q generalizing m with
  | done b =>
    cases alone
    obtain ⟨world, parked, running⟩ := m
    cases runs
    exact plays
  | act g k ih =>
    have taken : m.step? service =
        some { m with world := (g m.world).2, running := some (t, (k (g m.world).1).bind f) } := by
      rw [step?, runs]
      rfl
    have next := plays.forced spent taken
    have later := ih _ next rfl alone
    exact later
  | wait | call | spawn => cases alone

end Machine

end Runbook
