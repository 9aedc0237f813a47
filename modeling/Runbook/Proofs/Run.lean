import Runbook.Host

/-! # Runs of an engine

A machine starts with empty books and no tasks. From then on anyone may come with a visit at any time:
a program of its own that asks the engine for what callers can ask for. Between two steps of a task the
clock may move and any task may be cancelled. A run is any finite succession of all this, so that what
is proved of runs holds under every schedule.

Tools, observers and visitors put variables into the scope of an execution as they like, unless it is
one of those that are spared.
-/

namespace Runbook

variable {σ : Type}

/-! ## Visits -/

/-- The question assigns to no spared execution. -/
def Ask.Spares (spared : String → Prop) {β : Type} : Ask σ β → Prop
  | .assign execution _ => ¬spared execution
  | _ => True

/-- The script assigns to no spared execution. -/
def Script.Spares (spared : String → Prop) {α : Type} : Script σ α → Prop
  | .done _ => True
  | .ask question k => question.Spares spared ∧ ∀ b, (k b).Spares spared

/-- No tool and no observer assigns to a spared execution. -/
structure Host.Spares (host : Host σ) (spared : String → Prop) : Prop where
  tool : ∀ name parameters, (host.tool name parameters).Spares spared
  observer : ∀ callback event, (host.observer callback event).Spares spared

/-- The programs of visitors, who ask the engine for something again and again. -/
inductive Visit (e : Engine σ) (spared : String → Prop) : Routine σ Unit → Prop
  | leave : Visit e spared (.done ())
  | look {α : Type} (f : World σ → α) (k : α → Routine σ Unit) (rest : ∀ a, Visit e spared (k a)) :
      Visit e spared ((Routine.look f).bind k)
  | ask {β : Type} (question : Ask σ β) (k : β → Routine σ Unit)
      (spares : question.Spares spared) (rest : ∀ b, Visit e spared (k b)) :
      Visit e spared ((Host.answer e question).bind k)
  | execute (workflow options : Value) (k : Except Interrupt String → Routine σ Unit)
      (rest : ∀ r, Visit e spared (k r)) :
      Visit e spared ((ExceptT.run (e.execute workflow options)).bind k)
  | shutdown (k : Except Interrupt Unit → Routine σ Unit) (rest : ∀ r, Visit e spared (k r)) :
      Visit e spared ((ExceptT.run Engine.shutdown).bind k)
  | clearHistory (k : Unit → Routine σ Unit) (rest : ∀ a, Visit e spared (k a)) :
      Visit e spared ((Routine.change Engine.clearHistory).bind k)

/-! ## Steps and runs -/

namespace Machine

/-- Nothing has happened yet. -/
structure Fresh (m : Machine σ) : Prop where
  records : m.world.ledger.records = []
  active : m.world.ledger.active = []
  history : m.world.ledger.history = []
  journal : m.world.journal = []
  parked : m.parked = []
  running : m.running = none

/-- What can happen next to an engine with its tools and observers. -/
inductive Step (e : Engine σ) (host : Host σ) (spared : String → Prop) :
    Machine σ → Machine σ → Prop
  /-- A task goes on, or the first job of the queue is done. -/
  | work {m m' : Machine σ} (taken : m.step? (host.service e) = some m') : Step e host spared m m'
  | visit {m : Machine σ} (body : TaskId → Routine σ Unit) (visit : ∀ id, Visit e spared (body id)) :
      Step e host spared m (m.launch body).1
  | elapse {m m' : Machine σ} (elapsed : m.elapse? = some m') : Step e host spared m m'
  | wind (m : Machine σ) (seconds : Float) : Step e host spared m (m.moveClock seconds)
  /-- Someone cancels a task. -/
  | cancel (m : Machine σ) (id : TaskId) :
      Step e host spared m { m with world := (m.world.cancel id).1 }

/-- A finite succession of steps. -/
inductive Run (e : Engine σ) (host : Host σ) (spared : String → Prop) :
    Machine σ → Machine σ → Prop
  | refl (m : Machine σ) : Run e host spared m m
  | next {m₁ m₂ m₃ : Machine σ} (run : Run e host spared m₁ m₂) (step : Step e host spared m₂ m₃) :
      Run e host spared m₁ m₃

/-- A machine that a fresh one can become. -/
def Reachable (e : Engine σ) (host : Host σ) (spared : String → Prop) (m : Machine σ) : Prop :=
  ∃ start : Machine σ, start.Fresh ∧ Run e host spared start m

variable {e : Engine σ} {host : Host σ} {spared : String → Prop} {m m₁ m₂ m₃ : Machine σ}

theorem Run.trans (first : Run e host spared m₁ m₂) (second : Run e host spared m₂ m₃) :
    Run e host spared m₁ m₃ := by
  induction second with
  | refl => exact first
  | next _ step ih => exact ih.next step

theorem Reachable.run (reachable : Reachable e host spared m₁) (run : Run e host spared m₁ m₂) :
    Reachable e host spared m₂ := by
  obtain ⟨start, fresh, before⟩ := reachable
  exact ⟨start, fresh, before.trans run⟩

/-- Steps that the machine takes by itself are a run. -/
theorem run_settle (fuel : Nat) (m : Machine σ) :
    Run e host spared m (m.settle (host.service e) fuel) := by
  induction fuel generalizing m with
  | zero => exact .refl m
  | succ fuel ih =>
    rw [settle]
    cases taken : m.step? (host.service e) with
    | none => exact .refl m
    | some m' => exact (Run.next (.refl m) (.work taken)).trans (ih m')

theorem run_elapse (m : Machine σ) : Run e host spared m (m.elapse?.getD m) := by
  cases elapsed : m.elapse? with
  | none => exact .refl m
  | some m' => exact .next (.refl m) (.elapse elapsed)

/-- A visitor that comes to an idle machine has the next turn. -/
theorem running_of_idle {service : Service σ} (body : TaskId → Routine σ Unit) (idle : m.running = none)
    (quiet : m.world.agenda.ready = []) (unknown : m.world.agenda.task? m.world.agenda.created = none)
    (new : m.parked.find? (·.1 == m.world.agenda.created) = none) :
    ((m.launch body).1.settle service 1).running =
      some (m.world.agenda.created, body m.world.agenda.created) := by
  have found : (m.parked ++ [(m.world.agenda.created, firstTurn (body m.world.agenda.created))]).find?
      (·.1 == m.world.agenda.created) =
        some (m.world.agenda.created, firstTurn (body m.world.agenda.created)) := by
    simp [List.find?_append, new]
  have known : m.world.agenda.tasks.find? (·.id == m.world.agenda.created) = none := unknown
  simp [settle, step?, launch, idle, Agenda.create, Agenda.enqueue, quiet, schedule, execute, resume,
    found, Agenda.task?, Agenda.amend, List.find?_append, known, firstTurn]

/-- Nothing goes on in a machine, and the next task has a number of its own. -/
def quiet (m : Machine σ) : Bool :=
  m.running.isNone && m.world.agenda.ready.isEmpty &&
    (m.world.agenda.task? m.world.agenda.created).isNone &&
    (m.parked.find? (·.1 == m.world.agenda.created)).isNone

theorem running_of_quiet {service : Service σ} (body : TaskId → Routine σ Unit) (still : m.quiet = true) :
    ((m.launch body).1.settle service 1).running =
      some (m.world.agenda.created, body m.world.agenda.created) := by
  simp only [quiet, Bool.and_eq_true, Option.isNone_iff_eq_none, List.isEmpty_iff] at still
  obtain ⟨⟨⟨idle, ready⟩, unknown⟩, new⟩ := still
  exact running_of_idle body idle ready unknown new

/-! ## Runs from the beginning -/

/-- A machine in which nothing has happened, with registrations for events. -/
def blank (memory : σ) (bus : Bus) : Machine σ := { world := { memory, bus } }

theorem blank_fresh (memory : σ) (bus : Bus) : (blank memory bus).Fresh :=
  ⟨rfl, rfl, rfl, rfl, rfl, rfl⟩

/-- The machine after a visitor came to have a workflow executed, and after that many steps. -/
def executing (e : Engine σ) (host : Host σ) (workflow options : Value) (steps : Nat) (m : Machine σ) :
    Machine σ :=
  (m.launch fun _ => (ExceptT.run (e.execute workflow options)).bind fun _ => .done ()).1.settle
    (host.service e) steps

theorem run_executing (workflow options : Value) (steps : Nat) (m : Machine σ) :
    Run e host spared m (m.executing e host workflow options steps) := by
  have visited : Machine.Step e host spared m
      (m.launch fun _ => (ExceptT.run (e.execute workflow options)).bind fun _ => .done ()).1 :=
    .visit _ fun _ => .execute workflow options _ fun _ => .leave
  exact (Run.next (.refl m) visited).trans (run_settle steps _)

/-- Whatever becomes of a blank machine that executes a workflow is reachable. -/
theorem reachable_executing (memory : σ) (bus : Bus) (workflow options : Value) (steps : Nat) :
    Reachable e host spared ((blank memory bus).executing e host workflow options steps) :=
  ⟨_, blank_fresh memory bus, run_executing workflow options steps _⟩

end Machine

/-- An engine that knows every tool and asks nobody for permission. -/
def openEngine : Engine Unit where
  authority := { knows := fun _ memory => (true, memory) }

/-- Observers and tools that do nothing. -/
def idleHost : Host Unit where
  tool _ _ := .done (.ok .null)
  observer _ _ := .done (.ok ())

/-- A workflow of two tool steps. -/
def twoTools : Value :=
  let step (name : String) := Value.record [("type", .text "tool"), ("toolName", .text name)]
  Value.record [("id", .text "t"), ("name", .text "T"), ("steps", .list [step "first", step "second"])]

end Runbook
