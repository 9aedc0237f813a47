import Runbook.Routine

/-! # The machine

Runs tasks in a world, one small step at a time. At most one task is running; the others are parked
with what they do when they are resumed. When no task is running the first job of the queue is done,
and when there is none the machine is idle until the clock moves or something from outside happens.
-/

namespace Runbook

/-- How errands are run. -/
abbrev Service (σ : Type) := Errand → Routine σ (Except Interrupt Value)

/-- A world with its tasks. -/
structure Machine (σ : Type) where
  world : World σ
  /-- What the tasks that are not running do when they are resumed. -/
  parked : List (TaskId × (Wake → Routine σ Unit)) := []
  running : Option (TaskId × Routine σ Unit) := none

namespace Machine

variable {σ : Type}

/-- The machine with its agenda changed. -/
def schedule (m : Machine σ) (f : Agenda → Agenda) : Machine σ :=
  { m with world := { m.world with agenda := f m.world.agenda } }

/-- What a task does in its first turn, which a cancellation takes from it. -/
def firstTurn (body : Routine σ Unit) : Wake → Routine σ Unit
  | .ready => body
  | .cancelled => .done ()

/-- The machine with one more task, whose first turn is at the end of the queue. -/
def launch (m : Machine σ) (body : TaskId → Routine σ Unit) : Machine σ × TaskId :=
  let (agenda, id) := m.world.agenda.create
  ({ m with
      world := { m.world with agenda }
      parked := m.parked ++ [(id, firstTurn (body id))] }, id)

/-- How a wait would end at once, if there is nothing to wait for. -/
def immediate? (w : World σ) : Cue → Option Wake
  | .time _ => none
  | .decision token =>
    (w.gate.find? token).bind fun r => match r.resolution with
      | .unsettled => none
      | .decided _ => some .ready
      | .abandoned => some .cancelled
  | .latch key => if w.isOpen key then some .ready else none
  | .tasks ids => if ids.isEmpty then some .ready else none

/-- The agenda with a task waiting for a cue. -/
def heed (id : TaskId) (cue : Cue) (a : Agenda) : Agenda :=
  match cue with
  | .time seconds => a.sleep id seconds
  | .decision token => a.suspend id (.decision token)
  | .latch key => a.suspend id (.latch key)
  | .tasks ids => a.join id ids

/-- The machine with its running task parked. A cancellation that came while it was running cuts its
wait short. -/
def park (m : Machine σ) (id : TaskId) (cue : Cue) (k : Wake → Routine σ Unit) : Machine σ :=
  let m := schedule { m with parked := m.parked ++ [(id, k)], running := none } (heed id cue)
  if ((m.world.agenda.task? id).map (·.cancelled)).getD false then
    let m := m.schedule fun a => a.amend id ({ · with cancelled := false })
    { m with world := (m.world.cancel id).1 }
  else m

/-- One step of the running task. -/
def advance (service : Service σ) (m : Machine σ) (id : TaskId) : Routine σ Unit → Machine σ
  | .done _ => schedule { m with running := none } (·.finish id)
  | .act f k =>
    let (b, world) := f m.world
    { m with world, running := some (id, k b) }
  | .call errand k => { m with running := some (id, (service errand).bind k) }
  | .spawn body k =>
    let (m, child) := m.launch body
    { m with running := some (id, k child) }
  | .wait cue k =>
    match immediate? m.world cue with
    | some wake => { m with running := some (id, k wake) }
    | none => m.park id cue k

/-- A parked task made the running one. One that is to be cancelled is cancelled now. -/
def resume (m : Machine σ) (id : TaskId) (wake : Wake) : Machine σ :=
  match m.parked.find? (·.1 == id) with
  | none => m
  | some (_, k) =>
    let cancelled := ((m.world.agenda.task? id).map (·.cancelled)).getD false
    let m := m.schedule fun a => a.amend id ({ · with cancelled := false })
    { m with
      parked := m.parked.filter (·.1 != id)
      running := some (id, k (if cancelled then .cancelled else wake)) }

/-- Nothing happens when a task is to be resumed that is not parked, and a parked one runs from then on. -/
theorem resume_cases (m : Machine σ) (id : TaskId) (wake : Wake) :
    id ∉ m.parked.map (·.1) ∧ m.resume id wake = m ∨
      ∃ k, (id, k) ∈ m.parked ∧ m.resume id wake =
        { m.schedule fun a => a.amend id ({ · with cancelled := false }) with
          parked := m.parked.filter (·.1 != id)
          running := some (id,
            k (if ((m.world.agenda.task? id).map (·.cancelled)).getD false then .cancelled else wake)) } := by
  unfold resume
  split
  · next none =>
    refine .inl ⟨fun listed => ?_, rfl⟩
    obtain ⟨task, member, rfl⟩ := List.mem_map.mp listed
    simpa using List.find?_eq_none.mp none task member
  · next key k chosen =>
    obtain rfl : key = id := by simpa using List.find?_some chosen
    exact .inr ⟨k, List.mem_of_find?_eq_some chosen, rfl⟩

/-- A job is done. -/
def execute (m : Machine σ) : Job → Machine σ
  | .resume id wake => m.resume id wake
  | .ring id => m.schedule (·.ring id)
  | .report id => m.schedule (·.hear id)
  | .forget execution =>
    { m with world := { m.world with
      background := m.world.background.filter (·.1 != execution) } }

/-- One step: of the running task, or else the first job of the queue. An idle machine has none. -/
def step? (service : Service σ) (m : Machine σ) : Option (Machine σ) :=
  match m.running with
  | some (id, routine) => some (m.advance service id routine)
  | none =>
    match m.world.agenda.ready with
    | [] => none
    | job :: rest => some ((m.schedule ({ · with ready := rest })).execute job)

/-- A step is one of the running task or, when no task is running, the first job of the queue. -/
theorem step?_cases {service : Service σ} {m m' : Machine σ} (taken : m.step? service = some m') :
    (∃ id routine, m.running = some (id, routine) ∧ m' = m.advance service id routine) ∨
      ∃ job ready, m.running = none ∧ m.world.agenda.ready = job :: ready ∧
        m' = (m.schedule ({ · with ready })).execute job := by
  unfold step? at taken
  split at taken
  · next id routine running => exact .inl ⟨id, routine, running, (Option.some.inj taken).symm⟩
  · next idle =>
    split at taken
    · cases taken
    · next job ready queue => exact .inr ⟨job, ready, idle, queue, (Option.some.inj taken).symm⟩

theorem step?_eq_none {service : Service σ} {m : Machine σ} :
    m.step? service = none ↔ m.running = none ∧ m.world.agenda.ready = [] := by
  unfold step?
  split
  · next running => simp [running]
  · next idle =>
    split
    · next empty => simp [idle, empty]
    · next queue => simp [queue]

/-- Steps until the machine is idle. -/
def settle (service : Service σ) : (fuel : Nat) → Machine σ → Machine σ
  | 0, m => m
  | fuel + 1, m =>
    match m.step? service with
    | some m => settle service fuel m
    | none => m

/-- An idle machine with the clock moved on to the next timer. -/
def elapse? (m : Machine σ) : Option (Machine σ) :=
  m.world.agenda.elapse?.map fun agenda => { m with world := { m.world with agenda } }

/-- The machine with the clock moved to a later moment, and the timers that are due rung. -/
def moveClock (m : Machine σ) (seconds : Float) : Machine σ :=
  m.schedule fun a => Agenda.ringDue { a with now := a.now + seconds }

/-- Steps until a task has ended, with the clock moving on whenever the machine is idle. -/
def complete (service : Service σ) (id : TaskId) : (fuel : Nat) → Machine σ → Machine σ
  | 0, m => m
  | fuel + 1, m =>
    if (m.world.agenda.task? id).isNone then m
    else match m.step? service with
      | some m => complete service id fuel m
      | none =>
        match m.elapse? with
        | some m => complete service id fuel m
        | none => m

end Machine

end Runbook
