import Mathlib.Data.List.Nodup
import Mathlib.Data.List.Pairwise
import Runbook.Proofs.Obedience
import Runbook.Proofs.Run

/-! # Machines that adhere to a protocol

If the errands of an engine are neutral and all visits are, then every machine that a run leads to has
valid books, every step leads to later books, and no task is about to run an errand that the books do
not allow. The invariant assigns to each task, parked or running, what it holds: no two hold a course
for the same execution, the books bear all of it out, and each goes on as the protocol says from any
later books.
-/

namespace Runbook

variable {σ : Type}

/-! ## Scheduling leaves the books alone -/

namespace World

private theorem cancelAll_books (cancelOne : TaskId → World σ → World σ × Bool)
    (same : ∀ id w, (cancelOne id w).1.books = w.books) (ids : List TaskId) (w : World σ)
    (any : Bool) :
    (ids.foldl (fun (acc : World σ × Bool) other =>
      let (w, hit) := cancelOne other acc.1
      (w, acc.2 || hit)) (w, any)).1.books = w.books := by
  induction ids generalizing w any with
  | nil => rfl
  | cons id rest ih =>
    rw [List.foldl_cons, ih]
    exact same id w

theorem cancelTask_books (fuel : Nat) (id : TaskId) (w : World σ) :
    (w.cancelTask fuel id).1.books = w.books := by
  induction fuel generalizing id w with
  | zero => rfl
  | succ fuel ih =>
    rw [cancelTask]
    split
    · rfl
    · split
      · rfl
      · rfl
      · next ids left cut waits =>
        have same := cancelAll_books (fun other w => w.cancelTask fuel other) (fun id w => ih id w)
          ids w false
        split
        next cancelled any folded =>
          rw [folded] at same
          split
          · split <;> exact same
          · exact same
      · rfl

theorem cancel_books (w : World σ) (id : TaskId) : (w.cancel id).1.books = w.books :=
  cancelTask_books _ id w

end World

namespace Machine

theorem park_books (m : Machine σ) (id : TaskId) (cue : Cue) (k : Wake → Routine σ Unit) :
    (m.park id cue k).world.books = m.world.books := by
  unfold park
  simp only
  split
  · exact World.cancel_books _ id
  · rfl

theorem park_parked (m : Machine σ) (id : TaskId) (cue : Cue) (k : Wake → Routine σ Unit) :
    (m.park id cue k).parked = m.parked ++ [(id, k)] := by
  unfold park
  simp only
  split <;> rfl

theorem park_running (m : Machine σ) (id : TaskId) (cue : Cue) (k : Wake → Routine σ Unit) :
    (m.park id cue k).running = none := by
  unfold park
  simp only
  split <;> rfl

/-- Tasks are still parked once each when one more is parked. -/
theorem nodup_park {parked : List (TaskId × (Wake → Routine σ Unit))} {id : TaskId}
    (apart : (parked.map (·.1)).Nodup) (alone : id ∉ parked.map (·.1)) (k : Wake → Routine σ Unit) :
    ((parked ++ [(id, k)]).map (·.1)).Nodup := by
  rw [List.map_append]
  exact List.concat_eq_append ▸ apart.concat alone

end Machine

/-! ## The invariant -/

/-- A parked task with what it holds. -/
structure Parked (P : Protocol) (σ : Type) where
  id : TaskId
  resume : Wake → Routine σ Unit
  hold : Hold P.Course

variable {P : Protocol}

/-- The books bear out what the task holds, and from any later ones on it goes on as it should. -/
structure Parked.Waits (t : Parked P σ) (b : Books) : Prop where
  backs : P.Backs t.hold b
  obeys : ∀ wake b', P.Stands t.hold b' → P.Later b b' →
    (t.resume wake).Obeys P t.hold b' fun _ _ _ => True

theorem Parked.Waits.later (lawful : P.Lawful) {t : Parked P σ} {b b' : Books} (waits : t.Waits b)
    (backs : P.Backs t.hold b') (later : P.Later b b') : t.Waits b' :=
  ⟨backs, fun wake b'' stands after => waits.obeys wake b'' stands (lawful.later_trans later after)⟩

/-- The tasks of a machine obey the protocol; the running one, if any, holds `own`. -/
structure Machine.Obeys (P : Protocol) (m : Machine σ) (tasks : List (Parked P σ))
    (own : Hold P.Course) : Prop where
  stands : P.Stands own m.world.books
  parked : m.parked = tasks.map fun t => (t.id, t.resume)
  waits : ∀ t ∈ tasks, t.Waits m.world.books
  apart : tasks.Pairwise fun s t => s.hold.Apart t.hold
  ownApart : ∀ t ∈ tasks, own.Apart t.hold
  running : ∀ id p, m.running = some (id, p) → p.Obeys P own m.world.books fun _ _ _ => True

/-- The tasks of the machine obey the protocol, with suitable things to hold. -/
def Machine.Adheres (P : Protocol) (m : Machine σ) : Prop := ∃ tasks own, m.Obeys P tasks own

namespace Machine

variable {m m' : Machine σ} {tasks : List (Parked P σ)} {own : Hold P.Course}

theorem Obeys.adheres (obeys : m.Obeys P tasks own) : m.Adheres P := ⟨tasks, own, obeys⟩

/-- Only books and tasks matter. -/
private theorem Obeys.congr (obeys : m.Obeys P tasks own) (books : m'.world.books = m.world.books)
    (parked : m'.parked = m.parked) (running : m'.running = m.running) : m'.Obeys P tasks own where
  stands := books ▸ obeys.stands
  parked := parked.trans obeys.parked
  waits := books ▸ obeys.waits
  apart := obeys.apart
  ownApart := obeys.ownApart
  running id p runs := books ▸ obeys.running id p (running ▸ runs)

/-- The running task gives up its turn for good. -/
private theorem Obeys.stop (obeys : m.Obeys P tasks own) (books : m'.world.books = m.world.books)
    (parked : m'.parked = m.parked) (running : m'.running = none) :
    m'.Obeys P tasks Hold.idle where
  stands := books ▸ obeys.stands.within (Hold.idle_within own)
  parked := parked.trans obeys.parked
  waits := books ▸ obeys.waits
  apart := obeys.apart
  ownApart t _ := Hold.idle_apart t.hold
  running _ _ runs := nomatch running.symm.trans runs

/-- One more task is parked, with courses that nobody else holds. -/
private theorem Obeys.add (obeys : m.Obeys P tasks own) {task : Parked P σ} {rest : Hold P.Course}
    (books : m'.world.books = m.world.books)
    (parked : m'.parked = m.parked ++ [(task.id, task.resume)])
    (waits : task.Waits m.world.books) (taskWithin : task.hold.Within own)
    (restWithin : rest.Within own) (apart : rest.Apart task.hold)
    (running : ∀ id p, m'.running = some (id, p) → p.Obeys P rest m.world.books fun _ _ _ => True) :
    m'.Obeys P (tasks ++ [task]) rest where
  stands := books ▸ obeys.stands.within restWithin
  parked := by
    rw [parked, obeys.parked, List.map_append]
    rfl
  waits := by
    intro t member
    rw [books]
    rcases List.mem_append.mp member with old | new
    · exact obeys.waits t old
    · obtain rfl := List.mem_singleton.mp new
      exact waits
  apart := by
    refine List.pairwise_append.mpr ⟨obeys.apart, List.pairwise_singleton _ _, ?_⟩
    intro t old s new
    obtain rfl := List.mem_singleton.mp new
    exact (taskWithin.apart (obeys.ownApart t old)).symm
  ownApart := by
    intro t member
    rcases List.mem_append.mp member with old | new
    · exact restWithin.apart (obeys.ownApart t old)
    · obtain rfl := List.mem_singleton.mp new
      exact apart
  running id p runs := books ▸ running id p runs

/-- The running task changes the world. -/
private theorem Obeys.act (lawful : P.Lawful) (obeys : m.Obeys P tasks own) {own' : Hold P.Course}
    (deed : P.Deed own m.world.books m'.world.books own') (parked : m'.parked = m.parked)
    (running : ∀ id p, m'.running = some (id, p) →
      p.Obeys P own' m'.world.books fun _ _ _ => True) : m'.Obeys P tasks own' := by
  have later := lawful.later obeys.stands deed
  have frame (t : Parked P σ) (member : t ∈ tasks) :=
    lawful.frame obeys.stands deed (obeys.ownApart t member) (obeys.waits t member).backs
  exact {
    stands := lawful.stands obeys.stands deed
    parked := parked.trans obeys.parked
    waits t member := (obeys.waits t member).later lawful (frame t member).2 later
    apart := obeys.apart
    ownApart t member := (frame t member).1
    running }

/-! ## Steps -/

/-- One step of the running task. -/
private theorem Obeys.advance (lawful : P.Lawful) {service : Service σ}
    (neutral : ∀ errand, P.Neutral (fun _ => True) (service errand)) (obeys : m.Obeys P tasks own)
    {id : TaskId} {p : Routine σ Unit} (runs : m.running = some (id, p)) :
    (m.advance service id p).Adheres P ∧
      P.Later m.world.books (m.advance service id p).world.books := by
  have goesOn := obeys.running id p runs
  cases p with
  | done => exact ⟨⟨tasks, Hold.idle, obeys.stop rfl rfl rfl⟩, lawful.later_refl _⟩
  | act f k =>
    obtain ⟨own', deed, rest⟩ := goesOn m.world rfl
    refine ⟨⟨tasks, own', obeys.act lawful deed rfl ?_⟩, lawful.later obeys.stands deed⟩
    intro id' p' runs'
    cases runs'
    exact rest
  | call errand k =>
    refine ⟨⟨tasks, own, obeys.act lawful (lawful.rest own _) rfl ?_⟩, lawful.later_refl _⟩
    intro id' p' runs'
    cases runs'
    refine (neutral errand own _ obeys.stands trivial).bind lawful obeys.stands ?_
    rintro answer s b stands later rfl
    exact goesOn.2 answer b stands later
  | spawn body k =>
    obtain ⟨rest, given, restWithin, givenWithin, apart, child, next⟩ := goesOn m.world.agenda.create.2
    let task : Parked P σ :=
      ⟨m.world.agenda.create.2, firstTurn (body m.world.agenda.create.2), given⟩
    have waits : task.Waits m.world.books := by
      refine ⟨obeys.stands.backs.within givenWithin, ?_⟩
      rintro (_ | _) b' stands later
      · exact child b' stands later
      · trivial
    refine ⟨⟨tasks ++ [task], rest,
      obeys.add rfl rfl waits givenWithin restWithin apart ?_⟩, lawful.later_refl _⟩
    intro id' p' runs'
    cases runs'
    exact next
  | wait cue k =>
    rw [Machine.advance]
    cases immediate? m.world cue with
    | some wake =>
      refine ⟨⟨tasks, own, obeys.act lawful (lawful.rest own _) rfl ?_⟩, lawful.later_refl _⟩
      intro id' p' runs'
      cases runs'
      exact goesOn wake _ obeys.stands (lawful.later_refl _)
    | none =>
      have books := m.park_books id cue k
      let task : Parked P σ := ⟨id, k, own⟩
      have waits : task.Waits m.world.books := ⟨obeys.stands.backs, goesOn⟩
      refine ⟨⟨tasks ++ [task], Hold.idle, obeys.add books (m.park_parked id cue k) waits (.refl own)
        (Hold.idle_within own) (Hold.idle_apart own) ?_⟩, ?_⟩
      · intro id' p' runs'
        rw [m.park_running id cue k] at runs'
        cases runs'
      · rw [books]
        exact lawful.later_refl _

/-- A parked task is resumed. Whatever it holds, the tasks that stay parked hold nothing of it. -/
private theorem Obeys.resume (lawful : P.Lawful) (obeys : m.Obeys P tasks own) (id : TaskId)
    (wake : Wake) : (m.resume id wake).Adheres P := by
  have found : m.parked.find? (·.1 == id) = (tasks.find? (·.id == id)).map fun t => (t.id, t.resume) := by
    rw [obeys.parked, List.find?_map]
    rfl
  unfold Machine.resume
  cases chosen : tasks.find? (·.id == id) with
  | none =>
    rw [chosen] at found
    rw [found]
    exact obeys.adheres
  | some task =>
    rw [chosen] at found
    rw [found]
    have member := List.mem_of_find?_eq_some chosen
    have named : task.id = id := by simpa using List.find?_some chosen
    refine ⟨tasks.filter (·.id != id), task.hold, ?_⟩
    have stay (t : Parked P σ) (left : t ∈ tasks.filter (·.id != id)) : t ∈ tasks ∧ t.id ≠ id := by
      simpa using left
    exact {
      stands := ⟨obeys.stands.valid, (obeys.waits task member).backs⟩
      parked := by
        change m.parked.filter (·.1 != id) = _
        rw [obeys.parked, List.filter_map]
        rfl
      waits t left := obeys.waits t (stay t left).1
      apart := obeys.apart.filter _
      ownApart := by
        intro t left
        have different : task ≠ t := fun same => (stay t left).2 (same ▸ named)
        have : Std.Symm fun s t : Parked P σ => s.hold.Apart t.hold := ⟨fun _ _ apart => apart.symm⟩
        exact obeys.apart.forall member (stay t left).1 different
      running := by
        intro id' p' runs'
        cases runs'
        exact (obeys.waits task member).obeys _ _ ⟨obeys.stands.valid, (obeys.waits task member).backs⟩
          (lawful.later_refl _) }

private theorem resume_books (m : Machine σ) (id : TaskId) (wake : Wake) :
    (m.resume id wake).world.books = m.world.books := by
  unfold Machine.resume
  split <;> rfl

/-- The first job of the queue, which no task is running beside. -/
private theorem Obeys.execute (lawful : P.Lawful) (obeys : m.Obeys P tasks own) (job : Job) :
    (m.execute job).Adheres P ∧ P.Later m.world.books (m.execute job).world.books := by
  cases job with
  | resume id wake =>
    refine ⟨obeys.resume lawful id wake, ?_⟩
    rw [Machine.execute, resume_books]
    exact lawful.later_refl _
  | ring id => exact ⟨⟨tasks, own, obeys.congr rfl rfl rfl⟩, lawful.later_refl _⟩
  | report id => exact ⟨⟨tasks, own, obeys.congr rfl rfl rfl⟩, lawful.later_refl _⟩
  | forget execution => exact ⟨⟨tasks, own, obeys.congr rfl rfl rfl⟩, lawful.later_refl _⟩

end Machine

/-! ## Runs -/

/-- The protocol is one of the engine: it is lawful, it begins with empty books, and tools, observers
and visitors are neutral. -/
structure Protocol.Governs (P : Protocol) (e : Engine σ) (host : Host σ) (spared : String → Prop) :
    Prop where
  lawful : P.Lawful
  fresh : ∀ m : Machine σ, m.Fresh → P.Valid m.world.books
  service : ∀ errand, P.Neutral (fun _ => True) (host.service e errand)
  visit : ∀ p, Visit e spared p → P.Neutral (fun _ => True) p

namespace Protocol.Governs

open Machine

variable {e : Engine σ} {host : Host σ} {spared : String → Prop} {m m' : Machine σ}

theorem step (governs : P.Governs e host spared) (adheres : m.Adheres P)
    (step : Machine.Step e host spared m m') : m'.Adheres P ∧ P.Later m.world.books m'.world.books := by
  have lawful := governs.lawful
  obtain ⟨tasks, own, obeys⟩ := adheres
  cases step with
  | work taken =>
    rcases step?_cases taken with ⟨id, p, runs, rfl⟩ | ⟨job, ready, _, _, rfl⟩
    · exact obeys.advance lawful governs.service runs
    · have obeys' : (m.schedule ({ · with ready })).Obeys P tasks own := obeys.congr rfl rfl rfl
      exact obeys'.execute lawful job
  | visit body visits =>
    let task : Parked P σ :=
      ⟨m.world.agenda.create.2, firstTurn (body m.world.agenda.create.2), Hold.idle⟩
    have waits : task.Waits m.world.books := by
      refine ⟨backs_idle _, ?_⟩
      rintro (_ | _) b' stands later
      · exact (governs.visit _ (visits _) _ b' stands trivial).mono fun _ _ _ _ => trivial
      · trivial
    exact ⟨⟨tasks ++ [task], own, obeys.add rfl rfl waits (Hold.idle_within own) (.refl own)
      (Hold.idle_apart own).symm obeys.running⟩, lawful.later_refl _⟩
  | elapse elapsed =>
    obtain ⟨agenda, _, rfl⟩ := Option.map_eq_some_iff.mp elapsed
    exact ⟨⟨tasks, own, obeys.congr rfl rfl rfl⟩, lawful.later_refl _⟩
  | wind seconds => exact ⟨⟨tasks, own, obeys.congr rfl rfl rfl⟩, lawful.later_refl _⟩
  | cancel id =>
    have books := m.world.cancel_books id
    refine ⟨⟨tasks, own, obeys.congr books rfl rfl⟩, ?_⟩
    change P.Later m.world.books (m.world.cancel id).1.books
    rw [books]
    exact lawful.later_refl _

/-- The machine adheres to the protocol before anything happens. -/
theorem start (governs : P.Governs e host spared) (fresh : m.Fresh) : m.Adheres P := by
  refine ⟨[], Hold.idle, ?_⟩
  exact {
    stands := ⟨governs.fresh m fresh, backs_idle _⟩
    parked := fresh.parked
    waits := fun _ member => nomatch member
    apart := .nil
    ownApart := fun _ member => nomatch member
    running := fun _ _ runs => nomatch fresh.running.symm.trans runs }

theorem run (governs : P.Governs e host spared) (adheres : m.Adheres P)
    (run : Run e host spared m m') : m'.Adheres P ∧ P.Later m.world.books m'.world.books := by
  induction run with
  | refl => exact ⟨adheres, governs.lawful.later_refl _⟩
  | next _ last ih =>
    obtain ⟨adheres', later⟩ := governs.step ih.1 last
    exact ⟨adheres', governs.lawful.later_trans ih.2 later⟩

theorem adheres (governs : P.Governs e host spared) (reachable : Reachable e host spared m) :
    m.Adheres P := by
  obtain ⟨start, fresh, run⟩ := reachable
  exact (governs.run (governs.start fresh) run).1

theorem valid (governs : P.Governs e host spared) (reachable : Reachable e host spared m) :
    P.Valid m.world.books := by
  obtain ⟨_, _, obeys⟩ := governs.adheres reachable
  exact obeys.stands.valid

theorem later (governs : P.Governs e host spared) (reachable : Reachable e host spared m)
    (run : Run e host spared m m') : P.Later m.world.books m'.world.books :=
  (governs.run (governs.adheres reachable) run).2

/-- A task that is about to run an errand is allowed to. -/
theorem allows (governs : P.Governs e host spared) (reachable : Reachable e host spared m)
    {id : TaskId} {errand : Errand} {k : Except Interrupt Value → Routine σ Unit}
    (runs : m.running = some (id, .call errand k)) : P.Allows errand m.world.books := by
  obtain ⟨_, _, obeys⟩ := governs.adheres reachable
  exact (obeys.running id _ runs).1

end Protocol.Governs

end Runbook
