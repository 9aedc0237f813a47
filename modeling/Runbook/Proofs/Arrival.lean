import Runbook.Proofs.Timely

/-! # Machines stay on time

Jobs are done without any time passing. When nothing is left to do, the clock moves on to the next timer: whoever
waits for that timer is to go on then, and whoever waits for branches waits for one of them that has a later moment
before it, and so nobody is late.
-/

namespace Runbook

open Machine Interpreter

variable {σ : Type} {h : Habits} {final : Ledger} {e : Engine σ} {host : Host σ} {m m' : Machine σ} {posts : Posts}
  {a a' : Agenda} {x x' y : Moment} {t : TaskId} {b : Post} {wait : Option Wait} {ready : List Job}

namespace Machine.Timely

variable (timely : m.Timely h final posts x)

include timely

/-! ## Jobs -/

/-- A parked task is resumed at the moment that is settled for that. -/
theorem resumes (idle : m.running = none) {wake : Wake} (queue : m.world.agenda.ready = .resume t wake :: ready) :
    ((m.schedule ({ · with ready })).resume t wake).Timely h final posts x := by
  have taken := timely.orderly.dequeue queue rfl
  have released := timely.orderly.dequeue_resume queue
  have pauses := Agenda.paused_of_resume queue
  rcases (m.schedule ({ · with ready })).resume_cases t wake with ⟨absent, _⟩ | ⟨k, member, goes⟩
  · exact absurd ((timely.paused t).mpr (pauses.mem_iff.mpr List.mem_cons_self)) absent
  · obtain ⟨b, y, found, early, due, punctual⟩ := timely.parked t k member
    have waits : m.world.agenda.wait? t = none :=
      Agenda.wait?_eq_none_of_not_paused (a := { m.world.agenda with ready }) released
    rw [waits] at due
    obtain ⟨rfl, gathered⟩ := due.now
    have marked := taken.orderly.amend t (f := ({ · with cancelled := false })) fun _ => ⟨rfl, rfl⟩
    have stands := (taken.stands ⟨rfl, rfl, rfl⟩).trans (marked.stands ⟨rfl, rfl, rfl⟩)
    have others (s : TaskId) : s ∈ ({ m.world.agenda with ready } : Agenda).paused ↔
        s ∈ m.world.agenda.paused ∧ s ≠ t := by
      rw [pauses.mem_iff, List.mem_cons]
      constructor
      · intro still
        refine ⟨.inr still, ?_⟩
        rintro rfl
        exact released still
      · rintro ⟨paused, different⟩
        exact paused.resolve_left different
    rw [goes]
    exact {
      clock := timely.clock
      orderly := marked.orderly
      serene := (Agenda.soothes_unmark _ t).serene (timely.serene.dequeue queue (by simp))
      heeded := fun task' member id ids left cut watches waits => by
        obtain ⟨task, before, rfl⟩ := List.mem_map.mp member
        have same : (if task.id == t then { task with cancelled := false } else task).id = task.id ∧
            (if task.id == t then { task with cancelled := false } else task).watchers = task.watchers := by
          split <;> exact ⟨rfl, rfl⟩
        rw [same.1]
        rw [same.2] at watches
        exact timely.heeded task before id ids left cut watches waits
      calm := timely.calm
      kept := timely.kept.congr stands.alive stands.created stands.outcomes
      booked := timely.booked
      apart := timely.apart.sublist (List.filter_sublist.map _)
      paused := fun s => by
        change s ∈ (m.parked.filter (·.1 != t)).map (·.1) ↔ s ∈ ({ m.world.agenda with ready } : Agenda).paused
        rw [others, ← timely.paused]
        simp only [List.mem_map, List.mem_filter, bne_iff_ne]
        constructor
        · rintro ⟨task, ⟨listed, different⟩, same⟩
          exact ⟨⟨task, listed, same⟩, same ▸ different⟩
        · rintro ⟨⟨task, listed, same⟩, different⟩
          exact ⟨task, ⟨listed, same.symm ▸ different⟩, same⟩
      busy := fun s alive => by
        rcases eq_or_ne s t with rfl | different
        · exact .inl ⟨_, rfl⟩
        · rcases timely.busy s ((stands.alive s).mp alive) with ⟨p, going⟩ | paused
          · cases idle.symm.trans going
          · exact .inr ((others s).mpr ⟨paused, different⟩)
      parked := fun s k' listed => by
        obtain ⟨c, z, found', early', due', punctual'⟩ := timely.parked s k' (List.mem_filter.mp listed).1
        exact ⟨c, z, found', early', due'.congr fun _ _ => (stands.alive _).mp, punctual'⟩
      running := fun s p going => by
        cases going
        refine ⟨released, b, found, early, gathered.congr fun _ _ => (stands.alive _).mp, ?_⟩
        exact (timely.serene.resumed_ready queue).symm ▸ punctual }

/-- A job of the queue is done. -/
theorem executes (idle : m.running = none) {job : Job} (queue : m.world.agenda.ready = job :: ready) :
    ((m.schedule ({ · with ready })).execute job).Timely h final posts x := by
  cases job with
  | resume t wake => exact timely.resumes idle queue
  | ring t => exact timely.eased (timely.orderly.eases_ring timely.serene queue) rfl
  | report t => exact timely.eased (timely.orderly.eases_hear timely.serene queue) rfl
  | forget execution => exact timely.eased (timely.orderly.eases_forget timely.serene queue) rfl

/-! ## The clock -/

/-- Whatever a machine waits for that does not go on, it waits until the next timer at least. -/
theorem patient (idle : m.running = none) (queue : m.world.agenda.ready = []) (unlatched : ¬m.Latched) {first : Moment}
    (least : ∀ t (d : Moment), (t, .timer d.seconds) ∈ m.world.agenda.waits → first ≤ d) {k : Wake → Routine σ Unit}
    (parked : (t, k) ∈ m.parked) (found : posts t = some b) (due : b.Due m.world.agenda x (m.world.agenda.wait? t) y) :
    max x first ≤ y := by
  -- The induction goes from the latest task down: whom a task waits for was created after it.
  induction room : m.world.agenda.created - t using Nat.strongRecOn generalizing t b y k with
  | ind n ih =>
  subst room
  generalize waits : m.world.agenda.wait? t = wait at due
  cases due with
  | queued =>
    have paused := (timely.paused t).mp (List.mem_map_of_mem parked)
    rw [Agenda.paused, queue, List.filterMap_nil, List.append_nil] at paused
    obtain ⟨⟨s, wait⟩, member, rfl⟩ := List.mem_map.mp paused
    cases waits.symm.trans (timely.orderly.wait?_of_mem member)
  | ringing =>
    have rings := timely.serene.rings t (Agenda.mem_waits_of_wait? waits)
    rw [queue] at rings
    cases rings
  | latch key => exact absurd ⟨t, key, Agenda.mem_waits_of_wait? waits⟩ unlatched
  | timer d => exact max_le_max_left x (least t d (Agenda.mem_waits_of_wait? waits))
  | @tasks ids left cut _ _ named later terms _ =>
    have more := (timely.serene.uncut t ids left cut (Agenda.mem_waits_of_wait? waits)).2
    have counted : m.world.agenda.due.count t = left := by
      rw [timely.orderly.counted, Agenda.left, waits]
      rfl
    have told : t ∈ m.world.agenda.due := List.count_pos_iff.mp (counted ▸ more)
    rw [Agenda.due, queue, List.filterMap_nil, List.nil_append] at told
    obtain ⟨task, live, watched⟩ := List.mem_flatMap.mp told
    obtain ⟨watcher, watching, waiter⟩ := List.mem_filterMap.mp watched
    obtain rfl : watcher = .waiter t := by
      cases watcher with
      | waiter other => exact congrArg Watcher.waiter (Option.some.inj waiter)
      | background => cases waiter
    obtain ⟨branch, member, same⟩ := List.mem_map.mp (named ▸ timely.heeded task live t ids left cut watching waits)
    have holds := timely.kept.branches t b found branch member
    have alive : branch.id ∈ m.world.agenda.alive := same.symm ▸ List.mem_map_of_mem live
    have paused : branch.id ∈ m.world.agenda.paused := by
      refine (timely.busy branch.id alive).resolve_left ?_
      rintro ⟨p, going⟩
      cases idle.symm.trans going
    obtain ⟨⟨s, k'⟩, parked', rfl⟩ := List.mem_map.mp ((timely.paused branch.id).mpr paused)
    obtain ⟨c, z, found', early, due', -⟩ := timely.parked branch.id k' parked'
    have closer := Nat.sub_lt_sub_left (Nat.lt_trans holds.later holds.created) holds.later
    calc max x first ≤ z := ih _ closer parked' found' due' rfl
      _ ≤ c.term := early
      _ = branch.term := holds.term c found'
      _ ≤ y := terms branch member

/-- The clock moves on to the next timer, and nobody is late. -/
theorem elapses (idle : m.running = none) (queue : m.world.agenda.ready = []) (unlatched : ¬m.Latched)
    (elapsed : m.elapse? = some m') : ∃ x', m'.Timely h final posts x' := by
  obtain ⟨agenda, moved, rfl⟩ := Option.map_eq_some_iff.mp elapsed
  obtain ⟨next, found, rfl⟩ := Option.map_eq_some_iff.mp moved
  have shown (t : TaskId) (moment : Float) (waits : (t, .timer moment) ∈ m.world.agenda.waits) :
      ∃ d : Moment, d.seconds = moment := by
    have paused : t ∈ m.world.agenda.paused := List.mem_append_left _ (List.mem_map_of_mem waits)
    obtain ⟨⟨s, k⟩, parked, rfl⟩ := List.mem_map.mp ((timely.paused t).mpr paused)
    obtain ⟨b, y, _, _, due, _⟩ := timely.parked _ k parked
    rw [timely.orderly.wait?_of_mem waits] at due
    cases due with
    | timer d => exact ⟨d, rfl⟩
  obtain ⟨first, named, least⟩ := Agenda.nextDue?_moment found shown
  have now : (if m.world.agenda.now < next then next else m.world.agenda.now) = (max x first).seconds := by
    rw [timely.clock, ← named]
    split
    · next less => rw [max_eq_right ((Moment.lt_iff x first).mpr less).le]
    · next more => rw [max_eq_left (not_lt.mp (mt (Moment.lt_iff x first).mp more))]
  rw [now]
  let waited : Agenda := { m.world.agenda with now := (max x first).seconds }
  have tends : m.world.agenda.Tends waited := timely.orderly.congr rfl rfl rfl rfl
  have serene : waited.Serene := timely.serene.congr rfl rfl rfl
  have stands := tends.orderly.ringDue.stands waited.ringDue_retains
  have soothes := waited.soothes_ringDue
  have waits (t : TaskId) : waited.ringDue.wait? t = Agenda.rungAt (max x first).seconds (m.world.agenda.wait? t) :=
    tends.orderly.wait?_ringDue t
  refine ⟨max x first, {
    clock := stands.now
    orderly := stands.orderly
    serene := soothes.serene serene
    heeded := fun task member id ids left cut watches waiting => ?_
    calm := timely.calm
    kept := (timely.kept.later (le_max_left x first)).congr stands.alive stands.created stands.outcomes
    booked := timely.booked
    apart := timely.apart
    paused := fun t => (timely.paused t).trans ⟨soothes.paused t, stands.paused t⟩
    busy := fun t alive => (timely.busy t ((stands.alive t).mp alive)).imp_right (soothes.paused t)
    parked := fun t k listed => ?_
    running := fun t p runs => ?_ }⟩
  · rw [show waited.ringDue.tasks = m.world.agenda.tasks from waited.tasks_ringDue] at member
    have waiting := (waits id).symm.trans waiting
    unfold Agenda.rungAt at waiting
    split at waiting
    · split at waiting <;> cases waiting
    · exact timely.heeded task member id ids left cut watches waiting
  · obtain ⟨b, y, found, early, due, punctual⟩ := timely.parked t k listed
    have patient := timely.patient idle queue unlatched least listed found due
    refine ⟨b, y, found, early, ?_, punctual⟩
    have still := (due.elapses (le_max_left x first) patient).congr fun _ _ => (stands.alive _).mp
    rw [← waits t] at still
    exact still
  · cases idle.symm.trans runs

/-! ## What becomes of the ledger -/

end Machine.Timely

/-! ## Plays -/

/-- The running task is about to wait for a time that is no number. -/
def Machine.unnumbered (m : Machine σ) : Bool :=
  match m.running with
  | some (_, .wait (.time seconds) _) => seconds.isNaN
  | _ => false

/-- A machine is left to itself: it goes on as long as it can, and then the clock moves on to the next timer, unless
somebody waits at a latch. No time passes meanwhile, and nobody waits for a time that is no number. -/
inductive Machine.Plays (service : Service σ) : Machine σ → Machine σ → Prop
  | refl (m : Machine σ) : Plays service m m
  | work {m₁ m₂ m₃ : Machine σ} (number : m₁.unnumbered = false) (taken : m₁.step? service = some m₂)
      (rest : Plays service m₂ m₃) : Plays service m₁ m₃
  | elapse {m₁ m₂ m₃ : Machine σ} (idle : m₁.step? service = none) (unlatched : ¬m₁.Latched)
      (elapsed : m₁.elapse? = some m₂) (rest : Plays service m₂ m₃) : Plays service m₁ m₃

namespace Machine.Timely

/-- With every step tasks stay on time. -/
theorem works (timely : m.Timely h final posts x) (regular : host.Regular h) (number : m.unnumbered = false)
    (taken : m.step? (host.service e) = some m') : ∃ posts', m'.Timely h final posts' x := by
  rcases step?_cases taken with ⟨t, p, runs, rfl⟩ | ⟨job, ready, idle, queue, rfl⟩
  · cases p with
    | done => exact ⟨_, timely.finishes runs⟩
    | act f k => exact timely.acts runs
    | call errand k => exact timely.calls regular runs
    | spawn body k => exact timely.spawns runs
    | wait cue k =>
      rw [advance]
      cases immediate : immediate? m.world cue with
      | some wake => exact timely.goesOn runs immediate
      | none =>
        refine timely.parks runs (fun seconds same => ?_) immediate
        subst same
        rwa [unnumbered, runs] at number
  · exact ⟨posts, timely.executes idle queue⟩

/-- Tasks that are on time stay on time. -/
theorem plays (timely : m.Timely h final posts x) (regular : host.Regular h)
    (plays : m.Plays (host.service e) m') : ∃ posts' x', m'.Timely h final posts' x' := by
  induction plays generalizing posts x with
  | refl => exact ⟨posts, x, timely⟩
  | work number taken _ ih =>
    obtain ⟨posts', timely'⟩ := timely.works regular number taken
    exact ih timely'
  | @elapse m _ _ idle unlatched elapsed _ ih =>
    obtain ⟨silent, queue⟩ := step?_eq_none.mp idle
    obtain ⟨x', timely'⟩ := timely.elapses silent queue unlatched elapsed
    exact ih timely'

end Machine.Timely

end Runbook
