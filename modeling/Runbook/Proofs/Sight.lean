import Runbook.Machine

/-! # What there is to see of one task

A machine keeps its tasks in several lists: what they do when they are resumed, what they wait for, which of
them are about to be resumed. Seen from one task each of these lists holds a few entries of its own, and what is
done to another task does not show.
-/

namespace Runbook

universe u

variable {σ : Type}

/-! ## What stands under a key -/

/-- What stands under a key, in order. -/
def under {κ : Type} {α : Type u} [BEq κ] (key : κ) (entries : List (κ × α)) : List α :=
  (entries.filter (·.1 == key)).map (·.2)

section Under

variable {κ : Type} {α : Type u} [BEq κ] {key other : κ} {entries : List (κ × α)} {a : α}

@[simp] theorem under_nil (key : κ) : under key ([] : List (κ × α)) = [] := rfl

@[simp] theorem under_append (key : κ) (entries more : List (κ × α)) :
    under key (entries ++ more) = under key entries ++ under key more := by
  simp [under]

variable [LawfulBEq κ]

@[simp] theorem under_singleton_self (key : κ) (a : α) : under key [(key, a)] = [a] := by
  simp [under]

theorem under_singleton_other (different : other ≠ key) (a : α) : under key [(other, a)] = [] := by
  simp [under, different]

theorem mem_under : a ∈ under key entries ↔ (key, a) ∈ entries := by
  constructor
  · intro member
    obtain ⟨⟨other, b⟩, found, rfl⟩ := List.mem_map.mp member
    obtain ⟨listed, same⟩ := List.mem_filter.mp found
    obtain rfl : other = key := by simpa using same
    exact listed
  · intro member
    exact List.mem_map.mpr ⟨(key, a), List.mem_filter.mpr ⟨member, by simp⟩, rfl⟩

/-- The first entry under a key is the one that a search finds. -/
theorem find?_key (key : κ) (entries : List (κ × α)) :
    entries.find? (·.1 == key) = (under key entries).head?.map fun a => (key, a) := by
  rw [under, List.head?_map, List.head?_filter, Option.map_map]
  cases found : entries.find? (·.1 == key) with
  | none => rfl
  | some entry =>
    obtain rfl : entry.1 = key := by simpa using List.find?_some found
    rfl

theorem under_filter_ne_self (key : κ) (entries : List (κ × α)) :
    under key (entries.filter (·.1 != key)) = [] := by
  rw [under, List.filter_filter]
  simp

/-- Entries that are left out under other keys are not missed. -/
theorem under_filter_of {keep : κ × α → Bool} (kept : ∀ a, keep (key, a) = true) :
    under key (entries.filter keep) = under key entries := by
  rw [under, under, List.filter_filter]
  congr 1
  refine List.filter_congr fun entry _ => ?_
  by_cases same : entry.1 = key
  · subst same
    rw [kept entry.2, Bool.and_true]
  · simp [same]

/-- If nothing stands under a key twice, no key stands there twice. -/
theorem nodup_of_under {entries : List (κ × α)} (single : ∀ key, (under key entries).length ≤ 1) :
    (entries.map (·.1)).Nodup := by
  refine List.nodup_iff_count.mpr fun key => ?_
  have counted : (entries.map (·.1)).count key = (under key entries).length := by
    rw [List.count_eq_countP, List.countP_map, List.countP_eq_length_filter, under, List.length_map]
    rfl
  rw [counted]
  exact single key

end Under

/-! ## Waits of a sort that end -/

/-- The task that a job resumes, and how. -/
def Job.wake? : Job → Option (TaskId × Wake)
  | .resume id wake => some (id, wake)
  | _ => none

namespace Agenda

variable {a : Agenda} {id other : TaskId} {wake : Wake} {sort : Wait → Bool}

/-- The ways in which a task is about to be resumed. -/
def wakes (a : Agenda) (id : TaskId) : List Wake := under id (a.ready.filterMap Job.wake?)

theorem wait?_eq_head? (a : Agenda) (id : TaskId) : a.wait? id = (under id a.waits).head? := by
  rw [wait?, find?_key, Option.map_map]
  cases (under id a.waits).head? <;> rfl

theorem wakes_enqueue_self (a : Agenda) (id : TaskId) (wake : Wake) :
    (a.enqueue (.resume id wake)).wakes id = a.wakes id ++ [wake] := by
  rw [wakes, enqueue, List.filterMap_append, under_append]
  exact congrArg _ (under_singleton_self id wake)

theorem wakes_enqueue_other (different : other ≠ id) (a : Agenda) (wake : Wake) :
    (a.enqueue (.resume other wake)).wakes id = a.wakes id := by
  rw [wakes, enqueue, List.filterMap_append, under_append]
  exact (congrArg _ (under_singleton_other different wake)).trans (List.append_nil _)

theorem wakes_dequeue_self {rest : List Job} (queue : a.ready = .resume id wake :: rest) :
    a.wakes id = wake :: ({ a with ready := rest } : Agenda).wakes id := by
  simp [wakes, queue, Job.wake?, under]

theorem wakes_dequeue_other {rest : List Job} (queue : a.ready = .resume other wake :: rest) (different : other ≠ id) :
    a.wakes id = ({ a with ready := rest } : Agenda).wakes id := by
  simp [wakes, queue, Job.wake?, under, different]

theorem task?_amend {f : Task → Task} (same : ∀ task, (f task).id = task.id) (a : Agenda) (id other : TaskId) :
    (a.amend id f).task? other = (a.task? other).map fun task => if other = id then f task else task := by
  have keys : (fun task : Task => task.id == other) ∘ (fun task => if task.id == id then f task else task) =
      fun task => task.id == other := by
    funext task
    simp only [Function.comp_apply]
    split
    · rw [same]
    · rfl
  rw [task?, amend, List.find?_map, keys, task?]
  cases found : a.tasks.find? (·.id == other) with
  | none => rfl
  | some task =>
    obtain rfl : task.id = other := by simpa using List.find?_some found
    simp only [Option.map_some, beq_iff_eq]

/-- Tasks are released one after another. -/
theorem foldl_release (ids : List TaskId) (a : Agenda) :
    ids.foldl (fun a id => a.release id wake) a = { a with
      waits := a.waits.filter fun w => decide (w.1 ∉ ids)
      ready := a.ready ++ ids.map fun id => .resume id wake } := by
  induction ids generalizing a with
  | nil =>
    have all : a.waits.filter (fun _ => true) = a.waits := List.filter_eq_self.mpr fun _ _ => rfl
    simp [all]
  | cons id rest ih =>
    rw [List.foldl_cons, ih]
    simp only [release, enqueue, List.filter_filter, List.append_assoc, List.map_cons, List.singleton_append]
    congr 1
    refine List.filter_congr fun w _ => ?_
    by_cases same : w.1 = id <;> simp [same]

theorem task?_create_self (new : a.task? a.created = none) :
    a.create.1.task? a.created = some { id := a.created } := by
  have new : a.tasks.find? (·.id == a.created) = none := new
  simp [task?, create, enqueue, List.find?_append, new]

theorem task?_create_other (different : id ≠ a.created) : a.create.1.task? id = a.task? id := by
  have other : ¬a.created = id := fun same => different same.symm
  simp [task?, create, enqueue, List.find?_append, other]

/-- The end of a task that nobody watches. -/
theorem finish_unwatched {task : Task} (found : a.task? id = some task) (unwatched : task.watchers = []) :
    a.finish id = { a with tasks := a.tasks.filter (·.id != id) } := by
  rw [finish, found, Option.map_some, unwatched]
  rfl

theorem task?_filter_self (a : Agenda) (id : TaskId) :
    ({ a with tasks := a.tasks.filter (·.id != id) } : Agenda).task? id = none := by
  simp [task?, List.find?_filter]

theorem task?_filter_other (different : other ≠ id) (a : Agenda) :
    ({ a with tasks := a.tasks.filter (·.id != id) } : Agenda).task? other = a.task? other := by
  rw [task?, task?, List.find?_filter]
  congr 1
  funext task
  by_cases same : task.id = other
  · simp [same, different]
  · simp [same]

theorem task?_releaseAll (a : Agenda) (sort : Wait → Bool) (wake : Wake) (id : TaskId) :
    (a.releaseAll sort wake).task? id = a.task? id := by
  rw [releaseAll, foldl_release]
  rfl

/-- A task goes on waiting if none of its waits is of the sort that ends. -/
theorem releaseAll_of_unsorted (wake : Wake) (kept : ∀ wait ∈ under id a.waits, sort wait = false) :
    under id (a.releaseAll sort wake).waits = under id a.waits ∧
      (a.releaseAll sort wake).wakes id = a.wakes id := by
  have unlisted : id ∉ (a.waits.filter fun w => sort w.2).map (·.1) := by
    intro listed
    obtain ⟨⟨other, wait⟩, found, rfl⟩ := List.mem_map.mp listed
    obtain ⟨member, sorted⟩ := List.mem_filter.mp found
    cases (kept wait (mem_under.mpr member)).symm.trans sorted
  rw [releaseAll, foldl_release]
  constructor
  · exact under_filter_of fun wait => decide_eq_true unlisted
  · rw [wakes, wakes, List.filterMap_append, under_append, List.append_right_eq_self]
    refine List.eq_nil_iff_forall_not_mem.mpr fun wake' member => ?_
    obtain ⟨job, queued, resumes⟩ := List.mem_filterMap.mp (mem_under.mp member)
    obtain ⟨other, listed, rfl⟩ := List.mem_map.mp queued
    obtain ⟨rfl, _⟩ := Prod.mk.inj (Option.some.inj resumes)
    exact unlisted listed

/-- A task whose one wait is of the sort that ends is about to be resumed. -/
theorem releaseAll_of_sorted {wait : Wait} (wake : Wake) (waits : under id a.waits = [wait])
    (sorted : sort wait = true) :
    under id (a.releaseAll sort wake).waits = [] ∧
      (a.releaseAll sort wake).wakes id = a.wakes id ++ [wake] := by
  have listed : id ∈ (a.waits.filter fun w => sort w.2).map (·.1) :=
    List.mem_map.mpr ⟨(id, wait), List.mem_filter.mpr ⟨mem_under.mp (waits ▸ List.mem_singleton_self _), sorted⟩, rfl⟩
  have chosen : under id (a.waits.filter fun w => sort w.2) = [wait] := by
    have parts : under id (a.waits.filter fun w => sort w.2) = (under id a.waits).filter sort := by
      simp only [under, List.filter_map, List.filter_filter]
      congr 1
      exact List.filter_congr fun w _ => Bool.and_comm _ _
    rw [parts, waits]
    simp [sorted]
  rw [releaseAll, foldl_release]
  constructor
  · refine List.eq_nil_iff_forall_not_mem.mpr fun wait' member => ?_
    have kept := (List.mem_filter.mp (mem_under.mp member)).2
    exact of_decide_eq_true kept listed
  · have told (waits : List (TaskId × Wait)) :
        under id (((waits.map (·.1)).map fun id => Job.resume id wake).filterMap Job.wake?) =
          (under id waits).map fun _ => wake := by
      induction waits with
      | nil => rfl
      | cons w rest ih =>
        by_cases same : w.1 = id
        · simp_all [under, Job.wake?]
        · simp_all [under, Job.wake?]
    rw [wakes, wakes, List.filterMap_append, under_append, told, chosen]
    rfl

end Agenda

/-! ## Sights -/

/-- What there is to see of one task. -/
structure Sight (σ : Type) where
  task : Option Task := none
  /-- What it does when it is resumed. -/
  parked : List (Wake → Routine σ Unit) := []
  /-- What it does now. -/
  running : Option (Routine σ Unit) := none
  waits : List Wait := []
  /-- The ways in which it is about to be resumed. -/
  wakes : List Wake := []

namespace Machine

variable {m : Machine σ} {t other : TaskId} {token : String} {wake : Wake} {resolution : Resolution}
  {k : Wake → Routine σ Unit} {p : Routine σ Unit}

/-- What there is to see of a task in a machine. -/
def sight (m : Machine σ) (t : TaskId) : Sight σ where
  task := m.world.agenda.task? t
  parked := under t m.parked
  running := (m.running.filter (·.1 == t)).map (·.2)
  waits := under t m.world.agenda.waits
  wakes := m.world.agenda.wakes t

/-- Whoever runs is seen to run. -/
theorem sight_running (running : m.running = some (t, p)) : (m.sight t).running = some p := by
  simp [sight, running]

theorem running_of_sight (running : (m.sight t).running = some p) : m.running = some (t, p) := by
  obtain ⟨⟨other, q⟩, found, rfl⟩ := Option.map_eq_some_iff.mp running
  rw [Option.filter_eq_some_iff] at found
  obtain rfl : other = t := by simpa using found.2
  exact found.1

/-- In an idle machine nobody runs or is about to be resumed. -/
theorem sight_idle (running : m.running = none) (ready : m.world.agenda.ready = []) (t : TaskId) :
    (m.sight t).running = none ∧ (m.sight t).wakes = [] := by
  simp [sight, running, Agenda.wakes, ready]

/-- A parked task is found as it is seen. -/
theorem parked_of_sight (parked : (m.sight t).parked = [k]) : m.parked.find? (·.1 == t) = some (t, k) := by
  have listed : under t m.parked = [k] := parked
  rw [find?_key, listed]
  rfl

/-! ### Requests that are settled -/

/-- How the wait for a request ends when it is settled. -/
def wakeOf : Resolution → Wake
  | .abandoned => .cancelled
  | _ => .ready

/-- The wait is for the answer to a request. -/
private def asksFor (token : String) : Wait → Bool
  | .decision other => other == token
  | _ => false

private theorem settle_agenda (w : World σ) (token : String) (resolution : Resolution) :
    (w.settle token resolution).agenda = w.agenda.releaseAll (asksFor token) (wakeOf resolution) := by
  cases resolution <;> rfl

theorem settle_created (w : World σ) (token : String) (resolution : Resolution) :
    (w.settle token resolution).agenda.created = w.agenda.created := by
  rw [settle_agenda, Agenda.releaseAll, Agenda.foldl_release]

/-- Those who waited for a request that is settled are about to be resumed. -/
theorem settle_ready (w : World σ) (token : String) (resolution : Resolution) :
    ∃ ids : List TaskId, (w.settle token resolution).agenda.ready =
      w.agenda.ready ++ ids.map fun id => .resume id (wakeOf resolution) := by
  rw [settle_agenda, Agenda.releaseAll, Agenda.foldl_release]
  exact ⟨_, rfl⟩

/-- Whoever does not wait for a request does not see it settled. -/
theorem sight_settle (resolution : Resolution) (kept : .decision token ∉ (m.sight t).waits) :
    ({ m with world := m.world.settle token resolution }).sight t = m.sight t := by
  have unsorted : ∀ wait ∈ under t m.world.agenda.waits, asksFor token wait = false := by
    intro wait member
    cases wait with
    | decision other =>
      rw [asksFor, beq_eq_false_iff_ne]
      rintro rfl
      exact kept member
    | _ => rfl
  obtain ⟨waits, wakes⟩ := Agenda.releaseAll_of_unsorted (wakeOf resolution) unsorted
  rw [sight, sight, settle_agenda, Agenda.task?_releaseAll, waits, wakes]

/-- Whoever waits for a request goes on when it is settled. -/
theorem sight_settle_waiting (resolution : Resolution) (waiting : (m.sight t).waits = [.decision token]) :
    ({ m with world := m.world.settle token resolution }).sight t =
      { m.sight t with waits := [], wakes := (m.sight t).wakes ++ [wakeOf resolution] } := by
  have sorted : asksFor token (.decision token) = true := beq_self_eq_true token
  obtain ⟨waits, wakes⟩ := Agenda.releaseAll_of_sorted (wakeOf resolution) waiting sorted
  rw [sight, sight, settle_agenda, Agenda.task?_releaseAll, waits, wakes]

/-! ### Cancellations -/

/-- A task that has ended cannot be cancelled. -/
theorem cancel_of_ended (ended : (m.sight t).task = none) : m.world.cancel t = (m.world, false) := by
  have ended : m.world.agenda.task? t = none := ended
  rw [World.cancel, World.cancelTask, ended]
  rfl

/-- A task that waits for an answer gives its request up. -/
theorem cancel_of_waiting {task : Task} (alive : (m.sight t).task = some task)
    (waiting : (m.sight t).waits = [.decision token]) :
    m.world.cancel t = (m.world.settle token .abandoned, true) := by
  have alive : m.world.agenda.task? t = some task := alive
  have waiting : m.world.agenda.wait? t = some (.decision token) := by
    rw [Agenda.wait?_eq_head?]
    exact congrArg List.head? waiting
  rw [World.cancel, World.cancelTask, alive, waiting]
  rfl

/-- A task that does not wait is cancelled at its next turn. -/
theorem cancel_of_idle {task : Task} (alive : (m.sight t).task = some task) (idle : (m.sight t).waits = []) :
    m.world.cancel t =
      ({ m.world with agenda := m.world.agenda.amend t ({ · with cancelled := true }) }, true) := by
  have alive : m.world.agenda.task? t = some task := alive
  have idle : m.world.agenda.wait? t = none := by
    rw [Agenda.wait?_eq_head?]
    exact congrArg List.head? idle
  rw [World.cancel, World.cancelTask, alive, idle]
  rfl

/-- A task that is marked, or whose mark is taken off. -/
theorem sight_amend {f : Task → Task} (same : ∀ task, (f task).id = task.id) (m : Machine σ) (t other : TaskId) :
    (m.schedule (·.amend t f)).sight other =
      { m.sight other with task := (m.sight other).task.map fun task => if other = t then f task else task } := by
  rw [sight, schedule, Agenda.task?_amend same]
  rfl

/-! ### Tasks that begin and end -/

theorem sight_launch_self {body : TaskId → Routine σ Unit} (new : m.sight m.world.agenda.created = {}) :
    (m.launch body).1.sight m.world.agenda.created =
      { task := some { id := m.world.agenda.created }
        parked := [firstTurn (body m.world.agenda.created)]
        wakes := [.ready] } := by
  obtain ⟨task, parked, running, waits, wakes⟩ := Sight.mk.inj new
  refine Sight.mk.injEq .. |>.mpr ⟨Agenda.task?_create_self task, ?_, running, waits, ?_⟩
  · change under _ (m.parked ++ _) = _
    rw [under_append, parked]
    exact under_singleton_self _ _
  · exact (Agenda.wakes_enqueue_self _ _ _).trans (congrArg (· ++ [Wake.ready]) wakes)

theorem sight_launch_other (different : t ≠ m.world.agenda.created) (body : TaskId → Routine σ Unit) :
    (m.launch body).1.sight t = m.sight t := by
  refine Sight.mk.injEq .. |>.mpr ⟨Agenda.task?_create_other different, ?_, rfl, rfl, ?_⟩
  · change under _ (m.parked ++ _) = _
    rw [under_append, under_singleton_other (Ne.symm different), List.append_nil]
  · exact Agenda.wakes_enqueue_other (Ne.symm different) _ _

/-- The running task goes on. -/
theorem sight_go_on_self {q : Routine σ Unit} {w : World σ} (agenda : w.agenda = m.world.agenda) :
    ({ m with world := w, running := some (t, q) }).sight t = { m.sight t with running := some q } := by
  simp [sight, agenda]

theorem sight_go_on_other {q : Routine σ Unit} {w : World σ} (agenda : w.agenda = m.world.agenda)
    (running : m.running = some (t, p)) (different : other ≠ t) :
    ({ m with world := w, running := some (t, q) }).sight other = m.sight other := by
  have unseen : (t == other) = false := beq_eq_false_iff_ne.mpr (Ne.symm different)
  simp [sight, agenda, running, Option.filter_some, unseen]

/-- A task that nobody watches ends. -/
theorem sight_finish_self {task : Task} (alive : m.sight t = { task := some task, running := some p })
    (unwatched : task.watchers = []) : (schedule { m with running := none } (·.finish t)).sight t = {} := by
  obtain ⟨found, parked, _, waits, wakes⟩ := Sight.mk.inj alive
  rw [schedule, Agenda.finish_unwatched found unwatched]
  exact Sight.mk.injEq .. |>.mpr ⟨Agenda.task?_filter_self _ t, parked, rfl, waits, wakes⟩

theorem sight_finish_other {task : Task} (alive : m.sight t = { task := some task, running := some p })
    (unwatched : task.watchers = []) (different : other ≠ t) :
    (schedule { m with running := none } (·.finish t)).sight other = m.sight other := by
  obtain ⟨found, _⟩ := Sight.mk.inj alive
  have running : m.running = some (t, p) := running_of_sight (by rw [alive])
  have unseen : (t == other) = false := beq_eq_false_iff_ne.mpr (Ne.symm different)
  rw [schedule, Agenda.finish_unwatched found unwatched]
  refine Sight.mk.injEq .. |>.mpr ⟨Agenda.task?_filter_other different _, rfl, ?_, rfl, rfl⟩
  simp [running, Option.filter_some, unseen]

/-! ### Tasks that wait and go on -/

/-- The machine with its running task waiting for an answer. -/
def suspended (m : Machine σ) (t : TaskId) (token : String) (k : Wake → Routine σ Unit) : Machine σ :=
  schedule { m with parked := m.parked ++ [(t, k)], running := none } (·.suspend t (.decision token))

theorem sight_suspended_self {task : Task} (token : String) (k : Wake → Routine σ Unit) (alive : m.sight t = { task := some task, running := some p }) :
    (m.suspended t token k).sight t = { task := some task, parked := [k], waits := [.decision token] } := by
  obtain ⟨found, parked, _, waits, wakes⟩ := Sight.mk.inj alive
  refine Sight.mk.injEq .. |>.mpr ⟨found, ?_, rfl, ?_, wakes⟩
  · change under t (m.parked ++ _) = _
    rw [under_append, parked, under_singleton_self, List.nil_append]
  · change under t (m.world.agenda.waits ++ _) = _
    rw [under_append, waits, under_singleton_self, List.nil_append]

theorem sight_suspended_other (running : m.running = some (t, p)) (different : other ≠ t) :
    (m.suspended t token k).sight other = m.sight other := by
  have unseen : (t == other) = false := beq_eq_false_iff_ne.mpr (Ne.symm different)
  refine Sight.mk.injEq .. |>.mpr ⟨rfl, ?_, ?_, ?_, rfl⟩
  · change under other (m.parked ++ _) = _
    rw [under_append, under_singleton_other (Ne.symm different), List.append_nil]
  · rw [running, Option.filter_some, unseen]
    rfl
  · change under other (m.world.agenda.waits ++ _) = _
    rw [under_append, under_singleton_other (Ne.symm different), List.append_nil]

/-- A task waits for an answer, unless it is marked; then it gives its request up at once. -/
theorem park_decision {task : Task} (alive : m.sight t = { task := some task, running := some p }) :
    m.park t (.decision token) k =
      if task.cancelled then
        let m' := (m.suspended t token k).schedule (·.amend t ({ · with cancelled := false }))
        { m' with world := m'.world.settle token .abandoned }
      else m.suspended t token k := by
  have mark : (((m.suspended t token k).world.agenda.task? t).map (·.cancelled)).getD false = task.cancelled := by
    rw [show (m.suspended t token k).world.agenda.task? t = some task from (Sight.mk.inj alive).1]
    rfl
  change (if (((m.suspended t token k).world.agenda.task? t).map (·.cancelled)).getD false then _ else _) = _
  rw [mark]
  cases task.cancelled with
  | false => rfl
  | true =>
    have sight := sight_amend (f := ({ · with cancelled := false })) (fun _ => rfl) (m.suspended t token k) t t
    rw [sight_suspended_self token k alive] at sight
    have cut := cancel_of_waiting (congrArg Sight.task sight) (congrArg Sight.waits sight)
    exact congrArg (fun given : World σ × Bool => { (m.suspended t token k).schedule
      (·.amend t ({ · with cancelled := false })) with world := given.1 }) cut

/-- The first job of the queue is about to be done. -/
def dequeued (m : Machine σ) (rest : List Job) : Machine σ := m.schedule ({ · with ready := rest })

/-- A task that is about to be resumed goes on; if it is marked it finds itself cancelled. -/
theorem resume_of_sight {task : Task} (wake : Wake) (found : (m.sight t).task = some task) (parked : (m.sight t).parked = [k]) :
    m.resume t wake = { m.schedule (·.amend t ({ · with cancelled := false })) with
      parked := m.parked.filter (·.1 != t)
      running := some (t, k (if task.cancelled then .cancelled else wake)) } := by
  have found : m.world.agenda.task? t = some task := found
  rw [resume, parked_of_sight parked]
  simp only [found, Option.map_some, Option.getD_some]
  rfl

theorem sight_resume_self {task : Task} {rest : List Job} (queue : m.world.agenda.ready = .resume t wake :: rest)
    (alive : m.sight t = { task := some task, parked := [k], wakes := [wake] }) :
    ((m.dequeued rest).resume t wake).sight t =
      { task := some { task with cancelled := false }
        running := some (k (if task.cancelled then .cancelled else wake)) } := by
  obtain ⟨found, parked, _, waits, wakes⟩ := Sight.mk.inj alive
  rw [resume_of_sight (m := m.dequeued rest) wake found parked]
  refine Sight.mk.injEq .. |>.mpr ⟨?_, under_filter_ne_self t m.parked, ?_, waits, ?_⟩
  · have amended := Agenda.task?_amend (f := ({ · with cancelled := false })) (fun _ => rfl) m.world.agenda t t
    rw [found, Option.map_some, if_pos rfl] at amended
    exact amended
  · simp
  · rw [Agenda.wakes_dequeue_self queue] at wakes
    exact (List.cons.inj wakes).2

theorem sight_resume_other {task : Task} {rest : List Job} (idle : m.running = none)
    (queue : m.world.agenda.ready = .resume t wake :: rest)
    (alive : m.sight t = { task := some task, parked := [k], wakes := [wake] }) (different : other ≠ t) :
    ((m.dequeued rest).resume t wake).sight other = m.sight other := by
  obtain ⟨found, parked, _⟩ := Sight.mk.inj alive
  have unseen : (t == other) = false := beq_eq_false_iff_ne.mpr (Ne.symm different)
  rw [resume_of_sight (m := m.dequeued rest) wake found parked]
  refine Sight.mk.injEq .. |>.mpr ⟨?_, ?_, ?_, rfl, ?_⟩
  · have amended := Agenda.task?_amend (f := ({ · with cancelled := false })) (fun _ => rfl) m.world.agenda t other
    simp only [different, if_false, Option.map_id'] at amended
    exact amended
  · exact under_filter_of fun _ => by simpa using different
  · rw [idle, Option.filter_some, unseen]
    rfl
  · exact (Agenda.wakes_dequeue_other queue (Ne.symm different)).symm

end Machine

end Runbook
