import Mathlib.Data.List.Nodup
import Runbook.World

/-! # Order in the agenda

A task that does not run waits for one thing or is about to be resumed, never both, so that nothing
resumes it twice. A task that waits for others counts down the reports of their ends: what is left to
count is what reports there are in the queue and among the watchers of live tasks. So a task that goes
on after such a wait finds that all of those others have ended.
-/

namespace Runbook

/-- The tasks whose ends are waited for. -/
def Wait.joins : Wait → Option (List TaskId)
  | .tasks ids _ _ => some ids
  | _ => none

/-- How many reports are waited for. -/
def Wait.left : Wait → Nat
  | .tasks _ left _ => left
  | _ => 0

/-- The request whose answer is waited for. -/
def Wait.asks : Wait → Option String
  | .decision token => some token
  | _ => none

/-- The task that a job resumes. -/
def Job.resumed? : Job → Option TaskId
  | .resume id _ => some id
  | _ => none

/-- The task that a job reports an end to. -/
def Job.reported? : Job → Option TaskId
  | .report id => some id
  | _ => none

/-- The task that waits for an end that a watcher is told of. -/
def Watcher.waiter? : Watcher → Option TaskId
  | .waiter id => some id
  | _ => none

namespace Agenda

/-- The tasks that have not ended. -/
def alive (a : Agenda) : List TaskId := a.tasks.map (·.id)

/-- The tasks that wait, and those that are about to be resumed. -/
def paused (a : Agenda) : List TaskId := a.waits.map (·.1) ++ a.ready.filterMap Job.resumed?

/-- The tasks that reports go to, one entry for each report that is in the queue or still to come. -/
def due (a : Agenda) : List TaskId :=
  a.ready.filterMap Job.reported? ++ a.tasks.flatMap fun task => task.watchers.filterMap Watcher.waiter?

/-- How many reports a task waits for. -/
def left (a : Agenda) (id : TaskId) : Nat := ((a.wait? id).map Wait.left).getD 0

/-- The task waits for others to end. -/
def Joins (a : Agenda) (id : TaskId) (ids : List TaskId) : Prop :=
  ∃ wait, (id, wait) ∈ a.waits ∧ wait.joins = some ids

/-- The task waits for an answer. -/
def Asks (a : Agenda) (id : TaskId) (token : String) : Prop :=
  ∃ wait, (id, wait) ∈ a.waits ∧ wait.asks = some token

/-- Live tasks have numbers of their own, no task can be resumed twice, and whoever waits for others
watches those that live and counts what reports are due. -/
structure Orderly (a : Agenda) : Prop where
  nodup : a.alive.Nodup
  numbered : ∀ id ∈ a.alive, id < a.created
  once : a.paused.Nodup
  known : ∀ id ∈ a.paused, id < a.created
  counted : ∀ id, a.due.count id = a.left id
  watched : ∀ id ids, a.Joins id ids → (∀ other ∈ ids, other < a.created) ∧
    ∀ task ∈ a.tasks, task.id ∈ ids → .waiter id ∈ task.watchers

/-- What can become of an agenda while a task waits. No task lives again. Who waits for others goes on
waiting for them until they have ended, and nobody is told to forget a background task before it has. -/
structure Passes (a a' : Agenda) : Prop where
  created : a.created ≤ a'.created
  ended : ∀ id < a.created, id ∈ a'.alive → id ∈ a.alive
  joined : ∀ id ids, a.Joins id ids → a'.Joins id ids ∨ ∀ other ∈ ids, other ∉ a'.alive
  watched : ∀ task' ∈ a'.tasks, ∀ execution, .background execution ∈ task'.watchers →
    ∃ task ∈ a.tasks, task.id = task'.id ∧ .background execution ∈ task.watchers
  forgets : ∀ execution, .forget execution ∈ a'.ready → .forget execution ∈ a.ready ∨
    ∃ task ∈ a.tasks, .background execution ∈ task.watchers ∧ task.id ∉ a'.alive

/-- What is certain of any agenda that an agenda can become: no task lives again, and who waits for others
goes on waiting for them until they have ended. -/
structure Continues (a a' : Agenda) : Prop where
  created : a.created ≤ a'.created
  ended : ∀ id < a.created, id ∈ a'.alive → id ∈ a.alive
  joined : ∀ id ids, a.Joins id ids → a'.Joins id ids ∨ ∀ other ∈ ids, other ∉ a'.alive

/-- The task waits for others, or they have ended. -/
structure Awaits (a : Agenda) (id : TaskId) (ids : List TaskId) : Prop where
  bounded : ∀ other ∈ ids, other < a.created
  joins : a.Joins id ids ∨ ∀ other ∈ ids, other ∉ a.alive

variable {a a' a'' : Agenda} {id other : TaskId} {wait wait' : Wait} {ready : List Job}

theorem Passes.refl (a : Agenda) : a.Passes a where
  created := Nat.le_refl _
  ended _ _ alive := alive
  joined _ _ joins := .inl joins
  watched task member _ watched := ⟨task, member, rfl, watched⟩
  forgets _ queued := .inl queued

theorem Passes.continues (passes : a.Passes a') : a.Continues a' :=
  ⟨passes.created, passes.ended, passes.joined⟩

theorem Awaits.later {ids : List TaskId} (awaits : a.Awaits id ids) (continues : a.Continues a') :
    a'.Awaits id ids where
  bounded other listed := Nat.lt_of_lt_of_le (awaits.bounded other listed) continues.created
  joins := by
    rcases awaits.joins with joins | gone
    · exact continues.joined id ids joins
    · exact .inr fun other listed alive =>
        gone other listed (continues.ended other (awaits.bounded other listed) alive)

theorem Passes.trans (orderly : a.Orderly) (first : a.Passes a') (second : a'.Passes a'') :
    a.Passes a'' where
  created := Nat.le_trans first.created second.created
  ended id old alive := first.ended id old (second.ended id (Nat.lt_of_lt_of_le old first.created) alive)
  joined id ids joins := by
    rcases first.joined id ids joins with joins' | ended
    · exact second.joined id ids joins'
    · refine .inr fun other member alive => ended other member (second.ended other ?_ alive)
      exact Nat.lt_of_lt_of_le ((orderly.watched id ids joins).1 other member) first.created
  watched task'' member execution watched := by
    obtain ⟨task', member', same', watched'⟩ := second.watched task'' member execution watched
    obtain ⟨task, member, same, watched⟩ := first.watched task' member' execution watched'
    exact ⟨task, member, same.trans same', watched⟩
  forgets execution queued := by
    rcases second.forgets execution queued with queued' | ⟨task', member', watched', ended⟩
    · refine (first.forgets execution queued').imp_right ?_
      rintro ⟨task, member, watched, ended⟩
      have old := orderly.numbered task.id (List.mem_map_of_mem member)
      exact ⟨task, member, watched, fun alive =>
        ended (second.ended _ (Nat.lt_of_lt_of_le old first.created) alive)⟩
    · obtain ⟨task, member, same, watched⟩ := first.watched task' member' execution watched'
      exact .inr ⟨task, member, watched, same ▸ ended⟩

/-- The agenda stays orderly, no task ends, and nobody begins to wait for an answer or pauses but a new
task. -/
structure Tends (a a' : Agenda) : Prop where
  orderly : a'.Orderly
  passes : a.Passes a'
  lives : ∀ id ∈ a.alive, id ∈ a'.alive
  asks : ∀ id token, a'.Asks id token → a.Asks id token
  paused : ∀ id ∈ a'.paused, id ∈ a.paused ∨ a.created ≤ id

theorem Orderly.tends (orderly : a.Orderly) : a.Tends a :=
  ⟨orderly, .refl a, fun _ alive => alive, fun _ _ asks => asks, fun _ member => .inl member⟩

theorem Tends.trans (orderly : a.Orderly) (first : a.Tends a') (second : a'.Tends a'') :
    a.Tends a'' :=
  ⟨second.orderly, first.passes.trans orderly second.passes,
    fun id alive => second.lives id (first.lives id alive),
    fun id token asks => first.asks id token (second.asks id token asks),
    fun id member => (second.paused id member).elim (first.paused id) fun new =>
      .inr (Nat.le_trans first.passes.created new)⟩

/-! ## Looking up -/

theorem Orderly.keys (orderly : a.Orderly) : (a.waits.map (·.1)).Nodup :=
  (List.nodup_append.mp orderly.once).1

theorem mem_waits_of_wait? (found : a.wait? id = some wait) : (id, wait) ∈ a.waits := by
  obtain ⟨w, chosen, rfl⟩ := Option.map_eq_some_iff.mp found
  have named : w.1 = id := by simpa using List.find?_some chosen
  have member := List.mem_of_find?_eq_some chosen
  rwa [← named]

theorem Orderly.wait?_of_mem (orderly : a.Orderly) (member : (id, wait) ∈ a.waits) :
    a.wait? id = some wait := by
  obtain ⟨w, chosen⟩ : ∃ w, a.waits.find? (·.1 == id) = some w :=
    Option.isSome_iff_exists.mp (List.find?_isSome.mpr ⟨_, member, by simp⟩)
  have named : w.1 = id := by simpa using List.find?_some chosen
  have same : w = (id, wait) :=
    List.inj_on_of_nodup_map orderly.keys (List.mem_of_find?_eq_some chosen) member named
  rw [wait?, chosen, same]
  rfl

theorem wait?_eq_none_of_not_paused (absent : id ∉ a.paused) : a.wait? id = none := by
  cases found : a.wait? id with
  | none => rfl
  | some wait =>
    exact absurd (List.mem_append_left _ (List.mem_map_of_mem (mem_waits_of_wait? found))) absent

theorem left_of_not_paused (absent : id ∉ a.paused) : a.left id = 0 := by
  rw [left, wait?_eq_none_of_not_paused absent]
  rfl

theorem Joins.paused {ids : List TaskId} (joins : a.Joins id ids) : id ∈ a.paused := by
  obtain ⟨wait, member, _⟩ := joins
  exact List.mem_append_left _ (List.mem_map_of_mem member)

theorem Asks.paused {token : String} (asks : a.Asks id token) : id ∈ a.paused := by
  obtain ⟨wait, member, _⟩ := asks
  exact List.mem_append_left _ (List.mem_map_of_mem member)

theorem task?_eq_none : a.task? id = none ↔ id ∉ a.alive := by
  simp [task?, alive]

/-! ## Tasks and the queue -/

/-- Only the tasks, their waits and the queue matter. -/
theorem Orderly.congr (orderly : a.Orderly) (tasks : a'.tasks = a.tasks) (waits : a'.waits = a.waits)
    (ready : a'.ready = a.ready) (created : a'.created = a.created) : a.Tends a' := by
  obtain ⟨now, ready', waits', tasks', created', outcomes⟩ := a'
  subst tasks waits ready created
  exact ⟨⟨orderly.nodup, orderly.numbered, orderly.once, orderly.known, orderly.counted, orderly.watched⟩,
    ⟨Nat.le_refl _, fun _ _ alive => alive, fun _ _ joins => .inl joins,
      fun task member _ watched => ⟨task, member, rfl, watched⟩, fun _ queued => .inl queued⟩,
    fun _ alive => alive, fun _ _ asks => asks, fun _ member => .inl member⟩

/-- A change of tasks that concerns neither their numbers nor their watchers. -/
theorem Orderly.amend (orderly : a.Orderly) (id : TaskId) {f : Task → Task}
    (same : ∀ task, (f task).id = task.id ∧ (f task).watchers = task.watchers) :
    a.Tends (a.amend id f) := by
  have ids : ∀ task : Task, (if task.id == id then f task else task).id = task.id := by
    intro task
    split
    · exact (same task).1
    · rfl
  have watchers : ∀ task : Task, (if task.id == id then f task else task).watchers = task.watchers := by
    intro task
    split
    · exact (same task).2
    · rfl
  have alive : (a.amend id f).alive = a.alive := by
    simp only [Agenda.alive, Agenda.amend, List.map_map]
    exact List.map_congr_left fun task _ => ids task
  have due : (a.amend id f).due = a.due := by
    simp only [Agenda.due, Agenda.amend, List.flatMap_map, watchers]
  refine ⟨⟨alive ▸ orderly.nodup, alive ▸ orderly.numbered, orderly.once, orderly.known, ?_, ?_⟩,
    ⟨Nat.le_refl _, fun _ _ live => alive ▸ live, fun _ _ joins => .inl joins, ?_,
      fun _ queued => .inl queued⟩, fun _ live => alive ▸ live, fun _ _ asks => asks,
    fun _ member => .inl member⟩
  · intro other
    rw [due]
    exact orderly.counted other
  · refine fun other others joins => ⟨(orderly.watched other others joins).1, fun task' changed listed => ?_⟩
    obtain ⟨task, member, rfl⟩ := List.mem_map.mp changed
    rw [ids task] at listed
    rw [watchers task]
    exact (orderly.watched other others joins).2 task member listed
  · intro task' changed execution watched
    obtain ⟨task, member, rfl⟩ := List.mem_map.mp changed
    rw [watchers task] at watched
    exact ⟨task, member, (ids task).symm, watched⟩

/-- Another queue in which the same reports are due, and nobody is to be resumed or forgotten who was
not before. -/
theorem Orderly.requeue (orderly : a.Orderly)
    (once : ({ a with ready } : Agenda).paused.Nodup)
    (resumed : ∀ id ∈ ready.filterMap Job.resumed?, id ∈ a.paused)
    (reported : (ready.filterMap Job.reported?).Perm (a.ready.filterMap Job.reported?))
    (forgets : ∀ execution, .forget execution ∈ ready → .forget execution ∈ a.ready) :
    a.Tends { a with ready } := by
  have paused (id : TaskId) (member : id ∈ ({ a with ready } : Agenda).paused) : id ∈ a.paused :=
    (List.mem_append.mp member).elim (List.mem_append_left _) (resumed id)
  refine ⟨⟨orderly.nodup, orderly.numbered, once, fun id member => orderly.known id (paused id member),
      fun id => ((reported.append_right _).count_eq id).trans (orderly.counted id), orderly.watched⟩,
    ⟨Nat.le_refl _, fun _ _ alive => alive, fun _ _ joins => .inl joins,
      fun task member _ watched => ⟨task, member, rfl, watched⟩,
      fun execution queued => .inl (forgets execution queued)⟩, fun _ alive => alive, fun _ _ asks => asks,
    fun id member => .inl (paused id member)⟩

theorem paused_enqueue (a : Agenda) (id : TaskId) (wake : Wake) :
    (a.enqueue (.resume id wake)).paused = a.paused ++ [id] := by
  simp [paused, enqueue, Job.resumed?]

/-- A task that does not wait is about to be resumed. -/
theorem Orderly.enqueue (orderly : a.Orderly) (idle : id ∉ a.paused) (old : id < a.created)
    (wake : Wake) : (a.enqueue (.resume id wake)).Orderly ∧ a.Passes (a.enqueue (.resume id wake)) := by
  have due : (a.enqueue (.resume id wake)).due = a.due := by
    simp [Agenda.due, Agenda.enqueue, List.filterMap_cons, Job.reported?]
  refine ⟨⟨orderly.nodup, orderly.numbered, ?_, fun other member => ?_, fun other => ?_, orderly.watched⟩,
    ⟨Nat.le_refl _, fun _ _ alive => alive, fun _ _ joins => .inl joins,
      fun task member _ watched => ⟨task, member, rfl, watched⟩, fun execution queued => .inl ?_⟩⟩
  · rw [paused_enqueue]
    exact List.concat_eq_append ▸ orderly.once.concat idle
  · rw [paused_enqueue, List.mem_append] at member
    rcases member with member | new
    · exact orderly.known other member
    · rw [List.mem_singleton.mp new]
      exact old
  · rw [due]
    exact orderly.counted other
  · simpa [Agenda.enqueue] using queued

/-- A task that paused before, or is new, is about to be resumed. -/
theorem Tends.enqueue (tends : a.Tends a') (orderly : a.Orderly) (idle : id ∉ a'.paused)
    (old : id < a'.created) (known : id ∈ a.paused ∨ a.created ≤ id) (wake : Wake) :
    a.Tends (a'.enqueue (.resume id wake)) := by
  obtain ⟨orderly', passes⟩ := tends.orderly.enqueue idle old wake
  refine ⟨orderly', tends.passes.trans orderly passes, tends.lives, tends.asks, fun other member => ?_⟩
  rw [paused_enqueue, List.mem_append] at member
  rcases member with member | new
  · exact tends.paused other member
  · exact List.mem_singleton.mp new ▸ known

/-- The turn of a timer is at the end of the queue. -/
theorem Orderly.enqueue_ring (orderly : a.Orderly) (id : TaskId) : a.Tends (a.enqueue (.ring id)) := by
  refine orderly.requeue ?_ (fun other member => ?_) (by simp [List.filterMap_cons, Job.reported?])
    fun execution queued => ?_
  · simpa [Agenda.paused, List.filterMap_cons, Job.resumed?] using orderly.once
  · exact List.mem_append_right _ (by simpa [List.filterMap_cons, Job.resumed?] using member)
  · simpa using queued

/-- The first job of the queue is taken off it, if it is no report. -/
theorem Orderly.dequeue (orderly : a.Orderly) {job : Job} (queue : a.ready = job :: ready)
    (noReport : job.reported? = none) : a.Tends { a with ready } := by
  have sublist : (ready.filterMap Job.resumed?).Sublist (a.ready.filterMap Job.resumed?) := by
    rw [queue]
    exact (List.sublist_cons_self job ready).filterMap _
  refine orderly.requeue (orderly.once.sublist (sublist.append_left _)) (fun id member => ?_) ?_ ?_
  · exact List.mem_append_right _ (sublist.subset member)
  · rw [queue, List.filterMap_cons_none noReport]
  · intro execution queued
    rw [queue]
    exact List.mem_cons_of_mem job queued

/-- Those who pause are the one that is resumed next and the others. -/
theorem paused_of_resume {wake : Wake} (queue : a.ready = .resume id wake :: ready) :
    a.paused.Perm (id :: ({ a with ready } : Agenda).paused) := by
  have resumed : (Job.resume id wake).resumed? = some id := rfl
  rw [paused, queue, List.filterMap_cons_some resumed]
  exact List.perm_middle

/-- A task that is resumed does not wait any more. -/
theorem Orderly.dequeue_resume (orderly : a.Orderly) {wake : Wake}
    (queue : a.ready = .resume id wake :: ready) : id ∉ ({ a with ready } : Agenda).paused :=
  (List.nodup_cons.mp ((paused_of_resume queue).nodup_iff.mp orderly.once)).1

/-! ## Waits that end -/

/-- The agenda in which a task waits no longer. -/
def unwait (a : Agenda) (id : TaskId) : Agenda := { a with waits := a.waits.filter (·.1 != id) }

theorem wait?_unwait (a : Agenda) (id other : TaskId) :
    (a.unwait id).wait? other = if other = id then none else a.wait? other := by
  simp only [wait?, unwait, List.find?_filter]
  split
  · next same =>
    subst same
    simp only [Option.map_eq_none_iff, List.find?_eq_none]
    simp
  · next different =>
    congr 2
    funext w
    by_cases named : w.1 = other
    · simp [named, different]
    · simp [named]

/-- The wait of a task is over, with a report to it off the queue or not. -/
private theorem Orderly.unwait_of (ready : List Job) (orderly : a.Orderly) (found : a.wait? id = some wait)
    (resumed : ready.filterMap Job.resumed? = a.ready.filterMap Job.resumed?)
    (forgets : ∀ execution, .forget execution ∈ ready → .forget execution ∈ a.ready)
    (counted : ∀ other, ({ a with ready } : Agenda).due.count other = if other = id then 0 else a.left other)
    (gone : ∀ ids, wait.joins = some ids → ∀ other ∈ ids, other ∉ a.alive) :
    a.Tends (({ a with ready } : Agenda).unwait id) ∧
      id ∉ (({ a with ready } : Agenda).unwait id).paused ∧ id ∈ a.paused := by
  have key : id ∈ a.waits.map (·.1) := List.mem_map_of_mem (mem_waits_of_wait? found)
  have perm : a.paused.Perm (id :: (({ a with ready } : Agenda).unwait id).paused) := by
    have rest : (a.waits.filter (·.1 != id)).map (·.1) = (a.waits.map (·.1)).erase id := by
      rw [orderly.keys.erase_eq_filter, List.filter_map]
      rfl
    simp only [Agenda.paused, unwait, rest, resumed]
    exact (List.perm_cons_erase key).append_right _
  have nodup := List.nodup_cons.mp (perm.nodup_iff.mp orderly.once)
  have fewer {other : TaskId} {w : Wait} (waits : (other, w) ∈ (({ a with ready } : Agenda).unwait id).waits) :
      (other, w) ∈ a.waits := (List.mem_filter.mp waits).1
  refine ⟨⟨⟨orderly.nodup, orderly.numbered, nodup.2, fun other member => ?_, fun other => ?_, ?_⟩,
    ⟨Nat.le_refl _, fun _ _ live => live, ?_, fun task member _ watched => ⟨task, member, rfl, watched⟩,
      fun execution queued => .inl (forgets execution queued)⟩, fun _ live => live, ?_,
    fun other member => .inl (perm.mem_iff.mpr (List.mem_cons_of_mem _ member))⟩, nodup.1,
    perm.mem_iff.mpr List.mem_cons_self⟩
  · exact orderly.known other (perm.mem_iff.mpr (List.mem_cons_of_mem _ member))
  · refine (counted other).trans ?_
    rw [left, left, wait?_unwait]
    split <;> rfl
  · rintro other others ⟨w, waits, joins⟩
    exact orderly.watched other others ⟨w, fewer waits, joins⟩
  · rintro other others ⟨w, waits, joins⟩
    by_cases same : other = id
    · subst same
      obtain rfl := Option.some.inj ((orderly.wait?_of_mem waits).symm.trans found)
      exact .inr (gone others joins)
    · exact .inl ⟨w, List.mem_filter.mpr ⟨waits, by simpa using same⟩, joins⟩
  · rintro other token ⟨w, waits, asks⟩
    exact ⟨w, fewer waits, asks⟩

/-- A task that does not wait for others is released. -/
theorem Orderly.release (orderly : a.Orderly) (found : a.wait? id = some wait) (single : wait.joins = none)
    (wake : Wake) : a.Tends (a.release id wake) := by
  have left : a.left id = 0 := by
    rw [left, found]
    cases wait with
    | tasks => cases single
    | _ => rfl
  obtain ⟨tends, idle, known⟩ := orderly.unwait_of a.ready found rfl (fun _ queued => queued)
    (fun other => by
      rw [show ({ a with ready := a.ready } : Agenda).due = a.due from rfl, orderly.counted]
      split
      · next same => rw [same, left]
      · rfl)
    (fun ids joins => by rw [single] at joins; cases joins)
  exact tends.enqueue orderly idle (orderly.known id known) (.inl known) wake

/-! ## Waits that change -/

theorem wait?_rewait (a : Agenda) (id other : TaskId) (wait : Wait) :
    (a.rewait id wait).wait? other =
      if other = id then (a.wait? id).map fun _ => wait else a.wait? other := by
  have keys : (fun w : TaskId × Wait => w.1 == other) ∘
      (fun w : TaskId × Wait => if w.1 == id then (id, wait) else w) = fun w => w.1 == other := by
    funext w
    simp only [Function.comp_apply]
    split
    · next same => rw [show w.1 = id by simpa using same]
    · rfl
  simp only [wait?, rewait, List.find?_map, keys, Option.map_map]
  cases found : a.waits.find? (·.1 == other) with
  | none =>
    by_cases same : other = id
    · subst same
      simp [found]
    · simp [same]
  | some w =>
    have named : w.1 = other := by simpa using List.find?_some found
    by_cases same : other = id
    · subst same
      simp [found, named]
    · simp [named, same]

/-- A task waits for the same as before in another way, with a report to it off the queue or not. -/
private theorem Orderly.rewait_of (ready : List Job) (orderly : a.Orderly) (found : a.wait? id = some wait)
    (resumed : ready.filterMap Job.resumed? = a.ready.filterMap Job.resumed?)
    (forgets : ∀ execution, .forget execution ∈ ready → .forget execution ∈ a.ready)
    (counted : ∀ other, ({ a with ready } : Agenda).due.count other =
      if other = id then wait'.left else a.left other)
    (joins : wait'.joins = wait.joins) (asks : wait'.asks = none) :
    a.Tends (({ a with ready } : Agenda).rewait id wait') := by
  have keys : (({ a with ready } : Agenda).rewait id wait').paused = a.paused := by
    simp only [Agenda.paused, Agenda.rewait, List.map_map, resumed]
    congr 1
    refine List.map_congr_left fun w _ => ?_
    simp only [Function.comp_apply]
    split
    · next same => exact (by simpa using same : w.1 = id).symm
    · rfl
  have changed {other : TaskId} {w : Wait} (waits : (other, w) ∈ (({ a with ready } : Agenda).rewait id wait').waits) :
      (other, w) ∈ a.waits ∨ other = id ∧ w = wait' := by
    obtain ⟨⟨key, w'⟩, member, replaced⟩ := List.mem_map.mp waits
    split at replaced
    · cases replaced
      exact .inr ⟨rfl, rfl⟩
    · cases replaced
      exact .inl member
  refine ⟨⟨orderly.nodup, orderly.numbered, keys ▸ orderly.once, keys ▸ orderly.known, fun other => ?_, ?_⟩,
    ⟨Nat.le_refl _, fun _ _ live => live, ?_, fun task member _ watched => ⟨task, member, rfl, watched⟩,
      fun execution queued => .inl (forgets execution queued)⟩, fun _ live => live, ?_,
    fun other member => .inl (keys ▸ member)⟩
  · refine (counted other).trans ?_
    have found' : ({ a with ready } : Agenda).wait? id = some wait := found
    rw [left, left, wait?_rewait, found']
    split <;> rfl
  · rintro other others ⟨w, waits, joined⟩
    rcases changed waits with member | ⟨rfl, rfl⟩
    · exact orderly.watched other others ⟨w, member, joined⟩
    · exact orderly.watched _ others ⟨wait, mem_waits_of_wait? found, joins ▸ joined⟩
  · rintro other others ⟨w, waits, joined⟩
    left
    by_cases same : other = id
    · subst same
      obtain rfl := Option.some.inj ((orderly.wait?_of_mem waits).symm.trans found)
      exact ⟨wait', List.mem_map.mpr ⟨_, waits, by simp⟩, joins.trans joined⟩
    · exact ⟨w, List.mem_map.mpr ⟨_, waits, by simp [same]⟩, joined⟩
  · rintro other token ⟨w, waits, asked⟩
    rcases changed waits with member | ⟨rfl, rfl⟩
    · exact ⟨w, member, asked⟩
    · rw [asks] at asked
      cases asked

/-- A task waits for the same as before, and for as many reports. -/
theorem Orderly.rewait (orderly : a.Orderly) (found : a.wait? id = some wait) (left : wait'.left = wait.left)
    (joins : wait'.joins = wait.joins) (asks : wait'.asks = none) : a.Tends (a.rewait id wait') := by
  refine orderly.rewait_of a.ready found rfl (fun _ queued => queued) (fun other => ?_) joins asks
  refine (orderly.counted other).trans ?_
  split
  · next same =>
    rw [same, Agenda.left, found, left]
    rfl
  · rfl

/-- When the last report to a task is off the queue, all that the task waits for have ended. -/
private theorem Orderly.ended_of_last (orderly : a.Orderly) {ids : List TaskId} (joins : a.Joins id ids)
    (last : ({ a with ready } : Agenda).due.count id = 0) : ∀ other ∈ ids, other ∉ a.alive := by
  intro other listed alive
  obtain ⟨task, member, rfl⟩ := List.mem_map.mp alive
  have watched := (orderly.watched id ids joins).2 task member listed
  have still : id ∈ ({ a with ready } : Agenda).due :=
    List.mem_append_right _ (List.mem_flatMap.mpr ⟨task, member, List.mem_filterMap.mpr ⟨_, watched, rfl⟩⟩)
  exact Nat.lt_irrefl 0 (Nat.lt_of_lt_of_eq (List.count_pos_iff.mpr still) last)

/-- After a report is heard the wait goes on if another one is due, and otherwise all are found to have
ended. -/
theorem Orderly.hear (orderly : a.Orderly) (queue : a.ready = .report id :: ready) :
    a.Tends (({ a with ready } : Agenda).hear id) := by
  have due : a.due = id :: ({ a with ready } : Agenda).due := by
    rw [Agenda.due, queue, List.filterMap_cons_some (show (Job.report id).reported? = some id from rfl)]
    rfl
  have resumed : ready.filterMap Job.resumed? = a.ready.filterMap Job.resumed? := by
    rw [queue, List.filterMap_cons_none (show (Job.report id).resumed? = none from rfl)]
  have forgets (execution : String) (queued : .forget execution ∈ ready) : .forget execution ∈ a.ready :=
    queue ▸ List.mem_cons_of_mem _ queued
  have one : ({ a with ready } : Agenda).due.count id + 1 = a.left id := by
    rw [← orderly.counted, due, List.count_cons_self]
  have counted (n : Nat) (mine : ({ a with ready } : Agenda).due.count id = n) (other : TaskId) :
      ({ a with ready } : Agenda).due.count other = if other = id then n else a.left other := by
    split
    · next same => rw [same, mine]
    · next different => rw [← orderly.counted, due, List.count_cons_of_ne (Ne.symm different)]
  cases found : a.wait? id with
  | none =>
    rw [left, found] at one
    cases one
  | some wait =>
    rw [Agenda.left, found] at one
    have found' : ({ a with ready } : Agenda).wait? id = some wait := found
    cases wait with
    | tasks ids remaining cut =>
      replace one : ({ a with ready } : Agenda).due.count id + 1 = remaining := one
      simp only [Agenda.hear, found']
      split
      · next last =>
        have none : ({ a with ready } : Agenda).due.count id = 0 := by omega
        have gone (others : List TaskId) (joins : (Wait.tasks ids remaining cut).joins = some others) :
            ∀ other ∈ others, other ∉ a.alive :=
          orderly.ended_of_last ⟨_, mem_waits_of_wait? found, joins⟩ none
        obtain ⟨tends, idle, known⟩ := orderly.unwait_of ready found resumed forgets (counted 0 none) gone
        exact tends.enqueue orderly idle (orderly.known id known) (.inl known) _
      · exact orderly.rewait_of ready found resumed forgets (counted (remaining - 1) (by omega)) rfl rfl
    | _ => cases one

/-! ## Several waits at once -/

/-- One change after another, each of which leaves the ones to come as they are. -/
private theorem Orderly.foldl {β : Type} (orderly : a.Orderly) (f : Agenda → β → Agenda) (key : β → TaskId)
    (changes : List β) (nodup : (changes.map key).Nodup)
    (step : ∀ a : Agenda, a.Orderly → ∀ x wait, a.wait? (key x) = some wait → wait.joins = none →
      a.Tends (f a x))
    (stable : ∀ (a : Agenda) (x : β) (id : TaskId), id ≠ key x → (f a x).wait? id = a.wait? id)
    (waiting : ∀ x ∈ changes, ∃ wait, a.wait? (key x) = some wait ∧ wait.joins = none) :
    a.Tends (changes.foldl f a) := by
  induction changes generalizing a with
  | nil => exact orderly.tends
  | cons x rest ih =>
    rw [List.map_cons, List.nodup_cons] at nodup
    obtain ⟨wait, found, single⟩ := waiting x List.mem_cons_self
    have first := step a orderly x wait found single
    refine first.trans orderly (ih first.orderly nodup.2 fun y member => ?_)
    have different : key y ≠ key x := fun same => nodup.1 (same ▸ List.mem_map_of_mem member)
    rw [stable a x (key y) different]
    exact waiting y (List.mem_cons_of_mem x member)

/-- Every wait of a sort ends. -/
theorem Orderly.releaseAll (orderly : a.Orderly) (sort : Wait → Bool)
    (single : ∀ wait, sort wait = true → wait.joins = none) (wake : Wake) :
    a.Tends (a.releaseAll sort wake) := by
  refine orderly.foldl _ id _ ?_ (fun a orderly x wait found single => orderly.release found single wake)
    (fun a x id different => ?_) fun x member => ?_
  · rw [List.map_id]
    exact orderly.keys.sublist (List.filter_sublist.map _)
  · exact (wait?_unwait a x id).trans (if_neg different)
  · obtain ⟨w, chosen, rfl⟩ := List.mem_map.mp member
    obtain ⟨waits, sorted⟩ := List.mem_filter.mp chosen
    exact ⟨w.2, orderly.wait?_of_mem waits, single w.2 sorted⟩

/-- A timer that is due at a moment, with the task that waits for it. -/
private def timerDue? (now : Float) (w : TaskId × Wait) : Option (Float × TaskId) :=
  match w.2 with
  | .timer due => if now < due then none else some (due, w.1)
  | _ => none

private theorem timerDue?_some {now : Float} {w : TaskId × Wait} {timer : Float × TaskId}
    (found : timerDue? now w = some timer) : timer.2 = w.1 ∧ w.2.joins = none := by
  obtain ⟨id, wait⟩ := w
  cases wait with
  | timer due =>
    simp only [timerDue?] at found
    split at found
    · cases found
    · cases found
      exact ⟨rfl, rfl⟩
  | _ => cases found

private theorem timers_sublist (now : Float) (waits : List (TaskId × Wait)) :
    ((waits.filterMap (timerDue? now)).map (·.2)).Sublist (waits.map (·.1)) := by
  induction waits with
  | nil => exact .slnil
  | cons w rest ih =>
    cases found : timerDue? now w with
    | none =>
      rw [List.filterMap_cons_none found]
      exact ih.cons _
    | some timer =>
      rw [List.filterMap_cons_some found, List.map_cons, List.map_cons, (timerDue?_some found).1]
      exact ih.cons_cons _

/-- The timers that are due ring. -/
theorem Orderly.ringDue (orderly : a.Orderly) : a.Tends a.ringDue := by
  change a.Tends ((((a.waits.filterMap (timerDue? a.now)).mergeSort fun x y => !(y.1 < x.1))).foldl _ a)
  refine orderly.foldl _ (·.2) _ ?_ (fun a orderly x wait found single => ?_) (fun a x id different => ?_)
    fun x member => ?_
  · refine ((List.mergeSort_perm _ _).map _).nodup_iff.mpr (orderly.keys.sublist ?_)
    exact timers_sublist a.now a.waits
  · have tends : a.Tends (a.rewait x.2 .ringing) := by
      refine orderly.rewait found ?_ single.symm rfl
      cases wait with
      | tasks => cases single
      | _ => rfl
    exact tends.trans orderly (tends.orderly.enqueue_ring x.2)
  · exact (wait?_rewait a x.2 id .ringing).trans (if_neg different)
  · obtain ⟨w, waits, found⟩ := List.mem_filterMap.mp ((List.mergeSort_perm _ _).mem_iff.mp member)
    obtain ⟨named, single⟩ := timerDue?_some found
    exact ⟨w.2, named ▸ orderly.wait?_of_mem waits, single⟩

end Agenda

end Runbook
