import Mathlib.Logic.Function.Basic
import Runbook.Proofs.Agenda

/-! # Tasks in the agenda

When a task ends its watchers are told. A task that begins to wait for others becomes a watcher of those
that live, and those that have ended report to it at once; either way one report is due from each.
Proofs note of each task what is settled about it, and change the note about one task at a time.
-/

namespace Runbook

/-! ## Notes about tasks -/

section Notes

variable {α : Type} {notes : TaskId → Option α} {s t : TaskId} {x y : α} {P : α → Prop}

theorem noted_cases {note : Option α} (known : Function.update notes t note s = some x) :
    s = t ∧ note = some x ∨ s ≠ t ∧ notes s = some x := by
  rcases eq_or_ne s t with rfl | different
  · rw [Function.update_self] at known
    exact .inl ⟨rfl, known⟩
  · rw [Function.update_of_ne different] at known
    exact .inr ⟨different, known⟩

theorem noted_none (none : Function.update notes t (some y) s = none) : notes s = .none := by
  rcases eq_or_ne s t with rfl | different
  · cases (Function.update_self ..).symm.trans none
  · exact (Function.update_of_ne different ..).symm.trans none

/-- What holds of the note about a task still holds if it does of the new note. -/
theorem noted_update (noted : ∃ x, notes s = some x ∧ P x) (carries : ∀ x, notes t = some x → P x → P y) :
    ∃ x, Function.update notes t (some y) s = some x ∧ P x := by
  obtain ⟨x, known, holds⟩ := noted
  rcases eq_or_ne s t with rfl | different
  · exact ⟨y, Function.update_self .., carries x known holds⟩
  · exact ⟨x, (Function.update_of_ne different ..).trans known, holds⟩

/-- What holds of the note about a task held before if the new note does not bring it about. -/
theorem noted_of_update (noted : ∃ x, Function.update notes t (some y) s = some x ∧ P x)
    (carries : P y → ∃ x, notes t = some x ∧ P x) : ∃ x, notes s = some x ∧ P x := by
  obtain ⟨x, known, holds⟩ := noted
  rcases noted_cases known with ⟨rfl, ⟨⟩⟩ | ⟨_, known⟩
  · exact carries holds
  · exact ⟨x, known, holds⟩

end Notes

namespace Agenda

variable {a a' a'' : Agenda} {id other : TaskId} {wait : Wait}

/-! ## Tasks that begin and end -/

/-- A new task is about to have its first turn. -/
theorem Orderly.create (orderly : a.Orderly) : a.Tends a.create.1 := by
  have new : a.created ∉ a.alive := fun member => Nat.lt_irrefl _ (orderly.numbered _ member)
  have idle : a.created ∉ a.paused := fun member => Nat.lt_irrefl _ (orderly.known _ member)
  let b : Agenda := { a with tasks := a.tasks ++ [{ id := a.created }], created := a.created + 1 }
  have alive : b.alive = a.alive ++ [a.created] := by simp [Agenda.alive, b]
  have due : b.due = a.due := by simp [Agenda.due, b]
  have members {task : Task} (member : task ∈ b.tasks) : task ∈ a.tasks ∨ task = { id := a.created } := by
    simpa [b] using member
  have tends : a.Tends b := by
    refine ⟨⟨?_, fun id member => ?_, orderly.once, fun id member => Nat.lt_succ_of_lt (orderly.known id member),
      fun id => due ▸ orderly.counted id, fun id ids joins => ⟨fun other listed => ?_, fun task member listed => ?_⟩⟩,
      ⟨Nat.le_succ _, fun id old member => ?_, fun _ _ joins => .inl joins, fun task member execution watched => ?_,
        fun _ queued => .inl queued⟩, fun id member => alive ▸ List.mem_append_left _ member,
      fun _ _ asks => asks, fun _ member => .inl member⟩
    · rw [alive]
      exact List.concat_eq_append ▸ orderly.nodup.concat new
    · rw [alive] at member
      rcases List.mem_append.mp member with member | last
      · exact Nat.lt_succ_of_lt (orderly.numbered id member)
      · rw [List.mem_singleton.mp last]
        exact Nat.lt_succ_self _
    · exact Nat.lt_succ_of_lt ((orderly.watched id ids joins).1 other listed)
    · rcases members member with member | rfl
      · exact (orderly.watched id ids joins).2 task member listed
      · exact absurd ((orderly.watched id ids joins).1 _ listed) (Nat.lt_irrefl _)
    · rw [alive] at member
      rcases List.mem_append.mp member with member | last
      · exact member
      · exact absurd (List.mem_singleton.mp last) (Nat.ne_of_lt old)
    · rcases members member with member | rfl
      · exact ⟨task, member, rfl, watched⟩
      · cases watched
  exact tends.enqueue orderly idle (Nat.lt_succ_self _) (.inr (Nat.le_refl _)) .ready

theorem mem_paused_create (a : Agenda) (id : TaskId) :
    id ∈ a.create.1.paused ↔ id ∈ a.paused ∨ id = a.created := by
  simp [paused, create, enqueue, Job.resumed?, or_assoc]

theorem mem_alive_create (a : Agenda) (id : TaskId) :
    id ∈ a.create.1.alive ↔ id ∈ a.alive ∨ id = a.created := by
  simp [alive, create, enqueue]

private theorem enqueueAll (watchers : List Watcher) (a : Agenda) :
    watchers.foldl (fun a w => a.enqueue (Watcher.job w)) a =
      { a with ready := a.ready ++ watchers.map Watcher.job } := by
  induction watchers generalizing a with
  | nil => simp
  | cons w rest ih =>
    rw [List.foldl_cons, ih]
    simp [Agenda.enqueue]

/-- Watchers are told by a report or by a word to the table of background tasks. -/
private theorem told (watchers : List Watcher) :
    (watchers.map Watcher.job).filterMap Job.resumed? = [] ∧
      (watchers.map Watcher.job).filterMap Job.reported? = watchers.filterMap Watcher.waiter? ∧
      ∀ execution, .forget execution ∈ watchers.map Watcher.job → .background execution ∈ watchers := by
  refine ⟨?_, ?_, fun execution member => ?_⟩
  · refine List.filterMap_eq_nil_iff.mpr fun job member => ?_
    obtain ⟨w, _, rfl⟩ := List.mem_map.mp member
    cases w <;> rfl
  · rw [List.filterMap_map]
    congr 1
    funext w
    cases w <;> rfl
  · obtain ⟨w, member, same⟩ := List.mem_map.mp member
    cases w <;> cases same
    exact member

/-- There is only one task with a number. -/
private theorem Orderly.split_task (nodup : a.alive.Nodup) {task : Task} (found : a.task? id = some task) :
    task.id = id ∧ ∃ before after, a.tasks = before ++ task :: after ∧
      (∀ other ∈ before, other.id ≠ id) ∧ ∀ other ∈ after, other.id ≠ id := by
  obtain ⟨named, before, after, split, others⟩ := List.find?_eq_some_iff_append.mp found
  have named : task.id = id := by simpa using named
  rw [Agenda.alive, split, List.map_append, List.map_cons, List.nodup_middle, List.nodup_cons] at nodup
  refine ⟨named, before, after, split, fun other member => by simpa using others other member, ?_⟩
  intro other member same
  exact nodup.1 (List.mem_append_right _ (List.mem_map.mpr ⟨other, member, same.trans named.symm⟩))

/-- The reports that were still to come when a task ended are in the queue, or still to come. -/
private theorem Orderly.due_finish (orderly : a.Orderly) (id : TaskId) :
    ((((a.task? id).map (·.watchers)).getD []).filterMap Watcher.waiter? ++
      (a.tasks.filter (·.id != id)).flatMap fun task => task.watchers.filterMap Watcher.waiter?).Perm
        (a.tasks.flatMap fun task => task.watchers.filterMap Watcher.waiter?) := by
  have kept {tasks : List Task} (others : ∀ other ∈ tasks, other.id ≠ id) :
      tasks.filter (·.id != id) = tasks :=
    List.filter_eq_self.mpr fun other member => by simpa using others other member
  cases found : a.task? id with
  | none =>
    rw [kept fun other member => by simpa using (List.find?_eq_none.mp found) other member]
    exact .refl _
  | some task =>
    obtain ⟨named, before, after, split, fore, aft⟩ := Orderly.split_task orderly.nodup found
    rw [split, List.filter_append, List.filter_cons_of_neg (by simp [named]), kept fore, kept aft,
      List.flatMap_append, List.flatMap_append, List.flatMap_cons]
    exact List.perm_append_comm_assoc _ _ _

/-- A task has ended. -/
structure Ends (a a' : Agenda) (id : TaskId) : Prop where
  orderly : a'.Orderly
  passes : a.Passes a'
  alive : ∀ other, other ∈ a'.alive ↔ other ∈ a.alive ∧ other ≠ id
  asks : ∀ other token, a'.Asks other token → a.Asks other token

/-- A task that does not wait ends, and its watchers are told. -/
theorem Orderly.finish (orderly : a.Orderly) (id : TaskId) : a.Ends (a.finish id) id := by
  let watchers := ((a.task? id).map (·.watchers)).getD []
  obtain ⟨resumed, reported, forgets⟩ := told watchers
  let b : Agenda :=
    { a with tasks := a.tasks.filter (·.id != id), ready := a.ready ++ watchers.map Watcher.job }
  have shape : a.finish id = b := enqueueAll watchers _
  rw [shape]
  have fewer {task : Task} (member : task ∈ a.tasks.filter (·.id != id)) : task ∈ a.tasks ∧ task.id ≠ id := by
    simpa using member
  have alive (other : TaskId) : other ∈ b.alive ↔ other ∈ a.alive ∧ other ≠ id := by
    constructor
    · intro member
      obtain ⟨task, kept, rfl⟩ := List.mem_map.mp member
      exact ⟨List.mem_map_of_mem (fewer kept).1, (fewer kept).2⟩
    · rintro ⟨live, different⟩
      obtain ⟨task, member, rfl⟩ := List.mem_map.mp live
      exact List.mem_map_of_mem (List.mem_filter.mpr ⟨member, by simpa using different⟩)
  have same : b.paused = a.paused := by
    rw [Agenda.paused, List.filterMap_append, resumed, List.append_nil]
    rfl
  refine ⟨⟨?_, fun other member => orderly.numbered other ((alive other).mp member).1, same ▸ orderly.once,
    same ▸ orderly.known, fun other => ?_, fun other others joins => ?_⟩,
    ⟨Nat.le_refl _, fun other _ member => ((alive other).mp member).1, fun _ _ joins => .inl joins, ?_, ?_⟩,
    alive, fun _ _ asks => asks⟩
  · exact orderly.nodup.sublist (List.filter_sublist.map _)
  · have perm := orderly.due_finish id
    have due := (perm.append_left (a.ready.filterMap Job.reported?)).count_eq other
    refine Eq.trans ?_ (due.trans (orderly.counted other))
    rw [Agenda.due, List.filterMap_append, reported, List.append_assoc]
  · have watched := orderly.watched other others joins
    exact ⟨watched.1, fun task member listed => watched.2 task (fewer member).1 listed⟩
  · exact fun task member execution watched => ⟨task, (fewer member).1, rfl, watched⟩
  · intro execution queued
    rcases List.mem_append.mp queued with queued | fresh
    · exact .inl queued
    · right
      have watched := forgets execution fresh
      cases found : a.task? id with
      | none => simp [watchers, found] at watched
      | some task =>
        have named : task.id = id := by simpa using List.find?_some found
        refine ⟨task, List.mem_of_find?_eq_some found, ?_, fun member => ((alive _).mp member).2 named⟩
        simpa [watchers, found] using watched

/-! ## Watchers -/

/-- One more watcher of a task, or word to it at once if the task has ended. -/
private structure Enlists (watcher : Watcher) (job : Job) (ids : List TaskId) (a a' : Agenda) : Prop where
  waits : a'.waits = a.waits
  created : a'.created = a.created
  alive : a'.alive = a.alive
  ready : ∃ n, a'.ready = a.ready ++ List.replicate n job ∧ (0 < n → ∃ other ∈ ids, other ∉ a.alive)
  due : ∀ other, a'.due.count other = a.due.count other +
    if watcher.waiter? = some other then ids.length else 0
  tasks : ∀ task' ∈ a'.tasks, ∃ task ∈ a.tasks, task.id = task'.id ∧
    (∀ w ∈ task.watchers, w ∈ task'.watchers) ∧ (task'.id ∈ ids → watcher ∈ task'.watchers) ∧
    ∀ w ∈ task'.watchers, w ∈ task.watchers ∨ w = watcher ∧ task'.id ∈ ids

private theorem count_waiter (watcher : Watcher) (other : TaskId) :
    (List.filterMap Watcher.waiter? [watcher]).count other = if watcher.waiter? = some other then 1 else 0 := by
  cases waiter : watcher.waiter? with
  | none => simp [waiter]
  | some id => simp [waiter, List.count_singleton]

/-- Whoever watches a task that has ended has word of it at once. -/
private theorem enlists_ended {watcher : Watcher} {job : Job} (told : job.reported? = watcher.waiter?)
    (ended : id ∉ a.alive) : Enlists watcher job [id] a (a.enqueue job) := by
  refine ⟨rfl, rfl, rfl, ⟨1, rfl, fun _ => ⟨id, by simp, ended⟩⟩, fun other => ?_, fun task member => ?_⟩
  · have same : [job].filterMap Job.reported? = [watcher].filterMap Watcher.waiter? := by
      simp only [List.filterMap_cons, told]
      rfl
    simp only [due, Agenda.enqueue, List.filterMap_append, List.count_append, same, count_waiter,
      List.length_singleton]
    omega
  · refine ⟨task, member, rfl, fun w old => old, fun listed => ?_, fun w old => .inl old⟩
    exact absurd (List.mem_singleton.mp listed ▸ List.mem_map_of_mem member) ended

/-- Whoever watches a task that has not ended is one more of its watchers. -/
private theorem enlists_alive (nodup : a.alive.Nodup) {watcher : Watcher} {job : Job} {task : Task}
    (found : a.task? id = some task) :
    Enlists watcher job [id] a (a.amend id fun task => { task with watchers := task.watchers ++ [watcher] }) := by
  obtain ⟨named, before, after, split, fore, aft⟩ := Orderly.split_task nodup found
  let f (task : Task) : Task := { task with watchers := task.watchers ++ [watcher] }
  have kept {tasks : List Task} (others : ∀ other ∈ tasks, other.id ≠ id) :
      (tasks.map fun t => if t.id == id then f t else t) = tasks := by
    refine (List.map_congr_left fun other member => ?_).trans (List.map_id' tasks)
    rw [if_neg (by simpa using others other member)]
  have changed : (a.amend id f).tasks = before ++ f task :: after := by
    rw [Agenda.amend, split, List.map_append, List.map_cons, kept fore, kept aft, if_pos (by simp [named])]
  refine ⟨rfl, rfl, ?_, ⟨0, by simp [Agenda.amend], fun none => absurd none (Nat.lt_irrefl 0)⟩,
    fun other => ?_, fun task' member => ?_⟩
  · change (a.amend id f).tasks.map (·.id) = a.tasks.map (·.id)
    rw [changed, split]
    simp [f]
  · change ((a.ready.filterMap Job.reported?) ++
      ((a.amend id f).tasks.flatMap fun task => task.watchers.filterMap Watcher.waiter?)).count other = _
    rw [due, changed, split]
    simp only [f, List.flatMap_append, List.flatMap_cons, List.filterMap_append, List.count_append, count_waiter,
      List.length_singleton]
    omega
  · replace member : task' ∈ before ++ f task :: after := changed ▸ member
    have untouched (kept : task' ∈ a.tasks) (different : task'.id ≠ id) : ∃ task ∈ a.tasks,
        task.id = task'.id ∧ (∀ w ∈ task.watchers, w ∈ task'.watchers) ∧
        (task'.id ∈ [id] → watcher ∈ task'.watchers) ∧
        ∀ w ∈ task'.watchers, w ∈ task.watchers ∨ w = watcher ∧ task'.id ∈ [id] :=
      ⟨task', kept, rfl, fun w old => old,
        fun listed => absurd (List.mem_singleton.mp listed) different, fun w old => .inl old⟩
    rcases List.mem_append.mp member with early | late
    · exact untouched (split ▸ List.mem_append_left _ early) (fore task' early)
    rcases List.mem_cons.mp late with rfl | late
    · refine ⟨task, split ▸ List.mem_append_right _ List.mem_cons_self, rfl,
        fun w old => List.mem_append_left _ old, fun _ => List.mem_append_right _ List.mem_cons_self,
        fun w old => ?_⟩
      rcases List.mem_append.mp old with old | new
      · exact .inl old
      · exact .inr ⟨List.mem_singleton.mp new, List.mem_singleton.mpr named⟩
    · exact untouched (split ▸ List.mem_append_right _ (List.mem_cons_of_mem _ late)) (aft task' late)

private theorem enlists_watch (nodup : a.alive.Nodup) {watcher : Watcher} {job : Job}
    (told : job.reported? = watcher.waiter?) (id : TaskId) :
    Enlists watcher job [id] a (a.watch id watcher job) := by
  unfold watch
  cases found : a.task? id with
  | none => exact enlists_ended told (task?_eq_none.mp found)
  | some task => exact enlists_alive nodup found

private theorem Enlists.append {watcher : Watcher} {job : Job} {ids ids' : List TaskId}
    (first : Enlists watcher job ids a a') (second : Enlists watcher job ids' a' a'') :
    Enlists watcher job (ids ++ ids') a a'' where
  waits := second.waits.trans first.waits
  created := second.created.trans first.created
  alive := second.alive.trans first.alive
  ready := by
    obtain ⟨n, ready, ended⟩ := first.ready
    obtain ⟨n', ready', ended'⟩ := second.ready
    refine ⟨n + n', by rw [ready', ready, List.append_assoc, List.replicate_append_replicate], fun some => ?_⟩
    rcases Nat.eq_zero_or_pos n with rfl | some'
    · obtain ⟨other, listed, ended⟩ := ended' (by omega)
      exact ⟨other, List.mem_append_right _ listed, first.alive ▸ ended⟩
    · obtain ⟨other, listed, ended⟩ := ended some'
      exact ⟨other, List.mem_append_left _ listed, ended⟩
  due other := by
    rw [second.due, first.due, List.length_append]
    split <;> omega
  tasks task'' member := by
    obtain ⟨task', member', same', old', new', only'⟩ := second.tasks task'' member
    obtain ⟨task, member, same, old, new, only⟩ := first.tasks task' member'
    refine ⟨task, member, same.trans same', fun w watches => old' w (old w watches), fun listed => ?_, fun w watches => ?_⟩
    · rcases List.mem_append.mp listed with listed | listed
      · exact old' _ (new (same' ▸ listed))
      · exact new' listed
    · rcases only' w watches with watches | ⟨rfl, listed⟩
      · exact (only w watches).imp_right fun new => ⟨new.1, List.mem_append_left _ (same' ▸ new.2)⟩
      · exact .inr ⟨rfl, List.mem_append_right _ listed⟩

private theorem enlists_join (nodup : a.alive.Nodup) (id : TaskId) (ids : List TaskId) :
    Enlists (.waiter id) (.report id) ids a
      (ids.foldl (fun a other => a.watch other (.waiter id) (.report id)) a) := by
  induction ids generalizing a with
  | nil =>
    exact ⟨rfl, rfl, rfl, ⟨0, by simp, fun none => absurd none (Nat.lt_irrefl 0)⟩, fun _ => by simp,
      fun task member => ⟨task, member, rfl, fun _ old => old, fun listed => (nomatch listed), fun _ old => .inl old⟩⟩
  | cons other rest ih =>
    have first : Enlists (.waiter id) (.report id) [other] a _ := enlists_watch nodup rfl other
    exact first.append (ih (first.alive ▸ nodup))

/-- What a wait that has begun is for. -/
structure Heeds (a a' : Agenda) (id : TaskId) (wait : Wait) : Prop where
  orderly : a'.Orderly
  passes : a.Passes a'
  alive : a'.alive = a.alive
  joins : ∀ ids, wait.joins = some ids → a'.Joins id ids
  asks : ∀ other token, a'.Asks other token → a.Asks other token ∨ other = id ∧ wait.asks = some token

theorem wait?_suspend (idle : id ∉ a.paused) (wait : Wait) (other : TaskId) :
    (a.suspend id wait).wait? other = if other = id then some wait else a.wait? other := by
  simp only [wait?, Agenda.suspend, List.find?_append, Option.map_or]
  by_cases same : other = id
  · subst same
    have none : (a.waits.find? (·.1 == other)).map (·.2) = none := wait?_eq_none_of_not_paused idle
    simp [none]
  · have different : (id == other) = false := by simpa using fun named => same named.symm
    simp [different, same]

/-- A task begins to wait, and the others that it waits for have it among their watchers. -/
private theorem Orderly.heeds (orderly : a.Orderly) (idle : id ∉ a.paused) (old : id < a.created)
    (enlists : Enlists (.waiter id) (.report id) (wait.joins.getD []) (a.suspend id wait) a')
    (left : wait.left = (wait.joins.getD []).length)
    (bounded : ∀ other ∈ wait.joins.getD [], other < a.created) : a.Heeds a' id wait := by
  obtain ⟨n, ready, _⟩ := enlists.ready
  replace ready : a'.ready = a.ready ++ List.replicate n (.report id) := ready
  have waits : a'.waits = a.waits ++ [(id, wait)] := enlists.waits
  have created : a'.created = a.created := enlists.created
  have alive : a'.alive = a.alive := enlists.alive
  have paused : a'.paused.Perm (id :: a.paused) := by
    have resumed : a'.ready.filterMap Job.resumed? = a.ready.filterMap Job.resumed? := by
      rw [ready, List.filterMap_append, List.filterMap_replicate]
      simp [Job.resumed?]
    rw [Agenda.paused, waits, resumed, List.map_append, List.append_assoc]
    exact List.perm_middle
  have begun {other : TaskId} {w : Wait} (member : (other, w) ∈ a'.waits) :
      (other, w) ∈ a.waits ∨ other = id ∧ w = wait := by
    rw [waits] at member
    rcases List.mem_append.mp member with member | new
    · exact .inl member
    · cases List.mem_singleton.mp new
      exact .inr ⟨rfl, rfl⟩
  have joined {other : TaskId} {others : List TaskId} (joins : a.Joins other others) :
      a'.Joins other others := by
    obtain ⟨w, member, joins⟩ := joins
    exact ⟨w, waits ▸ List.mem_append_left _ member, joins⟩
  refine ⟨⟨alive ▸ orderly.nodup, fun other member => ?_, ?_, fun other member => ?_, fun other => ?_, ?_⟩,
    ⟨created ▸ Nat.le_refl _, fun other _ member => alive ▸ member, fun _ _ joins => .inl (joined joins), ?_, ?_⟩,
    alive, fun ids joins => ⟨wait, waits ▸ List.mem_append_right _ List.mem_cons_self, joins⟩, ?_⟩
  · rw [created]
    exact orderly.numbered other (alive ▸ member)
  · exact paused.nodup_iff.mpr (List.nodup_cons.mpr ⟨idle, orderly.once⟩)
  · rw [created]
    rcases List.mem_cons.mp (paused.mem_iff.mp member) with rfl | member
    · exact old
    · exact orderly.known other member
  · have same : (a.suspend id wait).due = a.due := rfl
    have found : a'.wait? other = (a.suspend id wait).wait? other := by
      rw [wait?, wait?, enlists.waits]
    rw [enlists.due, same, orderly.counted, Agenda.left, Agenda.left, found, wait?_suspend idle]
    by_cases named : other = id
    · subst named
      rw [wait?_eq_none_of_not_paused idle]
      simp [Watcher.waiter?, left]
    · have different : ¬Watcher.waiter? (.waiter id) = some other :=
        fun same => named (Option.some.inj same).symm
      rw [if_neg different, if_neg named, Nat.add_zero]
  · rintro other others ⟨w, member, joins⟩
    rw [created]
    rcases begun member with member | ⟨rfl, rfl⟩
    · have watched := orderly.watched other others ⟨w, member, joins⟩
      refine ⟨watched.1, fun task' live listed => ?_⟩
      obtain ⟨task, member, same, kept, _⟩ := enlists.tasks task' live
      exact kept _ (watched.2 task member (same ▸ listed))
    · rw [joins, Option.getD_some] at bounded enlists
      refine ⟨bounded, fun task' live listed => ?_⟩
      obtain ⟨_, _, _, _, new, _⟩ := enlists.tasks task' live
      exact new listed
  · intro task' live execution watched
    obtain ⟨task, member, same, _, _, only⟩ := enlists.tasks task' live
    rcases only _ watched with watched | ⟨same, _⟩
    · exact ⟨task, member, same, watched⟩
    · cases same
  · intro execution queued
    rw [ready, List.mem_append] at queued
    rcases queued with queued | report
    · exact .inl queued
    · cases List.eq_of_mem_replicate report
  · rintro other token ⟨w, member, asks⟩
    rcases begun member with member | ⟨rfl, rfl⟩
    · exact .inl ⟨w, member, asks⟩
    · exact .inr ⟨rfl, asks⟩

/-- A task begins to wait for something that is not the end of others. -/
theorem Orderly.suspend (orderly : a.Orderly) (idle : id ∉ a.paused) (old : id < a.created)
    (single : wait.joins = none) : a.Heeds (a.suspend id wait) id wait := by
  refine orderly.heeds idle old ?_ ?_ ?_
  · rw [single]
    exact enlists_join (a := a.suspend id wait) orderly.nodup id []
  · rw [single]
    cases wait with
    | tasks => cases single
    | _ => rfl
  · rw [single]
    exact fun _ listed => nomatch listed

/-- A task lets the queue go first. -/
theorem Orderly.defer (orderly : a.Orderly) (idle : id ∉ a.paused) (old : id < a.created) (wake : Wake)
    (single : wait.joins = none) : a.Heeds (a.enqueue (.resume id wake)) id wait :=
  have ⟨orderly', passes⟩ := orderly.enqueue idle old wake
  ⟨orderly', passes, rfl, fun _ joins => (nomatch single.symm.trans joins), fun _ _ asks => .inl asks⟩

/-- A task begins to wait for others to end. -/
theorem Orderly.join (orderly : a.Orderly) (idle : id ∉ a.paused) (old : id < a.created) (ids : List TaskId)
    (bounded : ∀ other ∈ ids, other < a.created) :
    a.Heeds (a.join id ids) id (.tasks ids ids.length false) :=
  orderly.heeds idle old (enlists_join (a := a.suspend id _) orderly.nodup id ids) rfl bounded

/-- The table of background tasks is told of the end of a task, at once if it has ended. -/
structure Notifies (a a' : Agenda) (id : TaskId) (execution : String) : Prop where
  orderly : a'.Orderly
  created : a'.created = a.created
  alive : a'.alive = a.alive
  paused : a'.paused = a.paused
  joins : ∀ other ids, a'.Joins other ids ↔ a.Joins other ids
  asks : ∀ other token, a'.Asks other token ↔ a.Asks other token
  watched : ∀ task' ∈ a'.tasks, ∀ other, .background other ∈ task'.watchers →
    (other = execution ∧ task'.id = id) ∨
      ∃ task ∈ a.tasks, task.id = task'.id ∧ .background other ∈ task.watchers
  forgets : ∀ other, .forget other ∈ a'.ready → .forget other ∈ a.ready ∨ other = execution ∧ id ∉ a.alive

theorem Notifies.continues {execution : String} (notifies : a.Notifies a' id execution) : a.Continues a' where
  created := Nat.le_of_eq notifies.created.symm
  ended _ _ alive := notifies.alive ▸ alive
  joined other ids joins := .inl ((notifies.joins other ids).mpr joins)

theorem Orderly.notifies (orderly : a.Orderly) (id : TaskId) (execution : String) :
    a.Notifies (a.watch id (.background execution) (.forget execution)) id execution := by
  have enlists : Enlists (.background execution) (.forget execution) [id] a _ :=
    enlists_watch orderly.nodup rfl id
  obtain ⟨n, ready, ended⟩ := enlists.ready
  obtain ⟨a', same⟩ : ∃ a', a' = a.watch id (.background execution) (.forget execution) := ⟨_, rfl⟩
  rw [← same] at enlists ready ⊢
  have paused : a'.paused = a.paused := by
    rw [Agenda.paused, enlists.waits, ready, List.filterMap_append, List.filterMap_replicate]
    simp [Agenda.paused, Job.resumed?]
  have joins (other : TaskId) (ids : List TaskId) : a'.Joins other ids ↔ a.Joins other ids := by
    rw [Joins, enlists.waits, Joins]
  refine ⟨⟨enlists.alive ▸ orderly.nodup, fun other live => ?_, paused ▸ orderly.once, fun other member => ?_,
    fun other => ?_, fun other ids joined => ?_⟩, enlists.created, enlists.alive, paused, joins,
    fun other token => ?_, ?_, ?_⟩
  · rw [enlists.created]
    exact orderly.numbered other (enlists.alive ▸ live)
  · rw [enlists.created]
    exact orderly.known other (paused ▸ member)
  · rw [enlists.due, orderly.counted, Agenda.left, Agenda.left, wait?, wait?, enlists.waits]
    simp [Watcher.waiter?]
  · have watched := orderly.watched other ids ((joins other ids).mp joined)
    rw [enlists.created]
    refine ⟨watched.1, fun task' live listed => ?_⟩
    obtain ⟨task, member, named, kept, _⟩ := enlists.tasks task' live
    exact kept _ (watched.2 task member (named ▸ listed))
  · rw [Asks, enlists.waits, Asks]
  · intro task' live other watched
    obtain ⟨task, member, named, _, _, only⟩ := enlists.tasks task' live
    rcases only _ watched with watched | ⟨new, listed⟩
    · exact .inr ⟨task, member, named, watched⟩
    · cases new
      exact .inl ⟨rfl, List.mem_singleton.mp listed⟩
  · intro other queued
    rw [ready, List.mem_append] at queued
    rcases queued with queued | new
    · exact .inl queued
    · obtain ⟨some, same⟩ := List.mem_replicate.mp new
      cases same
      obtain ⟨other, listed, ended⟩ := ended (Nat.pos_of_ne_zero some)
      exact .inr ⟨rfl, List.mem_singleton.mp listed ▸ ended⟩

end Agenda

end Runbook
