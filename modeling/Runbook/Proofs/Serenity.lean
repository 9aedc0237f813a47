import Runbook.Proofs.Setting

/-! # Agendas in which nothing is cut short

As long as nobody cancels a task, every wait ends because what it was for has come. A task that waits for
others was created before them, so that among tasks that only wait for each other the latest waits for
nobody. Both are facts about the agenda alone, and everything that happens to an agenda without a
cancellation keeps them.
-/

namespace Runbook

namespace Agenda

variable {a a' a'' : Agenda} {id : TaskId} {job : Job} {ready : List Job}

/-! ## Tasks that stay -/

/-- No task is created, nothing is left behind or taken, and the clock stands still. -/
structure Retains (a a' : Agenda) : Prop where
  created : a'.created = a.created
  outcomes : a'.outcomes = a.outcomes
  now : a'.now = a.now

theorem Retains.refl (a : Agenda) : a.Retains a := ⟨rfl, rfl, rfl⟩

theorem Retains.trans (first : a.Retains a') (second : a'.Retains a'') : a.Retains a'' :=
  ⟨second.created.trans first.created, second.outcomes.trans first.outcomes, second.now.trans first.now⟩

theorem retains_foldl {β : Type} (f : Agenda → β → Agenda) (step : ∀ (a : Agenda) x, a.Retains (f a x)) (changes : List β)
    (a : Agenda) : a.Retains (changes.foldl f a) := by
  induction changes generalizing a with
  | nil => exact .refl a
  | cons x rest ih => exact (step a x).trans (ih _)

theorem releaseAll_retains (a : Agenda) (sort : Wait → Bool) (wake : Wake) :
    a.Retains (a.releaseAll sort wake) := by
  unfold releaseAll
  refine retains_foldl _ (fun _ _ => ?_) _ a
  exact ⟨rfl, rfl, rfl⟩

theorem ringDue_retains (a : Agenda) : a.Retains a.ringDue := by
  unfold ringDue
  refine retains_foldl _ (fun _ _ => ?_) _ a
  exact ⟨rfl, rfl, rfl⟩

theorem ring_retains (a : Agenda) (id : TaskId) : a.Retains (a.ring id) := by
  unfold ring
  split <;> exact ⟨rfl, rfl, rfl⟩

theorem hear_retains (a : Agenda) (id : TaskId) : a.Retains (a.hear id) := by
  unfold hear
  split
  · split <;> exact ⟨rfl, rfl, rfl⟩
  · exact .refl a

theorem watch_retains (a : Agenda) (id : TaskId) (watcher : Watcher) (job : Job) :
    a.Retains (a.watch id watcher job) := by
  unfold watch
  split <;> exact ⟨rfl, rfl, rfl⟩

theorem heed_retains (a : Agenda) (id : TaskId) (cue : Cue) : a.Retains (Machine.heed id cue a) := by
  cases cue with
  | time seconds =>
    change a.Retains (a.sleep id seconds)
    unfold sleep
    split <;> exact ⟨rfl, rfl, rfl⟩
  | decision | latch => exact ⟨rfl, rfl, rfl⟩
  | tasks ids =>
    change a.Retains (a.join id ids)
    have begins : a.Retains (a.suspend id (.tasks ids ids.length false)) := ⟨rfl, rfl, rfl⟩
    refine begins.trans ?_
    exact retains_foldl _ (fun a other => a.watch_retains other (.waiter id) (.report id)) ids _

theorem finish_retains (a : Agenda) (id : TaskId) : a.Retains (a.finish id) := by
  have ends : a.Retains { a with tasks := a.tasks.filter (·.id != id) } := ⟨rfl, rfl, rfl⟩
  refine ends.trans ?_
  refine retains_foldl (fun a w => a.enqueue (Watcher.job w)) (fun _ _ => ?_) _ _
  exact ⟨rfl, rfl, rfl⟩

/-- The same tasks are there as before, and nobody pauses who did not. -/
structure Stands (a a' : Agenda) : Prop extends a.Retains a' where
  orderly : a'.Orderly
  continues : a.Continues a'
  alive : ∀ id, id ∈ a'.alive ↔ id ∈ a.alive
  paused : ∀ id ∈ a'.paused, id ∈ a.paused

theorem Tends.stands (tends : a.Tends a') (retains : a.Retains a') : a.Stands a' where
  toRetains := retains
  orderly := tends.orderly
  continues := tends.passes.continues
  alive id := by
    refine ⟨fun member => tends.passes.ended id ?_ member, tends.lives id⟩
    exact retains.created ▸ tends.orderly.numbered id member
  paused id member := by
    have old := tends.orderly.known id member
    rw [retains.created] at old
    exact (tends.paused id member).resolve_right (Nat.not_le_of_lt old)

theorem Orderly.stands (orderly : a.Orderly) : a.Stands a := orderly.tends.stands (.refl a)

theorem Stands.trans (first : a.Stands a') (second : a'.Stands a'') : a.Stands a'' where
  toRetains := first.toRetains.trans second.toRetains
  orderly := second.orderly
  continues := {
    created := Nat.le_trans first.continues.created second.continues.created
    ended := fun id _ alive => (first.alive id).mp ((second.alive id).mp alive)
    joined := fun id ids joins => by
      rcases first.continues.joined id ids joins with still | gone
      · exact second.continues.joined id ids still
      · exact .inr fun other listed alive => gone other listed ((second.alive other).mp alive) }
  alive id := (second.alive id).trans (first.alive id)
  paused id member := first.paused id (second.paused id member)

theorem Orderly.stands_watch (orderly : a.Orderly) (id : TaskId) (execution : String) :
    a.Stands (a.watch id (.background execution) (.forget execution)) := by
  have notifies := orderly.notifies id execution
  exact {
    toRetains := a.watch_retains id _ _
    orderly := notifies.orderly
    continues := notifies.continues
    alive := fun other => by rw [notifies.alive]
    paused := fun other member => notifies.paused ▸ member }

/-! ## Serenity -/

/-- No task is about to be cancelled, and whoever waits for others, of whom at least one has not reported its
end, was created before them. Nobody waits for an operator, and timers that have gone off are in the queue. -/
structure Serene (a : Agenda) : Prop where
  unmarked : ∀ task ∈ a.tasks, task.cancelled = false
  resumed : ∀ id, .resume id .cancelled ∉ a.ready
  uncut : ∀ id ids left cut, (id, .tasks ids left cut) ∈ a.waits → cut = false ∧ 0 < left
  descends : ∀ task ∈ a.tasks, ∀ id, .waiter id ∈ task.watchers → id < task.id
  unasked : ∀ id token, (id, .decision token) ∉ a.waits
  rings : ∀ id, (id, .ringing) ∈ a.waits → .ring id ∈ a.ready

/-- The agenda stays serene, and everybody who pauses goes on pausing. -/
structure Soothes (a a' : Agenda) : Prop where
  serene : a.Serene → a'.Serene
  paused : ∀ id ∈ a.paused, id ∈ a'.paused

theorem Soothes.refl (a : Agenda) : a.Soothes a := ⟨fun serene => serene, fun _ member => member⟩

theorem Soothes.trans (first : a.Soothes a') (second : a'.Soothes a'') : a.Soothes a'' :=
  ⟨fun serene => second.serene (first.serene serene), fun id member => second.paused id (first.paused id member)⟩

theorem soothes_foldl {β : Type} (f : Agenda → β → Agenda) (step : ∀ (a : Agenda) x, a.Soothes (f a x)) (changes : List β)
    (a : Agenda) : a.Soothes (changes.foldl f a) := by
  induction changes generalizing a with
  | nil => exact .refl a
  | cons x rest ih => exact (step a x).trans (ih _)

/-- Only the tasks, their waits and the queue matter. -/
theorem Serene.congr (serene : a.Serene) (tasks : a'.tasks = a.tasks) (waits : a'.waits = a.waits)
    (ready : a'.ready = a.ready) : a'.Serene := by
  obtain ⟨now, ready', waits', tasks', created', outcomes⟩ := a'
  subst tasks waits ready
  exact ⟨serene.unmarked, serene.resumed, serene.uncut, serene.descends, serene.unasked, serene.rings⟩

/-- Nobody is marked, so that whoever is resumed goes on because its cue has come. -/
theorem Serene.unmarked_task? (serene : a.Serene) (id : TaskId) :
    ((a.task? id).map (·.cancelled)).getD false = false := by
  cases found : a.task? id with
  | none => rfl
  | some task => exact serene.unmarked task (List.mem_of_find?_eq_some found)

theorem Serene.resumed_ready (serene : a.Serene) {wake : Wake} (queue : a.ready = .resume id wake :: ready) :
    (if ((a.task? id).map (·.cancelled)).getD false then .cancelled else wake) = Wake.ready := by
  rw [serene.unmarked_task? id, if_neg Bool.false_ne_true]
  cases wake with
  | ready => rfl
  | cancelled => exact absurd (queue ▸ List.mem_cons_self) (serene.resumed id)

/-- A queue without its first job is as good, unless that is the turn of a timer which has gone off. -/
theorem Serene.dequeue (serene : a.Serene) (queue : a.ready = job :: ready)
    (rung : ∀ id, job = .ring id → (id, .ringing) ∉ a.waits) : ({ a with ready } : Agenda).Serene :=
  { serene with
    resumed := fun id queued => serene.resumed id (queue ▸ List.mem_cons_of_mem _ queued)
    rings := fun id waits =>
      (List.mem_cons.mp (queue ▸ serene.rings id waits)).resolve_left fun same => rung id same.symm waits }

theorem soothes_enqueue (a : Agenda) (harmless : ∀ id, job ≠ .resume id .cancelled) :
    a.Soothes (a.enqueue job) where
  serene serene := by
    refine { serene with
      resumed := fun id queued => ?_
      rings := fun id waits => List.mem_append_left _ (serene.rings id waits) }
    rcases List.mem_append.mp queued with before | last
    · exact serene.resumed id before
    · exact harmless id (List.mem_singleton.mp last).symm
  paused id member := by
    rw [paused, List.mem_append] at member ⊢
    refine member.imp_right fun queued => ?_
    obtain ⟨job, before, resumed⟩ := List.mem_filterMap.mp queued
    exact List.mem_filterMap.mpr ⟨job, List.mem_append_left _ before, resumed⟩

theorem soothes_release (a : Agenda) (id : TaskId) : a.Soothes (a.release id .ready) where
  serene serene := by
    refine (soothes_enqueue _ (by simp)).serene ?_
    exact { serene with
      uncut := fun other ids left cut waits => serene.uncut other ids left cut (List.mem_filter.mp waits).1
      unasked := fun other token waits => serene.unasked other token (List.mem_filter.mp waits).1
      rings := fun other waits => serene.rings other (List.mem_filter.mp waits).1 }
  paused other member := by
    rw [release, paused_enqueue, List.mem_append, List.mem_singleton]
    by_cases same : other = id
    · exact .inr same
    · left
      rw [Agenda.paused, List.mem_append] at member ⊢
      refine member.imp_left fun waits => ?_
      obtain ⟨wait, waiting, rfl⟩ := List.mem_map.mp waits
      exact List.mem_map_of_mem (List.mem_filter.mpr ⟨waiting, by simpa using same⟩)

theorem soothes_releaseAll (a : Agenda) (sort : Wait → Bool) : a.Soothes (a.releaseAll sort .ready) :=
  soothes_foldl _ soothes_release _ a

/-- A wait that an agenda may have and stay serene. -/
structure Allows (a : Agenda) (id : TaskId) (wait : Wait) : Prop where
  uncut : ∀ ids left cut, wait = .tasks ids left cut → cut = false ∧ 0 < left
  unasked : ∀ token, wait ≠ .decision token
  rings : wait = .ringing → .ring id ∈ a.ready

theorem Serene.allows (serene : a.Serene) {wait : Wait} (waits : (id, wait) ∈ a.waits) : a.Allows id wait where
  uncut ids left cut same := serene.uncut id ids left cut (same ▸ waits)
  unasked token same := serene.unasked id token (same ▸ waits)
  rings same := serene.rings id (same ▸ waits)

/-- Other waits that are as good. -/
theorem Serene.rewaits (serene : a.Serene) {waits : List (TaskId × Wait)}
    (allows : ∀ w ∈ waits, a.Allows w.1 w.2) : ({ a with waits } : Agenda).Serene :=
  { serene with
    uncut := fun _ ids left cut member => (allows _ member).uncut ids left cut rfl
    unasked := fun _ token member => (allows _ member).unasked token rfl
    rings := fun _ member => (allows _ member).rings rfl }

/-- A wait goes on in another way. -/
theorem soothes_rewait (a : Agenda) (id : TaskId) {wait : Wait} (allows : a.Allows id wait) :
    a.Soothes (a.rewait id wait) where
  serene serene := by
    refine serene.rewaits fun w member => ?_
    obtain ⟨before, waiting, rfl⟩ := List.mem_map.mp member
    split
    · exact allows
    · exact serene.allows waiting
  paused other member := by
    rw [Agenda.paused, List.mem_append] at member ⊢
    refine member.imp_left fun waits => ?_
    obtain ⟨before, waiting, rfl⟩ := List.mem_map.mp waits
    refine List.mem_map.mpr ⟨_, List.mem_map_of_mem waiting, ?_⟩
    split
    · next same => exact (by simpa using same : before.1 = id).symm
    · rfl

theorem soothes_ringDue (a : Agenda) : a.Soothes a.ringDue := by
  unfold ringDue
  refine soothes_foldl _ (fun a timer => ?_) _ a
  have queued : a.Soothes (a.enqueue (.ring timer.2)) := a.soothes_enqueue (by simp)
  exact queued.trans (soothes_rewait _ timer.2 ⟨by simp, by simp, fun _ => List.mem_append_right _ (by simp)⟩)

theorem paused_ring (member : id ∈ a.paused) (other : TaskId) : id ∈ (a.ring other).paused := by
  unfold ring
  split
  · exact (a.soothes_release other).paused id member
  · exact member

/-- A timer has its turn, whether or not somebody still waits for it. -/
theorem Serene.ring (serene : a.Serene) (orderly : a.Orderly) (queue : a.ready = .ring id :: ready) :
    (({ a with ready } : Agenda).ring id).Serene := by
  unfold Agenda.ring
  split
  · have queue' : (a.release id .ready).ready = .ring id :: (ready ++ [.resume id .ready]) := by
      rw [release, enqueue, queue, List.cons_append]
    refine ((a.soothes_release id).serene serene).dequeue queue' fun other same waits => ?_
    cases same
    simpa using (List.mem_filter.mp waits).2
  · next silent =>
    refine serene.dequeue queue fun other same waits => ?_
    cases same
    exact silent (orderly.wait?_of_mem waits)

theorem Serene.hear (serene : a.Serene) (id : TaskId) :
    (a.hear id).Serene ∧ ∀ other ∈ a.paused, other ∈ (a.hear id).paused := by
  unfold Agenda.hear
  split
  · next ids left cut found =>
    obtain ⟨rfl, _⟩ := serene.uncut id ids left cut (mem_waits_of_wait? found)
    split
    · have soothes := a.soothes_release id
      exact ⟨soothes.serene serene, soothes.paused⟩
    · next more =>
      have soothes : a.Soothes (a.rewait id (.tasks ids (left - 1) false)) := by
        refine a.soothes_rewait id ⟨fun ids' left' cut same => ?_, by simp, by simp⟩
        cases same
        exact ⟨rfl, by omega⟩
      exact ⟨soothes.serene serene, soothes.paused⟩
  · exact ⟨serene, fun _ member => member⟩

/-- A task that was marked is marked no longer. -/
theorem soothes_unmark (a : Agenda) (id : TaskId) : a.Soothes (a.amend id ({ · with cancelled := false })) where
  serene serene := by
    refine { serene with
      unmarked := fun task' changed => ?_
      descends := fun task' changed other watched => ?_ }
    all_goals obtain ⟨task, member, rfl⟩ := List.mem_map.mp changed
    · split
      · rfl
      · exact serene.unmarked task member
    · have same : (if task.id == id then { task with cancelled := false } else task).id = task.id ∧
          (if task.id == id then { task with cancelled := false } else task).watchers = task.watchers := by
        split <;> exact ⟨rfl, rfl⟩
      rw [same.1]
      exact serene.descends task member other (same.2 ▸ watched)
  paused _ member := member

/-- Whoever watches for the end of a task either is the table of background tasks or was created before. -/
theorem soothes_watch (a : Agenda) {watcher : Watcher} (harmless : ∀ other, job ≠ .resume other .cancelled)
    (older : ∀ other, watcher = .waiter other → other < id) : a.Soothes (a.watch id watcher job) := by
  unfold watch
  split
  · have named (task : Task) (named : (task.id == id) = true) (other : TaskId) (same : watcher = .waiter other) :
        other < task.id := (by simpa using named : task.id = id) ▸ older other same
    refine ⟨fun serene => { serene with
      unmarked := fun task' changed => ?_
      descends := fun task' changed other watched => ?_ }, fun _ member => member⟩
    all_goals obtain ⟨task, member, rfl⟩ := List.mem_map.mp changed
    · split <;> exact serene.unmarked task member
    · split at watched
      · next same =>
        rw [if_pos same]
        rcases List.mem_append.mp watched with before | last
        · exact serene.descends task member other before
        · exact named task same other (List.mem_singleton.mp last).symm
      · next different =>
        rw [if_neg different]
        exact serene.descends task member other watched
  · exact a.soothes_enqueue harmless

theorem soothes_create (a : Agenda) : a.Soothes a.create.1 := by
  let b : Agenda := { a with tasks := a.tasks ++ [{ id := a.created }], created := a.created + 1 }
  have members {task : Task} (member : task ∈ b.tasks) : task ∈ a.tasks ∨ task = { id := a.created } := by
    simpa [b] using member
  have begins : a.Soothes b := by
    refine ⟨fun serene => { serene with
      unmarked := fun task member => ?_
      descends := fun task member other watched => ?_ }, fun _ member => member⟩
    · rcases members member with before | rfl
      · exact serene.unmarked task before
      · rfl
    · rcases members member with before | rfl
      · exact serene.descends task before other watched
      · cases watched
  exact begins.trans (b.soothes_enqueue (by simp))

theorem soothes_finish (a : Agenda) (id : TaskId) : a.Soothes (a.finish id) := by
  have ends : a.Soothes { a with tasks := a.tasks.filter (·.id != id) } :=
    ⟨fun serene => { serene with
      unmarked := fun task member => serene.unmarked task (List.mem_filter.mp member).1
      descends := fun task member => serene.descends task (List.mem_filter.mp member).1 }, fun _ member => member⟩
  refine ends.trans (soothes_foldl _ (fun a watcher => a.soothes_enqueue ?_) _ _)
  cases watcher <;> simp [Watcher.job]

/-- A task begins to wait, and not for an operator: if it is for others, they were created after it. -/
theorem soothes_heed (a : Agenda) (id : TaskId) {cue : Cue} (noRequest : ∀ token, cue ≠ .decision token)
    (proper : cue ≠ .tasks []) (later : ∀ ids, cue = .tasks ids → ∀ other ∈ ids, id < other) :
    a.Soothes (Machine.heed id cue a) := by
  have suspends {wait : Wait} (allows : a.Allows id wait) : a.Soothes (a.suspend id wait) := by
    refine ⟨fun serene => serene.rewaits fun w member => ?_, fun other member => ?_⟩
    · rcases List.mem_append.mp member with before | last
      · exact serene.allows before
      · cases List.mem_singleton.mp last
        exact allows
    · rw [paused, List.mem_append] at member ⊢
      refine member.imp_left fun waits => ?_
      exact List.map_append ▸ List.mem_append_left _ waits
  cases cue with
  | time seconds =>
    change a.Soothes (a.sleep id seconds)
    unfold sleep
    split
    · exact a.soothes_enqueue (by simp)
    · exact suspends ⟨by simp, by simp, by simp⟩
  | decision token => exact absurd rfl (noRequest token)
  | latch => exact suspends ⟨by simp, by simp, by simp⟩
  | tasks ids =>
    have some : ids ≠ [] := fun none => proper (none ▸ rfl)
    have younger := later ids rfl
    clear later noRequest proper
    have begins : a.Soothes (a.suspend id (.tasks ids ids.length false)) := by
      refine suspends ⟨fun ids' left cut same => ?_, by simp, by simp⟩
      cases same
      exact ⟨rfl, List.length_pos_iff.mpr some⟩
    change a.Soothes (a.join id ids)
    refine begins.trans ?_
    unfold join
    generalize a.suspend id (.tasks ids ids.length false) = b
    clear some begins
    induction ids generalizing b with
    | nil => exact .refl b
    | cons other rest ih =>
      have watches : b.Soothes (b.watch other (.waiter id) (.report id)) := by
        refine b.soothes_watch (by simp) fun waiter same => ?_
        cases same
        exact younger other List.mem_cons_self
      exact watches.trans (ih (fun later listed => younger later (List.mem_cons_of_mem other listed)) _)

/-! ## Rest -/

/-- Nothing is left to do, and nobody waits for a time, an answer or a latch. -/
structure AtRest (a : Agenda) : Prop where
  ready : a.ready = []
  waits : ∀ wait ∈ a.waits, wait.2.joins ≠ none

/-- Among tasks that only wait for each other the latest would have nobody to wait for. -/
theorem AtRest.empty (rest : a.AtRest) (orderly : a.Orderly) (serene : a.Serene)
    (paused : ∀ id ∈ a.alive, id ∈ a.paused) : a.alive = [] := by
  rw [List.eq_nil_iff_forall_not_mem]
  intro id
  -- The induction goes from the latest task down: whom a task waits for was created after it.
  induction room : a.created - id using Nat.strongRecOn generalizing id with
  | ind n ih =>
    intro alive
    have waiting := paused id alive
    rw [Agenda.paused, rest.ready, List.filterMap_nil, List.append_nil] at waiting
    obtain ⟨⟨key, wait⟩, member, rfl⟩ := List.mem_map.mp waiting
    obtain ⟨ids, left, cut, rfl⟩ : ∃ ids left cut, wait = .tasks ids left cut := by
      cases wait with
      | tasks ids left cut => exact ⟨ids, left, cut, rfl⟩
      | _ => exact absurd rfl (rest.waits _ member)
    have more := (serene.uncut key ids left cut member).2
    have counted : a.due.count key = left := by
      rw [orderly.counted, Agenda.left, orderly.wait?_of_mem member]
      rfl
    have due : key ∈ a.due := List.count_pos_iff.mp (counted ▸ more)
    rw [Agenda.due, rest.ready, List.filterMap_nil, List.nil_append] at due
    obtain ⟨task, live, watched⟩ := List.mem_flatMap.mp due
    obtain ⟨watcher, watching, waiter⟩ := List.mem_filterMap.mp watched
    obtain rfl : watcher = .waiter key := by
      cases watcher with
      | waiter other => exact congrArg Watcher.waiter (Option.some.inj waiter)
      | background => cases waiter
    have later := serene.descends task live key watching
    have old := orderly.numbered task.id (List.mem_map_of_mem live)
    have closer : a.created - task.id < n := room ▸ Nat.sub_lt_sub_left (Nat.lt_trans later old) later
    exact ih _ closer task.id rfl (List.mem_map_of_mem live)

end Agenda

/-! ## What tasks do to each other's waits -/

namespace World

variable {σ : Type}

theorem openLatch_retains (w : World σ) (key : Value) : w.agenda.Retains (w.openLatch key).agenda := by
  unfold openLatch
  split
  · exact .refl _
  · dsimp only
    exact w.agenda.releaseAll_retains _ .ready

theorem openLatch_soothes (w : World σ) (key : Value) : w.agenda.Soothes (w.openLatch key).agenda := by
  unfold openLatch
  split
  · exact .refl _
  · dsimp only
    exact w.agenda.soothes_releaseAll _

theorem settle_retains (w : World σ) (token : String) (resolution : Resolution) :
    w.agenda.Retains (w.settle token resolution).agenda := by
  dsimp only [settle]
  exact w.agenda.releaseAll_retains _ _

theorem decide_soothes (w : World σ) (token : String) (decision : Decision) :
    w.agenda.Soothes (w.settle token (.decided decision)).agenda := by
  dsimp only [settle]
  exact w.agenda.soothes_releaseAll _

theorem releaseGate_retains (w : World σ) (execution : String) (note : Value) :
    w.agenda.Retains (w.releaseGate execution note).1.agenda := by
  unfold releaseGate
  simp only
  generalize w.gate.unsettled execution = waiting
  induction waiting generalizing w with
  | nil => exact .refl _
  | cons r rest ih => exact (w.settle_retains r.token _).trans (ih _)

/-- A task that is cancelled goes on or is marked, and passes the cancellation on to those that it waits for. -/
theorem cancelTask_retains (fuel : Nat) (id : TaskId) (w : World σ) :
    w.agenda.Retains (w.cancelTask fuel id).1.agenda := by
  induction fuel generalizing id w with
  | zero => exact .refl _
  | succ fuel ih =>
    have all (ids : List TaskId) (any : Bool) (w : World σ) :
        w.agenda.Retains (ids.foldl (fun (acc : World σ × Bool) other =>
          ((acc.1.cancelTask fuel other).1, acc.2 || (acc.1.cancelTask fuel other).2)) (w, any)).1.agenda := by
      induction ids generalizing any w with
      | nil => exact .refl _
      | cons other rest later => exact (ih other w).trans (later _ _)
    rw [cancelTask]
    split
    · exact .refl _
    · split
      · exact ⟨rfl, rfl, rfl⟩
      · exact w.settle_retains _ _
      · next ids _ _ _ =>
        refine (all ids false w).trans ?_
        simp only
        split
        · split <;> exact ⟨rfl, rfl, rfl⟩
        · exact ⟨rfl, rfl, rfl⟩
      · exact ⟨rfl, rfl, rfl⟩

theorem cancel_retains (w : World σ) (id : TaskId) : w.agenda.Retains (w.cancel id).1.agenda :=
  w.cancelTask_retains _ id

end World

end Runbook
