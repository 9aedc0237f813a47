import Runbook.Proofs.Moments
import Runbook.Proofs.Rest
import Runbook.Proofs.Serenity
import Runbook.Proofs.Sight

/-! # What becomes of waits

As long as nobody is cancelled, a wait ends in one way: a latch is opened, a timer that has gone off has its turn, or
the last of the tasks that are waited for has reported its end. Everything else that happens to an agenda leaves the
waits of all tasks as they are, but for the one that begins to wait.
-/

namespace Runbook

namespace Agenda

variable {a a' : Agenda} {id other : TaskId} {ready : List Job} {job : Job}

/-! ## Looking up -/

theorem wait?_filter (keep : TaskId → Bool) (a : Agenda) (id : TaskId) :
    ({ a with waits := a.waits.filter fun w => keep w.1 } : Agenda).wait? id = if keep id then a.wait? id else none := by
  simp only [wait?, List.find?_filter]
  split
  · next kept =>
    congr 2
    funext w
    by_cases named : w.1 = id
    · simp [named, kept]
    · simp [named]
  · next dropped =>
    simp only [Option.map_eq_none_iff, List.find?_eq_none]
    intro w _ both
    obtain ⟨kept, named⟩ : keep w.1 = true ∧ w.1 = id := by simpa using both
    exact dropped (named ▸ kept)

theorem wait?_release (a : Agenda) (id other : TaskId) (wake : Wake) :
    (a.release id wake).wait? other = if other = id then none else a.wait? other :=
  wait?_unwait a id other

theorem wait?_rung (ids : List TaskId) (a : Agenda) (id : TaskId) :
    ({ a with waits := rung ids a.waits } : Agenda).wait? id =
      (a.wait? id).map fun wait => if id ∈ ids then .ringing else wait := by
  have keys : (fun w : TaskId × Wait => w.1 == id) ∘ (fun w => if w.1 ∈ ids then (w.1, Wait.ringing) else w) =
      fun w => w.1 == id := by
    funext w
    simp only [Function.comp_apply]
    split <;> rfl
  simp only [wait?, rung, List.find?_map, keys]
  cases found : a.waits.find? (·.1 == id) with
  | none => rfl
  | some w =>
    have named : w.1 = id := by simpa using List.find?_some found
    simp only [Option.map_some, named]
    split <;> rfl

/-! ## Waits that go on and end -/

end Agenda

/-- What can become of the wait of a task that is left alone, if these tasks live. -/
inductive Wait.Drifts (alive : List TaskId) : Option Wait → Option Wait → Prop
  | stays (wait : Option Wait) : Drifts alive wait wait
  | rings : Drifts alive (some .ringing) none
  | passes (key : Value) : Drifts alive (some (.latch key)) none
  | counts {ids : List TaskId} {left left' : Nat} {cut cut' : Bool} :
      Drifts alive (some (.tasks ids left cut)) (some (.tasks ids left' cut'))
  | gathers {ids : List TaskId} {left : Nat} {cut : Bool} (gone : ∀ id ∈ ids, id ∉ alive) :
      Drifts alive (some (.tasks ids left cut)) none

namespace Agenda

variable {a a' : Agenda} {id other : TaskId} {ready : List Job} {job : Job}

/-- Something happens while all tasks stay where they are, and nobody is cancelled. -/
structure Eases (a a' : Agenda) : Prop where
  stands : a.Stands a'
  serene : a'.Serene
  paused : ∀ id ∈ a.paused, id ∈ a'.paused
  drifts : ∀ id, Wait.Drifts a.alive (a.wait? id) (a'.wait? id)
  watchers : ∀ task' ∈ a'.tasks, ∃ task ∈ a.tasks, task.id = task'.id ∧ task.watchers = task'.watchers

theorem Orderly.eases (orderly : a.Orderly) (serene : a.Serene) : a.Eases a where
  stands := orderly.stands
  serene := serene
  paused _ member := member
  drifts _ := .stays _
  watchers task member := ⟨task, member, rfl, rfl⟩

/-- All waits at a latch end. -/
theorem Orderly.eases_releaseAll (orderly : a.Orderly) (serene : a.Serene) {sort : Wait → Bool}
    (latches : ∀ wait, sort wait = true → ∃ key, wait = .latch key) : a.Eases (a.releaseAll sort .ready) where
  stands := by
    refine (orderly.releaseAll sort (fun wait sorted => ?_) .ready).stands (a.releaseAll_retains sort .ready)
    obtain ⟨key, rfl⟩ := latches wait sorted
    rfl
  serene := (a.soothes_releaseAll sort).serene serene
  paused := (a.soothes_releaseAll sort).paused
  drifts id := by
    have lookup : (a.releaseAll sort .ready).wait? id =
        if decide (id ∉ (a.waits.filter fun w => sort w.2).map (·.1)) then a.wait? id else none := by
      rw [Agenda.releaseAll, foldl_release]
      exact wait?_filter (fun id => decide (id ∉ (a.waits.filter fun w => sort w.2).map (·.1))) a id
    rw [lookup]
    split
    · exact .stays _
    · next listed =>
      obtain ⟨⟨key, wait⟩, chosen, rfl⟩ := List.mem_map.mp (by simpa only [decide_eq_true_eq, not_not] using listed)
      obtain ⟨member, sorted⟩ := List.mem_filter.mp chosen
      obtain ⟨latch, rfl⟩ := latches wait sorted
      rw [orderly.wait?_of_mem member]
      exact .passes latch
  watchers task member := by
    rw [Agenda.releaseAll, foldl_release] at member
    exact ⟨task, member, rfl, rfl⟩

/-- Who pauses goes on pausing when a job is taken off the queue that resumes nobody. -/
theorem paused_dequeue (queue : a.ready = job :: ready) (noResume : job.resumed? = none) (paused : id ∈ a.paused) :
    id ∈ ({ a with ready } : Agenda).paused := by
  rwa [Agenda.paused, queue, List.filterMap_cons_none noResume] at paused

/-- A timer has its turn. -/
theorem Orderly.eases_ring (orderly : a.Orderly) (serene : a.Serene) (queue : a.ready = .ring id :: ready) :
    a.Eases (({ a with ready } : Agenda).ring id) where
  stands := by
    have taken := orderly.dequeue queue rfl
    have shrinks : a.Retains ({ a with ready } : Agenda) := ⟨rfl, rfl, rfl⟩
    exact (taken.trans orderly (taken.orderly.ring id)).stands (shrinks.trans (ring_retains _ id))
  serene := serene.ring orderly queue
  paused other paused := paused_ring (paused_dequeue queue rfl paused) id
  drifts other := by
    unfold Agenda.ring
    split
    · next found =>
      rw [wait?_release]
      split
      · next same =>
        subst same
        exact (show a.wait? other = _ from found) ▸ .rings
      · exact .stays _
    · exact .stays _
  watchers task member := by
    unfold Agenda.ring at member
    split at member <;> exact ⟨task, member, rfl, rfl⟩

/-- A report is heard. -/
theorem Orderly.eases_hear (orderly : a.Orderly) (serene : a.Serene) (queue : a.ready = .report id :: ready) :
    a.Eases (({ a with ready } : Agenda).hear id) := by
  have shrinks : a.Retains ({ a with ready } : Agenda) := ⟨rfl, rfl, rfl⟩
  have hears := orderly.hear queue
  have stands := hears.stands (shrinks.trans (hear_retains _ id))
  obtain ⟨heard, pausing⟩ := (serene.dequeue queue fun _ same => nomatch same).hear id
  refine ⟨stands, heard, fun other paused => pausing other (paused_dequeue queue rfl paused), fun other => ?_,
    fun task member => ?_⟩
  · cases found : ({ a with ready } : Agenda).wait? id with
    | none =>
      rw [Agenda.hear, found]
      exact .stays _
    | some wait =>
      cases wait with
      | tasks ids left cut =>
        by_cases same : other = id
        · subst same
          have waited : a.wait? other = some (.tasks ids left cut) := found
          rw [waited]
          cases waits : (({ a with ready } : Agenda).hear other).wait? other with
          | none =>
            have joins : a.Joins other ids := ⟨_, mem_waits_of_wait? waited, rfl⟩
            refine .gathers fun branch listed alive => ?_
            rcases stands.continues.joined other ids joins with ⟨wait, member, -⟩ | gone
            · cases waits.symm.trans (stands.orderly.wait?_of_mem member)
            · exact gone branch listed ((stands.alive branch).mpr alive)
          | some wait =>
            simp only [Agenda.hear, found] at waits
            split at waits
            · rw [wait?_release, if_pos rfl] at waits
              cases waits
            · rw [wait?_rewait, if_pos rfl, found] at waits
              cases waits
              exact .counts
        · simp only [Agenda.hear, found]
          split
          · rw [wait?_release, if_neg same]
            exact .stays _
          · rw [wait?_rewait, if_neg same]
            exact .stays _
      | _ =>
        rw [Agenda.hear, found]
        exact .stays _
  · unfold Agenda.hear at member
    split at member
    · split at member <;> exact ⟨task, member, rfl, rfl⟩
    · exact ⟨task, member, rfl, rfl⟩

/-- A job that has nothing to do with waits is taken off the queue. -/
theorem Orderly.eases_forget (orderly : a.Orderly) (serene : a.Serene) {execution : String}
    (queue : a.ready = .forget execution :: ready) : a.Eases { a with ready } where
  stands := (orderly.dequeue queue rfl).stands ⟨rfl, rfl, rfl⟩
  serene := serene.dequeue queue fun _ same => nomatch same
  paused _ paused := paused_dequeue queue rfl paused
  drifts _ := .stays _
  watchers task member := ⟨task, member, rfl, rfl⟩

/-! ## Tasks that begin to wait, and tasks that end -/

theorem waits_watch (a : Agenda) (id : TaskId) (watcher : Watcher) (job : Job) :
    (a.watch id watcher job).waits = a.waits := by
  unfold watch
  split <;> rfl

theorem waits_join (a : Agenda) (id : TaskId) (ids : List TaskId) :
    (a.join id ids).waits = (a.suspend id (.tasks ids ids.length false)).waits := by
  unfold join
  generalize a.suspend id (.tasks ids ids.length false) = b
  induction ids generalizing b with
  | nil => rfl
  | cons other rest ih => rw [List.foldl_cons, ih, waits_watch]

/-- The wait with which a task heeds a cue. -/
def begun? (a : Agenda) : Cue → Option Wait
  | .time seconds => if seconds ≤ 0.0 then none else some (.timer (a.now + seconds))
  | .decision token => some (.decision token)
  | .latch key => some (.latch key)
  | .tasks ids => some (.tasks ids ids.length false)

/-- A task that does not wait yet begins to, and nobody else does. -/
theorem wait?_heed (idle : id ∉ a.paused) (cue : Cue) (other : TaskId) :
    (Machine.heed id cue a).wait? other = if other = id then a.begun? cue else a.wait? other := by
  cases cue with
  | time seconds =>
    change (a.sleep id seconds).wait? other =
      if other = id then if seconds ≤ 0.0 then none else some (.timer (a.now + seconds)) else a.wait? other
    unfold sleep
    by_cases positive : seconds ≤ 0.0
    · rw [if_pos positive, if_pos positive]
      split
      · next same =>
        subst same
        exact (wait?_eq_none_of_not_paused idle : a.wait? other = none)
      · rfl
    · rw [if_neg positive, if_neg positive]
      exact wait?_suspend idle _ other
  | decision token => exact wait?_suspend idle _ other
  | latch key => exact wait?_suspend idle _ other
  | tasks ids =>
    have waits : (a.join id ids).wait? other = (a.suspend id (.tasks ids ids.length false)).wait? other := by
      rw [wait?, waits_join, wait?]
    exact waits.trans (wait?_suspend idle _ other)

theorem waiter_watch {task' : Task} {waiter : TaskId} (member : task' ∈ (a.watch id (.waiter other) job).tasks)
    (watches : .waiter waiter ∈ task'.watchers) : (waiter = other ∧ task'.id = id) ∨
      ∃ task ∈ a.tasks, task.id = task'.id ∧ .waiter waiter ∈ task.watchers := by
  unfold watch at member
  split at member
  · obtain ⟨task, before, rfl⟩ := List.mem_map.mp member
    split at watches
    · next named =>
      rw [if_pos named]
      rcases List.mem_append.mp watches with old | new
      · exact .inr ⟨task, before, rfl, old⟩
      · cases List.mem_singleton.mp new
        exact .inl ⟨rfl, by simpa using named⟩
    · next unnamed =>
      rw [if_neg unnamed]
      exact .inr ⟨task, before, rfl, watches⟩
  · exact .inr ⟨task', member, rfl, watches⟩

/-- Whoever does not wait is told of nobody's end. -/
theorem Orderly.unwatched (orderly : a.Orderly) (idle : id ∉ a.paused) {task : Task} (member : task ∈ a.tasks) :
    .waiter id ∉ task.watchers := by
  intro watches
  have none : a.due.count id = 0 := (orderly.counted id).trans (left_of_not_paused idle)
  refine List.count_eq_zero.mp none (List.mem_append_right _ (List.mem_flatMap.mpr ⟨task, member, ?_⟩))
  exact List.mem_filterMap.mpr ⟨_, watches, rfl⟩

/-- Whoever begins to wait for others watches none but them. -/
theorem waiter_join {ids : List TaskId} {task' : Task} {waiter : TaskId} (member : task' ∈ (a.join id ids).tasks)
    (watches : .waiter waiter ∈ task'.watchers) : (waiter = id ∧ task'.id ∈ ids) ∨
      ∃ task ∈ a.tasks, task.id = task'.id ∧ .waiter waiter ∈ task.watchers := by
  change task' ∈ (ids.foldl (fun a other => a.watch other (.waiter id) (.report id))
    (a.suspend id (.tasks ids ids.length false))).tasks at member
  have same : (a.suspend id (.tasks ids ids.length false)).tasks = a.tasks := rfl
  rw [← same]
  generalize a.suspend id (.tasks ids ids.length false) = b at member
  clear same
  induction ids generalizing b with
  | nil => exact .inr ⟨task', member, rfl, watches⟩
  | cons other rest ih =>
    rcases ih _ member with ⟨rfl, listed⟩ | ⟨task, before, named, watched⟩
    · exact .inl ⟨rfl, List.mem_cons_of_mem _ listed⟩
    · rcases waiter_watch before watched with ⟨rfl, first⟩ | ⟨task₀, before, same, watched⟩
      · exact .inl ⟨rfl, named ▸ first ▸ List.mem_cons_self⟩
      · exact .inr ⟨task₀, before, same.trans named, watched⟩

/-- Whoever begins to wait watches none but those that it waits for. -/
theorem waiter_heed {cue : Cue} {task' : Task} {waiter : TaskId} (member : task' ∈ (Machine.heed id cue a).tasks)
    (watches : .waiter waiter ∈ task'.watchers) : (waiter = id ∧ ∃ ids, cue = .tasks ids ∧ task'.id ∈ ids) ∨
      ∃ task ∈ a.tasks, task.id = task'.id ∧ .waiter waiter ∈ task.watchers := by
  cases cue with
  | time seconds =>
    change task' ∈ (a.sleep id seconds).tasks at member
    unfold sleep at member
    split at member <;> exact .inr ⟨task', member, rfl, watches⟩
  | decision | latch => exact .inr ⟨task', member, rfl, watches⟩
  | tasks ids => exact (waiter_join member watches).imp_left fun ⟨same, listed⟩ => ⟨same, ids, rfl, listed⟩

theorem finish_eq (a : Agenda) (id : TaskId) :
    ∃ ready, a.finish id = { a with ready, tasks := a.tasks.filter (·.id != id) } := by
  unfold finish
  simp only
  generalize ((a.task? id).map (·.watchers)).getD [] = watchers
  generalize same : ({ a with tasks := a.tasks.filter (·.id != id) } : Agenda) = b
  suffices told : ∃ ready, watchers.foldl (fun a w => a.enqueue (Watcher.job w)) b = { b with ready } by
    obtain ⟨ready, told⟩ := told
    exact ⟨ready, by rw [told, ← same]⟩
  clear same
  induction watchers generalizing b with
  | nil => exact ⟨b.ready, rfl⟩
  | cons w rest ih =>
    obtain ⟨ready, told⟩ := ih (b.enqueue (Watcher.job w))
    exact ⟨ready, told⟩

/-! ## The clock -/

/-- A wait when the clock shows a moment: timers that are due then have gone off. -/
def rungAt (now : Float) : Option Wait → Option Wait
  | some (.timer due) => some (if now < due then .timer due else .ringing)
  | wait => wait

theorem Orderly.wait?_ringDue (orderly : a.Orderly) (id : TaskId) : a.ringDue.wait? id = rungAt a.now (a.wait? id) := by
  obtain ⟨timers, perm, same⟩ := a.exists_ringDue
  have listed : id ∈ timers.map (·.2) ↔ ∃ due, a.wait? id = some (.timer due) ∧ ¬a.now < due := by
    rw [(perm.map _).mem_iff, List.mem_map]
    constructor
    · rintro ⟨timer, chosen, rfl⟩
      obtain ⟨⟨key, wait⟩, member, due⟩ := List.mem_filterMap.mp chosen
      unfold timer? at due
      split at due
      · next moment same =>
        split at due
        · cases due
        · next past =>
          cases due
          cases (same : wait = _)
          exact ⟨moment, orderly.wait?_of_mem member, past⟩
      · cases due
    · rintro ⟨due, found, past⟩
      exact ⟨(due, id), List.mem_filterMap.mpr ⟨_, mem_waits_of_wait? found, if_neg past⟩, rfl⟩
  have lookup : a.ringDue.wait? id =
      (a.wait? id).map fun wait => if id ∈ timers.map (·.2) then .ringing else wait := by
    rw [same, ringing_foldl]
    exact wait?_rung (timers.map (·.2)) a id
  rw [lookup]
  cases found : a.wait? id with
  | none => rfl
  | some wait =>
    rw [found] at listed
    cases wait with
    | timer due =>
      simp only [Option.map_some, listed, Option.some.injEq, Wait.timer.injEq, exists_eq_left', ite_not, rungAt]
    | _ =>
      have unlisted : id ∉ timers.map (·.2) := by simp [listed]
      simp only [Option.map_some, if_neg unlisted, rungAt]

theorem tasks_ringDue (a : Agenda) : a.ringDue.tasks = a.tasks := by
  obtain ⟨timers, -, same⟩ := a.exists_ringDue
  rw [same, ringing_foldl]

/-- The next moment at which a timer is due is not after any of those at which timers are due. -/
theorem nextDue?_moment {next : Float} (found : a.nextDue? = some next)
    (shown : ∀ id due, (id, .timer due) ∈ a.waits → ∃ d : Moment, d.seconds = due) :
    ∃ first : Moment, first.seconds = next ∧ ∀ id (d : Moment), (id, .timer d.seconds) ∈ a.waits → first ≤ d := by
  have least (due : Float) (rest : List Float) (shown : ∀ s ∈ due :: rest, ∃ d : Moment, d.seconds = s) :
      ∃ first : Moment, first.seconds = rest.foldl earlier due ∧ ∀ d : Moment, d.seconds ∈ due :: rest → first ≤ d := by
    induction rest generalizing due with
    | nil =>
      obtain ⟨d, rfl⟩ := shown due List.mem_cons_self
      exact ⟨d, rfl, fun d' same => (Moment.reading_injective (List.mem_singleton.mp same)).ge⟩
    | cons other rest ih =>
      obtain ⟨d, rfl⟩ := shown due List.mem_cons_self
      obtain ⟨d', rfl⟩ := shown other (List.mem_cons_of_mem _ List.mem_cons_self)
      have sooner : earlier d.seconds d'.seconds = (min d d').seconds := by
        unfold earlier
        split
        · next less => rw [min_eq_right ((Moment.lt_iff d' d).mpr less).le]
        · next more => rw [min_eq_left (not_lt.mp (mt (Moment.lt_iff d' d).mp more))]
      obtain ⟨first, same, least⟩ := ih (earlier d.seconds d'.seconds) fun s member => by
        rcases List.mem_cons.mp member with rfl | later
        · exact ⟨_, sooner.symm⟩
        · exact shown s (List.mem_cons_of_mem _ (List.mem_cons_of_mem _ later))
      have before : first ≤ min d d' := least _ (sooner ▸ List.mem_cons_self)
      refine ⟨first, same, fun d'' member => ?_⟩
      rcases List.mem_cons.mp member with same | member
      · exact Moment.reading_injective same ▸ before.trans (min_le_left d d')
      · rcases List.mem_cons.mp member with same | later
        · exact Moment.reading_injective same ▸ before.trans (min_le_right d d')
        · exact least d'' (List.mem_cons_of_mem _ later)
  have timers (s : Float) (listed : s ∈ a.waits.filterMap (due? ·.2)) : ∃ id, (id, .timer s) ∈ a.waits := by
    obtain ⟨⟨id, wait⟩, member, due⟩ := List.mem_filterMap.mp listed
    cases wait with
    | timer moment =>
      cases due
      exact ⟨id, member⟩
    | _ => cases due
  unfold nextDue? at found
  split at found
  · cases found
  · next due rest same =>
    cases found
    obtain ⟨first, named, least⟩ := least due rest fun s member => by
      obtain ⟨id, waits⟩ := timers s (same ▸ member)
      exact shown id s waits
    refine ⟨first, named, fun id d waits => least d ?_⟩
    rw [← same]
    exact List.mem_filterMap.mpr ⟨_, waits, rfl⟩

end Agenda

/-- A latch is opened. -/
theorem World.openLatch_eases {σ : Type} {w : World σ} (orderly : w.agenda.Orderly) (serene : w.agenda.Serene)
    (key : Value) : w.agenda.Eases (w.openLatch key).agenda := by
  unfold openLatch
  split
  · exact orderly.eases serene
  · dsimp only
    refine orderly.eases_releaseAll serene fun wait sorted => ?_
    cases wait with
    | latch key => exact ⟨key, rfl⟩
    | _ => cases sorted

end Runbook
