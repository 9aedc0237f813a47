import Runbook.Proofs.Retirement
import Runbook.Proofs.Upkeep

/-! # The statistics of an engine

Whatever way an execution ends, its status, its end and its duration are on record before it is retired. So the
history has nothing in it that could still be running, and the counts of those that succeeded, failed and were
cancelled make up the whole of it.
-/

namespace Runbook

open Machine

variable {σ : Type} {e : Engine σ} {host : Host σ} {time : Timeline} {w w' : World σ} {x : Execution} {id : String}

/-! ## Records with dates -/

/-- The record of an execution that began at a moment of the timeline tells, once it is not running any more, that it
has ended and how long it took. -/
structure Timeline.Dates (time : Timeline) (x : Execution) : Prop where
  started : time.Shows x.started
  ended : x.status ≠ .running → x.ended = true ∧ x.durationMs.isSome

/-- The clock shows a moment of the timeline, and all records have their dates. -/
structure World.Dated (time : Timeline) (w : World σ) : Prop where
  now : time.Shows w.agenda.now
  records : ∀ id x, w.ledger.record? id = some x → time.Dates x

/-- The duration of an execution can be told at its end. -/
theorem Timeline.Dates.finish (dates : time.Dates x) {now : Float} (shows : time.Shows now)
    (status : ExecutionStatus) : (x.finish status now).2 = none ∧ time.Dates (x.finish status now).1 := by
  obtain ⟨ms, told⟩ := time.tellable _ _ dates.started shows
  have ended : x.finish status now = ({ x with status, ended := true, durationMs := some ms }, none) := by
    simp only [Execution.finish, Execution.elapsed, told]
  rw [ended]
  exact ⟨rfl, dates.started, fun _ => ⟨rfl, rfl⟩⟩

namespace World.Dated

variable (dated : w.Dated time)
include dated

/-- A record that does not exist is taken for one that nothing has happened to. -/
theorem record (id : String) : time.Dates (Engine.record w id) := by
  unfold Engine.record
  cases found : w.ledger.record? id with
  | none => exact ⟨time.zero, fun ended => absurd rfl ended⟩
  | some x => exact dated.records id x found

theorem aside (now : w'.agenda.now = w.agenda.now) (ledger : w'.ledger = w.ledger) : w'.Dated time :=
  ⟨now ▸ dated.now, ledger ▸ dated.records⟩

theorem amend (id : String) {f : Execution → Execution}
    (dates : ∀ x, Engine.record w id = x → time.Dates x → time.Dates (f x)) : (Engine.amend id f w).Dated time where
  now := dated.now
  records other x found := by
    rw [Engine.amend, Ledger.record?_amend] at found
    split at found
    · next same =>
      subst same
      obtain ⟨x', before, rfl⟩ := Option.map_eq_some_iff.mp found
      exact dates x' (Engine.record_eq before) (dated.records _ x' before)
    · exact dated.records other x found

theorem finish (id : String) (status : ExecutionStatus) :
    (Engine.finish id status w).1 = .ok () ∧ (Engine.finish id status w).2.Dated time := by
  obtain ⟨told, dates⟩ := (dated.record id).finish dated.now status
  unfold Engine.finish
  rcases ended : (Engine.record w id).finish status w.agenda.now with ⟨x, fault⟩
  rw [ended] at told dates
  obtain rfl : fault = none := told
  exact ⟨rfl, dated.amend id fun _ _ _ => dates⟩

theorem amend_finish (id : String) {f : Execution → Execution}
    (dates : ∀ x, Engine.record w id = x → time.Dates x → time.Dates (f x)) (status : ExecutionStatus) :
    (Engine.finish id status (Engine.amend id f w)).2.Dated time :=
  ((dated.amend id dates).finish id status).2

theorem retire (e : Engine σ) (id : String) : (e.retire id w).Dated time := by
  unfold Engine.retire
  split
  · refine ⟨dated.now, fun other x found => dated.records other x ?_⟩
    rwa [World.note, Ledger.record?_retire] at found
  · exact dated

theorem withdraw (e : Engine σ) (id : String) : (e.withdraw id w).2.Dated time := by
  unfold Engine.withdraw
  split
  · have marked := dated.amend id (f := ({ · with cancelRequested := true })) fun _ _ dates => ⟨dates.1, dates.2⟩
    obtain ⟨told, ended⟩ := marked.finish id .cancelled
    split
    · next failed => exact nomatch told.symm.trans (congrArg Prod.fst failed)
    · next w₁ finished =>
      rw [finished] at ended
      refine (ended.retire e id).aside ?_ ?_
      · exact ((e.retire id w₁).releaseGate_retains id (.text "Execution cancelled")).now
      · exact congrArg Books.ledger ((e.retire id w₁).releaseGate_books id (.text "Execution cancelled"))
  · exact dated

theorem enroll (e : Engine σ) (workflow : Workflow) (options : Options) :
    (e.enroll workflow options w).2.Dated time := by
  unfold Engine.enroll
  split
  · exact dated
  · exact dated
  split
  · exact dated.aside rfl rfl
  simp only
  split
  · exact ⟨dated.now, dated.records⟩
  · refine ⟨dated.now, fun other x found => ?_⟩
    rw [World.note, Ledger.record?, Ledger.enroll, List.find?_append, Option.map_or, Option.or_eq_some_iff] at found
    rcases found with before | ⟨_, new⟩
    · exact dated.records other x before
    · obtain ⟨⟨key, x'⟩, member, rfl⟩ := Option.map_eq_some_iff.mp new
      cases List.mem_singleton.mp (List.mem_of_find?_eq_some member)
      exact ⟨dated.now, fun ended => absurd rfl ended⟩

theorem boundary (id : String) (index : Nat) : (Engine.boundary id index w).2.Dated time := by
  unfold Engine.boundary
  simp only
  split
  · exact dated
  · split
    · exact dated
    · exact dated.aside rfl rfl
    · split
      · exact dated
      · next execution advanced =>
        refine dated.amend id fun x found dates => ?_
        rw [found] at advanced
        unfold Execution.advance at advanced
        split at advanced
        · cases advanced
        · cases advanced
          exact ⟨dates.1, dates.2⟩

theorem recordResult (id : String) (index : Nat) (result : StepResult) :
    (Engine.recordResult id index result w).2.Dated time := by
  unfold Engine.recordResult
  split
  · exact dated
  · refine dated.amend id fun x _ dates => ?_
    unfold Engine.absorb
    cases result.status <;> exact ⟨dates.1, dates.2⟩

theorem conclude (id : String) : (Engine.conclude id w).2.Dated time := by
  unfold Engine.conclude
  simp only
  split
  · exact dated
  · refine dated.amend_finish id (fun _ _ dates => ?_) _
    exact ⟨dates.1, dates.2⟩

theorem abort (id : String) (fault : Fault) : (Engine.abort id fault w).2.Dated time := by
  unfold Engine.abort
  split
  · exact dated
  · refine dated.amend_finish id (fun _ _ dates => ?_) _
    exact ⟨dates.1, dates.2⟩

theorem interrupt (id : String) : (Engine.interrupt id w).2.Dated time := by
  unfold Engine.interrupt
  split
  · refine dated.amend_finish id (fun _ _ dates => ?_) _
    exact ⟨dates.1, dates.2⟩
  · exact dated

end World.Dated

/-- An engine keeps the dates of its executions. -/
theorem Engine.keepsUp_dated (e : Engine σ) (time : Timeline) : e.KeepsUp (World.Dated time) where
  aside dated now ledger := dated.aside now ledger
  enroll workflow options _ dated := dated.enroll e workflow options
  boundary id index _ dated := dated.boundary id index
  recordResult id index result _ dated := dated.recordResult id index result
  conclude id _ dated := dated.conclude id
  abort id fault _ dated := dated.abort id fault
  interrupt id _ dated := dated.interrupt id
  retire id _ dated := dated.retire e id
  withdraw id _ dated := dated.withdraw e id
  assign id _ _ dated := dated.amend id fun _ _ dates => ⟨dates.1, dates.2⟩
  clear _ dated := ⟨dated.now, dated.records⟩

/-! ## The history and its counts -/

/-- Executions that are not running any more are counted as successful, as failed or as cancelled, each of them
once. -/
theorem Execution.length_by_status {xs : List Execution} (ended : ∀ x ∈ xs, x.status ≠ .running) :
    (xs.filter fun x => x.status == .completed).length +
      (xs.filter fun x => x.status == .failed || x.status == .error).length +
      (xs.filter fun x => x.status == .cancelled).length = xs.length := by
  induction xs with
  | nil => rfl
  | cons x rest ih =>
    have counted := ih fun y member => ended y (List.mem_cons_of_mem x member)
    have terminal := ended x List.mem_cons_self
    cases status : x.status with
    | running => exact absurd status terminal
    | _ => simp [status]; omega

variable {m start : Machine σ}

/-- Whatever happens around an engine, the history holds executions that are not running any more, each with the end
and the duration on record, and the counts of those that were successful, failed and were cancelled add up to all that
it holds. -/
theorem statistics_add_up (pristine : start.Pristine) (shows : time.Shows start.world.agenda.now)
    (unfolds : Unfolds e host time True (fun body => ∀ id, Visit e (fun _ => False) (body id)) start m) :
    (∀ id ∈ m.world.ledger.history, ∃ x, m.world.ledger.record? id = some x ∧
      x.status ≠ .running ∧ x.ended = true ∧ ∃ ms, x.durationMs = some ms) ∧
    ∃ successful failed cancelled : Nat, successful + failed + cancelled = m.world.ledger.history.length ∧
      e.stats m.world = Value.record [("active_executions", .int m.world.ledger.active.length),
        ("max_concurrent_executions", e.config.maxConcurrent),
        ("total_executions", .int (successful + failed + cancelled : Nat)),
        ("successful_executions", .int successful), ("failed_executions", .int failed),
        ("cancelled_executions", .int cancelled)] := by
  have arises : Arises e host m := ⟨start, pristine, unfolds.run fun _ visits => visits⟩
  have fresh : start.world.Dated time := by
    refine ⟨shows, fun id x found => ?_⟩
    rw [Ledger.record?, pristine.records] at found
    cases found
  have dated := (e.keepsUp_dated time).unfolds (fun dated shows ledger => ⟨shows, ledger ▸ dated.records⟩)
    pristine.toFresh fresh unfolds
  have recorded (id : String) (kept : id ∈ m.world.ledger.history) : ∃ x, m.world.ledger.record? id = some x ∧
      x.status ≠ .running ∧ x.ended = true ∧ ∃ ms, x.durationMs = some ms := by
    obtain ⟨known, inactive⟩ := arises.retired.of_mem_history kept
    obtain ⟨x, found⟩ := Ledger.mem_admitted.mp known
    have notRunning : x.status ≠ .running := fun running =>
      Bool.noConfusion (inactive.symm.trans ((arises.valid.sound id x found).enlisted running))
    obtain ⟨ended, timed⟩ := (dated.records id x found).ended notRunning
    exact ⟨x, found, notRunning, ended, Option.isSome_iff_exists.mp timed⟩
  have terminal (x : Execution) (member : x ∈ m.world.ledger.finished) : x.status ≠ .running := by
    obtain ⟨id, kept, found⟩ := List.mem_filterMap.mp member
    obtain ⟨x', found', notRunning, _⟩ := recorded id kept
    cases found.symm.trans found'
    exact notRunning
  have whole : m.world.ledger.finished.length = m.world.ledger.history.length := by
    refine List.filterMap_length_eq_length.mpr fun id kept => ?_
    obtain ⟨x, found, _⟩ := recorded id kept
    exact Option.isSome_iff_exists.mpr ⟨x, found⟩
  have counted := Execution.length_by_status terminal
  refine ⟨recorded, _, _, _, counted.trans whole, ?_⟩
  rw [counted]
  rfl

/-- A visitor has an empty workflow executed, then one whose tools answer nothing, and then starts one and cancels
it. -/
def oneOfEach (_ : TaskId) : Routine Unit Unit :=
  (ExceptT.run (openEngine.execute emptyWorkflow .null)).bind fun _ =>
    (ExceptT.run (openEngine.execute twoTools .null)).bind fun _ =>
      (Host.answer openEngine (.start pausingWorkflow .null)).bind fun _ =>
        (Host.answer openEngine (.cancel (Engine.executionId 3))).bind fun _ => .done ()

/-- The engine after that visit. -/
def afterOneOfEach : Machine Unit := ((blank () {}).launch oneOfEach).1.settle (idleHost.service openEngine) 200

/-- One execution was cancelled, one failed and one was successful, and that is all that there were. -/
theorem afterOneOfEach_adds_up : afterOneOfEach.world.ledger.history.length = 3 ∧
    afterOneOfEach.world.ledger.finished.map (·.status) = [.cancelled, .failed, .completed] ∧
    (∀ id ∈ afterOneOfEach.world.ledger.history, ∃ x, afterOneOfEach.world.ledger.record? id = some x ∧
      x.status ≠ .running ∧ x.ended = true ∧ ∃ ms, x.durationMs = some ms) ∧
    ∃ successful failed cancelled : Nat, successful + failed + cancelled = 3 ∧
      openEngine.stats afterOneOfEach.world = Value.record [("active_executions", .int 0),
        ("max_concurrent_executions", .int 5), ("total_executions", .int (successful + failed + cancelled : Nat)),
        ("successful_executions", .int successful), ("failed_executions", .int failed),
        ("cancelled_executions", .int cancelled)] := by
  have visits (id : TaskId) : Visit openEngine (fun _ => False) (oneOfEach id) :=
    .execute emptyWorkflow .null _ fun _ => .execute twoTools .null _ fun _ =>
      .ask (.start pausingWorkflow .null) _ trivial fun _ =>
        .ask (.cancel (Engine.executionId 3)) _ trivial fun _ => .leave
  have unfolds : Unfolds openEngine idleHost stillTime True
      (fun body => ∀ id, Visit openEngine (fun _ => False) (body id)) (blank () {}) afterOneOfEach :=
    .trans ((Unfolds.refl _).next (.arrive oneOfEach visits)) (unfolds_settle _ 200 _)
  obtain ⟨recorded, successful, failed, cancelled, sum, stats⟩ :=
    statistics_add_up (blank_pristine () {}) stillTime.zero unfolds
  have count : afterOneOfEach.world.ledger.history.length = 3 := by decide +kernel
  have idle : afterOneOfEach.world.ledger.active = [] := by decide +kernel
  rw [idle] at stats
  exact ⟨count, by decide +kernel, recorded, successful, failed, cancelled, sum.trans count, stats⟩

end Runbook
