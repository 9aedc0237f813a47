import Runbook.Proofs.Governance

/-! # What is final about an end

An execution that has ended does not run again. Whether it keeps the status of its end depends on one
thing only: a cancellation that comes while the driver still announces the end finds the execution active,
overwrites the status and is announced after the end. An execution that a cancellation has found active,
on the other hand, does not change in anything.
-/

namespace Runbook

open Books Machine

variable {σ : Type} {e : Engine σ} {host : Host σ} {spared : String → Prop} {m m' : Machine σ}
  {id : String} {x : Execution}

/-! ## The status of an end -/

namespace Chronicle

variable {journal : List Happening}

/-- More than one end is announced exactly if the last one is a belated cancellation. -/
theorem ends_le_one_iff (chronicle : Chronicle id journal) :
    Runbook.endings id journal + Runbook.farewells id journal ≤ 1 ↔ ¬Belated id journal := by
  constructor
  · intro few belated
    have ended := belated.endings
    have bidden := belated.farewells
    omega
  · intro timely
    have ended := chronicle.endings
    have bidden := chronicle.farewells
    have apart : ¬(0 < Runbook.endings id journal ∧ 0 < Runbook.farewells id journal) :=
      fun both => timely (chronicle.belated both.1 both.2)
    omega

/-- Before a belated cancellation another end was announced, with a record of that end. -/
theorem shown_of_belated (chronicle : Chronicle id journal) (belated : Belated id journal) :
    ∃ event y, .announced event (some y) ∈ journal ∧ (event = .completed id ∨ event = .failed id) ∧
      y.status ≠ .running ∧ y.status ≠ .cancelled := by
  obtain ⟨h, member, ending⟩ := List.countP_pos_iff.mp belated.endings
  obtain ⟨event, y, rfl, notRunning, notCancelled⟩ := chronicle.shown h member ending
  refine ⟨event, y, member, ?_, notRunning, notCancelled⟩
  unfold Happening.isEnding at ending
  split at ending
  · next same =>
    cases same
    exact .inl (congrArg Event.completed (by simpa using ending))
  · next same =>
    cases same
    exact .inr (congrArg Event.failed (by simpa using ending))
  · cases ending

end Chronicle

namespace Books

/-- A cancellation that was announced of an execution is on its record. -/
theorem Valid.cancelled_of_belated {b : Books} (valid : Valid e spared b) (found : b.record? id = some x)
    (belated : Belated id b.journal) : x.status = .cancelled := by
  have sound := valid.sound id x found
  exact sound.requested (sound.withdrawn (.inr belated.farewells)).2

end Books

/-- An execution that has ended does not run again. It keeps its status, and only one end of it is
announced, unless a cancellation is announced after its completion or failure: then both are announced,
and the status of the end that was announced first is overwritten. Only an end whose duration cannot be
told can be followed by another one without that. -/
theorem status_kept_unless_belated (reachable : Reachable e host (fun _ => False) m)
    (run : Run e host (fun _ => False) m m') :
    (endings id m'.world.journal + farewells id m'.world.journal ≤ 1 ↔ ¬Belated id m'.world.journal) ∧
    ∀ x, m.world.ledger.record? id = some x → x.status ≠ .running →
      ∃ x', m'.world.ledger.record? id = some x' ∧ x'.status ≠ .running ∧
        (¬Belated id m'.world.journal →
          x'.status = x.status ∨ .untimed id ∈ m'.world.journal) ∧
        (Belated id m'.world.journal → x'.status = .cancelled ∧
          ∃ event y, .announced event (some y) ∈ m'.world.journal ∧
            (event = .completed id ∨ event = .failed id) ∧ y.status ≠ .running ∧
            y.status ≠ .cancelled) := by
  have valid := (reachable.run run).valid host.spares_nothing
  have chronicle : Chronicle id m'.world.journal := by
    cases found : m'.world.books.record? id with
    | none => exact .of_silent (valid.silent id found)
    | some x => exact (valid.sound id x found).chronicle
  refine ⟨chronicle.ends_le_one_iff, fun x found notRunning => ?_⟩
  obtain ⟨x', found', evolves⟩ := (reachable.later host.spares_nothing run).records id x found
  obtain ⟨notRunning', kept⟩ := evolves.ended notRunning
  refine ⟨x', found', notRunning', fun timely => ?_, fun belated =>
    ⟨valid.cancelled_of_belated found' belated, chronicle.shown_of_belated belated⟩⟩
  rcases kept with same | untimed | belated
  · exact .inl same
  · exact .inr untimed
  · exact absurd belated timely

/-- Observers that cancel every execution that they are told of. -/
def cancellingHost : Host Unit where
  tool _ _ := .done (.ok .null)
  observer _ event := .ask (.cancel event.execution) fun _ => .done (.ok ())

/-- A workflow without steps. -/
def emptyWorkflow : Value :=
  Value.record [("id", .text "w"), ("name", .text "W"), ("steps", .list [])]

/-- The open engine with an empty workflow, some steps after its execution was asked for, when there is
one observer of executions that complete. -/
def observedCompletion (steps : Nat) : Machine Unit :=
  (Machine.blank () (({} : Bus).subscribe .executionCompleted "watch")).executing openEngine cancellingHost
    emptyWorkflow .null steps

/-- The observer of its completion cancels an execution, which has completed and is cancelled then, and
tells of both. -/
theorem completed_then_cancelled :
    ∃ m m' : Machine Unit, Reachable openEngine cancellingHost (fun _ => False) m ∧
      Run openEngine cancellingHost (fun _ => False) m m' ∧
      (m.world.ledger.record? (Engine.executionId 1)).map (·.status) = some .completed ∧
      (m'.world.ledger.record? (Engine.executionId 1)).map (·.status) = some .cancelled ∧
      endings (Engine.executionId 1) m'.world.journal = 1 ∧
      farewells (Engine.executionId 1) m'.world.journal = 1 :=
  ⟨observedCompletion 5, (observedCompletion 5).settle (cancellingHost.service openEngine) 2,
    reachable_executing .., run_settle .., by decide +kernel, by decide +kernel, by decide +kernel,
    by decide +kernel⟩

/-- Before the observer's cancellation the execution has completed, and keeps its status. -/
theorem completed_before_cancelled :
    (((observedCompletion 5).settle (cancellingHost.service openEngine) 1).world.ledger.record?
      (Engine.executionId 1)).map (·.status) = some .completed := by
  obtain ⟨m', after⟩ : ∃ m', m' = (observedCompletion 5).settle (cancellingHost.service openEngine) 1 :=
    ⟨_, rfl⟩
  have run : Run openEngine cancellingHost (fun _ => False) (observedCompletion 5) m' :=
    after ▸ run_settle 1 _
  have timed : .untimed (Engine.executionId 1) ∉ m'.world.journal := by
    intro member
    have none : m'.world.journal.any (· matches .untimed _) = false := by
      rw [after]
      decide +kernel
    rw [List.any_eq_true.mpr ⟨_, member, rfl⟩] at none
    cases none
  have few : endings (Engine.executionId 1) m'.world.journal +
      farewells (Engine.executionId 1) m'.world.journal ≤ 1 := by
    rw [after]
    decide +kernel
  have completed : ((observedCompletion 5).world.ledger.record? (Engine.executionId 1)).map (·.status) =
      some .completed := by decide +kernel
  obtain ⟨x, found, status⟩ := Option.map_eq_some_iff.mp completed
  obtain ⟨timely, kept⟩ := status_kept_unless_belated (reachable_executing ..) run
  obtain ⟨x', found', _, same, _⟩ := kept x found (by rw [status]; decide)
  rw [← after, found', Option.map_some, (same (timely.mp few)).resolve_right timed, status]

/-! ## Cancelled executions -/

/-- What follows the first act of a cancellation. -/
def Engine.cancelRest (id : String) :
    Except Fault (Option (List String)) → Routine σ (Except Interrupt Bool)
  | .error fault => .done (.error (.fault fault))
  | .ok none => .done (.ok false)
  | .ok (some callbacks) =>
    ExceptT.run (deliver (.cancelled id) callbacks >>= fun _ => pure true : Attempt σ Bool)

/-- A cancellation decides in its first act whether it finds an active execution. -/
theorem Engine.run_cancel (e : Engine σ) (id : String) :
    ExceptT.run (e.cancel id) = .act (World.announced (.cancelled id) (e.withdraw id)) (cancelRest id) := by
  change Routine.act _ _ = Routine.act _ _
  congr 1
  funext r
  rcases r with fault | _ | callbacks <;> rfl

/-- A cancellation that finds an active execution notes it. -/
theorem Engine.cancelled_mem_of_withdraw {w : World σ} (valid : Valid e spared w.books)
    (granted : (e.withdraw id w).1 = .ok true) :
    .cancelled id ∈ (World.announced (.cancelled id) (e.withdraw id) w).2.journal := by
  cases active : w.ledger.isActive id with
  | false =>
    rw [withdraw_inactive e active] at granted
    cases granted
  | true =>
    obtain ⟨x, found⟩ := valid.orderly.recorded id active
    obtain ⟨y, w', _, _, _, ⟨done, _, journal⟩ | ⟨⟨fault, done⟩, _⟩⟩ := withdraw_active e found active
    · rw [World.announced, done]
      change _ ∈ _ :: w'.journal
      rw [journal]
      exact List.mem_cons_of_mem _ List.mem_cons_self
    · rw [done] at granted
      cases granted

namespace Books

/-- A cancellation that has found an execution is on its record, which is retired. -/
theorem Valid.withdrawn {b : Books} (valid : Valid e spared b) (told : .cancelled id ∈ b.journal) :
    ∃ x, b.record? id = some x ∧ x.status = .cancelled ∧ x.cancelRequested = true ∧
      b.isActive id = false := by
  cases found : b.record? id with
  | none =>
    have quiet := valid.silent id found _ told
    simp [Happening.concerns] at quiet
  | some x =>
    have sound := valid.sound id x found
    obtain ⟨inactive, requested⟩ := sound.withdrawn (.inl told)
    exact ⟨x, rfl, sound.requested requested, requested, inactive⟩

end Books

/-- When a cancellation has found an active execution, the record does not change any more, whatever
happens, and no later cancellation finds the execution active. -/
theorem cancelled_for_good {m₁ m₂ : Machine σ} {task : TaskId}
    {k : Except Interrupt Bool → Routine σ Unit} (spares : host.Spares spared) (free : spared id)
    (reachable : Reachable e host spared m)
    (asks : m.running = some (task, (ExceptT.run (e.cancel id)).bind k))
    (granted : (e.withdraw id m.world).1 = .ok true)
    (answered : m.step? (host.service e) = some m₁) (run : Run e host spared m₁ m₂) :
    (∃ x, m₁.world.ledger.record? id = some x ∧ x.status = .cancelled ∧
      m₂.world.ledger.record? id = some x) ∧
    (ExceptT.run (e.cancel id)).ahead m₂.world = (.done (.ok false), m₂.world) := by
  have world : m₁.world = (World.announced (.cancelled id) (e.withdraw id) m.world).2 := by
    rw [e.run_cancel] at asks
    rw [step?, asks] at answered
    cases answered
    rfl
  have reachable₁ : Reachable e host spared m₁ := reachable.run (.next (.refl m) (.work answered))
  have told : .cancelled id ∈ m₁.world.journal :=
    world ▸ Engine.cancelled_mem_of_withdraw (reachable.valid spares) granted
  obtain ⟨x, found, status, requested, inactive⟩ := (reachable₁.valid spares).withdrawn told
  obtain ⟨x', found', evolves⟩ := (reachable₁.later spares run).records id x found
  obtain ⟨inactive', agree⟩ := evolves.frozen requested inactive
  refine ⟨⟨x, found, status, agree.eq free ▸ found'⟩, ?_⟩
  have refused : World.announced (.cancelled id) (e.withdraw id) m₂.world = (.ok none, m₂.world) := by
    rw [World.announced, Engine.withdraw_inactive e inactive']
  rw [e.run_cancel, Routine.ahead, refused]
  rfl

/-- A workflow that pauses for a second. -/
def pausingWorkflow : Value :=
  Value.record [("id", .text "p"), ("name", .text "P"),
    ("steps", .list [Value.record [("type", .text "delay"), ("delay", .int 1000)]])]

/-- The open engine while it pauses. -/
def pausing : Machine Unit :=
  (Machine.blank () {}).executing openEngine idleHost pausingWorkflow .null 20

/-- The visitor who cancels the execution that pauses. -/
def cancelPause (_ : TaskId) : Routine Unit Unit :=
  (ExceptT.run (openEngine.cancel (Engine.executionId 1))).bind fun _ => .done ()

/-- The pausing engine when a visitor is about to cancel the execution, and steps after that. -/
def cancellingPause (steps : Nat) : Machine Unit :=
  ((pausing.launch cancelPause).1.settle (idleHost.service openEngine) 1).settle
    (idleHost.service openEngine) steps

/-- A pause that was cancelled is found unchanged when its time is over. -/
theorem cancelled_pause : ∃ x,
    (cancellingPause 1).world.ledger.record? (Engine.executionId 1) = some x ∧ x.status = .cancelled ∧
      ((((cancellingPause 1).elapse?).getD (cancellingPause 1)).settle
        (idleHost.service openEngine) 20).world.ledger.record? (Engine.executionId 1) = some x := by
  have absent {α : Type 1} {o : Option α} (none : o.isNone = true) : o = .none :=
    Option.isNone_iff_eq_none.mp none
  have absent' {α : Type} {o : Option α} (none : o.isNone = true) : o = .none :=
    Option.isNone_iff_eq_none.mp none
  have asks : (cancellingPause 0).running = some (pausing.world.agenda.created, cancelPause _) :=
    running_of_idle cancelPause (absent (by decide +kernel)) (by decide +kernel)
      (absent' (by decide +kernel)) (absent (by decide +kernel))
  have granted : (openEngine.withdraw (Engine.executionId 1) (cancellingPause 0).world).1 = .ok true := by
    have answer : (openEngine.withdraw (Engine.executionId 1) (cancellingPause 0).world).1.toOption =
        some true := by decide +kernel
    cases outcome : (openEngine.withdraw (Engine.executionId 1) (cancellingPause 0).world).1 with
    | error fault =>
      rw [outcome] at answer
      cases answer
    | ok found =>
      rw [outcome] at answer
      exact congrArg _ (Option.some.inj answer)
  have answered : (cancellingPause 0).step? (idleHost.service openEngine) = some (cancellingPause 1) := by
    change _ = some ((cancellingPause 0).settle (idleHost.service openEngine) 1)
    rw [settle, step?, asks]
    rfl
  have reachable : Reachable openEngine idleHost (fun _ => True) (cancellingPause 0) := by
    have visited : Machine.Step openEngine idleHost (fun _ => True) pausing (pausing.launch cancelPause).1 :=
      .visit cancelPause fun _ => .ask (.cancel (Engine.executionId 1)) _ trivial fun _ => .leave
    exact (reachable_executing ..).run ((Run.next (.refl _) visited).trans (run_settle 1 _))
  have spares : idleHost.Spares fun _ => True := ⟨fun _ _ => trivial, fun _ _ => trivial⟩
  have later : Run openEngine idleHost (fun _ => True) (cancellingPause 1)
      ((((cancellingPause 1).elapse?).getD (cancellingPause 1)).settle (idleHost.service openEngine) 20) :=
    (run_elapse _).trans (run_settle 20 _)
  exact (cancelled_for_good spares trivial reachable asks granted answered later).1

end Runbook
