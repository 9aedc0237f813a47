import Runbook.Proofs.Manning

/-! # Events are delivered when they are announced

Nobody announces that an execution or one of its steps has begun, or what a step has come to, without going on
to deliver the event to the callbacks that are registered for it. This is so of everything that a task can do,
whatever the world is like meanwhile.
-/

namespace Runbook

open Machine

variable {σ α β : Type} {e : Engine σ} {host : Host σ} {m m' : Machine σ} {w w' w'' : World σ}

/-- It announces how far an execution has come that is to go on. -/
def Happening.Leads : Happening → Prop
  | .announced event _ => match event with
    | .started _ | .stepStarted .. | .stepCompleted .. | .stepFailed .. => True
    | _ => False
  | _ => False

/-- Nothing is announced of how far an execution has come that is to go on. -/
def World.Mum (w w' : World σ) : Prop := ∃ new, w'.journal = new ++ w.journal ∧ ∀ h ∈ new, ¬h.Leads

namespace World.Mum

theorem of_eq (same : w'.journal = w.journal) : w.Mum w' := ⟨[], same, fun _ member => nomatch member⟩

theorem note (mum : w.Mum w') {h : Happening} (aside : ¬h.Leads) : w.Mum (w'.note h) := by
  obtain ⟨new, journal, known⟩ := mum
  refine ⟨h :: new, congrArg (h :: ·) journal, ?_⟩
  intro other member
  rcases List.mem_cons.mp member with rfl | member
  · exact aside
  · exact known other member

theorem trans (first : w.Mum w') (second : w'.Mum w'') : w.Mum w'' := by
  obtain ⟨new, journal, known⟩ := first
  obtain ⟨new', journal', known'⟩ := second
  refine ⟨new' ++ new, by rw [journal', journal, List.append_assoc], ?_⟩
  intro h member
  rcases List.mem_append.mp member with later | earlier
  · exact known' h later
  · exact known h earlier

theorem congr (mum : w'.Mum w'') (same : w'.journal = w.journal) : w.Mum w'' := by
  obtain ⟨new, journal, known⟩ := mum
  exact ⟨new, journal.trans (congrArg (new ++ ·) same), known⟩

theorem announced {event : Event} {change : World σ → Except Fault Bool × World σ} (mum : w.Mum (change w).2)
    (aside : ∀ record, ¬(Happening.announced event record).Leads) : w.Mum (w.announced event change).2 := by
  unfold World.announced
  split
  · next same => rwa [same] at mum
  · next same => rwa [same] at mum
  · next same =>
    rw [same] at mum
    exact mum.note (aside _)

end World.Mum

/-! ## Routines -/

/-- After an act that announces an event the routine goes on to deliver it. -/
def Delivered {γ : Type} (w w' : World σ) (rest : Routine σ γ) : Prop :=
  w.Mum w' ∨ ∃ (event : Event) (next : Except Interrupt Unit → Routine σ γ), w' = (w.announcement event).2 ∧
    rest = (ExceptT.run (deliver event (w.announcement event).1)).bind next

/-- The routine delivers whatever it announces. -/
def Routine.Delivers {α : Type} : Routine σ α → Prop
  | .done _ => True
  | .act f k => (∀ w : World σ, Delivered w (f w).2 (k (f w).1)) ∧ ∀ b, (k b).Delivers
  | .wait _ k => ∀ wake, (k wake).Delivers
  | .call _ k => ∀ answer, (k answer).Delivers
  | .spawn body k => ∀ id, (body id).Delivers ∧ (k id).Delivers

namespace Routine.Delivers

theorem bind {p : Routine σ α} {f : α → Routine σ β} (first : p.Delivers) (next : ∀ a, (f a).Delivers) :
    (p.bind f).Delivers := by
  induction p with
  | done a => exact next a
  | act g k ih =>
    refine ⟨fun w => ?_, fun b => ih b (first.2 b) next⟩
    rcases first.1 w with mum | ⟨event, rest, world, follows⟩
    · exact .inl mum
    · exact .inr ⟨event, _, world, (congrArg (·.bind f) follows).trans (bind_bind _ _ _)⟩
  | wait cue k ih => exact fun wake => ih wake (first wake) next
  | call errand k ih => exact fun answer => ih answer (first answer) next
  | spawn body k _ ih => exact fun id => ⟨(first id).1, ih id (first id).2 next⟩

theorem update {f : World σ → α × World σ} (mum : ∀ w : World σ, w.Mum (f w).2) : (Routine.update f).Delivers :=
  ⟨fun w => .inl (mum w), fun _ => trivial⟩

theorem change {f : World σ → World σ} (mum : ∀ w : World σ, w.Mum (f w)) : (Routine.change f).Delivers :=
  ⟨fun w => .inl (mum w), fun _ => trivial⟩

theorem note {h : Happening} (aside : ¬h.Leads) : (Routine.change (·.note h) : Routine σ Unit).Delivers :=
  change fun _ => (World.Mum.of_eq rfl).note aside

theorem look (f : World σ → α) : (Routine.look f).Delivers := update fun _ => .of_eq rfl

theorem await (cue : Cue) : (Routine.await cue : Routine σ Wake).Delivers := fun _ => trivial

end Routine.Delivers

/-- The attempt delivers whatever it announces. -/
def Attempt.Delivers (p : Attempt σ α) : Prop := (ExceptT.run p).Delivers

namespace Attempt.Delivers

theorem pure (a : α) : (Pure.pure a : Attempt σ α).Delivers := trivial

theorem throw (interrupt : Interrupt) : (MonadExcept.throw interrupt : Attempt σ α).Delivers := trivial

theorem fail (fault : Fault) : (Attempt.fail fault : Attempt σ α).Delivers := trivial

theorem ofExcept (r : Except Fault α) : (Attempt.ofExcept r : Attempt σ α).Delivers := by
  cases r <;> trivial

theorem bind {p : Attempt σ α} {f : α → Attempt σ β} (first : p.Delivers) (next : ∀ a, (f a).Delivers) :
    (p >>= f).Delivers := by
  rw [Attempt.Delivers, run_bind]
  refine Routine.Delivers.bind first ?_
  rintro (interrupt | a)
  · trivial
  · exact next a

theorem tryCatch {p : Attempt σ α} {handle : Interrupt → Attempt σ α} (first : p.Delivers)
    (handled : ∀ interrupt, (handle interrupt).Delivers) : (MonadExcept.tryCatch p handle).Delivers := by
  rw [Attempt.Delivers, run_tryCatch]
  refine Routine.Delivers.bind first ?_
  rintro (interrupt | a)
  · exact handled interrupt
  · trivial

theorem lift {p : Routine σ α} (first : p.Delivers) : (Attempt.lift p).Delivers :=
  Routine.Delivers.bind first fun _ => trivial

theorem await (cue : Cue) : (Attempt.await cue : Attempt σ Unit).Delivers := by
  refine bind (lift (Routine.Delivers.await cue)) ?_
  rintro (_ | _) <;> trivial

theorem perform (errand : Errand) : (Attempt.perform errand : Attempt σ Value).Delivers := fun _ => trivial

end Attempt.Delivers

/-! ## Announcements -/

theorem deliver_delivers (event : Event) (callbacks : List String) :
    (deliver event callbacks : Attempt σ Unit).Delivers := by
  induction callbacks with
  | nil => exact .pure ()
  | cons callback rest ih =>
    rw [deliver]
    refine .bind (.lift fun _ => trivial) ?_
    rintro ((fault | message) | v)
    · exact .bind (.lift (.note id)) fun _ => ih
    · exact .bind (.throw _) fun _ => ih
    · exact .bind (.pure ()) fun _ => ih

/-- An announcement is followed by its delivery. -/
theorem announce_delivers (event : Event) : (announce event : Attempt σ Unit).Delivers := by
  refine ⟨fun w => .inr ⟨event, .done, rfl, ?_⟩, fun callbacks => deliver_delivers event callbacks⟩
  exact (Routine.bind_done _).symm

theorem announcing_delivers {event : Event} {change : World σ → Except Fault Bool × World σ}
    (mum : ∀ w : World σ, w.Mum (change w).2) (aside : ∀ record, ¬(Happening.announced event record).Leads) :
    (announcing event change).Delivers := by
  refine .bind (.lift (.update fun w => (mum w).announced aside)) fun verdict => .bind (.ofExcept _) ?_
  rintro (_ | callbacks)
  · exact .pure _
  · exact .bind (deliver_delivers event callbacks) fun _ => .pure _

/-! ## Steps -/

namespace Interpreter

variable {i : Interpreter σ} {context : Context}

/-- Nothing more is done after a fault. -/
private theorem unless_delivers {c : Bool} {fault : Fault} {rest : Unit → Attempt σ α}
    (delivers : ∀ u, (rest u).Delivers) : (if c = true then rest () else Attempt.fail fault >>= rest).Delivers := by
  split
  · exact delivers ()
  · exact .bind (.fail fault) delivers

theorem judge_mum (name : String) (parameters : Entries) (w : World σ) :
    w.Mum (i.judge context name parameters w).2 := by
  unfold judge
  split
  · exact .of_eq rfl
  · exact .note (.of_eq rfl) id

theorem invoke_delivers (tool : Value) (parameters : Entries) : (i.invoke tool parameters context).Delivers := by
  unfold invoke
  split
  · next name =>
    refine .bind (.lift (.update fun w => .note (.of_eq rfl) id)) fun known => unless_delivers fun _ => ?_
    refine .bind (.lift (.update (judge_mum name parameters))) fun verdict =>
      .bind (.ofExcept _) fun allowed => unless_delivers fun _ => ?_
    exact .bind (.lift (.note id)) fun _ => .bind (.perform _) fun _ => .pure _
  · exact .fail _

theorem timed_delivers {p : Attempt σ StepResult} (delivers : p.Delivers) : (timed context p).Delivers := by
  have clock : (Attempt.lift Routine.clock : Attempt σ Float).Delivers := .lift (.look _)
  refine .bind clock fun started => .bind (.tryCatch delivers ?_) fun result => .bind clock fun ended =>
    .bind (.ofExcept _) fun durationMs => .pure _
  rintro (fault | message)
  · exact .pure _
  · exact .throw _

theorem checked_delivers (step : Step) {p : Attempt σ StepResult} (delivers : p.Delivers) :
    (checked step context p).Delivers := by
  refine .bind (.ofExcept _) fun verdict => ?_
  cases verdict with
  | false => exact .pure _
  | true => exact delivers

theorem rounds_delivers (itemVariable indexVariable : Value) (stops : Bool) {body : Context → Attempt σ StepResult}
    (delivers : ∀ context, (body context).Delivers) (round : Nat) (soFar : Rounds) (items : List Value) :
    (i.rounds itemVariable indexVariable stops context body round soFar items).Delivers := by
  induction items generalizing round soFar with
  | nil => exact .pure _
  | cons item rest ih =>
    rw [rounds]
    refine .bind (.lift (.look _)) fun cancelled => ?_
    cases cancelled with
    | true => exact .pure _
    | false =>
      refine .bind (.lift (.note id)) fun _ => .bind (.ofExcept _) fun scope =>
        .bind (delivers _) fun result => ?_
      simp only
      split
      · exact .pure _
      · exact ih _ _

theorem createBranches_delivers {branches : List (Attempt σ StepResult)}
    (delivers : ∀ branch ∈ branches, branch.Delivers) : (createBranches branches).Delivers := by
  induction branches with
  | nil => trivial
  | cons branch rest ih =>
    rw [createBranches]
    refine .bind (fun id => ⟨?_, trivial⟩) fun id => .bind (ih ?_) fun ids => trivial
    · exact .bind (delivers branch List.mem_cons_self) fun outcome => .change fun w => .of_eq rfl
    · exact fun branch member => delivers branch (List.mem_cons_of_mem _ member)

theorem runBranches_delivers {branches : List (Attempt σ StepResult)}
    (delivers : ∀ branch ∈ branches, branch.Delivers) : (runBranches context branches).Delivers := by
  refine .bind (.lift (createBranches_delivers delivers)) fun ids => .bind (.await _) fun _ =>
    .bind (.lift (.update fun w => .of_eq rfl)) fun outcomes => .bind ?_ fun results => .ofExcept _
  exact trivial

theorem runManual_delivers (step : Step) (given : Value) : (i.runManual step given context).Delivers := by
  unfold runManual
  cases i.policies.manualSteps with
  | auto => exact .bind (announce_delivers _) fun _ => .pure _
  | await =>
    refine .bind (.lift (.update fun w => .of_eq rfl)) fun token => .bind (announce_delivers _) fun _ =>
      .bind (.bind (.lift (.await _)) fun wake => .bind (.lift (.update fun w => .of_eq rfl)) fun answer => ?_)
        fun decision => ?_
    · split
      · exact .pure _
      · exact .throw _
    · simp only
      split <;> exact .pure _

mutual

theorem interpret_delivers (step : Step) (context : Context) : (i.interpret step context).Delivers := by
  cases step with
  | tool common name parameters outputs =>
    rw [interpret]
    exact timed_delivers (.bind (invoke_delivers _ _) fun _ => .bind (.ofExcept _) fun _ => .pure _)
  | command common command directory outputs =>
    rw [interpret]
    exact timed_delivers (.bind (invoke_delivers _ _) fun _ => .bind (.ofExcept _) fun _ => .pure _)
  | conditional common condition thenStep elseStep =>
    rw [interpret]
    refine timed_delivers (.bind (.ofExcept _) fun met => ?_)
    split
    · exact .bind (interpretNested_delivers _ _) fun _ => .pure _
    · exact .bind (interpretNested_delivers _ _) fun _ => .pure _
    · exact .pure _
  | loop common items itemVariable indexVariable limit body =>
    rw [interpret]
    refine timed_delivers (.bind (.ofExcept _) fun items => ?_)
    cases body with
    | none => exact .fail _
    | some body =>
      exact .bind (.ofExcept _) fun limit => .bind (.ofExcept _) fun chosen =>
        .bind (rounds_delivers _ _ _ (interpretNested_delivers body) 0 {} chosen) fun done => .pure _
  | parallel common steps =>
    rw [interpret]
    exact timed_delivers (runBranches_delivers (branches_deliver steps _))
  | delay common delay =>
    rw [interpret]
    exact timed_delivers (.bind (.ofExcept _) fun _ => .bind (.await _) fun _ => .pure _)
  | manual common instructions =>
    rw [interpret]
    exact timed_delivers (runManual_delivers _ instructions)
  | unknown common tag fields =>
    rw [interpret]
    exact timed_delivers (.fail _)

theorem interpretNested_delivers (step : Step) (context : Context) : (i.interpretNested step context).Delivers := by
  rw [interpretNested]
  exact checked_delivers step (interpret_delivers step context)

theorem branches_deliver (steps : List Step) (context : Context) :
    ∀ branch ∈ i.branches steps context, branch.Delivers := by
  cases steps with
  | nil =>
    rw [branches]
    exact fun _ member => nomatch member
  | cons step rest =>
    rw [branches]
    intro branch member
    rcases List.mem_cons.mp member with rfl | later
    · exact interpretNested_delivers step _
    · exact branches_deliver rest context branch later

end

end Interpreter

/-! ## Engines -/

namespace Engine

theorem boundary_mum (id : String) (index : Nat) (w : World σ) : w.Mum (boundary id index w).2 := by
  unfold boundary
  simp only
  split
  · exact .of_eq rfl
  · split
    · exact .of_eq rfl
    · exact .note (.of_eq rfl) not_false
    · split <;> exact .of_eq rfl

theorem finish_mum (id : String) (status : ExecutionStatus) (w : World σ) : w.Mum (finish id status w).2 := by
  unfold finish
  simp only
  split
  · exact .note (.of_eq rfl) not_false
  · exact .of_eq rfl

theorem conclude_mum (id : String) (w : World σ) : w.Mum (conclude id w).2 := by
  unfold conclude
  simp only
  split
  · exact .of_eq rfl
  · exact (finish_mum id _ _).congr rfl

theorem abort_mum (id : String) (fault : Fault) (w : World σ) : w.Mum (abort id fault w).2 := by
  unfold abort
  simp only
  split
  · exact .of_eq rfl
  · exact (finish_mum id _ _).congr rfl

theorem interrupt_mum (id : String) (w : World σ) : w.Mum (interrupt id w).2 := by
  unfold interrupt
  split
  · exact (finish_mum id _ _).congr rfl
  · exact .of_eq rfl

theorem retire_mum (e : Engine σ) (id : String) (w : World σ) : w.Mum (e.retire id w) := by
  unfold retire
  split
  · exact .note (.of_eq rfl) not_false
  · exact .of_eq rfl

theorem withdraw_mum (e : Engine σ) (id : String) (w : World σ) : w.Mum (e.withdraw id w).2 := by
  unfold withdraw
  split
  · have mum : w.Mum (finish id .cancelled (amend id ({ · with cancelRequested := true }) w)).2 :=
      (finish_mum id .cancelled _).congr rfl
    generalize finish id .cancelled (amend id _ w) = ended at mum ⊢
    obtain ⟨fault | _, w₁⟩ := ended
    · exact mum
    · have released := (e.retire id w₁).releaseGate_books id (.text "Execution cancelled")
      exact .note ((mum.trans (e.retire_mum id w₁)).trans (.of_eq (congrArg Books.journal released))) not_false
  · exact .of_eq rfl

theorem enroll_mum (e : Engine σ) (workflow : Workflow) (options : Options) (w : World σ) :
    w.Mum (e.enroll workflow options w).2 := by
  unfold enroll
  split
  · exact .of_eq rfl
  · exact .of_eq rfl
  · split
    · exact .of_eq rfl
    · simp only
      split
      · exact .of_eq rfl
      · exact .note (.of_eq rfl) not_false

theorem recordResult_mum (id : String) (index : Nat) (result : StepResult) (w : World σ) :
    w.Mum (recordResult id index result w).2 := by
  unfold recordResult
  split <;> exact .of_eq rfl

theorem runStep_delivers (e : Engine σ) (id : String) (step : Step) (index : Nat) :
    (e.runStep id step index).Delivers := by
  refine .bind (.lift (.look _)) fun x => ?_
  split
  · exact .pure _
  · exact .pure _
  · refine .bind (.lift (.note not_false)) fun _ =>
      .bind (.lift (Interpreter.interpret_delivers step _)) fun outcome => .bind (.lift (.note not_false)) fun _ => ?_
    split
    · exact .pure _
    · exact .pure _
    · exact .throw _

theorem runSteps_delivers (e : Engine σ) (id : String) (index : Nat) (steps : List Step) :
    (e.runSteps id index steps).Delivers := by
  induction steps generalizing index with
  | nil => exact .pure ()
  | cons step rest ih =>
    rw [runSteps]
    refine .bind (.lift (.update (boundary_mum id index))) fun verdict => .bind (.ofExcept _) fun goes => ?_
    split
    · refine .bind (announce_delivers _) fun _ => .bind (e.runStep_delivers id step index) fun result =>
        .bind (.lift (.update (recordResult_mum id index result))) fun recorded => ?_
      split
      · refine .bind (announce_delivers _) fun _ => ?_
        split
        · exact ih (index + 1)
        · exact .pure ()
      · exact .pure ()
    · exact .pure ()

theorem drive_delivers (e : Engine σ) (workflow : Workflow) (id : String) : (e.drive workflow id).Delivers := by
  refine Routine.Delivers.bind (Attempt.Delivers.tryCatch ?_ ?_) fun outcome =>
    .bind (.change (e.retire_mum id)) fun _ => trivial
  · exact .bind (announce_delivers _) fun _ => .bind (e.runSteps_delivers id 0 workflow.steps) fun _ =>
      .bind (announcing_delivers (conclude_mum id) fun _ => not_false) fun _ => .pure _
  · rintro (fault | message)
    · exact .bind (announcing_delivers (abort_mum id fault) fun _ => not_false) fun _ => .pure _
    · exact .bind (.lift (.update (interrupt_mum id))) fun verdict => .bind (.ofExcept _) fun _ => .throw _

/-! ## What callers can do -/

theorem submit_delivers (e : Engine σ) (workflow options : Value) : (e.submit workflow options).Delivers :=
  .bind (.lift (.update fun _ => .of_eq rfl)) fun _ => .bind (.ofExcept _) fun workflow =>
    .bind (.ofExcept _) fun options => .bind (.lift (.update (e.enroll_mum workflow options))) fun _ =>
      .bind (.ofExcept _) fun _ => .pure _

theorem execute_delivers (e : Engine σ) (workflow options : Value) : (e.execute workflow options).Delivers :=
  .bind (e.submit_delivers workflow options) fun _ => .bind (e.drive_delivers _ _) fun _ => .pure _

theorem start_delivers (e : Engine σ) (workflow options : Value) : (e.start workflow options).Delivers := by
  refine .bind (e.submit_delivers workflow options) fun _ => .bind (.lift fun _ => ⟨?_, trivial⟩) fun _ =>
    .bind (.lift (.change fun _ => .of_eq rfl)) fun _ => .pure _
  exact Routine.Delivers.bind (e.drive_delivers _ _) fun _ => trivial

theorem cancel_delivers (e : Engine σ) (id : String) : (e.cancel id).Delivers :=
  announcing_delivers (e.withdraw_mum id) fun _ => not_false

theorem shutdown_delivers : (shutdown : Attempt σ Unit).Delivers :=
  .bind (.lift (.update fun w => .of_eq (congrArg Books.journal (cancelBackground_books w)))) fun _ => .await _

end Engine

/-! ## Those around the engine -/

namespace Host

theorem answer_delivers (e : Engine σ) (question : Ask σ β) : (answer e question).Delivers := by
  cases question with
  | remember | unsubscribe => exact .update fun w => .of_eq rfl
  | assign | subscribe => exact .change fun w => .of_eq rfl
  | pause | pass => exact .await _
  | openLatch key => exact .change fun w => .of_eq (congrArg Books.journal (w.openLatch_books key))
  | cancel id => exact e.cancel_delivers id
  | start workflow options => exact e.start_delivers workflow options
  | acknowledge id decision token =>
    refine .bind (fun _ => ⟨.change fun w => .of_eq ?_, trivial⟩) fun _ => trivial
    exact congrArg Books.journal (Engine.acknowledge_books id decision token w)

theorem follow_delivers (e : Engine σ) (script : Script σ α) : (follow e script).Delivers := by
  induction script with
  | done a => trivial
  | ask question k ih => exact .bind (answer_delivers e question) ih

theorem service_delivers (host : Host σ) (e : Engine σ) (errand : Errand) : (host.service e errand).Delivers := by
  cases errand with
  | tool name parameters => exact follow_delivers e _
  | observer callback event => exact .bind (follow_delivers e _) fun _ => trivial

end Host

theorem visit_delivers {spared : String → Prop} {p : Routine σ Unit} (visit : Visit e spared p) : p.Delivers := by
  induction visit with
  | leave => trivial
  | look f k _ ih => exact .bind (.look f) ih
  | ask question k _ _ ih => exact .bind (Host.answer_delivers e question) ih
  | execute workflow options k _ ih => exact .bind (e.execute_delivers workflow options) ih
  | shutdown k _ ih => exact .bind Engine.shutdown_delivers ih
  | clearHistory k _ ih => exact .bind (.change fun w => .note (.of_eq rfl) not_false) ih

/-! ## Machines -/

namespace Machine

/-- Whatever the tasks of the machine are going to announce they deliver. -/
structure Delivers (m : Machine σ) : Prop where
  parked : ∀ t k, (t, k) ∈ m.parked → ∀ wake, (k wake).Delivers
  running : ∀ t p, m.running = some (t, p) → p.Delivers

namespace Delivers

/-- Only the tasks matter. -/
theorem congr (delivers : m.Delivers) (parked : m'.parked = m.parked) (running : m'.running = m.running) :
    m'.Delivers :=
  ⟨parked ▸ delivers.parked, running ▸ delivers.running⟩

/-- The running task goes on. -/
theorem turn (delivers : m.Delivers) {t : TaskId} {p : Routine σ Unit} (known : p.Delivers)
    (parked : m'.parked = m.parked) (running : m'.running = some (t, p)) : m'.Delivers := by
  refine ⟨parked ▸ delivers.parked, fun s q runs => ?_⟩
  obtain ⟨-, rfl⟩ := Prod.mk.inj (Option.some.inj (running.symm.trans runs))
  exact known

/-- One more task is parked. -/
theorem add (delivers : m.Delivers) {t : TaskId} {k : Wake → Routine σ Unit} (known : ∀ wake, (k wake).Delivers)
    (parked : m'.parked = m.parked ++ [(t, k)])
    (running : ∀ s p, m'.running = some (s, p) → p.Delivers) : m'.Delivers := by
  refine ⟨fun s k' listed => ?_, running⟩
  rw [parked] at listed
  rcases List.mem_append.mp listed with before | new
  · exact delivers.parked s k' before
  · cases List.mem_singleton.mp new
    exact known

theorem firstTurn {body : Routine σ Unit} (known : body.Delivers) : ∀ wake, (firstTurn body wake).Delivers := by
  rintro (_ | _)
  · exact known
  · trivial

/-- One step of the running task. -/
theorem advance (delivers : m.Delivers) {t : TaskId} {p : Routine σ Unit} (known : p.Delivers) :
    (m.advance (host.service e) t p).Delivers := by
  cases p with
  | done => exact ⟨delivers.parked, fun _ _ runs => nomatch runs⟩
  | act f k => exact delivers.turn (known.2 _) rfl rfl
  | call errand k => exact delivers.turn (.bind (host.service_delivers e errand) known) rfl rfl
  | spawn body k =>
    refine delivers.add (firstTurn (known _).1) rfl fun s p runs => ?_
    obtain ⟨-, rfl⟩ := Prod.mk.inj (Option.some.inj runs)
    exact (known _).2
  | wait cue k =>
    rw [Machine.advance]
    split
    · exact delivers.turn (known _) rfl rfl
    · refine delivers.add known (m.park_parked t cue k) fun s p runs => ?_
      cases (m.park_running t cue k).symm.trans runs

theorem resume (delivers : m.Delivers) (t : TaskId) (wake : Wake) : (m.resume t wake).Delivers := by
  rcases m.resume_cases t wake with ⟨-, still⟩ | ⟨k, listed, goes⟩
  · rwa [still]
  · rw [goes]
    refine ⟨fun s k left => delivers.parked s k (List.mem_filter.mp left).1, fun s p runs => ?_⟩
    obtain ⟨-, rfl⟩ := Prod.mk.inj (Option.some.inj runs)
    exact delivers.parked t k listed _

theorem step {spared : String → Prop} (delivers : m.Delivers) (step : Machine.Step e host spared m m') :
    m'.Delivers := by
  cases step with
  | work taken =>
    rcases step?_cases taken with ⟨t, p, runs, rfl⟩ | ⟨job, ready, _, _, rfl⟩
    · exact delivers.advance (delivers.running t p runs)
    · have still : (m.schedule ({ · with ready })).Delivers := delivers.congr rfl rfl
      cases job with
      | resume t wake => exact still.resume t wake
      | ring | report | forget => exact still.congr rfl rfl
  | visit body visits => exact delivers.add (firstTurn (visit_delivers (visits _))) rfl delivers.running
  | elapse elapsed =>
    obtain ⟨agenda, _, rfl⟩ := Option.map_eq_some_iff.mp elapsed
    exact delivers.congr rfl rfl
  | wind | cancel => exact delivers.congr rfl rfl

end Delivers

/-- Tasks deliver what they announce, whatever has happened. -/
theorem Arises.delivers (arises : Arises e host m) : m.Delivers := by
  obtain ⟨start, pristine, run⟩ := arises
  induction run with
  | refl =>
    refine ⟨fun t k listed => ?_, fun t p runs => nomatch pristine.running.symm.trans runs⟩
    rw [pristine.parked] at listed
    cases listed
  | next _ step ih => exact ih.step step

end Machine

end Runbook
