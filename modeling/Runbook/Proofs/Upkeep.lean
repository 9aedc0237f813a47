import Runbook.Proofs.Abiding
import Runbook.Proofs.Isolation

/-! # What an engine keeps up

An invariant of the clock and the books is kept up by an engine if each of its acts does so by itself. No task then
does anything else, whether it runs an execution, an errand or the visit of a caller, whatever happens between its
acts, and so the invariant holds whatever happens around the engine.
-/

namespace Runbook

open Machine Interpreter

variable {σ α : Type} {e : Engine σ} {host : Host σ} {time : Timeline} {harsh : Prop} {I : World σ → Prop}
  {m m' : Machine σ} {w w' : World σ}

/-! ## Tasks -/

/-- Whatever happens between two acts, an act does not break what holds. -/
def Rules.keeping (I : World σ → Prop) : Rules σ where
  Drifts _ _ := True
  Allows w w' := I w → I w'

/-- By such rules it does not matter what the world is like. -/
theorem Routine.Abides.anywhere {p : Routine σ α} (abides : p.Abides (Rules.keeping I) w) (w' : World σ) :
    p.Abides (Rules.keeping I) w' := by
  cases p with
  | act f k => exact fun w₁ _ => abides w₁ trivial
  | _ => exact abides

/-- Each act of an engine keeps what holds of the clock and the books. -/
structure Engine.KeepsUp (e : Engine σ) (I : World σ → Prop) : Prop where
  aside : ∀ {w w' : World σ}, I w → w'.agenda.now = w.agenda.now → w'.ledger = w.ledger → I w'
  enroll : ∀ workflow options w, I w → I (e.enroll workflow options w).2
  boundary : ∀ id index w, I w → I (boundary id index w).2
  recordResult : ∀ id index result w, I w → I (recordResult id index result w).2
  conclude : ∀ id w, I w → I (conclude id w).2
  abort : ∀ id fault w, I w → I (abort id fault w).2
  interrupt : ∀ id w, I w → I (interrupt id w).2
  retire : ∀ id w, I w → I (e.retire id w)
  withdraw : ∀ id w, I w → I (e.withdraw id w).2
  assign : ∀ id bindings w, I w → I (amend id (·.mergeOutputs bindings) w)
  clear : ∀ w, I w → I (clearHistory w)

namespace Engine.KeepsUp

variable (keeps : e.KeepsUp I)
include keeps

theorem lenient : (Rules.keeping I).Lenient where
  aside now ledger _ holds := keeps.aside holds now ledger
  tells now ledger _ _ holds := keeps.aside holds now ledger

theorem cancel (holds : I w) (id : TaskId) : I (w.cancel id).1 :=
  keeps.aside holds (w.cancel_retains id).now (congrArg Books.ledger (w.cancel_books id))

theorem acknowledge (id : String) (decision : Decision) (token : Value) (holds : I w) :
    I (Engine.acknowledge id decision token w).2 := by
  refine keeps.aside holds ?_ (congrArg Books.ledger (acknowledge_books id decision token w))
  unfold Engine.acknowledge World.acknowledge
  split
  · cases w.gate.addressee? id token with
    | none => rfl
    | some r => exact (w.settle_retains r.token _).now
  · rfl

theorem letsRepeat (stop : World σ → Bool) : (Rules.keeping I).LetsRepeat stop :=
  fun _ _ _ _ _ _ _ holds => keeps.aside holds rfl rfl

theorem announcing {event : Event} {change : World σ → Except Fault Bool × World σ}
    (kept : ∀ w, I w → I (change w).2) : (announcing event change).Abides (Rules.keeping I) := by
  refine announcing_abides keeps.lenient fun w holds => ?_
  have changed := kept w holds
  unfold World.announced
  split
  · next made => rwa [made] at changed
  · next made => rwa [made] at changed
  · next made =>
    rw [made] at changed
    exact keeps.aside changed rfl rfl

omit keeps in
private theorem update {f : World σ → α × World σ} (kept : ∀ w, I w → I (f w).2) :
    (Attempt.lift (.update f) : Attempt σ α).Abides (Rules.keeping I) :=
  .lift (Routine.abides_update kept)

omit keeps in
private theorem change {f : World σ → World σ} (kept : ∀ w, I w → I (f w)) :
    (Attempt.lift (.change f) : Attempt σ Unit).Abides (Rules.keeping I) :=
  .lift (Routine.abides_change kept)

/-! ### Executions -/

theorem runStep (id : String) (step : Step) (index : Nat) : (e.runStep id step index).Abides (Rules.keeping I) := by
  refine .bind (keeps.lenient.look _) fun execution => ?_
  split
  · exact .pure _
  · exact .pure _
  · refine .bind (keeps.lenient.note not_false) fun _ => .bind (.lift ?_) fun outcome =>
      .bind (keeps.lenient.note not_false) fun _ => ?_
    · exact interpret_abides keeps.lenient (keeps.letsRepeat _) step _
    · split
      · exact .pure _
      · exact .pure _
      · exact .throw _

theorem runSteps (id : String) (index : Nat) (steps : List Step) :
    (e.runSteps id index steps).Abides (Rules.keeping I) := by
  induction steps generalizing index with
  | nil => exact .pure ()
  | cons step rest ih =>
    rw [Engine.runSteps]
    refine .bind (update (keeps.boundary id index)) fun verdict => .bind (.ofExcept _) fun goes => ?_
    split
    · refine .bind (announce_abides keeps.lenient _) fun _ => .bind (keeps.runStep id step index) fun result =>
        .bind (update (keeps.recordResult id index result)) fun kept => ?_
      split
      · refine .bind (announce_abides keeps.lenient _) fun _ => ?_
        split
        · exact ih (index + 1)
        · exact .pure ()
      · exact .pure ()
    · exact .pure ()

theorem drive (workflow : Workflow) (id : String) : (e.drive workflow id).Abides (Rules.keeping I) := by
  have course : (do
      announce (.started id)
      e.runSteps id 0 workflow.steps
      let _ ← Runbook.announcing (.completed id) (Engine.conclude id) : Attempt σ Unit).Abides (Rules.keeping I) :=
    .bind (announce_abides keeps.lenient _) fun _ => .bind (keeps.runSteps id 0 workflow.steps) fun _ =>
      .bind (keeps.announcing (keeps.conclude id)) fun _ => .pure ()
  intro w
  refine Routine.Abides.bind (Attempt.Abides.tryCatch course ?_ w) fun outcome w => ?_
  · rintro (fault | message)
    · exact .bind (keeps.announcing (keeps.abort id fault)) fun _ => .pure ()
    · exact .bind (update (keeps.interrupt id)) fun verdict => .bind (.ofExcept verdict) fun _ => .throw _
  · exact (Routine.abides_change (keeps.retire id) w).bind fun _ _ => trivial

theorem submit (workflow options : Value) : (e.submit workflow options).Abides (Rules.keeping I) :=
  .bind (update fun _ holds => keeps.aside holds rfl rfl) fun read => .bind (.ofExcept read) fun workflow =>
    .bind (.ofExcept _) fun options => .bind (update (keeps.enroll workflow options)) fun admitted =>
      .bind (.ofExcept admitted) fun _ => .pure _

theorem execute (workflow options : Value) : (e.execute workflow options).Abides (Rules.keeping I) :=
  .bind (keeps.submit workflow options) fun admitted => .bind (keeps.drive admitted.1 admitted.2) fun _ => .pure _

theorem start (workflow options : Value) : (e.start workflow options).Abides (Rules.keeping I) := by
  refine .bind (keeps.submit workflow options) fun ⟨workflow, id⟩ => .bind (.lift fun w => ?_) fun task => ?_
  · exact ⟨fun _ w => (keeps.drive workflow id w).bind fun _ _ => trivial, fun _ _ => trivial⟩
  · exact .bind (change fun w holds =>
      keeps.aside holds (w.agenda.watch_retains task _ _).now rfl) fun _ => .pure _

theorem shutdown : (shutdown : Attempt σ Unit).Abides (Rules.keeping I) := by
  refine .bind (update fun w holds => ?_) fun tasks => .await _
  have cancelled (tasks : List TaskId) (w : World σ) (holds : I w) :
      I (tasks.foldl (fun w task => (w.cancel task).1) w) := by
    induction tasks generalizing w with
    | nil => exact holds
    | cons task rest ih => exact ih _ (keeps.cancel holds task)
  exact cancelled _ w holds

/-! ### Tools, observers and visitors -/

theorem answer {β : Type} (question : Ask σ β) (w : World σ) :
    (Host.answer e question).Abides (Rules.keeping I) w := by
  cases question with
  | remember f => exact fun _ _ => ⟨fun holds => keeps.aside holds rfl rfl, trivial⟩
  | pause seconds => exact fun _ _ => trivial
  | pass key => exact fun _ _ => trivial
  | openLatch key =>
    exact Routine.abides_change (fun w holds => keeps.aside holds (w.openLatch_retains key).now
      (congrArg Books.ledger (World.openLatch_books w key))) w
  | cancel id => exact keeps.announcing (keeps.withdraw id) w
  | start workflow options => exact keeps.start workflow options w
  | acknowledge id decision token =>
    refine Routine.Abides.bind (p := Routine.create _) ⟨fun _ w => ?_, fun _ _ => trivial⟩ fun _ _ => trivial
    exact Routine.abides_change (fun _ => keeps.acknowledge id decision token) w
  | assign id bindings => exact Routine.abides_change (keeps.assign id bindings) w
  | subscribe kind callback => exact fun _ _ => ⟨fun holds => keeps.aside holds rfl rfl, trivial⟩
  | unsubscribe kind callback => exact fun _ _ => ⟨fun holds => keeps.aside holds rfl rfl, trivial⟩

theorem follow (script : Script σ α) (w : World σ) : (Host.follow e script).Abides (Rules.keeping I) w := by
  induction script generalizing w with
  | done a => trivial
  | ask question k ih => exact (keeps.answer question w).bind ih

theorem service (errand : Errand) (w : World σ) : (host.service e errand).Abides (Rules.keeping I) w := by
  cases errand with
  | tool name parameters => exact keeps.follow (host.tool name parameters) w
  | observer callback event => exact (keeps.follow (host.observer callback event) w).bind fun _ _ => trivial

theorem visit {spared : String → Prop} {p : Routine σ Unit} (visit : Visit e spared p) (w : World σ) :
    p.Abides (Rules.keeping I) w := by
  induction visit generalizing w with
  | leave => trivial
  | look f k _ ih => exact (Routine.abides_update (fun w holds => keeps.aside holds rfl rfl) w).bind ih
  | ask question k _ _ ih => exact (keeps.answer question w).bind ih
  | execute workflow options k _ ih => exact (keeps.execute workflow options w).bind ih
  | shutdown k _ ih => exact (keeps.shutdown w).bind ih
  | clearHistory k _ ih => exact (Routine.abides_change keeps.clear w).bind ih

end Engine.KeepsUp

/-! ## Machines -/

/-- An invariant holds, and no task of the machine breaks it. -/
structure Machine.Upholds (I : World σ → Prop) (m : Machine σ) : Prop where
  holds : I m.world
  running : ∀ t p, m.running = some (t, p) → ∀ w, p.Abides (Rules.keeping I) w
  parked : ∀ t k, (t, k) ∈ m.parked → ∀ wake w, (k wake).Abides (Rules.keeping I) w

namespace Machine.Upholds

variable (keeps : e.KeepsUp I) (upholds : m.Upholds I)
include keeps upholds

omit keeps in
/-- Whatever becomes of the world, the tasks go on as before. -/
theorem at_world (holds : I w') : ({ m with world := w' } : Machine σ).Upholds I :=
  ⟨holds, upholds.running, upholds.parked⟩

/-- There is one more task. -/
theorem launch {body : TaskId → Routine σ Unit} (abides : ∀ id w, (body id).Abides (Rules.keeping I) w) :
    (m.launch body).1.Upholds I where
  holds := keeps.aside upholds.holds rfl rfl
  running := upholds.running
  parked t k listed wake w := by
    rcases List.mem_append.mp listed with before | new
    · exact upholds.parked t k before wake w
    · obtain ⟨rfl, rfl⟩ := Prod.mk.inj (List.mem_singleton.mp new)
      cases wake with
      | ready => exact abides _ w
      | cancelled => trivial

/-- The running task begins to wait. -/
theorem park {t : TaskId} {cue : Cue} {k : Wake → Routine σ Unit}
    (abides : ∀ wake w, (k wake).Abides (Rules.keeping I) w) : (m.park t cue k).Upholds I where
  holds := by
    have heeds : I { m.world with agenda := heed t cue m.world.agenda } :=
      keeps.aside upholds.holds (m.world.agenda.heed_retains t cue).now rfl
    unfold Machine.park
    simp only
    split
    · refine keeps.cancel ?_ t
      exact keeps.aside heeds rfl rfl
    · exact heeds
  running s p runs := nomatch (park_running m t cue k).symm.trans runs
  parked s k' listed wake w := by
    rw [park_parked] at listed
    rcases List.mem_append.mp listed with before | new
    · exact upholds.parked s k' before wake w
    · obtain ⟨rfl, rfl⟩ := Prod.mk.inj (List.mem_singleton.mp new)
      exact abides wake w

/-- The running task takes a step. -/
theorem advance {t : TaskId} {p : Routine σ Unit} (runs : m.running = some (t, p)) :
    (m.advance (host.service e) t p).Upholds I := by
  have abides := upholds.running t p runs
  -- The running task goes on with something that abides as well.
  have goes {q : Routine σ Unit} (m : Machine σ) (upholds : m.Upholds I)
      (next : ∀ w, q.Abides (Rules.keeping I) w) : ({ m with running := some (t, q) } : Machine σ).Upholds I :=
    ⟨upholds.holds, fun _ _ same => by cases same; exact next, upholds.parked⟩
  cases p with
  | done =>
    exact ⟨keeps.aside upholds.holds (m.world.agenda.finish_retains t).now rfl, fun _ _ same => (nomatch same),
      upholds.parked⟩
  | act f k =>
    have deed := abides m.world m.world trivial
    exact goes _ (upholds.at_world (deed.1 upholds.holds)) fun w => deed.2.anywhere w
  | call errand k => exact goes m upholds fun w => (keeps.service errand w).bind fun answer => abides w answer
  | spawn body k => exact goes _ (upholds.launch keeps (abides m.world).1) fun w => (abides m.world).2 _ w
  | wait cue k =>
    rw [Machine.advance]
    split
    · next wake _ => exact goes m upholds fun w => abides w wake w
    · exact upholds.park keeps fun wake w => abides w wake w

/-- The first job of the queue is done. -/
theorem execute (job : Job) : (m.execute job).Upholds I := by
  cases job with
  | resume t wake =>
    change (m.resume t wake).Upholds I
    rcases m.resume_cases t wake with ⟨_, still⟩ | ⟨k, listed, goes⟩
    · rwa [still]
    · rw [goes]
      refine ⟨keeps.aside upholds.holds rfl rfl, ?_, fun s k' left => upholds.parked s k' (List.mem_of_mem_filter left)⟩
      intro s p same
      cases same
      exact upholds.parked t k listed _
  | ring t => exact upholds.at_world (keeps.aside upholds.holds (m.world.agenda.ring_retains t).now rfl)
  | report t => exact upholds.at_world (keeps.aside upholds.holds (m.world.agenda.hear_retains t).now rfl)
  | forget execution => exact upholds.at_world (keeps.aside upholds.holds rfl rfl)

/-- Whatever happens next, the invariant is kept up, if only it does not mind that the clock moves. -/
theorem happens (ticks : ∀ {w w' : World σ}, I w → time.Shows w'.agenda.now → w'.ledger = w.ledger → I w')
    {Welcome : (TaskId → Routine σ Unit) → Prop}
    (guests : ∀ body, Welcome body → ∀ id w, (body id).Abides (Rules.keeping I) w)
    (happens : Happens e host time harsh Welcome m m') : m'.Upholds I := by
  cases happens with
  | work taken =>
    rcases step?_cases taken with ⟨t, p, runs, rfl⟩ | ⟨job, ready, _, _, rfl⟩
    · exact upholds.advance keeps runs
    · have dequeued : (m.schedule ({ · with ready })).Upholds I := upholds.at_world (keeps.aside upholds.holds rfl rfl)
      exact dequeued.execute keeps job
  | arrive body welcome => exact upholds.launch keeps (guests body welcome)
  | elapse elapsed shows =>
    obtain ⟨agenda, _, rfl⟩ := Option.map_eq_some_iff.mp elapsed
    exact upholds.at_world (ticks upholds.holds shows rfl)
  | wind seconds shows =>
    refine upholds.at_world (ticks upholds.holds ?_ rfl)
    exact (Agenda.ringDue_retains { m.world.agenda with now := m.world.agenda.now + seconds }).now.symm ▸ shows
  | cancel id => exact upholds.at_world (keeps.cancel upholds.holds id)

end Machine.Upholds

/-- What an engine keeps up of the clock and the books holds whatever happens, if it held when nothing had happened
and does not mind that the clock moves. -/
theorem Engine.KeepsUp.unfolds (keeps : e.KeepsUp I)
    (ticks : ∀ {w w' : World σ}, I w → time.Shows w'.agenda.now → w'.ledger = w.ledger → I w')
    (fresh : m.Fresh) (holds : I m.world)
    (unfolds : Unfolds e host time harsh (fun body => ∀ id, Visit e (fun _ => False) (body id)) m m') :
    I m'.world := by
  have start : m.Upholds I := {
    holds
    running := fun t p runs => nomatch fresh.running.symm.trans runs
    parked := fun t k listed => by
      rw [fresh.parked] at listed
      cases listed }
  suffices upholds : m'.Upholds I from upholds.holds
  induction unfolds with
  | refl => exact start
  | next _ last ih => exact ih.happens keeps ticks (fun _ visits id => keeps.visit (visits id)) last

end Runbook
