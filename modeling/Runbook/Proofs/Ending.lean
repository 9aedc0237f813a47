import Runbook.Proofs.Driver

/-! # How a driver ends its execution

Every way out of the driver leads to a record that is not running any more: after the steps it is
concluded, after a fault it is aborted, and when the driver's task was cancelled it is interrupted. An end
whose duration cannot be told leaves the driver with a fault and a record at its end, which is then aborted
in turn. At last the execution is retired, and nobody holds it any more.
-/

namespace Runbook

open Books

variable {σ : Type} {e : Engine σ} {spared : String → Prop} {id : String} {b b' : Books}
  {s s' : Hold Execution} {workflow : Workflow} {options : Options} {left : Execution} {event : Event}
  {change : World σ → Except Fault Bool × World σ} {why : Execution → List Happening → Prop}

/-! ## Records at an end -/

/-- The execution is on record and not running. -/
def HasEnded (id : String) (b : Books) : Prop := ∃ x, b.record? id = some x ∧ x.status ≠ .running

/-- The task holds a course from which it can abort the execution. -/
def HoldsPoised (id : String) (workflow : Workflow) (s : Hold Execution) (b : Books) : Prop :=
  ∃ left, s id = some left ∧ Poised (Overdue id workflow) id workflow b left

theorem hasEnded_lasting (id : String) : (e.conduct spared).Lasting (HasEnded id) := by
  rintro b b' later ⟨x, found, ended⟩
  obtain ⟨x', found', evolves⟩ := later.records id x found
  exact ⟨x', found', (evolves.ended ended).1⟩

namespace Engine

/-! ## An end by itself -/

/-- A change that ends an execution for a reason, which the variables have no part in: it leaves the status
and the summary that the reason calls for, and is announced. -/
structure EndsFor (why : Execution → List Happening → Prop) (id : String) (workflow : Workflow) (event : Event)
    (change : World σ → Except Fault Bool × World σ) : Prop where
  ends : Ends id change
  kind : event = .completed id ∨ event = .failed id
  assigned : ∀ {x journal scope}, why x journal → why { x with scope } journal
  leaves : Leaves id change fun x y =>
    (y.summary = x.summary ∨ y.summary = summary x.totalSteps x.results) ∧
      ∀ journal, Closes x y → x.summary = .null → why x journal →
        Judged id workflow y (.announced event (some y) :: journal)

theorem conclude_endsFor (id : String) (workflow : Workflow) :
    EndsFor (IsExhausted workflow) id workflow (.completed id)
      (conclude id : World σ → Except Fault Bool × World σ) where
  ends := conclude_ends id
  kind := .inl rfl
  assigned exhausted := exhausted
  leaves := by
    intro w x y found notCancelled left
    obtain ⟨status, sums⟩ := conclude_leaves id found notCancelled left
    refine ⟨.inr sums, fun journal closes _ exhausted => ?_⟩
    rw [← closes.results] at status
    rw [← closes.totalSteps, ← closes.results] at sums
    exact .concluded (closes.exhausted exhausted) status sums ⟨some y, List.mem_cons_self⟩

theorem abort_endsFor (id : String) (workflow : Workflow) (fault : Fault) :
    EndsFor (Overdue id workflow) id workflow (.failed id)
      (abort id fault : World σ → Except Fault Bool × World σ) where
  ends := abort_ends id fault
  kind := .inr rfl
  assigned overdue := overdue
  leaves := by
    intro w x y found notCancelled left
    obtain ⟨status, same⟩ := abort_leaves id fault found notCancelled left
    exact ⟨.inl same, fun journal closes unsummed overdue =>
      .aborted ((closes.overdue overdue).append [_]) status (same.trans unsummed) ⟨some y, List.mem_cons_self⟩⟩

/-- The world after a change that ends an execution, and after the beginning of its announcement. If the
end leaves a fault, the driver still holds the execution and can abort it. -/
theorem announced_obeys (endsFor : EndsFor why id workflow event change)
    (stands : (e.conduct spared).Stands s b) (held : s id = some left)
    (poised : Poised why id workflow b left) (admitted : .admitted id workflow options ∈ b.journal) :
    (Routine.update (World.announced event change)).Obeys (e.conduct spared) s b
      fun r s' b' => SameElsewhere id s s' ∧ HasEnded id b' ∧
        ∀ fault, r = .error fault → HoldsPoised id workflow s' b' := by
  have kind := endsFor.kind
  rintro w rfl
  obtain ⟨x, found, sound, known⟩ := current stands held
  have orderly := stands.valid.orderly
  by_cases already : x.status = .cancelled
  · rw [World.announced, endsFor.ends.cancelled found already]
    refine ⟨s, World.rest_deed s rfl, fun _ _ => rfl, ⟨x, found, ?_⟩, by simp⟩
    rw [already]
    decide
  have notRequested := sound.notRequested already
  obtain ⟨⟨scope, rfl, _⟩, noEnding⟩ := known.resolve_left (by simp [notRequested])
  obtain ⟨before, stopped⟩ := poised.resolve_left (not_requested found notRequested)
  replace stopped : Stopped id workflow { left with scope } w.journal := stopped.assign scope
  have stopped' (workflow' : Workflow) (options' : Options)
      (told : .admitted id workflow' options' ∈ w.journal) : Stopped id workflow' { left with scope } w.journal := by
    obtain ⟨rfl, rfl⟩ := sound.chronicle.once _ _ _ _ admitted told
    exact stopped
  obtain ⟨y, w', closes, notRunning, notCancelled, requested, ledger, outcome⟩ := endsFor.ends.ends found already
  have replaces (journal : List Happening) : Replaces w.books ⟨w'.ledger, journal⟩ id y
      (w.books.isActive id) := replaces_amend (fun _ => y) orderly found ledger
  have record : w'.ledger.record? id = some y := (replaces []).found
  have same : (change w).2 = w' := by
    rcases outcome with ⟨done, _⟩ | ⟨⟨_, done⟩, _⟩ <;> rw [done]
  obtain ⟨summary, judged⟩ := endsFor.leaves found already (y := y) (by rw [same]; exact record)
  rw [← closes.totalSteps, ← closes.results] at summary
  rw [World.announced]
  rcases outcome with ⟨done, journal⟩ | ⟨⟨fault, done⟩, journal⟩
  · rw [done]
    refine ⟨s.drop id, .turn id y ((amends_told sound held closes already (before.imp_left And.left) noEnding
      notRunning notCancelled requested kind summary fun workflow' options' told => ?_).turn found (replaces _) ?_),
      sameElsewhere_drop s id, ⟨y, record, notRunning⟩, by simp⟩
    · refine ⟨stopped' workflow' options' told, ?_⟩
      obtain ⟨rfl, rfl⟩ := sound.chronicle.once _ _ _ _ admitted told
      refine before.symm.imp_right fun reason => judged _ closes ?_ (endsFor.assigned reason.2)
      exact (sound.tally already workflow' options' told).1.summary.resolve_right fun ended => ended.1 reason.1
    · have same : event.execution = id := by rcases kind with rfl | rfl <;> rfl
      change .announced event (w'.ledger.record? event.execution) :: w'.journal = _
      rw [same, record, journal]
      rfl
  · rw [done]
    refine ⟨s.put id y, .turn id y ((amends_untimed sound held closes already noEnding notRunning
      requested summary stopped').turn found (replaces _) journal), ?_, ⟨y, record, notRunning⟩, fun _ _ => ?_⟩
    · exact fun other different => Hold.put_other s y different
    · refine ⟨y, Hold.put_self s id y, .inr ⟨.inr ?_, ?_⟩⟩
      · change _ ∈ w'.journal
        rw [journal]
        exact List.mem_cons_self
      · change Stopped id workflow y w'.journal
        rw [journal]
        exact (closes.stopped stopped).append [_]

/-- A change that ends an execution, with its announcement. Only the announcement can be cancelled, and
only the end can leave a fault. -/
theorem announcing_obeys (endsFor : EndsFor why id workflow event change)
    (stands : (e.conduct spared).Stands s b) (held : s id = some left)
    (poised : Poised why id workflow b left) (admitted : .admitted id workflow options ∈ b.journal) :
    (announcing event change).Obeys (e.conduct spared) s b
      (fun _ s' b' => SameElsewhere id s s' ∧ HasEnded id b')
      fun interrupt s' b' => SameElsewhere id s s' ∧ HasEnded id b' ∧
        ∀ fault, interrupt = .fault fault → HoldsPoised id workflow s' b' := by
  have lawful := e.conduct_lawful spared
  refine .lift_bind lawful stands (announced_obeys endsFor stands held poised admitted) ?_
  rintro (fault | _ | callbacks) s₁ b₁ stands₁ _ ⟨same, ended, failed⟩
  · exact Attempt.obeys_fail_bind ⟨same, ended, fun _ _ => failed fault rfl⟩
  · exact Attempt.obeys_pure_bind ⟨same, ended⟩
  · refine Attempt.obeys_pure_bind
      (.bind lawful stands₁ ((e.conduct_tolerates spared).deliver_obeys event callbacks stands₁) ?_ ?_)
    · rintro _ s₂ b₂ _ later rfl
      exact ⟨same, hasEnded_lasting id b₁ b₂ later ended⟩
    · rintro interrupt s₂ b₂ _ later ⟨rfl, message, rfl⟩
      exact ⟨same, hasEnded_lasting id b₁ b₂ later ended, fun fault cancelled => nomatch cancelled⟩

/-- The end of an execution whose driver was cancelled. -/
theorem interrupt_obeys (stands : (e.conduct spared).Stands s b)
    (known : (∃ left, s id = some left) ∨ HasEnded id b) :
    (Routine.update (interrupt id) : Routine σ (Except Fault Unit)).Obeys (e.conduct spared) s b
      fun _ s' b' => SameElsewhere id s s' ∧ HasEnded id b' := by
  rintro w rfl
  obtain ⟨x, found⟩ : ∃ x, w.books.record? id = some x := by
    rcases known with ⟨left, held⟩ | ⟨x, found, _⟩
    · obtain ⟨x, found, _⟩ := stands.backs id left held
      exact ⟨x, found⟩
    · exact ⟨x, found⟩
  by_cases running : x.status = .running
  · rcases known with ⟨left, held⟩ | ⟨x', found', ended⟩
    · obtain ⟨deed, ended⟩ := interrupt_deed stands.valid held found running
      exact ⟨s.drop id, deed, sameElsewhere_drop s id, ended⟩
    · rw [found] at found'
      obtain rfl := Option.some.inj found'
      exact absurd running ended
  · have inactive : (record w id).isActive ≠ true := by
      rw [record_eq found, Execution.isActive]
      simpa using running
    rw [interrupt, if_neg inactive]
    exact ⟨s, World.rest_deed s rfl, fun _ _ => rfl, x, found, running⟩

/-! ## The whole way -/

theorem started_plain : (Event.started id).Plain := fun _ => ⟨fun _ => rfl, rfl⟩

/-- The driver of an execution that has been admitted ends it, retires it and lets go of it. -/
theorem drive_obeys (stands : (e.conduct spared).Stands s b) (held : s id = some left)
    (underway : Underway workflow 0 0 left)
    (admitted : .admitted id workflow options ∈ b.journal) :
    (e.drive workflow id).Obeys (e.conduct spared) s b (fun _ s' _ => s' = s.drop id)
      fun _ s' _ => s' = s.drop id := by
  have lawful := e.conduct_lawful spared
  have still := admitted_lasting e spared id workflow options
  have retired (s' : Hold Execution) (b' : Books) (stands' : (e.conduct spared).Stands s' b')
      (ended : SameElsewhere id s s' ∧ HasEnded id b') :
      (Routine.change (e.retire id)).Obeys (e.conduct spared) s' b' fun _ s'' _ => s'' = s.drop id := by
    rintro w rfl
    obtain ⟨same, x, found, notRunning⟩ := ended
    exact ⟨s'.drop id, retire_deed e stands'.valid s' found notRunning, same.drop⟩
  unfold drive
  -- A fault leaves the driver poised to abort. A cancellation can come before the end as well as after
  -- it, so that only one of the two is known: that the driver still holds the execution, or its end.
  refine .ensuring lawful stands (Q := fun _ s' b' => SameElsewhere id s s' ∧ HasEnded id b')
    (E := fun _ s' b' => SameElsewhere id s s' ∧ HasEnded id b')
    (.tryCatch lawful stands (Q := fun _ s' b' => SameElsewhere id s s' ∧ HasEnded id b')
      (E := fun interrupt s' b' => SameElsewhere id s s' ∧ .admitted id workflow options ∈ b'.journal ∧
        ((∃ left', s' id = some left') ∨ HasEnded id b') ∧
        ∀ fault, interrupt = .fault fault → HoldsPoised id workflow s' b') ?_
      (fun _ _ _ _ _ known => known) ?_)
    (fun _ s' b' stands' _ ended => retired s' b' stands' ended)
    fun _ s' b' stands' _ ended => retired s' b' stands' ended
  · refine .bind lawful stands (announce_plain e spared started_plain stands) ?_ ?_
    · rintro _ s b₁ stands₁ later₁ rfl
      have admitted₁ := still b b₁ later₁ admitted
      refine .bind lawful stands₁
        (runSteps_obeys stands₁ held underway admitted₁ workflow.steps List.drop_zero) ?_ ?_
      · rintro _ s₂ b₂ stands₂ later₂ ⟨same, left₂, held₂, poised⟩
        have admitted₂ := still b₁ b₂ later₂ admitted₁
        refine .bind lawful stands₂
          (announcing_obeys (conclude_endsFor id workflow) stands₂ held₂ poised admitted₂) ?_ ?_
        · rintro _ s₃ b₃ _ _ ⟨same', ended⟩
          exact ⟨.trans same same', ended⟩
        · rintro interrupt s₃ b₃ _ later₃ ⟨same', ended, failed⟩
          exact ⟨.trans same same', still b₂ b₃ later₃ admitted₂, .inr ended, failed⟩
      · rintro interrupt s₂ b₂ _ later₂ ⟨same, left₂, held₂, failed⟩
        exact ⟨same, still b₁ b₂ later₂ admitted₁, .inl ⟨left₂, held₂⟩,
          fun fault known => ⟨left₂, held₂, failed fault known⟩⟩
    · rintro interrupt s b₁ _ later₁ ⟨rfl, message, rfl⟩
      exact ⟨fun _ _ => rfl, still b b₁ later₁ admitted, .inl ⟨left, held⟩, fun fault known => nomatch known⟩
  · rintro (fault | message) s₁ b₁ stands₁ later₁ ⟨same, admitted₁, known, failed⟩
    · obtain ⟨left₁, held₁, poised⟩ := failed fault rfl
      refine .bind lawful stands₁
        (announcing_obeys (abort_endsFor id workflow fault) stands₁ held₁ poised admitted₁) ?_ ?_
      · rintro _ s₂ b₂ _ _ ⟨same', ended⟩
        exact ⟨.trans same same', ended⟩
      · rintro interrupt s₂ b₂ _ _ ⟨same', ended, _⟩
        exact ⟨.trans same same', ended⟩
    · refine .lift_bind lawful stands₁ (interrupt_obeys stands₁ known) ?_
      rintro (fault | _) s₂ b₂ stands₂ _ ⟨same', ended⟩
      · exact Attempt.obeys_fail_bind ⟨.trans same same', ended⟩
      · exact Attempt.obeys_pure_bind ⟨.trans same same', ended⟩

end Engine

end Runbook
