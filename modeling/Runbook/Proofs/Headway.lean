import Runbook.Proofs.Progress

/-! # Drivers make their moves in order

The driver of an execution announces that it began, and then each step in turn: it announces the step as
started, directly after it found that no cancellation was requested, enters the interpreter unless the
pre-check says otherwise, and announces the result. At last it announces the end. So the protocol of moves
covers what an engine does, and governs every run.
-/

namespace Runbook

open Books

variable {σ : Type} {e : Engine σ} {host : Host σ} {spared : String → Prop} {id : String} {b : Books}
  {s s' : Hold Leg} {l l' : Leg} {x : Execution} {h : Happening} {move : Move} {index : Nat}

/-! ## Entries in the journal -/

/-- A record is amended, in books that are orderly. -/
theorem Books.amends {b' : Books} (f : Execution → Execution) (found : b.record? id = some x)
    (ledger : b'.ledger = b.ledger.amend id f) (orderly : b.ledger.Orderly) :
    ∃ active, Replaces b b' id (f x) active :=
  ⟨_, replaces_amend f orderly found ledger⟩

/-- No record is amended. -/
theorem Books.amends_nothing {b' : Books} (found : b.record? id = some x) (ledger : b'.ledger = b.ledger)
    (orderly : b.ledger.Orderly) : ∃ active, Replaces b b' id x active := by
  refine ⟨b.isActive id, ledger ▸ orderly, ?_, ?_, fun other _ => ?_⟩
  · rw [record?, ledger]
    exact found
  · rw [isActive, ledger]
    rfl
  · rw [record?, isActive, ledger]
    exact ⟨rfl, rfl⟩

namespace Engine

/-- An entry that tells of no move. -/
theorem progress_still (s : Hold Leg) {w w' : World σ} (books : w'.books = (w.note h).books) (still : Still h) :
    progress.Deed s w.books w'.books s := by
  rw [books]
  refine still_deed [h] (.refl s) (fun orderly => orderly) (fun _ => rfl) rfl ?_
  intro other member
  obtain rfl := List.mem_singleton.mp member
  exact still

/-- An entry that tells of a move of the driver. -/
theorem progress_move {w w' : World σ} (stands : progress.Stands s w.books) (held : s id = some l)
    (books : w'.books = (w.note h).books) (moves : h.move? id = some move)
    (only : ∀ other, other ≠ id → h.move? other = none) (leads : l.after move = some l')
    (heeds : ∀ index, move = .starts index → ∀ x, w.books.record? id = some x → x.cancelRequested = false) :
    progress.Deed s w.books w'.books (s.put id l') := by
  obtain ⟨⟨x, found⟩, _⟩ : On id l w.books := stands.backs id l held
  refine move_deed held found (amends_nothing found ?_) rfl (fun _ => rfl) ?_ moves only leads
    (fun index starts => heeds index starts x found) (sameElsewhere_put s id l') fun l held' => ?_
  · exact show w'.books.ledger = w.ledger from congrArg Books.ledger books
  · exact congrArg Books.journal books
  · rw [Hold.put_self] at held'
    exact (Option.some.inj held').symm

/-- A change of the record that leaves its status and its cancellation alone. -/
theorem progress_amend (s : Hold Leg) (w : World σ) (id : String) (f : Execution → Execution)
    (status : ∀ x, (f x).status = x.status) (requested : ∀ x, (f x).cancelRequested = x.cancelRequested) :
    progress.Deed s w.books (amend id f w).books s := by
  cases found : w.books.record? id with
  | some x =>
    exact quiet_deed [] found (amends f found rfl) (fun same => (requested x).trans same)
      (fun known again => (status x).trans (known ((requested x).symm.trans again))) rfl
      (fun _ member => nomatch member) fun _ member => nomatch member
  | none =>
    refine still_deed [] (.refl s) (fun orderly => orderly.amend id f) (fun other => ?_) rfl
      (fun _ member => nomatch member)
    refine (Ledger.record?_amend w.ledger id other f).trans ?_
    split
    · next same =>
      rw [show w.ledger.record? id = none from found, same]
      exact found.symm
    · rfl

/-! ## Interpretation -/

theorem still_of_isAside (aside : h.isAside = true) : Still h := by
  intro id
  unfold Happening.isAside at aside
  split at aside
  · exact ⟨rfl, fun same => nomatch same⟩
  · exact ⟨rfl, fun same => nomatch same⟩
  · refine ⟨?_, fun same => nomatch same⟩
    simp [Happening.move?, Event.move?]
  · cases aside

/-- What is noted about a call is no move. -/
theorem progress_invoke (i : Interpreter σ) (tool : Value) (parameters : Entries) (context : Context) :
    (i.invoke tool parameters context).Neutral progress fun _ => True := by
  have lawful := progress_lawful
  have lasting : progress.Lasting fun _ => True := fun _ _ _ known => known
  unfold Interpreter.invoke
  split
  · next name =>
    refine .bind lawful lasting (.lift lawful lasting (.update fun s w _ _ => ?_)) ?_
    · exact progress_still s rfl fun _ => ⟨rfl, fun same => nomatch same⟩
    intro known
    cases known with
    | false => exact .fail _
    | true =>
      refine .bind lawful lasting (.lift lawful lasting (.update fun s w _ _ => ?_)) ?_
      · unfold Interpreter.judge
        split
        · exact lawful.rest s _
        · exact progress_still s rfl fun _ => ⟨rfl, fun same => nomatch same⟩
      intro verdict
      refine .bind lawful lasting (.ofExcept _) ?_
      intro allowed
      cases allowed with
      | false => exact .fail _
      | true =>
        refine .bind lawful lasting (.lift lawful lasting (.change fun s w _ _ => ?_)) ?_
        · exact progress_still s rfl fun _ => ⟨rfl, fun same => nomatch same⟩
        intro _
        exact .bind lawful lasting (Protocol.Neutral.perform fun _ _ => trivial) fun _ => .pure _
  · exact .fail _

theorem progress_tolerates (authority : Authority σ) :
    progress.Tolerates authority fun _ _ _ => True where
  lawful := progress_lawful
  lasting _ _ _ _ _ known := known
  aside s _ _ aside _ := progress_still s rfl (still_of_isAside aside)
  observes _ _ _ := trivial
  invoke i _ := progress_invoke i

/-! ## One step -/

/-- A move that is not the announcement of a step can be made without more ado. -/
theorem announce_move (e : Engine σ) {event : Event} {b : Books} (stands : progress.Stands s b)
    (held : s id = some l) (about : event.execution = id) (moves : event.move? = some move)
    (leads : l.after move = some l')
    (heeds : ∀ index, move = .starts index → ∀ x, b.record? id = some x → x.cancelRequested = false) :
    (announce event : Attempt σ Unit).Obeys progress s b (fun _ t _ => t = s.put id l')
      fun interrupt t _ => t = s.put id l' ∧ ∃ message, interrupt = .cancelled message := by
  refine (progress_tolerates e.authority).announce_obeys stands ?_
  rintro w rfl
  refine progress_move (h := .announced event _) stands held rfl ?_ ?_ leads heeds
  · rw [Happening.move?, if_pos about, moves]
  · intro other different
    rw [Happening.move?, if_neg (about ▸ different.symm)]

/-- A record that has moved on is the same but for its cursor. -/
theorem eq_of_advance {index : Int} {y : Execution} (moved : x.advance index = .ok y) :
    ∃ cursor, y = { x with currentStep := cursor } := by
  unfold Execution.advance at moved
  split at moved
  · cases moved
  · exact ⟨_, (Except.ok.inj moved).symm⟩

/-- The check before a step finds that nobody has requested a cancellation, or it stops the driver. -/
theorem boundary_progress (stands : progress.Stands s b) (held : s id = some (.between index)) :
    (Routine.update (boundary id index) : Routine σ (Except Fault Bool)).Obeys progress s b
      fun r s' b' => match r with
        | .ok true => s' = s ∧ ∀ x, b'.record? id = some x → x.cancelRequested = false
        | .ok false => s' = s ∧ Requested id b'
        | .error _ => Drives id s s' fun l => l.after .fails = some .closed := by
  rintro w rfl
  have lawful := progress_lawful
  obtain ⟨⟨x, found⟩, _⟩ : On id _ w.books := stands.backs id _ held
  rw [boundary, record_eq found]
  cases requested : x.cancelRequested with
  | true => exact ⟨s, lawful.rest s _, rfl, x, found, requested⟩
  | false =>
    simp only [Bool.false_eq_true, if_false]
    split
    · exact ⟨s, lawful.rest s _, drives_same held rfl⟩
    · refine ⟨s.put id .spent, progress_move (h := .expired id index _) stands held rfl (if_pos rfl) ?_ (if_pos rfl)
        (by rintro _ ⟨⟩), drives_put s rfl⟩
      exact fun other different => if_neg different.symm
    · split
      · exact ⟨s, lawful.rest s _, drives_same held rfl⟩
      · next x' moved =>
        obtain ⟨cursor, rfl⟩ := eq_of_advance moved
        have amended : Ledger.record? (w.ledger.amend id fun _ => { x with currentStep := cursor }) id =
            some { x with currentStep := cursor } := by
          rw [Ledger.record?_amend_self, show w.ledger.record? id = some x from found]
          rfl
        refine ⟨s, ?_, rfl, fun y known => ?_⟩
        · exact quiet_deed [] found (amends (fun _ => { x with currentStep := cursor }) found rfl)
            (fun same => same) (fun known => known) rfl (by rintro _ ⟨⟩) (by rintro _ ⟨⟩)
        · obtain rfl := Option.some.inj (amended.symm.trans known)
          exact requested

/-- A step that was announced is entered, or it is not. -/
theorem runStep_progress (e : Engine σ) (stands : progress.Stands s b) (held : s id = some (.announced index)) :
    (e.runStep id step index).Obeys progress s b
      (fun _ s' _ => Drives id s s' fun l => l.after (.tells index) = some (.between (index + 1)))
      fun interrupt s' _ => (∃ message, interrupt = .cancelled message) ∧ Drives id s s' fun _ => True := by
  have lawful := progress_lawful
  have told : (Leg.announced index).after (.tells index) = some (.between (index + 1)) := if_pos rfl
  unfold runStep
  refine .lift_bind lawful (Q := fun _ s' _ => s' = s) stands ?_ ?_
  · rintro w rfl
    exact ⟨s, lawful.rest s _, rfl⟩
  rintro x s b₀ stands₀ _ rfl
  split
  · exact drives_same held told
  · exact drives_same held told
  · refine .lift_bind lawful (Q := fun _ s' _ => s' = s.put id (.within index)) stands₀ ?_ ?_
    · rintro w rfl
      refine ⟨_, progress_move (h := .entered id index) stands₀ held rfl (if_pos rfl) ?_ (if_pos rfl)
        (fun _ same => nomatch same), rfl⟩
      exact fun other different => if_neg different.symm
    rintro _ _ b₁ stands₁ _ rfl
    have interpreted := (progress_tolerates e.authority).interpret_neutral (i := e.interpreter id) rfl step
      (x.context index)
    refine .lift_bind lawful stands₁ (interpreted _ b₁ stands₁ trivial) ?_
    rintro outcome _ b₂ stands₂ _ rfl
    refine .lift_bind lawful (Q := fun _ s' _ => s' = s.put id (.within index)) stands₂ ?_ ?_
    · rintro w rfl
      exact ⟨_, progress_still _ rfl fun _ => ⟨rfl, fun same => nomatch same⟩, rfl⟩
    rintro _ _ b₃ _ _ rfl
    rcases outcome with (fault | message) | r
    · exact drives_put s (if_pos rfl)
    · exact ⟨⟨message, rfl⟩, drives_put s trivial⟩
    · exact drives_put s (if_pos rfl)

/-- A result is recorded, unless a cancellation has been requested. -/
theorem recordResult_progress (stands : progress.Stands s b) (held : s id = some l) {r : StepResult} :
    (Routine.update (recordResult id index r) : Routine σ Bool).Obeys progress s b
      fun recorded s' b' => s' = s ∧ (recorded = false → Requested id b') := by
  rintro w rfl
  obtain ⟨⟨x, found⟩, _⟩ : On id l w.books := stands.backs id l held
  rw [recordResult, record_eq found]
  split
  · next requested => exact ⟨s, progress_lawful.rest s _, rfl, fun _ => ⟨x, found, requested⟩⟩
  · refine ⟨s, progress_amend s w id _ (fun y => ?_) (fun y => ?_), rfl, by rintro ⟨⟩⟩
    · obtain ⟨_, _, _, same⟩ := absorb_same index r y
      rw [same]
    · obtain ⟨_, _, _, same⟩ := absorb_same index r y
      rw [same]

theorem stepEvent_moves (id : String) (step : Step) (index : Nat) (r : StepResult) :
    (stepEvent id step index r).execution = id ∧ (stepEvent id step index r).move? = some (.tells index) := by
  unfold stepEvent
  split
  · exact ⟨rfl, rfl⟩
  · exact ⟨rfl, rfl⟩

/-! ## All steps -/

/-- A cancelled driver can be anywhere. -/
private theorem anywhere {message : String} (drives : Drives id s s' fun _ => True) :
    Drives id s s' fun l => ∀ fault, Interrupt.cancelled message = .fault fault → l.after .fails = some .closed :=
  drives.mono fun _ _ _ same => nomatch same

/-- From between two steps the driver goes through the rest of them, or it stops: it is between two steps
again, unless a cancellation has been requested or its task has been cancelled. -/
theorem runSteps_progress (e : Engine σ) (id : String) (steps : List Step) (index : Nat)
    (stands : progress.Stands s b) (held : s id = some (.between index)) :
    (e.runSteps id index steps).Obeys progress s b
      (fun _ s' b' => Drives id s s' fun l => Requested id b' ∨ ∃ next, l = .between next)
      fun interrupt s' _ => Drives id s s' fun l =>
        ∀ fault, interrupt = .fault fault → l.after .fails = some .closed := by
  have lawful := progress_lawful
  induction steps generalizing index s b with
  | nil => exact drives_same held (.inr ⟨index, rfl⟩)
  | cons step rest ih =>
    rw [runSteps]
    refine .lift_bind lawful stands (boundary_progress stands held) ?_
    rintro (fault | goes) s₁ b₁ stands₁ _ known
    · exact Attempt.obeys_fail_bind (known.mono fun _ fails _ _ => fails)
    refine Attempt.obeys_pure_bind ?_
    cases goes with
    | false =>
      obtain ⟨rfl, requested⟩ := known
      exact drives_same held (.inl requested)
    | true =>
      obtain ⟨rfl, unrequested⟩ := known
      rw [if_pos rfl]
      refine .bind lawful stands₁ (announce_move e stands₁ held rfl rfl (if_pos rfl)
        fun _ _ => unrequested) ?_ ?_
      · rintro _ _ b₂ stands₂ _ rfl
        refine .bind lawful stands₂ (runStep_progress e stands₂ (Hold.put_self ..)) ?_ ?_
        · rintro r s₃ b₃ stands₃ _ ⟨same₃, l₃, held₃, tells⟩
          replace same₃ := (sameElsewhere_put s₁ id _).trans same₃
          refine .lift_bind lawful stands₃ (recordResult_progress stands₃ held₃) ?_
          rintro recorded s₃ b₄ stands₄ _ ⟨rfl, requested⟩
          cases recorded with
          | false => exact ⟨same₃, l₃, held₃, .inl (requested rfl)⟩
          | true =>
            obtain ⟨about, moves⟩ := stepEvent_moves id step index r
            refine .bind lawful stands₄ (announce_move e stands₄ held₃ about moves tells (by rintro _ ⟨⟩)) ?_ ?_
            · rintro _ _ b₅ stands₅ _ rfl
              have drives : Drives id s₁ (s₃.put id (.between (index + 1))) fun l => l = .between (index + 1) :=
                ⟨same₃.trans (sameElsewhere_put s₃ id _), _, Hold.put_self .., rfl⟩
              cases goesOn step r with
              | true =>
                exact (ih (index + 1) stands₅ (Hold.put_self ..)).mono (fun _ _ _ => drives.trans)
                  fun _ _ _ => drives.trans
              | false => exact drives.mono fun l same => .inr ⟨_, same⟩
            · rintro interrupt _ b₅ _ _ ⟨rfl, message, rfl⟩
              exact anywhere ⟨same₃.trans (sameElsewhere_put s₃ id _), _, Hold.put_self .., trivial⟩
        · rintro interrupt s₃ b₃ _ _ ⟨⟨message, rfl⟩, drives⟩
          exact anywhere ⟨(sameElsewhere_put s₁ id _).trans drives.1, drives.2⟩
      · rintro interrupt _ b₂ _ _ ⟨rfl, message, rfl⟩
        exact anywhere (drives_put s₁ trivial)

/-! ## The end -/

/-- From the leg the execution can end with the announcement of an event, or fail. -/
def CanEnd (l : Leg) (event : Event) : Prop :=
  l.after .fails = some .closed ∧ ∃ move, event.move? = some move ∧ l.after move = some .closed

/-- The end of an execution is announced, unless it was cancelled before. If the end leaves a fault, the
driver is where it was. -/
theorem announced_progress {event : Event} {change : World σ → Except Fault Bool × World σ}
    (ends : Ends id change) (about : event.execution = id) (stands : progress.Stands s b) (held : s id = some l)
    (leads : Requested id b ∨ CanEnd l event) :
    (Routine.update (World.announced event change)).Obeys progress s b fun r s' _ =>
      SameElsewhere id s s' ∧ ∀ fault, r = .error fault → s' id = some l ∧ l.after .fails = some .closed := by
  rintro w rfl
  obtain ⟨⟨x, found⟩, _⟩ : On id l w.books := stands.backs id l held
  by_cases cancelled : x.status = .cancelled
  · rw [World.announced, ends.cancelled found cancelled]
    exact ⟨s, progress_lawful.rest s _, fun _ _ => rfl, by rintro _ ⟨⟩⟩
  have unrequested : ¬x.cancelRequested = true := fun requested =>
    cancelled (stands.valid.requested id x found requested)
  obtain ⟨fails, move, moves, closed⟩ :=
    leads.resolve_left (not_requested found (by simpa using unrequested))
  obtain ⟨y, w', _, _, _, requested, ledger, ⟨done, journal⟩ | ⟨⟨fault, done⟩, journal⟩⟩ :=
    ends.ends found cancelled
  · rw [World.announced, done]
    refine ⟨s.drop id, ?_, sameElsewhere_drop s id, by rintro _ ⟨⟩⟩
    refine move_deed (h := .announced event (w'.ledger.record? event.execution)) held found
      (amends (fun _ => y) found ledger) requested
      (fun again => absurd again unrequested) (congrArg _ journal) ?_ ?_ closed
      (fun index same => absurd same (Leg.not_starts_of_closed closed index)) (sameElsewhere_drop s id)
      fun l held' => ?_
    · rw [Happening.move?, if_pos about, moves]
    · intro other different
      rw [Happening.move?, if_neg (about ▸ different.symm)]
    · cases (Hold.drop_self s id).symm.trans held'
  · rw [World.announced, done]
    refine ⟨s, ?_, fun _ _ => rfl, fun _ _ => ⟨held, fails⟩⟩
    refine quiet_deed [.untimed id] found (amends (fun _ => y) found ledger)
      (fun again => absurd again unrequested) (fun _ again => absurd (requested.symm.trans again) unrequested)
      journal ?_ ?_
    · intro h member other
      obtain rfl := List.mem_singleton.mp member
      rfl
    · intro other member
      cases List.mem_singleton.mp member

theorem announcing_progress (e : Engine σ) {event : Event} {change : World σ → Except Fault Bool × World σ}
    (ends : Ends id change) (about : event.execution = id) (stands : progress.Stands s b) (held : s id = some l)
    (leads : Requested id b ∨ CanEnd l event) :
    (announcing event change).Obeys progress s b (fun _ s' _ => SameElsewhere id s s')
      fun interrupt s' _ => SameElsewhere id s s' ∧
        ∀ fault, interrupt = .fault fault → s' id = some l ∧ l.after .fails = some .closed := by
  have lawful := progress_lawful
  refine .lift_bind lawful stands (announced_progress ends about stands held leads) ?_
  rintro (fault | _ | callbacks) s₁ b₁ stands₁ _ ⟨same, failed⟩
  · exact Attempt.obeys_fail_bind ⟨same, fun _ _ => failed fault rfl⟩
  · exact Attempt.obeys_pure_bind same
  · refine Attempt.obeys_pure_bind
      (.bind lawful stands₁ ((progress_tolerates e.authority).deliver_obeys event callbacks stands₁) ?_ ?_)
    · rintro _ s₂ b₂ _ _ rfl
      exact same
    · rintro interrupt s₂ b₂ _ _ ⟨rfl, message, rfl⟩
      exact ⟨same, fun fault cancelled => nomatch cancelled⟩

/-- A driver that was cancelled makes no move any more. -/
theorem interrupt_progress (s : Hold Leg) {w : World σ} (recorded : ∃ x, w.books.record? id = some x) :
    progress.Deed s w.books (interrupt id w).2.books s := by
  obtain ⟨x, found⟩ := recorded
  unfold interrupt
  split
  · obtain ⟨y, _, status, requested, done | ⟨fault, done⟩⟩ := finish_spec found
      (fun x => { x with error := .text "Execution task was cancelled" })
      ⟨rfl, rfl, rfl, rfl, rfl, rfl, rfl, rfl⟩ .cancelled
    · rw [done]
      exact quiet_deed [] found (amends (fun _ => y) found rfl) (fun again => requested.trans again)
        (fun _ _ => status) rfl
        (fun _ member => nomatch member) (fun _ member => nomatch member)
    · rw [done]
      refine quiet_deed [.untimed id] found (amends (fun _ => y) found rfl) (fun again => requested.trans again)
        (fun _ _ => status) rfl ?_ ?_
      · intro h member other
        obtain rfl := List.mem_singleton.mp member
        rfl
      · intro other member
        cases List.mem_singleton.mp member
  · exact progress_lawful.rest s _

theorem retire_progress (e : Engine σ) (s : Hold Leg) (w : World σ) (id : String) :
    progress.Deed s w.books (e.retire id w).books (s.drop id) := by
  unfold retire
  split
  · next active =>
    refine still_deed [.retired id] (Hold.drop_within s id) (fun orderly => orderly.retire _ active)
      (fun other => Ledger.record?_retire ..) rfl ?_
    intro h member
    obtain rfl := List.mem_singleton.mp member
    exact fun _ => ⟨rfl, fun same => nomatch same⟩
  · exact still_deed [] (Hold.drop_within s id) (fun orderly => orderly) (fun _ => rfl) rfl
      fun _ member => nomatch member

/-- A driver makes the moves of its execution from the first to the last, and lets go of it. -/
theorem drive_progress (e : Engine σ) (workflow : Workflow) (stands : progress.Stands s b)
    (held : s id = some .waiting) :
    (e.drive workflow id).Obeys progress s b (fun _ s' _ => s' = s.drop id) fun _ s' _ => s' = s.drop id := by
  have lawful := progress_lawful
  have retired (s' : Hold Leg) (b' : Books) (same : SameElsewhere id s s') :
      (Routine.change (e.retire id)).Obeys progress s' b' fun _ s'' _ => s'' = s.drop id := by
    rintro w rfl
    exact ⟨s'.drop id, retire_progress e s' w id, same.drop⟩
  have recorded : ∃ x, b.record? id = some x := (stands.backs id _ held : On id _ b).1
  have still {b' : Books} (onward : Onward b b') : ∃ x, b'.record? id = some x := by
    obtain ⟨x, found⟩ := recorded
    obtain ⟨x', found', _⟩ := onward.records id x found
    exact ⟨x', found'⟩
  unfold drive
  refine .ensuring lawful stands (Q := fun _ s' _ => SameElsewhere id s s') (E := fun _ s' _ => SameElsewhere id s s')
    (.tryCatch lawful stands (Q := fun _ s' _ => SameElsewhere id s s')
      (E := fun interrupt s' _ => SameElsewhere id s s' ∧
        ∀ fault, interrupt = .fault fault → ∃ l, s' id = some l ∧ l.after .fails = some .closed) ?_
      (fun _ _ _ _ _ same => same) ?_)
    (fun _ s' b' _ _ same => retired s' b' same) fun _ s' b' _ _ same => retired s' b' same
  · refine .bind lawful stands (announce_move e stands held rfl rfl rfl fun _ same => nomatch same) ?_ ?_
    · rintro _ _ b₁ stands₁ _ rfl
      have begun := sameElsewhere_put s id (.between 0)
      refine .bind lawful stands₁ (runSteps_progress e id workflow.steps 0 stands₁ (Hold.put_self ..)) ?_ ?_
      · rintro _ s₂ b₂ stands₂ _ ⟨same₂, l, held₂, reached⟩
        have leads : Requested id b₂ ∨ CanEnd l (.completed id) := by
          refine reached.imp_right ?_
          rintro ⟨next, rfl⟩
          exact ⟨rfl, .completes, rfl, rfl⟩
        refine .bind lawful stands₂ (announcing_progress e (conclude_ends id) rfl stands₂ held₂ leads) ?_ ?_
        · exact fun _ s₃ b₃ _ _ same₃ => (begun.trans same₂).trans same₃
        · rintro interrupt s₃ b₃ _ _ ⟨same₃, failed⟩
          exact ⟨(begun.trans same₂).trans same₃, fun fault known => ⟨l, failed fault known⟩⟩
      · rintro interrupt s₂ b₂ _ _ ⟨same₂, l, held₂, failed⟩
        exact ⟨begun.trans same₂, fun fault known => ⟨l, held₂, failed fault known⟩⟩
    · rintro interrupt _ b₁ _ _ ⟨rfl, message, rfl⟩
      exact ⟨sameElsewhere_put s id _, fun fault known => nomatch known⟩
  · rintro (fault | message) s₁ b₁ stands₁ onward₁ ⟨same, failed⟩
    · obtain ⟨l, held₁, fails⟩ := failed fault rfl
      refine .bind lawful stands₁ (announcing_progress e (abort_ends id fault) rfl stands₁ held₁
        (.inr ⟨fails, .fails, rfl, fails⟩)) ?_ ?_
      · exact fun _ s₂ b₂ _ _ same₂ => same.trans same₂
      · exact fun _ s₂ b₂ _ _ known => same.trans known.1
    · refine .lift_bind lawful (Q := fun _ s' _ => s' = s₁) stands₁ ?_ ?_
      · rintro w rfl
        exact ⟨s₁, interrupt_progress s₁ (still onward₁), rfl⟩
      · rintro (fault | _) s₂ b₂ _ _ rfl
        · exact Attempt.obeys_fail_bind same
        · exact Attempt.obeys_pure_bind same

/-! ## What others do -/

/-- Whoever admits an execution holds it where it has not begun. -/
theorem enroll_progress (e : Engine σ) (workflow : Workflow) (options : Options) (stands : progress.Stands s b) :
    (Routine.update (e.enroll workflow options)).Obeys progress s b fun r s' b' => match r with
      | .ok id => Begins progress e workflow id s s' b'
      | .error _ => s' = s := by
  have lawful := progress_lawful
  rintro w rfl
  unfold enroll
  split
  · exact ⟨s, lawful.rest s _, rfl⟩
  · exact ⟨s, lawful.rest s _, rfl⟩
  split
  · exact ⟨s, lawful.rest s _, rfl⟩
  simp only
  split
  · refine ⟨s, still_deed [] (.refl s) (fun orderly => orderly.generate) (fun _ => rfl) rfl ?_, rfl⟩
    exact fun _ member => nomatch member
  · next mode _ _ _ scope given =>
    have fresh : w.books.record? (executionId (w.ledger.generated + 1)) = none := stands.valid.orderly.fresh
    have free : s (executionId (w.ledger.generated + 1)) = none := by
      cases held : s (executionId (w.ledger.generated + 1)) with
      | none => rfl
      | some l =>
        obtain ⟨⟨x, found⟩, _⟩ : On _ l w.books := stands.backs _ l held
        cases fresh.symm.trans found
    refine ⟨s.put _ .waiting, fun tracked backs => ?_, free, .waiting, rfl, fun t b' stands' _ held =>
      drive_progress e workflow stands' held⟩
    have silent : moves (executionId (w.ledger.generated + 1)) w.journal = [] := tracked.unmoved _ fresh
    let admission : Happening := .admitted (executionId (w.ledger.generated + 1)) workflow options
    have way : leg (executionId (w.ledger.generated + 1)) (admission :: w.journal) = some .waiting :=
      congrArg Leg.waiting.along silent
    let y := e.newExecution (executionId (w.ledger.generated + 1)) workflow scope options mode w.agenda.now
    refine advance_of (y := y) [admission] tracked backs
      ⟨true, tracked.orderly.enroll _, Ledger.record?_enroll_self fresh _, Ledger.isActive_enroll_self _ _ _, ?_⟩
      ?_ ?_ rfl ?_ ?_ ⟨fun _ same => (nomatch same), tracked.heeded _⟩ way (sameElsewhere_put s _ _) ?_
      fun _ => ⟨rfl, .inr fresh⟩
    · exact fun other different =>
        ⟨Ledger.record?_enroll_other _ _ different, Ledger.isActive_enroll_other _ _ different⟩
    · intro x found
      cases fresh.symm.trans found
    · intro requested
      cases requested
    · intro h member other _
      obtain rfl := List.mem_singleton.mp member
      exact ⟨rfl, fun same => nomatch same⟩
    · intro told
      exact nomatch (List.mem_singleton.mp told : Happening.cancelled _ = .admitted _ workflow options)
    · intro l held
      exact (Option.some.inj ((Hold.put_self ..).symm.trans held)).symm

/-- A cancellation that finds an active execution goes on its record. -/
theorem withdraw_progress (e : Engine σ) (id : String) (s : Hold Leg) (w : World σ)
    (stands : progress.Stands s w.books) :
    progress.Deed s w.books (w.announced (.cancelled id) (e.withdraw id)).2.books s := by
  cases active : w.ledger.isActive id with
  | false =>
    rw [World.announced, withdraw_inactive e active]
    exact progress_lawful.rest s _
  | true =>
    obtain ⟨x, found⟩ := stands.valid.orderly.recorded id active
    obtain ⟨y, w', _, status, requested, ⟨done, ledger, journal⟩ | ⟨⟨fault, done⟩, ledger, journal⟩⟩ :=
      withdraw_active e found active
    · rw [World.announced, done]
      let middle : Books := { ledger := w.ledger.amend id fun _ => y, journal := [] }
      refine quiet_deed [.announced (.cancelled id) (w'.ledger.record? id), .cancelled id, .retired id] found
        (fun orderly => ⟨false, ?_⟩) (fun _ => requested) (fun _ _ => status) (congrArg _ journal) ?_ ?_
      · have amended : Replaces w.books middle id y (w.books.isActive id) :=
          replaces_amend (fun _ => y) orderly found rfl
        exact amended.trans (replaces_retire amended.orderly amended.found active ledger)
      · intro h member other
        simp only [List.mem_cons, List.not_mem_nil, or_false] at member
        rcases member with rfl | rfl | rfl
        · simp [Happening.move?, Event.move?]
        · rfl
        · rfl
      · intro other member
        simp only [List.mem_cons, reduceCtorEq, Happening.cancelled.injEq, List.not_mem_nil, or_false, false_or]
          at member
        exact ⟨member, requested⟩
    · rw [World.announced, done]
      refine quiet_deed [.untimed id] found (amends (fun _ => y) found ledger) (fun _ => requested)
        (fun _ _ => status) journal ?_ ?_
      · intro h member other
        obtain rfl := List.mem_singleton.mp member
        rfl
      · intro other member
        cases List.mem_singleton.mp member

theorem tracked_of_fresh {m : Machine σ} (fresh : m.Fresh) : Tracked m.world.books := by
  have journal : m.world.books.journal = [] := fresh.journal
  have absent (id : String) : m.world.books.record? id = none := fresh.absent id
  refine ⟨fresh.orderly, fun id => ⟨.waiting, ?_⟩, fun id _ => ?_, fun id => ?_, fun id told => ?_, ?_⟩
  · rw [journal]
    rfl
  · rw [journal]
    rfl
  · rw [journal]
    trivial
  · rw [journal] at told
    cases told
  · intro id x found
    cases (absent id).symm.trans found

/-- The protocol of moves covers what an engine does. -/
theorem progress_covers (e : Engine σ) (spared : String → Prop) :
    progress.Covers e spared fun _ _ _ => True where
  toTolerates := progress_tolerates e.authority
  fresh _ fresh := tracked_of_fresh fresh
  enroll workflow options _ _ := enroll_progress e workflow options
  withdraw id s w := withdraw_progress e id s w
  assign id _ s w _ _ := progress_amend s w id _ (fun _ => rfl) fun _ => rfl
  clear s w _ := by
    refine still_deed [.cleared] (.refl s) (fun orderly => orderly.clear) (fun _ => rfl) rfl ?_
    intro h member
    obtain rfl := List.mem_singleton.mp member
    exact fun _ => ⟨rfl, fun same => nomatch same⟩

end Engine

namespace Machine.Reachable

variable {m m' : Machine σ}

/-- The moves of all executions are in order in every machine that a run leads to. -/
theorem tracked (reachable : Reachable e host spared m) (spares : host.Spares spared) : Tracked m.world.books :=
  ((Engine.progress_covers e spared).governs spares).valid reachable

theorem onward (reachable : Reachable e host spared m) (spares : host.Spares spared)
    (run : Run e host spared m m') : Onward m.world.books m'.world.books :=
  ((Engine.progress_covers e spared).governs spares).later reachable run

/-- The journal only grows. -/
theorem grows (reachable : Reachable e host spared m) (spares : host.Spares spared) (run : Run e host spared m m') :
    ∃ new, m'.world.journal = new ++ m.world.journal :=
  (reachable.onward spares run).journal

theorem way (reachable : Reachable e host spared m) (spares : host.Spares spared) (id : String) :
    ∃ l, leg id m.world.journal = some l :=
  (reachable.tracked spares).way id

end Machine.Reachable

end Runbook
