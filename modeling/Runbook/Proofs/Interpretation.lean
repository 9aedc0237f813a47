import Runbook.Interpreter
import Runbook.Proofs.Obedience

/-! # Interpretation is neutral

Whatever a step is, its interpretation holds no execution and changes no record: it writes asides into
the journal, waits, calls tools and observers, and creates tasks that hold nothing. A protocol that
tolerates asides and calls tolerates all of it, in the induction over the step that covers all nested ones.
What a call needs to be so in the books depends on the execution that it is made for and on its mode,
which every derived context keeps.
-/

namespace Runbook

variable {σ : Type} {P : Protocol} {authority : Authority σ} {grounds : String → Value → Books → Prop}
  {A : Books → Prop}

/-- It tells of something beside the way of an execution: a callback that failed, another round of a
loop, a step that an operator has to act on. -/
def Happening.isAside : Happening → Bool
  | .callbackFailed .. | .iterated .. | .announced (.manual ..) _ => true
  | _ => false

/-- A protocol tolerates asides and calls of observers at any time, and calls of tools that follow an
authority where the books give grounds for them. -/
structure Protocol.Tolerates (P : Protocol) (authority : Authority σ)
    (grounds : String → Value → Books → Prop) : Prop where
  lawful : P.Lawful
  lasting : ∀ id mode, P.Lasting (grounds id mode)
  aside : ∀ s (w : World σ) h, h.isAside = true → P.Stands s w.books →
    P.Deed s w.books (w.note h).books s
  observes : ∀ callback event b, P.Allows (.observer callback event) b
  invoke : ∀ i : Interpreter σ, i.authority = authority → ∀ tool parameters (context : Context),
    (i.invoke tool parameters context).Neutral P (grounds context.execution context.mode)

/-! ## Events -/

/-- A delivery never ends in a fault. -/
theorem deliver_error (event : Event) (callbacks : List String) (e : Interrupt)
    (yields : (ExceptT.run (deliver event callbacks : Attempt σ Unit)).Yields (.error e)) :
    ∃ message, e = .cancelled message := by
  induction callbacks with
  | nil => cases yields
  | cons callback rest ih =>
    rw [deliver] at yields
    rcases (Attempt.yields_error_bind _ _ _).mp yields with first | ⟨reply, _, yields⟩
    · exact absurd first (Attempt.not_yields_error_lift _ _)
    · rcases reply with interrupt | v
      · cases interrupt with
        | fault fault =>
          rcases (Attempt.yields_error_bind _ _ _).mp yields with first | ⟨_, _, yields⟩
          · exact absurd first (Attempt.not_yields_error_lift _ _)
          · exact ih yields
        | cancelled message =>
          cases yields
          exact ⟨message, rfl⟩
      · exact ih yields

namespace Protocol.Tolerates

open Interpreter

variable (tolerates : P.Tolerates authority grounds)
include tolerates

theorem note_neutral {h : Happening} (aside : h.isAside = true) :
    P.Neutral A (.change (·.note h) : Routine σ Unit) :=
  .change fun s w stands _ => tolerates.aside s w h aside stands

/-- Callbacks are observers, who may always be called. -/
theorem deliver_neutral (lasting : P.Lasting A) (event : Event) (callbacks : List String) :
    (deliver event callbacks : Attempt σ Unit).Neutral P A := by
  have lawful := tolerates.lawful
  induction callbacks with
  | nil => exact .pure ()
  | cons callback rest ih =>
    rw [deliver]
    refine .bind lawful lasting
      (.lift lawful lasting (.perform fun _ _ => tolerates.observes callback event _)) ?_
    rintro (interrupt | v)
    · cases interrupt with
      | fault fault =>
        exact .bind lawful lasting (.lift lawful lasting (tolerates.note_neutral rfl)) fun _ => ih
      | cancelled message => exact .bind lawful lasting (.throw _) fun _ => ih
    · exact .bind lawful lasting (.pure ()) fun _ => ih

theorem deliver_obeys (event : Event) (callbacks : List String) {s : Hold P.Course} {b : Books}
    (stands : P.Stands s b) :
    (deliver event callbacks : Attempt σ Unit).Obeys P s b (fun _ s' _ => s' = s)
      fun interrupt s' _ => s' = s ∧ ∃ message, interrupt = .cancelled message := by
  have neutral : (deliver event callbacks : Attempt σ Unit).Neutral P fun _ => True :=
    tolerates.deliver_neutral (fun _ _ _ known => known) event callbacks
  refine Routine.Obeys.mono (neutral s b stands trivial).yields ?_
  rintro (interrupt | a) s' b' ⟨same, yields⟩
  · exact ⟨same, deliver_error event callbacks interrupt yields⟩
  · exact same

/-- An event is announced by a deed, and then delivered. -/
theorem announce_obeys {event : Event} {s s' : Hold P.Course} {b : Books} (stands : P.Stands s b)
    (deed : ∀ w : World σ, w.books = b → P.Deed s b (w.announcement event).2.books s') :
    (announce event : Attempt σ Unit).Obeys P s b (fun _ t _ => t = s')
      fun interrupt t _ => t = s' ∧ ∃ message, interrupt = .cancelled message := by
  refine .lift_bind tolerates.lawful (Q := fun _ t _ => t = s') stands ?_ ?_
  · rintro w rfl
    exact ⟨s', deed w rfl, rfl⟩
  · rintro callbacks _ b' stands' _ rfl
    exact tolerates.deliver_obeys event callbacks stands'

theorem announce_neutral (lasting : P.Lasting A) {event : Event}
    (aside : ∀ record, (Happening.announced event record).isAside = true) :
    (announce event : Attempt σ Unit).Neutral P A := by
  have lawful := tolerates.lawful
  refine .bind lawful lasting (.lift lawful lasting (.update fun s w stands _ => ?_)) ?_
  · exact tolerates.aside s w _ (aside _) stands
  · exact fun callbacks => tolerates.deliver_neutral lasting event callbacks

/-! ## Steps -/

omit tolerates in
/-- An attempt is neutral given the grounds of its context. -/
abbrev GroundedNeutral (P : Protocol) (grounds : String → Value → Books → Prop) (context : Context)
    {α : Type} (p : Attempt σ α) : Prop :=
  p.Neutral P (grounds context.execution context.mode)

variable {i : Interpreter σ} {context : Context} {α β : Type}

private theorem grounded_bind {p : Attempt σ α} {f : α → Attempt σ β}
    (first : GroundedNeutral P grounds context p) (next : ∀ a, GroundedNeutral P grounds context (f a)) :
    GroundedNeutral P grounds context (p >>= f) :=
  .bind tolerates.lawful (tolerates.lasting _ _) first next

private theorem grounded_lift {p : Routine σ α}
    (neutral : P.Neutral (grounds context.execution context.mode) p) :
    GroundedNeutral P grounds context (Attempt.lift p) :=
  .lift tolerates.lawful (tolerates.lasting _ _) neutral

private theorem grounded_await (cue : Cue) :
    GroundedNeutral P grounds context (Attempt.await cue : Attempt σ Unit) :=
  .await tolerates.lawful (tolerates.lasting _ _) cue

private theorem grounded_update {f : World σ → α × World σ} (books : ∀ w, (f w).2.books = w.books) :
    GroundedNeutral P grounds context (Attempt.lift (.update f)) :=
  tolerates.grounded_lift (.update_same tolerates.lawful books)

private theorem grounded_look (f : World σ → α) :
    GroundedNeutral P grounds context (Attempt.lift (.look f)) :=
  tolerates.grounded_lift (.look tolerates.lawful f)

theorem timed_neutral {p : Attempt σ StepResult} (neutral : GroundedNeutral P grounds context p) :
    GroundedNeutral P grounds context (timed context p) := by
  refine tolerates.grounded_bind (tolerates.grounded_look _) fun started =>
    tolerates.grounded_bind ?_ fun result => tolerates.grounded_bind (tolerates.grounded_look _)
      fun ended => tolerates.grounded_bind (.ofExcept _) fun durationMs => .pure _
  refine .tryCatch tolerates.lawful (tolerates.lasting _ _) neutral ?_
  rintro (fault | message)
  · exact .pure _
  · exact .throw _

theorem checked_neutral (step : Step) {p : Attempt σ StepResult}
    (neutral : GroundedNeutral P grounds context p) :
    GroundedNeutral P grounds context (checked step context p) := by
  refine tolerates.grounded_bind (.ofExcept _) fun verdict => ?_
  cases verdict with
  | false => exact .pure _
  | true => exact neutral

theorem rounds_neutral (itemVariable indexVariable : Value) (stops : Bool)
    {body : Context → Attempt σ StepResult}
    (neutral : ∀ scope, GroundedNeutral P grounds context (body (context.derive scope)))
    (index : Nat) (soFar : Rounds) (items : List Value) :
    GroundedNeutral P grounds context
      (i.rounds itemVariable indexVariable stops context body index soFar items) := by
  induction items generalizing index soFar with
  | nil => exact .pure _
  | cons item rest ih =>
    rw [rounds]
    refine tolerates.grounded_bind (tolerates.grounded_look _) fun cancelled => ?_
    cases cancelled with
    | true => exact .pure _
    | false =>
      refine tolerates.grounded_bind (tolerates.grounded_lift (tolerates.note_neutral rfl)) fun _ =>
        tolerates.grounded_bind (.ofExcept _) fun scope =>
          tolerates.grounded_bind (neutral scope) fun result => ?_
      simp only
      split
      · exact .pure _
      · exact ih _ _

/-- The branches of a parallel step run in tasks that hold nothing. -/
theorem createBranches_neutral {branches : List (Attempt σ StepResult)}
    (neutral : ∀ branch ∈ branches, GroundedNeutral P grounds context branch) :
    P.Neutral (grounds context.execution context.mode) (createBranches branches) := by
  have lawful := tolerates.lawful
  have lasting := tolerates.lasting context.execution context.mode
  induction branches with
  | nil => exact .done _
  | cons branch rest ih =>
    rw [createBranches]
    refine .bind lawful lasting (.create lasting fun id => ?_) fun id => ?_
    · refine .bind lawful lasting (neutral branch List.mem_cons_self) fun outcome => ?_
      exact .change_same lawful fun _ => rfl
    · refine .bind lawful lasting (ih fun branch' member => ?_) fun ids => .done _
      exact neutral branch' (List.mem_cons_of_mem branch member)

theorem runBranches_neutral {branches : List (Attempt σ StepResult)}
    (neutral : ∀ branch ∈ branches, GroundedNeutral P grounds context branch) :
    GroundedNeutral P grounds context (runBranches context branches) := by
  refine tolerates.grounded_bind (tolerates.grounded_lift (tolerates.createBranches_neutral neutral))
    fun ids => tolerates.grounded_bind (tolerates.grounded_await _) fun _ =>
      tolerates.grounded_bind (tolerates.grounded_update fun _ => rfl) fun outcomes =>
        tolerates.grounded_bind ?_ fun results => .ofExcept _
  exact Protocol.Neutral.done _

theorem runDelay_neutral (delay : Value) :
    GroundedNeutral P grounds context (runDelay delay context : Attempt σ StepResult) :=
  tolerates.grounded_bind (.ofExcept _) fun _ =>
    tolerates.grounded_bind (tolerates.grounded_await _) fun _ => .pure _

theorem runManual_neutral (step : Step) (given : Value) :
    GroundedNeutral P grounds context (i.runManual step given context) := by
  have lasting := tolerates.lasting context.execution context.mode
  unfold runManual
  cases i.policies.manualSteps with
  | auto => exact tolerates.grounded_bind (tolerates.announce_neutral lasting fun _ => rfl) fun _ => .pure _
  | await =>
    refine tolerates.grounded_bind (tolerates.grounded_update fun _ => rfl) fun token =>
      tolerates.grounded_bind (tolerates.announce_neutral lasting fun _ => rfl) fun _ =>
        tolerates.grounded_bind ?_ fun decision => ?_
    · refine tolerates.grounded_bind (tolerates.grounded_lift (.await _)) fun wake =>
        tolerates.grounded_bind (tolerates.grounded_update fun _ => rfl) fun answer => ?_
      split
      · exact .pure _
      · exact .throw _
    · simp only
      split <;> exact .pure _

omit tolerates

mutual

theorem interpret_neutral (tolerates : P.Tolerates authority grounds) (same : i.authority = authority)
    (step : Step) (context : Context) :
    GroundedNeutral P grounds context (i.interpret step context) := by
  cases step with
  | tool common name parameters outputs =>
    rw [interpret]
    exact tolerates.timed_neutral (tolerates.grounded_bind (tolerates.invoke i same _ _ context) fun _ =>
      tolerates.grounded_bind (.ofExcept _) fun _ => .pure _)
  | command common command directory outputs =>
    rw [interpret]
    exact tolerates.timed_neutral (tolerates.grounded_bind (tolerates.invoke i same _ _ context) fun _ =>
      tolerates.grounded_bind (.ofExcept _) fun _ => .pure _)
  | conditional common condition thenStep elseStep =>
    rw [interpret]
    refine tolerates.timed_neutral (tolerates.grounded_bind (.ofExcept _) fun met => ?_)
    split
    · exact tolerates.grounded_bind (interpretNested_neutral tolerates same _ (context.derive [])) fun _ => .pure _
    · exact tolerates.grounded_bind (interpretNested_neutral tolerates same _ (context.derive [])) fun _ => .pure _
    · exact .pure _
  | loop common items itemVariable indexVariable limit body =>
    rw [interpret]
    refine tolerates.timed_neutral (tolerates.grounded_bind (.ofExcept _) fun items => ?_)
    cases body with
    | none => exact .fail _
    | some body =>
      refine tolerates.grounded_bind (.ofExcept _) fun limit => tolerates.grounded_bind (.ofExcept _)
        fun chosen => tolerates.grounded_bind
          (tolerates.rounds_neutral _ _ _ (fun scope => ?_) 0 {} chosen) fun done => .pure _
      exact interpretNested_neutral tolerates same body (context.derive scope)
  | parallel common steps =>
    rw [interpret]
    exact tolerates.timed_neutral
      (tolerates.runBranches_neutral (branches_neutral tolerates same steps (context.derive [])))
  | delay common delay =>
    rw [interpret]
    exact tolerates.timed_neutral (tolerates.runDelay_neutral delay)
  | manual common instructions =>
    rw [interpret]
    exact tolerates.timed_neutral (tolerates.runManual_neutral _ instructions)
  | unknown common tag fields =>
    rw [interpret]
    exact tolerates.timed_neutral (.fail _)

theorem interpretNested_neutral (tolerates : P.Tolerates authority grounds)
    (same : i.authority = authority) (step : Step) (context : Context) :
    GroundedNeutral P grounds context (i.interpretNested step context) := by
  rw [interpretNested]
  exact tolerates.checked_neutral step (interpret_neutral tolerates same step context)

theorem branches_neutral (tolerates : P.Tolerates authority grounds) (same : i.authority = authority)
    (steps : List Step) (context : Context) :
    ∀ branch ∈ i.branches steps context, GroundedNeutral P grounds context branch := by
  cases steps with
  | nil =>
    rw [branches]
    exact fun _ member => nomatch member
  | cons step rest =>
    rw [branches]
    intro branch member
    rcases List.mem_cons.mp member with rfl | later
    · exact interpretNested_neutral tolerates same step (context.derive [])
    · exact branches_neutral tolerates same rest context branch later

end

end Protocol.Tolerates

end Runbook
