import Runbook.Proofs.Upshot

/-! # Routines that abide by rules

Rules say what an act may make of the world. A routine abides by them if each of its acts does, whatever the world
is like after its waits and errands, and so do the tasks that it creates. What one act finds out holds for the next
as far as nothing comes between the two: how far the world may drift there is part of the rules.

An interpreter changes no books and tells only what it does. By rules that put up with that, its interpretations
abide, if they also let a round of a loop begin where the test for cancellation has just failed.
-/

namespace Runbook

variable {σ α β : Type}

/-- What may come between two acts of a turn, and what an act may do. -/
structure Rules (σ : Type) where
  Drifts : World σ → World σ → Prop
  Allows : World σ → World σ → Prop

namespace Routine

/-- From a world on, the routine abides by the rules. -/
def Abides (R : Rules σ) {α : Type} : Routine σ α → World σ → Prop
  | .done _, _ => True
  | .act f k, w => ∀ w', R.Drifts w w' → R.Allows w' (f w').2 ∧ (k (f w').1).Abides R (f w').2
  | .wait _ k, _ => ∀ wake w, (k wake).Abides R w
  | .call _ k, _ => ∀ answer w, (k answer).Abides R w
  | .spawn body k, _ => (∀ id w, (body id).Abides R w) ∧ ∀ id w, (k id).Abides R w

variable {R : Rules σ} {w : World σ}

theorem Abides.bind {p : Routine σ α} {f : α → Routine σ β} (first : p.Abides R w) (next : ∀ a w, (f a).Abides R w) :
    (p.bind f).Abides R w := by
  induction p generalizing w with
  | done a => exact next a w
  | act g k ih => exact fun w' drifts => ⟨(first w' drifts).1, ih _ (first w' drifts).2 next⟩
  | wait cue k ih => exact fun wake w => ih wake (first wake w) next
  | call errand k ih => exact fun answer w => ih answer (first answer w) next
  | spawn body k _ ih => exact ⟨first.1, fun id w => ih id (first.2 id w) next⟩

theorem abides_update {f : World σ → α × World σ} (allows : ∀ w, R.Allows w (f w).2) (w : World σ) :
    (Routine.update f).Abides R w := fun w' _ => ⟨allows w', trivial⟩

theorem abides_change {f : World σ → World σ} (allows : ∀ w, R.Allows w (f w)) (w : World σ) :
    (Routine.change f).Abides R w := fun w' _ => ⟨allows w', trivial⟩

end Routine

namespace Attempt

/-- The attempt abides by the rules from whatever world on. -/
def Abides (p : Attempt σ α) (R : Rules σ) : Prop := ∀ w, (ExceptT.run p).Abides R w

namespace Abides

variable {R : Rules σ}

theorem pure (a : α) : (Pure.pure a : Attempt σ α).Abides R := fun _ => trivial

theorem throw (interrupt : Interrupt) : (MonadExcept.throw interrupt : Attempt σ α).Abides R := fun _ => trivial

theorem fail (fault : Fault) : (Attempt.fail fault : Attempt σ α).Abides R := fun _ => trivial

theorem ofExcept (r : Except Fault α) : (Attempt.ofExcept r : Attempt σ α).Abides R := by
  intro w
  rw [run_ofExcept]
  trivial

theorem lift {p : Routine σ α} (abides : ∀ w, p.Abides R w) : (Attempt.lift p).Abides R :=
  fun w => (abides w).bind fun _ _ => trivial

theorem bind {p : Attempt σ α} {f : α → Attempt σ β} (first : p.Abides R) (next : ∀ a, (f a).Abides R) :
    (p >>= f).Abides R := by
  intro w
  rw [run_bind]
  refine (first w).bind ?_
  rintro (interrupt | a) w
  · trivial
  · exact next a w

theorem tryCatch {p : Attempt σ α} {handle : Interrupt → Attempt σ α} (first : p.Abides R)
    (handled : ∀ interrupt, (handle interrupt).Abides R) : (MonadExcept.tryCatch p handle).Abides R := by
  intro w
  rw [run_tryCatch]
  refine (first w).bind ?_
  rintro (interrupt | a) w
  · exact handled interrupt w
  · trivial

theorem await (cue : Cue) : (Attempt.await cue : Attempt σ Unit).Abides R := by
  refine bind (lift fun _ wake _ => trivial) ?_
  rintro (_ | _)
  · exact pure ()
  · exact throw _

theorem perform (errand : Errand) : (Attempt.perform errand : Attempt σ Value).Abides R :=
  fun _ _ _ => trivial

end Abides

end Attempt

/-! ## Rules that put up with telling -/

/-- A round of a loop begins. -/
def Happening.IsRound : Happening → Prop
  | .iterated .. => True
  | _ => False

/-- Whoever leaves the clock and the books alone may do as they like, and tell of anything but the round of a loop. -/
structure Rules.Lenient (R : Rules σ) : Prop where
  aside : ∀ {w w' : World σ}, w'.agenda.now = w.agenda.now → w'.ledger = w.ledger → w'.journal = w.journal →
    R.Allows w w'
  tells : ∀ {w w' : World σ} {h : Happening}, w'.agenda.now = w.agenda.now → w'.ledger = w.ledger →
    w'.journal = h :: w.journal → ¬h.IsRound → R.Allows w w'

/-- The round of a loop may begin where a test has just failed. -/
def Rules.LetsRepeat (R : Rules σ) (stop : World σ → Bool) : Prop :=
  ∀ w w' execution stepIndex round, stop w = false → R.Drifts w w' →
    R.Allows w' (w'.note (.iterated execution stepIndex round))

section Lenient

variable {R : Rules σ} (lenient : R.Lenient)
include lenient

theorem Rules.Lenient.note {h : Happening} (other : ¬h.IsRound) :
    (Attempt.lift (.change (·.note h)) : Attempt σ Unit).Abides R :=
  .lift (Routine.abides_change fun _ => lenient.tells rfl rfl rfl other)

theorem Rules.Lenient.look (f : World σ → α) : (Attempt.lift (.look f) : Attempt σ α).Abides R :=
  .lift (Routine.abides_update fun _ => lenient.aside rfl rfl rfl)

theorem deliver_abides (event : Event) (callbacks : List String) :
    (deliver event callbacks : Attempt σ Unit).Abides R := by
  induction callbacks with
  | nil => exact .pure ()
  | cons callback rest ih =>
    rw [deliver]
    refine .bind (.lift fun _ _ _ => trivial) ?_
    rintro ((fault | message) | v)
    · exact .bind (lenient.note id) fun _ => ih
    · exact .bind (.throw _) fun _ => ih
    · exact .bind (.pure ()) fun _ => ih

theorem announce_abides (event : Event) : (announce event : Attempt σ Unit).Abides R :=
  .bind (.lift (Routine.abides_update fun _ => lenient.tells rfl rfl rfl id)) fun callbacks =>
    deliver_abides lenient event callbacks

/-- A change that is announced has to be allowed together with the announcement. -/
theorem announcing_abides {event : Event} {change : World σ → Except Fault Bool × World σ}
    (allows : ∀ w : World σ, R.Allows w (w.announced event change).2) : (announcing event change).Abides R := by
  refine .bind (.lift (Routine.abides_update allows)) fun verdict => .bind (.ofExcept _) ?_
  rintro (_ | callbacks)
  · exact .pure _
  · exact .bind (deliver_abides lenient event callbacks) fun _ => .pure _

/-! ## Interpretations -/

namespace Interpreter

variable {i : Interpreter σ} {context : Context}

omit lenient in
/-- Nothing more is done after a fault. -/
private theorem unless_abides {c : Bool} {fault : Fault} {rest : Unit → Attempt σ α}
    (abides : ∀ u, (rest u).Abides R) : (if c = true then rest () else Attempt.fail fault >>= rest).Abides R := by
  split
  · exact abides ()
  · exact .bind (.fail fault) abides

theorem judge_allowed (name : String) (parameters : Entries) (w : World σ) :
    R.Allows w (i.judge context name parameters w).2 := by
  unfold judge
  split
  · exact lenient.aside rfl rfl rfl
  · exact lenient.tells rfl rfl rfl id

theorem invoke_abides (tool : Value) (parameters : Entries) : (i.invoke tool parameters context).Abides R := by
  unfold invoke
  split
  · next name =>
    refine .bind (.lift (Routine.abides_update fun w => lenient.tells rfl rfl rfl id)) fun known =>
      unless_abides fun _ => ?_
    refine .bind (.lift (Routine.abides_update (judge_allowed lenient name parameters))) fun verdict =>
      .bind (.ofExcept _) fun allowed => unless_abides fun _ => ?_
    exact .bind (lenient.note id) fun _ => .bind (.perform _) fun _ => .pure _
  · exact .fail _

theorem timed_abides {p : Attempt σ StepResult} (abides : p.Abides R) : (timed context p).Abides R := by
  refine .bind (lenient.look _) fun started => .bind (.tryCatch abides ?_) fun result =>
    .bind (lenient.look _) fun ended => .bind (.ofExcept _) fun durationMs => .pure _
  rintro (fault | message)
  · exact .pure _
  · exact .throw _

omit lenient in
theorem checked_abides (step : Step) {p : Attempt σ StepResult} (abides : p.Abides R) :
    (checked step context p).Abides R := by
  refine .bind (.ofExcept _) fun verdict => ?_
  cases verdict with
  | false => exact .pure _
  | true => exact abides

theorem createBranches_abides {branches : List (Attempt σ StepResult)}
    (abides : ∀ branch ∈ branches, branch.Abides R) (w : World σ) : (createBranches branches).Abides R w := by
  induction branches generalizing w with
  | nil => trivial
  | cons branch rest ih =>
    rw [createBranches]
    refine .bind ⟨fun id w => ?_, fun _ _ => trivial⟩ fun id w => .bind (ih ?_ w) fun ids w => trivial
    · refine .bind (abides branch List.mem_cons_self w) fun outcome w =>
        Routine.abides_change (f := leave id outcome) (fun w => ?_) w
      exact lenient.aside rfl rfl rfl
    · exact fun branch member => abides branch (List.mem_cons_of_mem _ member)

theorem runBranches_abides {branches : List (Attempt σ StepResult)}
    (abides : ∀ branch ∈ branches, branch.Abides R) : (runBranches context branches).Abides R := by
  refine .bind (.lift (createBranches_abides lenient abides)) fun ids => .bind (.await _) fun _ =>
    .bind (.lift (Routine.abides_update fun w => lenient.aside rfl rfl rfl)) fun outcomes =>
      .bind (fun _ => trivial) fun results => .ofExcept _

theorem runManual_abides (step : Step) (given : Value) : (i.runManual step given context).Abides R := by
  unfold runManual
  cases i.policies.manualSteps with
  | auto => exact .bind (announce_abides lenient _) fun _ => .pure _
  | await =>
    refine .bind (.lift (Routine.abides_update fun w => lenient.aside rfl rfl rfl)) fun token =>
      .bind (announce_abides lenient _) fun _ => .bind (.bind (.lift fun _ _ _ => trivial) fun wake =>
        .bind (.lift (Routine.abides_update fun w => lenient.aside rfl rfl rfl)) fun answer => ?_) fun decision => ?_
    · split
      · exact .pure _
      · exact .throw _
    · simp only
      split <;> exact .pure _

/-- Between the look at the test and the beginning of a round nobody else has a turn. -/
theorem rounds_abides (lets : R.LetsRepeat i.isCancelled) (itemVariable indexVariable : Value) (stops : Bool)
    {body : Context → Attempt σ StepResult} (abides : ∀ context, (body context).Abides R) (round : Nat)
    (soFar : Rounds) (items : List Value) :
    (i.rounds itemVariable indexVariable stops context body round soFar items).Abides R := by
  induction items generalizing round soFar with
  | nil => exact .pure _
  | cons item rest ih =>
    rw [rounds]
    intro w w₁ drifts
    refine ⟨lenient.aside rfl rfl rfl, ?_⟩
    change Routine.Abides R (ExceptT.run (if i.isCancelled w₁ = true then (_ : Attempt σ Rounds) else _)) w₁
    cases stopped : i.isCancelled w₁ with
    | true => trivial
    | false =>
      intro w₂ drifts
      refine ⟨lets w₁ w₂ _ _ _ stopped drifts, ?_⟩
      refine Attempt.Abides.bind (.ofExcept _) (fun scope => .bind (abides _) fun result => ?_) _
      simp only
      split
      · exact .pure _
      · exact ih _ _

end Interpreter

end Lenient

namespace Interpreter

variable {i : Interpreter σ} {R : Rules σ}

mutual

/-- The interpretation of a step abides by such rules, at any depth and in all branches. -/
theorem interpret_abides (lenient : R.Lenient) (lets : R.LetsRepeat i.isCancelled) (step : Step)
    (context : Context) : (i.interpret step context).Abides R := by
  cases step with
  | tool common name parameters outputs =>
    rw [interpret]
    exact timed_abides lenient (.bind (invoke_abides lenient _ _) fun _ => .bind (.ofExcept _) fun _ => .pure _)
  | command common command directory outputs =>
    rw [interpret]
    exact timed_abides lenient (.bind (invoke_abides lenient _ _) fun _ => .bind (.ofExcept _) fun _ => .pure _)
  | conditional common condition thenStep elseStep =>
    rw [interpret]
    refine timed_abides lenient (.bind (.ofExcept _) fun met => ?_)
    split
    · exact .bind (interpretNested_abides lenient lets _ _) fun _ => .pure _
    · exact .bind (interpretNested_abides lenient lets _ _) fun _ => .pure _
    · exact .pure _
  | loop common items itemVariable indexVariable limit body =>
    rw [interpret]
    refine timed_abides lenient (.bind (.ofExcept _) fun items => ?_)
    cases body with
    | none => exact .fail _
    | some body =>
      exact .bind (.ofExcept _) fun limit => .bind (.ofExcept _) fun chosen =>
        .bind (rounds_abides lenient lets _ _ _ (interpretNested_abides lenient lets body) 0 {} chosen) fun _ =>
          .pure _
  | parallel common steps =>
    rw [interpret]
    exact timed_abides lenient (runBranches_abides lenient (branches_abide lenient lets steps _))
  | delay common delay =>
    rw [interpret]
    exact timed_abides lenient (.bind (.ofExcept _) fun _ => .bind (.await _) fun _ => .pure _)
  | manual common instructions =>
    rw [interpret]
    exact timed_abides lenient (runManual_abides lenient _ instructions)
  | unknown common tag fields =>
    rw [interpret]
    exact timed_abides lenient (.fail _)

theorem interpretNested_abides (lenient : R.Lenient) (lets : R.LetsRepeat i.isCancelled) (step : Step)
    (context : Context) : (i.interpretNested step context).Abides R := by
  rw [interpretNested]
  exact checked_abides step (interpret_abides lenient lets step context)

theorem branches_abide (lenient : R.Lenient) (lets : R.LetsRepeat i.isCancelled) (steps : List Step)
    (context : Context) :
    ∀ branch ∈ i.branches steps context, branch.Abides R := by
  cases steps with
  | nil =>
    rw [branches]
    exact fun _ member => nomatch member
  | cons step rest =>
    rw [branches]
    intro branch member
    rcases List.mem_cons.mp member with rfl | later
    · exact interpretNested_abides lenient lets step _
    · exact branches_abide lenient lets rest context branch later

end

end Interpreter

end Runbook
