import Runbook.Proofs.Company

/-! # Failures stay inside their step

A step that is interpreted comes to a result whatever fails in it. A step inside another one does so too once its
pre-check has been made; if that raises, its fault comes out, and the step around it fails. Otherwise a
conditional step that nests its branch is successful whatever the branch does, and a loop that does not stop
at failures has one round for each item.
-/

namespace Runbook

open Interpreter

variable {σ : Type} {e : Engine σ} {host : Host σ} {time : Timeline} {harsh : Prop} {i : Interpreter σ}
  {d : Weather} {step : Step} {context : Context} {outcome : Outcome}

namespace Interpreter

/-! ## Conditional steps -/

/-- A conditional step whose own condition can be evaluated is successful, unless the pre-check of its branch
raises, and then it is in error. -/
def NestsSuccess (context : Context) (condition : List Condition) (thenStep elseStep : Option Step)
    (r : StepResult) : Prop :=
  ∀ met, Condition.allHold context.scope condition = .ok met → r.success = true ∨
    ∃ branch fault, branchOf met thenStep elseStep = some branch ∧
      Condition.allHold (context.derive []).scope branch.common.conditions = .error fault ∧
      r = .ofError context.stepIndex (.text fault.message) r.durationMs

/-! ## Loops -/

/-- The rounds are those of the given items, in order. -/
def Rounds.Cover (rounds : Rounds) (items : List (Value × Nat)) : Prop :=
  rounds.done.reverse.map (fun round => (round.item, round.index)) = items

theorem Rounds.Cover.recorded {rounds : Rounds} {items : List (Value × Nat)} (cover : rounds.Cover items)
    (index : Nat) (item : Value) (result : StepResult) :
    (i.recorded rounds index item result).Cover (items ++ [(item, index)]) := by
  unfold Rounds.Cover at cover ⊢
  rw [Interpreter.recorded, List.reverse_cons, List.map_append, cover]
  rfl

/-- A loop that does not stop at failures goes through all of its items, unless the work was cancelled or a round
of it ended in an interruption. -/
theorem Rounding.covers {itemVariable indexVariable : String} {Body : Context → Outcome → Prop} {index : Nat}
    {soFar : Rounds} {items : List Value} {ended : Except Interrupt Rounds} {before : List (Value × Nat)}
    (rounding : i.Rounding d context (.text itemVariable) (.text indexVariable) false Body index soFar items ended)
    (going : soFar.cancelled = false) (cover : soFar.Cover before) :
    (∃ rounds, ended = .ok rounds ∧ rounds.cancelled = false ∧ rounds.Cover (before ++ items.zipIdx index)) ∨
      (d.harsh ∧ (∃ w, i.isCancelled w = true) ∧ ∃ rounds, ended = .ok rounds ∧ rounds.cancelled = true) ∨
      ∃ entry ∈ items.zipIdx index, ∃ scope interrupt,
        roundScope (.text itemVariable) (.text indexVariable) entry.1 entry.2 = .ok scope ∧
        Body (context.derive scope) (.error interrupt) ∧ ended = .error interrupt := by
  induction rounding generalizing before with
  | done => exact .inl ⟨_, rfl, going, by simpa using cover⟩
  | cancelled w harsh cancelled => exact .inr (.inl ⟨harsh, ⟨w, cancelled⟩, _, rfl, rfl⟩)
  | unscoped scopes => cases scopes
  | @interrupted index _ item rest scope interrupt scopes came =>
    exact .inr (.inr ⟨(item, index), List.mem_cons_self, scope, interrupt, scopes, came, rfl⟩)
  | stopped _ _ ends => simp at ends
  | @next index soFar item rest scope result _ _ _ _ _ ih =>
    rcases ih going (cover.recorded index item result) with ⟨rounds, rfl, going, cover⟩ | cancelled |
      ⟨entry, member, interrupted⟩
    · refine .inl ⟨rounds, rfl, going, ?_⟩
      rw [List.zipIdx_cons, List.append_cons]
      exact cover
    · exact .inr (.inl cancelled)
    · exact .inr (.inr ⟨entry, List.mem_cons_of_mem _ member, interrupted⟩)

/-- A loop over items has one round for each of them, unless the work was cancelled, or the pre-check of its body
raises in one of the rounds, and then it is in error. -/
def CoversItems (i : Interpreter σ) (harsh : Prop) (context : Context) (itemVariable indexVariable : String)
    (body : Step) (items : List Value) (r : StepResult) : Prop :=
  (∃ done, r.details = .iterations done false ∧ done.map (fun round => (round.item, round.index)) = items.zipIdx) ∨
    (harsh ∧ (∃ w, i.isCancelled w = true) ∧ ∃ done, r.details = .iterations done true) ∨
    ∃ entry ∈ items.zipIdx, ∃ scope fault,
      roundScope (.text itemVariable) (.text indexVariable) entry.1 entry.2 = .ok scope ∧
      Condition.allHold (context.derive scope).scope body.common.conditions = .error fault ∧
      r = .ofError context.stepIndex (.text fault.message) r.durationMs

/-! ## Steps of every kind -/

/-- What interpreting a step comes to: unless it is cut short, to a result, in which a conditional step nests its
success and a loop covers its items. -/
structure Contains (i : Interpreter σ) (harsh : Prop) (step : Step) (context : Context) (outcome : Outcome) : Prop where
  returns : (harsh ∧ ∃ message, outcome = .error (.cancelled message)) ∨ ∃ r, outcome = .ok r
  nests : ∀ common condition thenStep elseStep r, step = .conditional common condition thenStep elseStep →
    i.policies.conditionalResults = .nest → outcome = .ok r → NestsSuccess context condition thenStep elseStep r
  records : ∀ common items itemVariable indexVariable limit body chosen r,
    step = .loop common items (.text itemVariable) (.text indexVariable) limit (some body) →
    common.stopOnFailure ≠ some true → i.chosenItems context items limit (some body) = .ok chosen → outcome = .ok r →
    i.CoversItems harsh context itemVariable indexVariable body chosen r

/-- What interpreting a step inside another one comes to: only the pre-check raises. -/
def ContainsNested (i : Interpreter σ) (harsh : Prop) (step : Step) (context : Context) (outcome : Outcome) : Prop :=
  match Condition.allHold context.scope step.common.conditions with
  | .error fault => outcome = .error (.fault fault)
  | .ok false => outcome = .ok (.skipped context.stepIndex)
  | .ok true => i.Contains harsh step context outcome

/-- Only a pre-check makes a step inside another one raise. -/
theorem ComesNested.raises {fault : Fault} (comes : i.ComesNested d step context (.error (.fault fault))) :
    Condition.allHold context.scope step.common.conditions = .error fault := by
  rw [comesNested_iff] at comes
  split at comes
  · next raises =>
    cases comes
    exact raises
  · cases comes
  · rw [Comes] at comes
    obtain ⟨_, _, reports⟩ := comes
    cases reports

theorem Comes.contains (comes : i.Comes d step context outcome) : i.Contains d.harsh step context outcome := by
  have bears := comes.bears
  rw [Comes] at comes
  obtain ⟨inner, amounts, reports⟩ := comes
  refine ⟨?_, ?_, ?_⟩
  · cases reports with
    | result => exact .inr ⟨_, rfl⟩
    | fault => exact .inr ⟨_, rfl⟩
    | cancelled message => exact .inl ⟨bears message rfl, message, rfl⟩
  · rintro common condition thenStep elseStep r rfl nests rfl met holds
    rw [Amounts] at amounts
    rcases amounts with ⟨_, raises, _⟩ | ⟨_, _, _, rfl⟩ | ⟨met', branch, chosen, ended, holds', came, rfl⟩
    · cases holds.symm.trans raises
    · cases reports
      exact .inl rfl
    · obtain rfl := Except.ok.inj (holds'.symm.trans holds)
      rcases ended with (fault | message) | result
      · cases reports
        exact .inr ⟨branch, fault, chosen, came.raises, rfl⟩
      · cases reports
      · cases reports
        left
        simp [adoptBranch, nests, finished]
  · rintro common items itemVariable indexVariable limit body chosen r rfl goes chooses rfl
    have stops : common.stopOnFailure.getD false = false := by
      cases policy : common.stopOnFailure with
      | none => rfl
      | some stop =>
        cases stop with
        | false => rfl
        | true => exact absurd policy goes
    rw [Amounts, stops] at amounts
    rcases amounts with ⟨_, fails, _⟩ | ⟨chosen', round, same, ended, chooses', rounding, rfl⟩
    · cases chooses.symm.trans fails
    obtain rfl := Option.some.inj same
    obtain rfl := Except.ok.inj (chooses'.symm.trans chooses)
    have none : Rounds.Cover {} [] := rfl
    rcases rounding.covers rfl none with ⟨rounds, rfl, going, cover⟩ |
      ⟨harsh, cancels, rounds, rfl, cancelled⟩ | ⟨entry, member, scope, interrupt, scopes, came, rfl⟩
    · cases reports
      refine .inl ⟨rounds.done.reverse, ?_, by simpa [Rounds.Cover] using cover⟩
      simp [loopResult, going, finished]
    · cases reports
      refine .inr (.inl ⟨harsh, cancels, rounds.done.reverse, ?_⟩)
      simp [loopResult, cancelled, finished]
    · cases interrupt with
      | cancelled => cases reports
      | fault fault =>
        cases reports
        exact .inr (.inr ⟨entry, member, scope, fault, scopes, came.raises, rfl⟩)

theorem ComesNested.contains (comes : i.ComesNested d step context outcome) :
    i.ContainsNested d.harsh step context outcome := by
  rw [comesNested_iff] at comes
  unfold ContainsNested
  split
  · next raises => rwa [raises] at comes
  · next fails => rwa [fails] at comes
  · next holds =>
    rw [holds] at comes
    exact comes.contains

end Interpreter

/-! ## All that happens around an engine -/

/-- A delay step that waits for a comparison with an integer beyond all floating-point numbers. -/
def beyondNumbers : Step := .delay { conditions := [⟨"x", ">", .int (.ofNat (Nat.pow 10 400))⟩] } (.int 0)

end Runbook
