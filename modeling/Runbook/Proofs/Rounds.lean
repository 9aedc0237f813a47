import Runbook.Proofs.Halting

/-! # A loop goes through its items

A loop has a round for each of its items, in order, up to its limit and, if it stops at failures, up to the first
round that fails. In each of them its body is interpreted in the scope of the loop, with the item and its number
beside what is there; what earlier rounds have published is not. The loop counts its rounds and tells of the first
that failed, and it publishes what the successful ones do, in order, or nothing at all.
-/

namespace Runbook

open Machine Interpreter

variable {σ α β : Type} {service : Service σ} {s : Story service} {t : TaskId} {n n₀ n₁ : Nat} {i : Interpreter σ}
  {context : Context} {items : List Value} {done : List Iteration} {index : Nat} {stops : Bool}

/-! ## Limits -/

theorem Value.exists_atLeastZero {v : Value} {n : Int} (whole : v.integer? = some n) :
    ∃ w : Value, v.atLeastZero = .ok w ∧ w.integer? = some (max n 0) := by
  have compares : v.exceeds (.int 0) = .ok (compare n 0 == .gt) := by
    cases v <;> cases whole <;> rfl
  rw [atLeastZero, compares]
  by_cases above : 0 < n
  · refine ⟨v, ?_, by rw [whole, max_eq_left above.le]⟩
    have gt : (compare n 0 == .gt) = true := by simpa [compare_gt_iff_gt] using above
    rw [gt]
    rfl
  · refine ⟨.int 0, ?_, by rw [max_eq_right (not_lt.mp above)]; rfl⟩
    have gt : (compare n 0 == .gt) = false := by simpa [compare_gt_iff_gt] using above
    rw [gt]
    rfl

theorem Value.frontOf_of_integer {α : Type} (xs : List α) {v : Value} {n : Int} (whole : v.integer? = some n)
    (positive : 0 ≤ n) : Value.frontOf xs v = .ok (xs.take n.toNat) := by
  unfold frontOf
  split
  · cases whole
  · rw [whole]
    simp [not_lt.mpr positive]

namespace Interpreter

/-- The most rounds that a loop has: its own limit unless it has none or zero, else the one that holds for all, and
none at all if that is negative. -/
def roundLimit (own : Option Int) (most : Int) : Nat :=
  (max (if own.getD 0 = 0 then most else own.getD 0) 0).toNat

/-- A loop has recorded rounds, the first of which has a number: one for each of its items, in order, as long as none
fails that it stops at. -/
inductive GoesThrough (stops : Bool) : Nat → List Value → List Iteration → Prop
  | exhausted (index : Nat) : GoesThrough stops index [] []
  | stopped {index : Nat} {item : Value} {items : List Value} {result : StepResult}
      (fails : result.countsAsSuccess = false) (stop : stops = true) :
      GoesThrough stops index (item :: items) [⟨index, item, result⟩]
  | next {index : Nat} {item : Value} {items : List Value} {result : StepResult} {done : List Iteration}
      (goes : stops = true → result.countsAsSuccess = true) (later : GoesThrough stops (index + 1) items done) :
      GoesThrough stops index (item :: items) (⟨index, item, result⟩ :: done)

namespace GoesThrough

theorem numbered (through : GoesThrough stops index items done) :
    done.map (fun round => (round.item, round.index)) = (items.take done.length).zipIdx index := by
  induction through with
  | exhausted => rfl
  | stopped => rfl
  | next _ _ ih => simp [List.zipIdx_cons, ih]

theorem length_le (through : GoesThrough stops index items done) : done.length ≤ items.length := by
  induction through with
  | exhausted => exact Nat.le_refl _
  | stopped => simp
  | next _ _ ih => exact Nat.succ_le_succ ih

/-- Unless a round fails that the loop stops at, there is one for each item. -/
theorem length_eq (through : GoesThrough stops index items done)
    (goes : stops = true → ∀ round ∈ done, round.result.countsAsSuccess = true) : done.length = items.length := by
  induction through with
  | exhausted => rfl
  | stopped fails stop => cases fails.symm.trans (goes stop _ (.head _))
  | next _ _ ih => exact congrArg (· + 1) (ih fun stop round member => goes stop round (.tail _ member))

/-- No round comes after one that fails if the loop stops there. -/
theorem before_last (through : GoesThrough stops index items done) (stop : stops = true) :
    ∀ round ∈ done.dropLast, round.result.countsAsSuccess = true := by
  induction through with
  | exhausted => exact List.forall_mem_nil _
  | stopped => exact List.forall_mem_nil _
  | @next index item items result done goes later ih =>
    cases done with
    | nil => exact List.forall_mem_nil _
    | cons round done => exact List.forall_mem_cons.mpr ⟨goes stop, ih⟩

end GoesThrough

/-- The rounds that have been run and some more. -/
def recordAll (i : Interpreter σ) (soFar : Rounds) (done : List Iteration) : Rounds :=
  done.foldl (fun soFar round => i.recorded soFar round.index round.item round.result) soFar

/-- What a loop publishes after its rounds: nothing, or what the successful ones do, where a later one prevails. -/
def publishedBy (i : Interpreter σ) (done : List Iteration) : Entries :=
  match i.policies.loopOutputs with
  | .isolate => []
  | .propagate => (done.filter (·.result.success)).foldl (fun outputs round => outputs.merge round.result.outputs) []

theorem recordAll_done (soFar : Rounds) (done : List Iteration) :
    (i.recordAll soFar done).done = done.reverse ++ soFar.done := by
  induction done generalizing soFar with
  | nil => rfl
  | cons round done ih =>
    obtain ⟨index, item, result⟩ := round
    refine (ih _).trans ?_
    rw [List.reverse_cons, List.append_assoc]
    rfl

theorem recordAll_cancelled (soFar : Rounds) (done : List Iteration) :
    (i.recordAll soFar done).cancelled = soFar.cancelled := by
  induction done generalizing soFar with
  | nil => rfl
  | cons round done ih => exact ih _

theorem recordAll_outputs_of_isolate (policy : i.policies.loopOutputs = .isolate) (soFar : Rounds)
    (done : List Iteration) : (i.recordAll soFar done).outputs = soFar.outputs := by
  induction done generalizing soFar with
  | nil => rfl
  | cons round done ih =>
    refine (ih _).trans ?_
    simp [recorded, policy, Entries.merge]

theorem recordAll_outputs_of_propagate (policy : i.policies.loopOutputs = .propagate) (soFar : Rounds)
    (done : List Iteration) : (i.recordAll soFar done).outputs = (done.filter (·.result.success)).foldl
      (fun outputs round => outputs.merge round.result.outputs) soFar.outputs := by
  induction done generalizing soFar with
  | nil => rfl
  | cons round done ih =>
    refine (ih _).trans ?_
    cases success : round.result.success <;> simp [recorded, policy, success, Entries.merge]

theorem recordAll_outputs (done : List Iteration) : (i.recordAll {} done).outputs = i.publishedBy done := by
  unfold publishedBy
  split
  · next policy => exact recordAll_outputs_of_isolate policy {} done
  · next policy => exact recordAll_outputs_of_propagate policy {} done

/-- What a loop over items makes of the rounds that it has recorded. -/
structure Sums (i : Interpreter σ) (stops : Bool) (items : List Value) (done : List Iteration) (r : StepResult) :
    Prop where
  /-- The rounds are those of the first items, each with its number. -/
  numbered : done.map (fun round => (round.item, round.index)) = (items.take done.length).zipIdx
  /-- None is left out unless a round failed that the loop stops at. -/
  all : (stops = true → ∀ round ∈ done, round.result.countsAsSuccess = true) → done.length = items.length
  length_le : done.length ≤ items.length
  /-- Such a round is the last one. -/
  before_last : stops = true → ∀ round ∈ done.dropLast, round.result.countsAsSuccess = true
  details : r.details = .iterations done false
  total : r.details.fields.get? "total_iterations" = some (.int done.length)
  success : r.success = true ↔ ∀ round ∈ done, round.result.countsAsSuccess = true
  status : r.status = if r.success then .completed else .failed
  /-- The error names the first round that failed. -/
  error : r.error = match done.find? (!·.result.countsAsSuccess) with
    | none => .null
    | some round => .text ("Iteration " ++ Number.intText round.index ++ ": " ++ round.result.error.toText)
  outputs : r.outputs = i.publishedBy done

theorem GoesThrough.sums (through : GoesThrough stops 0 items done) (durationMs : Int) :
    i.Sums stops items done { loopResult context (i.recordAll {} done) with durationMs } := by
  have recorded : (i.recordAll {} done).done.reverse = done := by
    rw [recordAll_done, List.append_nil, List.reverse_reverse]
  have going : (i.recordAll {} done).cancelled = false := recordAll_cancelled _ _
  have result : loopResult context (i.recordAll {} done) =
      finished context (done.find? (!·.result.countsAsSuccess)).isNone (.iterations done false) (i.publishedBy done)
        (match done.find? (!·.result.countsAsSuccess) with
          | none => .null
          | some round =>
            .text ("Iteration " ++ Number.intText round.index ++ ": " ++ round.result.error.toText)) := by
    rw [loopResult, going, recorded, recordAll_outputs]
    rfl
  rw [result]
  exact
    { numbered := through.numbered
      all := through.length_eq
      length_le := through.length_le
      before_last := through.before_last
      details := rfl
      total := rfl
      success := by simp [finished]
      status := rfl
      error := rfl
      outputs := rfl }

end Interpreter

/-! ## The course of the rounds -/

namespace Story

variable {itemVariable indexVariable : Value} {body : Context → Attempt σ StepResult} {soFar : Rounds}
  {deeds deeds' : List Deed}

theorem Runs.whole {p : Routine σ α} {f : α → Routine σ β} {rest : β → Routine σ Unit}
    (runs : s.Runs t (p.bind fun a => (f a).bind rest) n) : s.Runs t ((p.bind f).bind rest) n := by
  rwa [Routine.bind_bind]

/-- Whoever has come to the end of one routine and goes on with another has done so in the one after the other. -/
theorem Follows.andThen {rest : α → Routine σ Unit} {p : Routine σ β} {f : β → Routine σ α} {b : β} {q : Routine σ α}
    (first : s.Follows t (fun b => (f b).bind rest) p n₀ deeds (.done b) n₁)
    (second : s.Follows t rest (f b) n₁ deeds' q n) : s.Follows t rest (p.bind f) n₀ (deeds ++ deeds') q n := by
  generalize after : (fun b => (f b).bind rest) = rest' at first
  generalize ends : Routine.done b = e at first
  induction first with
  | here => subst ends; exact second
  | act runs _ ih =>
    subst after
    exact .act (Runs.whole runs) (ih second rfl ends)
  | @call _ _ errand k _ answer inner _ n n₁ _ runs serves _ _ ih =>
    subst after
    have serves : s.Follows t (fun answer => ((k answer).bind f).bind rest) (service errand) (n + 1) inner
        (.done answer) n₁ := by simpa only [Routine.bind_bind] using serves
    exact .call (Runs.whole runs) serves (ih second rfl ends)
  | spawn runs _ ih =>
    subst after
    exact .spawn (Runs.whole runs) (ih second rfl ends)
  | goesOn runs immediate _ ih =>
    subst after
    exact .goesOn (Runs.whole runs) immediate (ih second rfl ends)
  | waits runs suspends later away _ ih =>
    subst after
    exact .waits (Runs.whole runs) suspends later away (ih second rfl ends)

/-- What a timed attempt ends in tells what the attempt did. -/
theorem Follows.timed_done {time : Timeline} (punctual : s.Punctual time) {rest : Outcome → Routine σ Unit}
    {attempt : Attempt σ StepResult} {outcome : Outcome}
    (follows : s.Follows t rest (ExceptT.run (Interpreter.timed context attempt)) n₀ deeds (.done outcome) n) :
    ∃ rest' others inner n₁, s.Follows t rest' (ExceptT.run attempt) (n₀ + 1) others (.done inner) n₁ ∧ n₁ ≤ n ∧
      Reports context inner outcome := by
  rw [run_timed] at follows
  cases follows with
  | act runs later =>
    rcases later.bind with ⟨left, _, same, ongoing⟩ | ⟨inner, n₁, first, second, begins, ends, rfl⟩
    · exact absurd same.symm (Routine.bind_ne_done ongoing _)
    refine ⟨_, _, inner, n₁, begins, ends.le, ?_⟩
    have seen : ((.done outcome : Routine σ Outcome), s.world n) =
        (timing context (s.world n₀).agenda.now inner).ahead (s.world n) := by
      rcases inner with (fault | message) | r
      · exact ends.look.2
      · obtain ⟨-, same, -⟩ := ends.of_done
        rw [same]
        rfl
      · exact ends.look.2
    obtain ⟨ms, told⟩ := time.tellable _ _ (punctual n₀) (punctual n)
    rcases inner with (fault | message) | r
    · simp only [timing, stamp, Routine.ahead, told] at seen
      cases seen
      exact .fault fault ms
    · cases seen
      exact .cancelled message
    · simp only [timing, stamp, Routine.ahead, told] at seen
      cases seen
      exact .result r ms

/-- A step inside another one raises only what its pre-check does. -/
theorem Follows.raises {time : Timeline} (punctual : s.Punctual time) {rest : Outcome → Routine σ Unit} {step : Step}
    {fault : Fault} (follows : s.Follows t rest (ExceptT.run (i.interpretNested step context)) n₀ deeds
      (.done (.error (.fault fault))) n) :
    Condition.allHold context.scope step.common.conditions = .error fault := by
  rw [interpretNested, checked] at follows
  rcases verdict : Condition.allHold context.scope step.common.conditions with raised | _ | _
  · rw [verdict] at follows
    cases (Follows.of_done (a := (.error (.fault raised) : Outcome)) follows).2.1
    rfl
  · rw [verdict] at follows
    cases (Follows.of_done (a := (.ok (.skipped context.stepIndex) : Outcome)) follows).2.1
  · obtain ⟨attempt, timed⟩ := i.exists_timed step context
    rw [verdict] at follows
    change s.Follows t rest (ExceptT.run (i.interpret step context)) n₀ deeds _ n at follows
    rw [timed] at follows
    obtain ⟨_, _, _, _, _, _, reports⟩ := follows.timed_done punctual
    cases reports

/-! ## Routines that come to an end -/

/-- Whenever the task comes to run the routine, it comes to the end of it. -/
def Ends (s : Story service) (t : TaskId) (p : Routine σ α) : Prop :=
  ∀ rest n, s.Runs t (p.bind rest) n → ∃ deeds a n', s.Follows t rest p n deeds (.done a) n'

namespace Ends

theorem atOnce (a : α) : s.Ends t (.done a) := fun _ n runs => ⟨[], a, n, .here runs⟩

theorem act {f : World σ → β × World σ} {k : β → Routine σ α} (ends : ∀ b, s.Ends t (k b)) :
    s.Ends t (.act f k) := by
  intro rest n runs
  obtain ⟨deeds, a, n', follows⟩ := ends _ rest _ runs.act.1
  exact ⟨_, a, n', .act runs follows⟩

theorem bind {p : Routine σ β} {f : β → Routine σ α} (first : s.Ends t p) (second : ∀ b, s.Ends t (f b)) :
    s.Ends t (p.bind f) := by
  intro rest n runs
  obtain ⟨deeds, b, n₁, begins⟩ := first _ n runs.assoc
  obtain ⟨deeds', a, n', goesOn⟩ := second b rest n₁ begins.left
  exact ⟨_, a, n', begins.andThen goesOn⟩

theorem stamp (started : Float) (r : StepResult) : s.Ends t (Interpreter.stamp started r) :=
  .act fun _ => .atOnce _

theorem timed {attempt : Attempt σ StepResult} (ends : s.Ends t (ExceptT.run attempt)) :
    s.Ends t (ExceptT.run (Interpreter.timed context attempt)) := by
  rw [run_timed]
  refine .act fun started => ends.bind fun outcome => ?_
  rcases outcome with (fault | message) | r
  · exact stamp _ _
  · exact .atOnce _
  · exact stamp _ _

/-- The rounds of a loop come to an end if its body does in each of them. -/
theorem rounds (ends : ∀ scope, s.Ends t (ExceptT.run (body (context.derive scope)))) (items : List Value) (index : Nat)
    (soFar : Rounds) :
    s.Ends t (ExceptT.run (i.rounds itemVariable indexVariable stops context body index soFar items)) := by
  induction items generalizing index soFar with
  | nil => exact .atOnce (.ok soFar : Except Interrupt Rounds)
  | cons item items ih =>
    rw [run_rounds_cons]
    refine .act fun cancelled => ?_
    split
    · exact .atOnce _
    refine .act fun _ => ?_
    cases roundScope itemVariable indexVariable item index with
    | error fault => exact .atOnce _
    | ok scope =>
      refine (ends scope).bind fun outcome => ?_
      cases outcome with
      | error interrupt => exact .atOnce _
      | ok result =>
        rw [roundsAfter]
        split
        · exact .atOnce _
        · exact ih _ _

end Ends

end Story

/-! ## Loops -/

/-- The one tool there is tells what it was given, and fails if that is two. -/
def pickyService : Service Unit
  | .tool _ parameters => .done (.ok (Value.record
      [("success", .bool !((parameters.getD "n").equal (.int 2))), ("seen", parameters.getD "n")]))
  | .observer .. => .done (.ok .null)

/-- An interpreter whose loops publish what their rounds do. -/
def propagating : Interpreter Unit where
  policies := { loopOutputs := .propagate }
  authority := { knows := fun _ memory => (true, memory) }
  isCancelled _ := false

def pickyBody : Step := .tool {} "pick" [(.text "n", .text "\x7b\x7bitem\x7d\x7d")] [(.text "last", .text "seen")]

end Runbook
