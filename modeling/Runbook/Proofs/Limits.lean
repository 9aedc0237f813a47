import Runbook.Proofs.Rounds

/-! # A loop keeps to its limit

A task that takes up a loop begins one round of it after the other, and it never begins more of them than the limit
of the loop lets it, whatever its items are, whatever comes of its body, and wherever it is interrupted. A limit of
its own prevails over the one that the interpreter has for all loops, and a negative one lets no round begin. But a
limit of zero is none: a loop that has it is the same as one that sets no limit.
-/

namespace Runbook

open Machine Interpreter

variable {σ : Type} {service : Service σ} {s : Story service} {t : TaskId} {n n₀ n₁ count index : Nat}
  {i : Interpreter σ} {context : Context} {deeds : List Story.Deed}

/-! ## What limits a loop -/

/-- Whatever a limit is clamped to, no more is cut off a list than the limit says as an integer, and nothing at all
if it is none. -/
theorem Value.length_frontOf_le {α : Type} {xs front : List α} {v w : Value} (clamps : v.atLeastZero = .ok w)
    (cuts : Value.frontOf xs w = .ok front) : front.length ≤ (v.integer?.getD 0).toNat := by
  cases whole : v.integer? with
  | some most =>
    obtain ⟨w', same, integer⟩ := Value.exists_atLeastZero whole
    obtain rfl := Except.ok.inj (clamps.symm.trans same)
    rw [Value.frontOf_of_integer xs integer (le_max_right _ _)] at cuts
    obtain rfl := Except.ok.inj cuts
    have taken := List.length_take_le (max most 0).toNat xs
    simp only [Option.getD_some]
    omega
  | none =>
    cases v with
    | float x =>
      -- A floating-point number is no bound of a list, so it has been clamped to zero.
      rw [atLeastZero] at clamps
      cases above : (Value.float x).exceeds (.int 0) with
      | error => simp [above, bind, Except.bind] at clamps
      | ok exceeds =>
        cases exceeds with
        | true =>
          simp [above, bind, Except.bind, pure, Except.pure] at clamps
          subst clamps
          cases cuts
        | false =>
          simp [above, bind, Except.bind, pure, Except.pure] at clamps
          subst clamps
          simp [frontOf, integer?] at cuts
          simp [← cuts]
    | bool | int => cases whole
    | _ => cases clamps

namespace Interpreter

/-- What limits a loop is its own limit, or the one for all loops if that is an integer. -/
theorem loopLimit_eq (i : Interpreter σ) (own : Option Int) : ∃ v : Value, i.loopLimit own = v.atLeastZero ∧
    (v.integer?.getD 0).toNat = roundLimit own (i.policies.maxIterations.integer?.getD 0) := by
  have clamped (n : Int) : n.toNat = (max n 0).toNat := by omega
  rcases own with _ | n
  · exact ⟨_, rfl, clamped _⟩
  · by_cases zero : n = 0
    · subst zero
      exact ⟨_, rfl, clamped _⟩
    · refine ⟨.int n, ?_, ?_⟩
      · have truthy : (Value.int n).truthy = true := by simpa [Value.truthy] using zero
        simp [loopLimit, Value.orElse, truthy]
      · simp only [roundLimit, Option.getD_some, if_neg zero, ← clamped, Value.integer?]

/-- A loop goes over no more items than it may have rounds. -/
theorem length_chosen_le {items : Value} {own : Option Int} {body : Option Step} {chosen : List Value}
    (chooses : i.chosenItems context items own body = .ok chosen) :
    chosen.length ≤ roundLimit own (i.policies.maxIterations.integer?.getD 0) := by
  obtain ⟨v, limits, bound⟩ := i.loopLimit_eq own
  rw [chosenItems] at chooses
  cases lists : loopItems (items.resolve context.scope) with
  | error => simp [lists, bind, Except.bind] at chooses
  | ok listed =>
    cases body with
    | none => simp [lists, bind, Except.bind, throw, throwThe, MonadExceptOf.throw] at chooses
    | some body =>
      cases clamps : v.atLeastZero with
      | error => simp [lists, limits, clamps, bind, Except.bind] at chooses
      | ok w =>
        rw [← bound]
        have cuts : Value.frontOf listed w = .ok chosen := by
          simpa [lists, limits, clamps, bind, Except.bind] using chooses
        exact Value.length_frontOf_le clamps cuts

/-- A loop that can choose no items is timed as well, and comes to a fault at once. -/
theorem interpret_unchosen {items : Value} {limit : Option Int} {body : Step} {fault : Fault}
    (refuses : i.chosenItems context items limit (some body) = .error fault) (common : Step.Common)
    (itemVariable indexVariable : Value) :
    ∃ attempt, i.interpret (.loop common items itemVariable indexVariable limit (some body)) context =
        timed context attempt ∧ ExceptT.run attempt = .done (.error (.fault fault)) := by
  refine ⟨_, by rw [interpret], ?_⟩
  rw [chosenItems] at refuses
  cases lists : loopItems (items.resolve context.scope) with
  | error =>
    simp only [lists, bind, Except.bind, Except.error.injEq] at refuses
    subst refuses
    rfl
  | ok listed =>
    cases limits : i.loopLimit limit with
    | error =>
      simp only [lists, limits, bind, Except.bind, Except.error.injEq] at refuses
      subst refuses
      rfl
    | ok most =>
      have cuts : Value.frontOf listed most = .error fault := by simpa [lists, limits, bind, Except.bind] using refuses
      change ExceptT.run (Attempt.ofExcept (Value.frontOf listed most) >>= _) = _
      rw [cuts]
      rfl

/-- Zero is no limit of a loop. -/
theorem interpret_loop_zero (i : Interpreter σ) (common : Step.Common) (items itemVariable indexVariable : Value)
    (body : Option Step) (context : Context) :
    i.interpret (.loop common items itemVariable indexVariable (some 0) body) context =
      i.interpret (.loop common items itemVariable indexVariable none body) context := by
  rw [interpret, interpret]
  rfl

end Interpreter

/-! ## Rounds that have been begun -/

namespace Story

section Begun

variable (s : Story service) (i : Interpreter σ) (t : TaskId) (context : Context) (itemVariable indexVariable : Value)
  (body : Context → Attempt σ StepResult)

/-- How many rounds of a loop a task has begun by a moment, the first of which has number `index`, if it has had to
do with the rounds since `n₀`. One round has followed the other ever since, but for the moments in which the task
looks whether to begin the next one and notes that it does. -/
inductive RoundsBegun (index n₀ n : Nat) : Nat → Prop
  /-- It has been through all of them. -/
  | between {laps : List Lap} {n₁ : Nat}
      (through : Laps s i t context itemVariable indexVariable body index n₀ laps n₁) (since : n₁ ≤ n)
      (soon : n ≤ n₁ + 2) : RoundsBegun index n₀ n laps.length
  /-- It is in the body of the latest one, or this has just been interrupted. -/
  | within {laps : List Lap} {n₁ : Nat} {item : Value} {left : Routine σ Outcome}
      (through : Laps s i t context itemVariable indexVariable body index n₀ laps n₁)
      (begins : Begins s i t context itemVariable indexVariable body (index + laps.length) item n₁ left n) :
      RoundsBegun index n₀ n (laps.length + 1)

/-- How many rounds of a loop a task has begun by a moment that took up the loop at `n₀`: none yet when it has not
read the clock, and no more when it reads the clock again at the end. -/
inductive HasBegun (n₀ : Nat) : Nat → Nat → Prop
  | fresh : HasBegun n₀ n₀ 0
  | rounds {n n₁ count : Nat} (begun : RoundsBegun s i t context itemVariable indexVariable body 0 (n₀ + 1) n₁ count)
      (since : n₁ ≤ n) (soon : n ≤ n₁ + 1) : HasBegun n₀ n count

end Begun

variable {itemVariable indexVariable : Value} {body : Context → Attempt σ StepResult} {stops : Bool} {soFar : Rounds}
  {items : List Value}

/-- A round comes before those that are begun after it. -/
theorem RoundsBegun.cons {item : Value} {result : StepResult}
    (begins : s.Begins i t context itemVariable indexVariable body index item n₀ (.done (.ok result)) n₁)
    (later : s.RoundsBegun i t context itemVariable indexVariable body (index + 1) n₁ n count) :
    s.RoundsBegun i t context itemVariable indexVariable body index n₀ n (count + 1) := by
  cases later with
  | between through since soon => exact .between (.lap begins through) since soon
  | within through begins' =>
    rw [Nat.add_right_comm] at begins'
    exact .within (.lap begins through) begins'

/-- The rounds of a loop over items are no more than the items, and are all recorded. -/
theorem Follows.roundsBegun {rest : Except Interrupt Rounds → Routine σ Unit} {q : Routine σ (Except Interrupt Rounds)}
    (follows : s.Follows t rest
      (ExceptT.run (i.rounds itemVariable indexVariable stops context body index soFar items)) n₀ deeds q n) :
    ∃ count, s.RoundsBegun i t context itemVariable indexVariable body index n₀ n count ∧ count ≤ items.length ∧
      ∀ last, q = .done (.ok last) → last.done.length = soFar.done.length + count := by
  induction items generalizing index soFar n₀ deeds with
  | nil =>
    obtain ⟨-, rfl, rfl⟩ := Follows.of_done (a := (.ok soFar : Except Interrupt Rounds)) follows
    exact ⟨0, .between (.none _ _) (Nat.le_refl _) (by omega), Nat.zero_le _, by rintro _ ⟨⟩; rfl⟩
  | cons item items ih =>
    have one : 1 ≤ (item :: items).length := Nat.succ_le_succ (Nat.zero_le _)
    have none (since : n₀ ≤ n) (soon : n ≤ n₀ + 2)
        (ends : ∀ last, q = .done (.ok last) → last.done.length = soFar.done.length) : ∃ count,
        s.RoundsBegun i t context itemVariable indexVariable body index n₀ n count ∧ count ≤ (item :: items).length ∧
          ∀ last, q = .done (.ok last) → last.done.length = soFar.done.length + count :=
      ⟨0, .between (.none _ _) since soon, Nat.zero_le _, ends⟩
    cases follows.round with
    | here =>
      refine none (Nat.le_refl _) (by omega) fun _ same => ?_
      rw [run_rounds_cons] at same
      cases same
    | stopped => exact none (by omega) (by omega) (by rintro _ ⟨⟩; rfl)
    | cleared _ _ ongoing => exact none (by omega) (by omega) fun _ same => absurd same (ongoing _)
    | unfit => exact none (by omega) (Nat.le_refl _) fun _ same => nomatch same
    | within begins ongoing =>
      exact ⟨1, .within (.none _ _) begins, one, fun _ same => absurd same (Routine.bind_ne_done ongoing _)⟩
    | @after came _ _ n₁ _ begins goes =>
      rcases came with interrupt | result
      · obtain ⟨-, rfl, rfl⟩ := goes.of_done
        exact ⟨1, .within (.none _ _) begins, one, fun _ same => nomatch same⟩
      · rw [roundsAfter] at goes
        split at goes
        · obtain ⟨-, rfl, rfl⟩ := goes.of_done
          exact ⟨1, .between (.lap begins (.none _ _)) (Nat.le_refl _) (by omega), one, by rintro _ ⟨⟩; rfl⟩
        · obtain ⟨count, begun, bound, ends⟩ := ih goes
          refine ⟨count + 1, begun.cons begins, Nat.succ_le_succ bound, fun last same => ?_⟩
          rw [ends last same, recorded, List.length_cons]
          omega

/-- After a timed attempt there is at most the clock to be read. -/
theorem Follows.timing {rest : Outcome → Routine σ Unit} {started : Float} {outcome : Outcome} {q : Routine σ Outcome}
    (follows : s.Follows t rest (Interpreter.timing context started outcome) n₀ deeds q n) :
    n ≤ n₀ + 1 ∧ ∀ r, q = .done (.ok r) → Reports context outcome (.ok r) := by
  have stamped {inner : StepResult} (follows : s.Follows t rest (stamp started inner) n₀ deeds q n) :
      n ≤ n₀ + 1 ∧ ∀ r, q = .done (.ok r) → ∃ durationMs, r = { inner with durationMs } := by
    cases follows with
    | here => exact ⟨Nat.le_succ _, fun _ same => nomatch same⟩
    | act _ later =>
      obtain ⟨-, rfl, rfl⟩ := later.of_done
      refine ⟨Nat.le_refl _, fun r same => ?_⟩
      cases told : Execution.milliseconds ((s.world n₀).agenda.now - started) with
      | error => simp [told, Except.map, Except.mapError] at same
      | ok ms =>
        simp only [told, Except.map, Except.mapError, Routine.done.injEq, Except.ok.injEq] at same
        exact ⟨ms, same.symm⟩
  rcases outcome with (fault | message) | inner
  · obtain ⟨soon, ends⟩ := stamped follows
    refine ⟨soon, fun r same => ?_⟩
    obtain ⟨ms, rfl⟩ := ends r same
    exact .fault fault ms
  · obtain ⟨-, rfl, rfl⟩ := follows.of_done
    exact ⟨Nat.le_succ _, fun _ same => nomatch same⟩
  · obtain ⟨soon, ends⟩ := stamped follows
    refine ⟨soon, fun r same => ?_⟩
    obtain ⟨ms, rfl⟩ := ends r same
    exact .result inner ms

/-- A loop tells of as many rounds, or of none because it comes to a fault. -/
def Tells (r : StepResult) (count : Nat) : Prop :=
  r.details = .nothing ∨ ∃ done cancelled, r.details = .iterations done cancelled ∧ done.length = count

/-- A task that takes up a loop begins no more rounds than the limit says. -/
theorem Follows.hasBegun {rest : Outcome → Routine σ Unit} {q : Routine σ Outcome} {common : Step.Common}
    {items itemVariable indexVariable : Value} {own : Option Int} {body : Step}
    (follows : s.Follows t rest (ExceptT.run
      (i.interpret (.loop common items itemVariable indexVariable own (some body)) context)) n₀ deeds q n) :
    ∃ count, s.HasBegun i t context itemVariable indexVariable (i.interpretNested body) n₀ n count ∧
      count ≤ roundLimit own (i.policies.maxIterations.integer?.getD 0) ∧
      ∀ r, q = .done (.ok r) → Tells r count := by
  cases chooses : i.chosenItems context items own (some body) with
  | error fault =>
    obtain ⟨attempt, whole, run⟩ := interpret_unchosen chooses common itemVariable indexVariable
    rw [whole, run_timed, run] at follows
    cases follows with
    | here => exact ⟨0, .fresh, Nat.zero_le _, fun _ same => nomatch same⟩
    | act _ later =>
      obtain ⟨soon, ends⟩ := later.timing
      refine ⟨0, .rounds (.between (.none _ _) (Nat.le_refl _) (Nat.le_add_right _ _)) later.le soon, Nat.zero_le _, ?_⟩
      intro r same
      cases ends r same
      exact .inl rfl
  | ok chosen =>
    obtain ⟨attempt, whole, run⟩ := interpret_loop chooses common itemVariable indexVariable
    have bound := length_chosen_le chooses
    rw [whole, run_timed, run] at follows
    cases follows with
    | here => exact ⟨0, .fresh, Nat.zero_le _, fun _ same => nomatch same⟩
    | act _ later =>
      rcases later.bind with ⟨_, runs, rfl, ongoing⟩ | ⟨outcome, n₁, _, _, runs, goes, -⟩
      · obtain ⟨_, through, -⟩ := runs.bind_done
        obtain ⟨count, begun, within, -⟩ := through.roundsBegun
        exact ⟨count, .rounds begun (Nat.le_refl _) (Nat.le_succ _), within.trans bound,
          fun _ same => absurd same (Routine.bind_ne_done ongoing _)⟩
      · obtain ⟨left, through, came⟩ := runs.bind_done
        obtain ⟨count, begun, within, recorded⟩ := through.roundsBegun
        obtain ⟨soon, ends⟩ := goes.timing
        refine ⟨count, .rounds begun goes.le soon, within.trans bound, fun r same => ?_⟩
        have reports := ends r same
        obtain ⟨inner, rfl⟩ : ∃ inner, left = .done inner := by
          by_contra ongoing
          exact Routine.bind_ne_done (not_exists.mp ongoing) _ came.symm
        cases came
        cases inner with
        | error interrupt =>
          cases reports
          exact .inl rfl
        | ok last =>
          cases reports
          refine .inr ⟨_, _, loopResult_details context last, ?_⟩
          rw [List.length_reverse, recorded last rfl]
          exact Nat.zero_add count

end Story

/-- Wherever a task is that took up a loop with a limit of its own, it has begun no more rounds than the limit says
unless this is zero, whatever the interpreter's limit for all loops is, and the result of the loop tells of as many
rounds. A loop whose own limit is zero is one without such a limit: it is the interpreter's limit that holds for
it. -/
theorem loop_keeps_to_limit (i : Interpreter σ) (s : Story service) (common : Step.Common)
    (items itemVariable indexVariable : Value) (limit : Int) (body : Step) (context : Context) :
    (∀ t rest n₀ deeds q n, s.Follows t rest (ExceptT.run
        (i.interpret (.loop common items itemVariable indexVariable (some limit) (some body)) context)) n₀ deeds q n →
      ∃ count, s.HasBegun i t context itemVariable indexVariable (i.interpretNested body) n₀ n count ∧
        (limit ≠ 0 → count ≤ (max 0 limit).toNat) ∧
        (limit = 0 → count ≤ (max 0 (i.policies.maxIterations.integer?.getD 0)).toNat) ∧
        ∀ r, q = .done (.ok r) → Story.Tells r count) ∧
    i.interpret (.loop common items itemVariable indexVariable (some 0) (some body)) context =
      i.interpret (.loop common items itemVariable indexVariable none (some body)) context := by
  refine ⟨fun t rest n₀ deeds q n follows => ?_, interpret_loop_zero i common items _ _ _ context⟩
  obtain ⟨count, begun, bound, tells⟩ := follows.hasBegun
  refine ⟨count, begun, fun other => ?_, fun zero => ?_, tells⟩
  · rwa [roundLimit, Option.getD_some, if_neg other, max_comm] at bound
  · rwa [roundLimit, Option.getD_some, if_pos zero, max_comm] at bound

/-! ## A limit that holds and one that does not -/

/-- Someone has the tool look at three numbers, with a limit. -/
def limitedLoop (limit : Int) : Step :=
  .loop {} (.list [.int 1, .int 2, .int 3]) (.text "item") (.text "index") (some limit) (some pickyBody)

def limitedStory (limit : Int) : Story pickyService :=
  .unattended _ ((blank () {}).launch (interpreting (propagating.interpret (limitedLoop limit) stoppedContext))).1

/-- The loop comes to a result that tells of a number of rounds, if it is seen to. -/
theorem limitedLoop_follows (limit : Int) (total : Nat)
    (tells : (((limitedStory limit).machine 1).trace pickyService 0 100 1
      (ExceptT.run (propagating.interpret (limitedLoop limit) stoppedContext))).any (fun reached => isResult
        (fun r => (r.details.fields.getD "total_iterations").integer? == some (total : Int)) reached.2.1) = true)
    (runs : (limitedStory limit).Runs 0 ((ExceptT.run
      (propagating.interpret (limitedLoop limit) stoppedContext)).bind fun outcome => .change (leave 0 outcome)) 1) :
    ∃ deeds r n, (limitedStory limit).Follows 0 (fun outcome => .change (leave 0 outcome))
        (ExceptT.run (propagating.interpret (limitedLoop limit) stoppedContext)) 1 deeds (.done (.ok r)) n ∧
      ∀ count, Story.Tells r count → count = total := by
  obtain ⟨deeds, outcome, n, follows, passed⟩ := Story.exists_follows 100 (fun _ outcome _ => isResult
    (fun r => (r.details.fields.getD "total_iterations").integer? == some (total : Int)) outcome) runs tells
  rcases outcome with interrupt | r
  · cases passed
  refine ⟨deeds, r, n, follows, fun count told => ?_⟩
  simp only [isResult, beq_iff_eq] at passed
  rcases told with nothing | ⟨done, cancelled, details, rfl⟩
  · rw [nothing] at passed
    cases passed
  · rw [details] at passed
    exact Int.ofNat_inj.mp (Option.some.inj passed)

/-- A loop whose limit is zero goes over all of its items. -/
theorem zero_limit_ignored : ∃ deeds r n,
    (limitedStory 0).Follows 0 (fun outcome => .change (leave 0 outcome))
      (ExceptT.run (propagating.interpret (limitedLoop 0) stoppedContext)) 1 deeds (.done (.ok r)) n ∧
    (limitedStory 0).HasBegun propagating 0 stoppedContext (.text "item") (.text "index")
      (propagating.interpretNested pickyBody) 1 n 3 ∧ ¬3 ≤ (max 0 0 : Int).toNat := by
  obtain ⟨deeds, r, n, follows, counts⟩ := limitedLoop_follows 0 3 (by decide +kernel) rfl
  obtain ⟨count, begun, -, tells⟩ := follows.hasBegun
  obtain rfl := counts count (tells r rfl)
  exact ⟨deeds, r, n, follows, begun, by decide⟩

/-- A loop whose limit is two has two rounds, although it has three items. -/
theorem limit_of_two_kept : ∃ deeds r n,
    (limitedStory 2).Follows 0 (fun outcome => .change (leave 0 outcome))
      (ExceptT.run (propagating.interpret (limitedLoop 2) stoppedContext)) 1 deeds (.done (.ok r)) n ∧
    (limitedStory 2).HasBegun propagating 0 stoppedContext (.text "item") (.text "index")
      (propagating.interpretNested pickyBody) 1 n 2 ∧ 2 ≤ (max 0 2 : Int).toNat := by
  obtain ⟨deeds, r, n, follows, counts⟩ := limitedLoop_follows 2 2 (by decide +kernel) rfl
  obtain ⟨count, begun, bound, -, tells⟩ := (loop_keeps_to_limit propagating (limitedStory 2) {}
    (.list [.int 1, .int 2, .int 3]) (.text "item") (.text "index") 2 pickyBody stoppedContext).1 _ _ _ _ _ _ follows
  obtain rfl := counts count (tells r rfl)
  exact ⟨deeds, r, n, follows, begun, bound (by decide)⟩

end Runbook
