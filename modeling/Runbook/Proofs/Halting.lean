import Runbook.Proofs.Abiding
import Runbook.Proofs.Company
import Runbook.Proofs.Story

/-! # Loops stop when what they work for is cancelled

Before each of its rounds a loop looks whether it is to stop, wherever it stands in a step: inside other loops, in
branches of conditional steps, and in tasks of parallel steps. Nothing comes between the look and the beginning of
the round. So once the test holds for good, no round begins any more, and a loop that had some left fails as soon as
the round that it is in has ended, with the rounds that it had begun among its details.
-/

namespace Runbook

open Machine Interpreter

variable {σ α : Type} {service : Service σ} {s : Story service} {t : TaskId} {n n₀ : Nat} {i : Interpreter σ}
  {context : Context}

/-! ## Rounds begin after a look -/

/-- A round of a loop begins. -/
def World.BeginsRound (w w' : World σ) : Prop :=
  ∃ execution stepIndex round, w'.journal = .iterated execution stepIndex round :: w.journal

/-- A round begins only where a test fails, and nothing comes between two acts of a turn. -/
def watchful (stop : World σ → Bool) : Rules σ where
  Drifts w w' := w' = w
  Allows w w' := w.BeginsRound w' → stop w = false

theorem watchful_lenient (stop : World σ → Bool) : (watchful stop).Lenient where
  aside _ _ same := by
    rintro ⟨execution, stepIndex, round, begins⟩
    exact absurd (same.symm.trans begins) (by simp)
  tells _ _ told other := by
    rintro ⟨execution, stepIndex, round, begins⟩
    obtain ⟨rfl, _⟩ := List.cons.inj (told.symm.trans begins)
    exact absurd trivial other

theorem watchful_lets (stop : World σ → Bool) : (watchful stop).LetsRepeat stop := by
  rintro w _ execution stepIndex round fails rfl _
  exact fails

namespace Story

/-- What is left of a routine that abides by rules abides by them. -/
theorem Follows.abides {R : Rules σ} {rest : α → Routine σ Unit} {p q : Routine σ α} {deeds : List Deed}
    (follows : s.Follows t rest p n₀ deeds q n) (still : ∀ w, R.Drifts w w) (abides : p.Abides R (s.world n₀)) :
    q.Abides R (s.world n) := by
  induction follows with
  | here => exact abides
  | @act _ _ _ f k _ _ n _ runs _ ih =>
    refine ih ?_
    rw [runs.act.2]
    exact (abides _ (still _)).2
  | call _ _ _ _ ih => exact ih (abides _ _)
  | spawn _ _ ih => exact ih (abides.2 _ _)
  | goesOn _ _ _ ih | waits _ _ _ _ _ ih => exact ih (abides _ _)

/-- At some moment a task does an act of a routine that it has been running, or one is done by a task that was
created on the way. -/
inductive Acts (s : Story service) :
    {α : Type} → TaskId → (α → Routine σ Unit) → Routine σ α → Nat → Nat → Prop
  | own {α β : Type} {t : TaskId} {rest : α → Routine σ Unit} {p : Routine σ α} {n₀ n : Nat} {deeds : List Deed}
      {f : World σ → β × World σ} {k : β → Routine σ α} (follows : s.Follows t rest p n₀ deeds (.act f k) n) :
      Acts s t rest p n₀ n
  | created {α : Type} {t : TaskId} {rest : α → Routine σ Unit} {p : Routine σ α} {n₀ n₁ n₂ n : Nat}
      {deeds : List Deed} {body : TaskId → Routine σ Unit} {k : TaskId → Routine σ α}
      (follows : s.Follows t rest p n₀ deeds (.spawn body k) n₁) (after : n₁ < n₂)
      (acts : Acts s (s.world n₁).agenda.created .done (body (s.world n₁).agenda.created) n₂ n) :
      Acts s t rest p n₀ n

/-- Whatever is done for a routine that abides by rules is allowed. -/
theorem Acts.allowed {R : Rules σ} {rest : α → Routine σ Unit} {p : Routine σ α} (acts : s.Acts t rest p n₀ n)
    (still : ∀ w, R.Drifts w w) (abides : p.Abides R (s.world n₀)) : R.Allows (s.world n) (s.world (n + 1)) := by
  induction acts with
  | own follows =>
    rw [follows.left.act.2]
    exact (follows.abides still abides _ (still _)).1
  | created follows _ _ ih => exact ih ((follows.abides still abides).1 _ _)

/-- Where a round begins anywhere in a step, the test has failed. -/
theorem Acts.fails {step : Step} {rest : Outcome → Routine σ Unit}
    (acts : s.Acts t rest (ExceptT.run (i.interpret step context)) n₀ n)
    (begins : (s.world n).BeginsRound (s.world (n + 1))) : i.isCancelled (s.world n) = false :=
  acts.allowed (fun _ => rfl) (interpret_abides (watchful_lenient _) (watchful_lets _) step context _) begins

end Story

/-! ## The course of a loop -/

namespace Interpreter

/-- The result with the time that it took. -/
def stamp (started : Float) (r : StepResult) : Routine σ Outcome :=
  .act (fun w => (w.agenda.now, w)) fun ended =>
    .done (((Execution.milliseconds (ended - started)).map fun durationMs => { r with durationMs }).mapError .fault)

/-- How a timed attempt ends once it has come to something. -/
def timing (context : Context) (started : Float) : Outcome → Routine σ Outcome
  | .ok r => stamp started r
  | .error (.fault fault) => stamp started (.ofError context.stepIndex (.text fault.message))
  | .error (.cancelled message) => .done (.error (.cancelled message))

theorem run_timed (context : Context) (attempt : Attempt σ StepResult) : ExceptT.run (timed context attempt) =
    .act (fun w => (w.agenda.now, w)) fun started => (ExceptT.run attempt).bind (timing context started) := by
  have stamped (started : Float) (r : StepResult) : ExceptT.run (do
      let ended ← Attempt.lift .clock
      let durationMs ← Attempt.ofExcept (Execution.milliseconds (ended - started))
      return { r with durationMs } : Attempt σ StepResult) = stamp started r := by
    refine congrArg (Routine.act _) (funext fun ended => ?_)
    change ExceptT.run (Attempt.ofExcept _ >>= fun durationMs => pure { r with durationMs }) = _
    cases Execution.milliseconds (ended - started) <;> rfl
  refine congrArg (Routine.act _) (funext fun started => ?_)
  change ExceptT.run (tryCatch attempt _ >>= _) = _
  rw [Attempt.run_bind, Attempt.run_tryCatch, Routine.bind_bind]
  refine congrArg _ (funext fun outcome => ?_)
  rcases outcome with (fault | message) | r
  · exact stamped started _
  · rfl
  · exact stamped started r

/-- How the rounds of a loop go on after one whose body has come to something. -/
def roundsAfter (i : Interpreter σ) (itemVariable indexVariable : Value) (stops : Bool) (context : Context)
    (body : Context → Attempt σ StepResult) (index : Nat) (soFar : Rounds) (item : Value) (items : List Value) :
    Outcome → Routine σ (Except Interrupt Rounds)
  | .ok result =>
    if !result.countsAsSuccess && stops then .done (.ok (i.recorded soFar index item result))
    else ExceptT.run
      (i.rounds itemVariable indexVariable stops context body (index + 1) (i.recorded soFar index item result) items)
  | .error interrupt => .done (.error interrupt)

theorem run_rounds_cons (i : Interpreter σ) (itemVariable indexVariable : Value) (stops : Bool) (context : Context)
    (body : Context → Attempt σ StepResult) (index : Nat) (soFar : Rounds) (item : Value) (items : List Value) :
    ExceptT.run (i.rounds itemVariable indexVariable stops context body index soFar (item :: items)) =
      .act (fun w => (i.isCancelled w, w)) fun cancelled =>
        if cancelled then .done (.ok { soFar with cancelled := true })
        else .act (fun w => ((), w.note (.iterated context.execution context.stepIndex index))) fun _ =>
          match roundScope itemVariable indexVariable item index with
          | .error fault => .done (.error (.fault fault))
          | .ok scope => (ExceptT.run (body (context.derive scope))).bind
            (i.roundsAfter itemVariable indexVariable stops context body index soFar item items) := by
  rw [rounds]
  refine congrArg (Routine.act _) (funext fun cancelled => ?_)
  cases cancelled with
  | true => rfl
  | false =>
    refine congrArg (Routine.act _) (funext fun _ => ?_)
    cases roundScope itemVariable indexVariable item index with
    | error fault => rfl
    | ok scope =>
      change ExceptT.run (body (context.derive scope) >>= _) = _
      rw [Attempt.run_bind]
      refine congrArg _ (funext fun outcome => ?_)
      cases outcome with
      | error interrupt => rfl
      | ok result =>
        rw [roundsAfter]
        change ExceptT.run (if (!result.countsAsSuccess && stops) = true then _ else _) = _
        split <;> rfl

/-- A loop that goes through items is timed, and comes to what is made of its rounds. -/
theorem interpret_loop {items : Value} {limit : Option Int} {body : Step} {chosen : List Value}
    (chooses : i.chosenItems context items limit (some body) = .ok chosen) (common : Step.Common)
    (itemVariable indexVariable : Value) :
    ∃ attempt, i.interpret (.loop common items itemVariable indexVariable limit (some body)) context =
        timed context attempt ∧
      ExceptT.run attempt = (ExceptT.run (i.rounds itemVariable indexVariable (common.stopOnFailure.getD false)
        context (i.interpretNested body) 0 {} chosen)).bind fun outcome =>
          .done (outcome.map (loopResult context)) := by
  refine ⟨_, by rw [interpret], ?_⟩
  rw [chosenItems] at chooses
  cases lists : loopItems (items.resolve context.scope) with
  | error => simp [lists, bind, Except.bind] at chooses
  | ok listed =>
    cases limits : i.loopLimit limit with
    | error => simp [lists, limits, bind, Except.bind] at chooses
    | ok most =>
      have cuts : Value.frontOf listed most = .ok chosen := by simpa [lists, limits, bind, Except.bind] using chooses
      change ExceptT.run (Attempt.ofExcept (Value.frontOf listed most) >>= _) = _
      rw [cuts]
      change ExceptT.run (i.rounds .. >>= _) = _
      rw [Attempt.run_bind]
      refine congrArg _ (funext fun outcome => ?_)
      cases outcome <;> rfl

theorem loopResult_details (context : Context) (r : Rounds) :
    (loopResult context r).details = .iterations r.done.reverse r.cancelled := by
  rw [loopResult]
  cases r.cancelled <;> rfl

/-- A loop fails that was cancelled or has been through a round that did not count as a success. -/
theorem loopResult_failed {r : Rounds}
    (why : r.cancelled = true ∨ ∃ round ∈ r.done, round.result.countsAsSuccess = false) :
    (loopResult context r).status = .failed := by
  rw [loopResult]
  cases cancelled : r.cancelled with
  | true => rfl
  | false =>
    obtain ⟨round, member, fails⟩ := why.resolve_left (by simp [cancelled])
    have found : (r.done.reverse.find? fun round => !round.result.countsAsSuccess).isSome = true :=
      List.find?_isSome.mpr ⟨round, List.mem_reverse.mpr member, by simp [fails]⟩
    rw [Option.isSome_iff_exists] at found
    obtain ⟨_, found⟩ := found
    simp [finished, found]

/-- Every interpretation is a timed attempt. -/
theorem exists_timed (i : Interpreter σ) (step : Step) (context : Context) :
    ∃ attempt, i.interpret step context = timed context attempt := by
  cases step <;> exact ⟨_, by rw [interpret]⟩

end Interpreter

theorem Routine.bind_ne_done {β : Type} {p : Routine σ β} {f : β → Routine σ α} (ongoing : ∀ b, p ≠ .done b) (a : α) :
    p.bind f ≠ .done a := by
  cases p with
  | done b => exact absurd rfl (ongoing b)
  | act | wait | call | spawn => exact fun same => nomatch same

namespace Story

variable {rest : Outcome → Routine σ Unit} {q : Routine σ Outcome} {deeds : List Deed}

/-- It can be told at any moment how long ago any other was. -/
def Punctual (s : Story service) (time : Timeline) : Prop := ∀ n, time.Shows (s.world n).agenda.now

/-- After a look there is nothing left to do but what is seen to. -/
theorem Follows.look {β : Type} {f : World σ → β} {g : β → Outcome}
    (follows : s.Follows t rest (.act (fun w => (f w, w)) fun b => .done (g b)) n₀ deeds q n) :
    s.world n₀ = s.world n ∧ q.ahead (s.world n) = (.done (g (f (s.world n))), s.world n) := by
  cases follows with
  | here => exact ⟨rfl, rfl⟩
  | act runs later =>
    obtain ⟨rfl, rfl, rfl⟩ := later.of_done
    rw [runs.act.2]
    exact ⟨rfl, rfl⟩

/-- Whoever follows a timed attempt has not begun it, or is with the attempt, or has only to read the clock once
more. -/
theorem Follows.timed {attempt : Attempt σ StepResult}
    (follows : s.Follows t rest (ExceptT.run (Interpreter.timed context attempt)) n₀ deeds q n) :
    (q = ExceptT.run (Interpreter.timed context attempt) ∧ n = n₀) ∨
      ∃ rest' others left n₁, s.Follows t rest' (ExceptT.run attempt) (n₀ + 1) others left n₁ ∧
        s.world n₁ = s.world n ∧
        q.ahead (s.world n) = (left.bind (timing context (s.world n₀).agenda.now)).ahead (s.world n) ∧
        ((∀ b, left ≠ .done b) → n₁ = n ∧ q = left.bind (timing context (s.world n₀).agenda.now)) := by
  rw [run_timed] at follows ⊢
  cases follows with
  | here => exact .inl ⟨rfl, rfl⟩
  | act runs later =>
    rcases later.bind with ⟨left, follows, rfl, _⟩ | ⟨outcome, n₁, first, second, follows, ends, rfl⟩
    · exact .inr ⟨_, _, left, n, follows, rfl, rfl, fun _ => ⟨rfl, rfl⟩⟩
    · refine .inr ⟨_, _, .done outcome, n₁, follows, ?_⟩
      suffices s.world n₁ = s.world n ∧
          q.ahead (s.world n) = (timing context (s.world n₀).agenda.now outcome).ahead (s.world n) from
        ⟨this.1, this.2, fun ongoing => absurd rfl (ongoing outcome)⟩
      rcases outcome with (fault | message) | r
      · exact ends.look
      · obtain ⟨rfl, rfl, rfl⟩ := ends.of_done
        exact ⟨rfl, rfl⟩
      · exact ends.look

/-- When the clock can be told, what a timed attempt has come to is told with its time. -/
theorem ahead_timing {time : Timeline} (punctual : s.Punctual time) (n₀ n : Nat) (outcome : Outcome) :
    (∃ message, (timing context (s.world n₀).agenda.now outcome).ahead (s.world n) =
      (.done (.error (.cancelled message) : Outcome), s.world n) ∧ outcome = .error (.cancelled message)) ∨
    ∃ r durationMs, (timing context (s.world n₀).agenda.now outcome).ahead (s.world n) =
      (.done (.ok { r with durationMs }), s.world n) ∧ (∀ r', outcome = .ok r' → r' = r) := by
  obtain ⟨ms, told⟩ := time.tellable _ _ (punctual n₀) (punctual n)
  have stamped (r : StepResult) : (stamp (s.world n₀).agenda.now r).ahead (s.world n) =
      (.done (.ok { r with durationMs := ms }), s.world n) := by
    simp only [stamp, Routine.ahead, told]
    rfl
  rcases outcome with (fault | message) | r
  · exact .inr ⟨_, ms, stamped _, fun _ same => nomatch same⟩
  · exact .inl ⟨message, rfl, rfl⟩
  · exact .inr ⟨r, ms, stamped r, fun _ same => (Except.ok.inj same).symm⟩

/-- A step inside another one raises only when its pre-check does, which is at once. -/
theorem Follows.prompt {time : Timeline} (punctual : s.Punctual time) {step : Step} {fault : Fault}
    (follows : s.Follows t rest (ExceptT.run (i.interpretNested step context)) n₀ deeds
      (.done (.error (.fault fault))) n) : n = n₀ := by
  rw [interpretNested, checked] at follows
  cases verdict : Condition.allHold context.scope step.common.conditions with
  | error raised =>
    rw [verdict] at follows
    exact (Follows.of_done (a := (.error (.fault raised) : Outcome)) follows).2.2
  | ok holds =>
    rw [verdict] at follows
    cases holds with
    | false => cases (Follows.of_done (a := (.ok (.skipped context.stepIndex) : Outcome)) follows).2.1
    | true =>
      obtain ⟨attempt, timed⟩ := i.exists_timed step context
      change s.Follows t rest (ExceptT.run (i.interpret step context)) n₀ deeds _ n at follows
      rw [timed] at follows
      obtain ⟨_, same⟩ | ⟨_, _, left, n₁, inner, _, ends, ongoing⟩ := follows.timed
      · exact same
      by_cases finished : ∃ outcome, left = .done outcome
      · obtain ⟨outcome, rfl⟩ := finished
        rcases ahead_timing punctual _ n outcome with ⟨message, told, _⟩ | ⟨r, ms, told, _⟩
        all_goals cases (Prod.mk.inj (ends.trans told)).1
      · exact absurd (ongoing (not_exists.mp finished)).2.symm (Routine.bind_ne_done (not_exists.mp finished) _)

/-! ## Rounds -/

/-- A round that a loop has been through: when it looked whether to begin it, and how it went. -/
structure Lap where
  begun : Nat
  iteration : Iteration

section Laps

variable (s : Story service) (i : Interpreter σ) (t : TaskId) (context : Context) (itemVariable indexVariable : Value)
  (body : Context → Attempt σ StepResult)

/-- At a moment the test let a round begin, and since then the task has had to do with its body. -/
structure Begins (index : Nat) (item : Value) (begun : Nat) (q : Routine σ Outcome) (n : Nat) : Prop where
  free : i.isCancelled (s.world begun) = false
  noted : s.world (begun + 2) = (s.world begun).note (.iterated context.execution context.stepIndex index)
  runs : ∃ scope rest deeds, roundScope itemVariable indexVariable item index = .ok scope ∧
    s.Follows t rest (ExceptT.run (body (context.derive scope))) (begun + 2) deeds q n

/-- From one moment to another a loop has gone through rounds, the first of which has number `index`. -/
inductive Laps : Nat → Nat → List Lap → Nat → Prop
  | none (index n : Nat) : Laps index n [] n
  | lap {index n n₁ n' : Nat} {item : Value} {result : StepResult} {laps : List Lap}
      (begins : Begins s i t context itemVariable indexVariable body index item n (.done (.ok result)) n₁)
      (later : Laps (index + 1) n₁ laps n') : Laps index n (⟨n, ⟨index, item, result⟩⟩ :: laps) n'

/-- Where a task is that came to the rounds of a loop, over an item and others after it, at a moment. -/
inductive Round (stops : Bool) (index : Nat) (soFar : Rounds) (item : Value) (items : List Value) (n₀ : Nat)
    (rest : Except Interrupt Rounds → Routine σ Unit) : Routine σ (Except Interrupt Rounds) → Nat → Prop
  /-- It has not looked whether to begin a round. -/
  | here : Round stops index soFar item items n₀ rest
      (ExceptT.run (i.rounds itemVariable indexVariable stops context body index soFar (item :: items))) n₀
  /-- The test held, so the rounds are over. -/
  | stopped (holds : i.isCancelled (s.world n₀) = true) :
      Round stops index soFar item items n₀ rest (.done (.ok { soFar with cancelled := true })) (n₀ + 1)
  /-- The test let the round begin, which has not been noted. -/
  | cleared {q : Routine σ (Except Interrupt Rounds)} (free : i.isCancelled (s.world n₀) = false)
      (looked : s.world (n₀ + 1) = s.world n₀) (ongoing : ∀ outcome, q ≠ .done outcome) :
      Round stops index soFar item items n₀ rest q (n₀ + 1)
  /-- The variables of the round cannot be set. -/
  | unfit {fault : Fault} (free : i.isCancelled (s.world n₀) = false)
      (noted : s.world (n₀ + 2) = (s.world n₀).note (.iterated context.execution context.stepIndex index))
      (refuses : roundScope itemVariable indexVariable item index = .error fault) :
      Round stops index soFar item items n₀ rest (.done (.error (.fault fault))) (n₀ + 2)
  /-- It is in the body of the round. -/
  | within {left : Routine σ Outcome} {n : Nat}
      (begins : Begins s i t context itemVariable indexVariable body index item n₀ left n)
      (ongoing : ∀ outcome, left ≠ .done outcome) : Round stops index soFar item items n₀ rest
        (left.bind (i.roundsAfter itemVariable indexVariable stops context body index soFar item items)) n
  /-- The body has come to an outcome, and it has gone on from there. -/
  | after {came : Outcome} {deeds : List Deed} {q : Routine σ (Except Interrupt Rounds)} {n₁ n : Nat}
      (begins : Begins s i t context itemVariable indexVariable body index item n₀ (.done came) n₁)
      (goes : s.Follows t rest
        (i.roundsAfter itemVariable indexVariable stops context body index soFar item items came) n₁ deeds q n) :
      Round stops index soFar item items n₀ rest q n

/-- How a loop with items still ahead of it may close once the test holds: it is cancelled or gives up after a round
that did not count as a success, with all its rounds recorded. -/
inductive Closes (laps : List Lap) (ahead : List Value) (soFar : Rounds) : Except Interrupt Rounds → Prop
  | cut (message : String) : Closes laps ahead soFar (.error (.cancelled message))
  | closed {last : Rounds} (done : last.done = (laps.map (·.iteration)).reverse ++ soFar.done)
      (why : last.cancelled = true ∨ ahead = [] ∨ ∃ lap ∈ laps, lap.iteration.result.countsAsSuccess = false) :
      Closes laps ahead soFar (.ok last)

/-- Where the rounds of a loop are that began at a moment, while the test holds. -/
inductive Rounding (index : Nat) (items : List Value) (soFar : Rounds) (n₀ : Nat)
    (q : Routine σ (Except Interrupt Rounds)) (n : Nat) : Prop
  /-- The task is in the body of a round that began before. -/
  | inside {laps : List Lap} {item : Value} {others : List Value} {n₁ : Nat} {left : Routine σ Outcome}
      (split : items = laps.map (·.iteration.item) ++ item :: others)
      (through : Laps s i t context itemVariable indexVariable body index n₀ laps n₁)
      (begins : Begins s i t context itemVariable indexVariable body (index + laps.length) item n₁ left n)
      (ongoing : ∀ outcome, left ≠ .done outcome) (unended : ∀ outcome, q ≠ .done outcome)
  /-- The rounds are over without anybody else having a turn. -/
  | closing {laps : List Lap} {ahead : List Value} {n₁ : Nat} {outcome : Except Interrupt Rounds}
      (split : items = laps.map (·.iteration.item) ++ ahead)
      (through : Laps s i t context itemVariable indexVariable body index n₀ laps n₁)
      (ends : q.ahead (s.world n) = (.done outcome, s.world n)) (closes : Closes laps ahead soFar outcome)

end Laps

section

variable {itemVariable indexVariable : Value} {body : Context → Attempt σ StepResult} {stops : Bool} {index : Nat}
  {soFar : Rounds} {items : List Value} {item : Value}

theorem Begins.le {q : Routine σ Outcome}
    (begins : s.Begins i t context itemVariable indexVariable body index item n₀ q n) : n₀ + 2 ≤ n := by
  obtain ⟨_, _, _, _, runs⟩ := begins.runs
  exact runs.le

theorem Closes.cons {lap : Lap} {laps : List Lap} {ahead : List Value} {result : StepResult}
    {outcome : Except Interrupt Rounds} (same : lap.iteration = ⟨index, item, result⟩)
    (closes : Closes laps ahead (i.recorded soFar index item result) outcome) :
    Closes (lap :: laps) ahead soFar outcome := by
  cases closes with
  | cut message => exact .cut message
  | closed done why =>
    refine .closed ?_ (why.imp_right (Or.imp_right ?_))
    · rw [done, recorded, List.map_cons, List.reverse_cons, same, List.append_assoc]
      rfl
    · rintro ⟨lap', member, fails⟩
      exact ⟨lap', List.mem_cons_of_mem _ member, fails⟩

/-- While the test holds, a loop that has a round ahead of it goes no further. -/
theorem exists_rounds_ahead {w : World σ} (stopped : i.isCancelled w = true) (itemVariable indexVariable : Value)
    (stops : Bool) (context : Context) (body : Context → Attempt σ StepResult) (index : Nat) (soFar : Rounds)
    (items : List Value) : ∃ last,
      (ExceptT.run (i.rounds itemVariable indexVariable stops context body index soFar items)).ahead w =
        (.done (.ok last), w) ∧ Closes [] items soFar (.ok last) := by
  cases items with
  | nil => exact ⟨soFar, rfl, .closed rfl (.inr (.inl rfl))⟩
  | cons item items =>
    refine ⟨{ soFar with cancelled := true }, ?_, .closed rfl (.inl rfl)⟩
    rw [run_rounds_cons]
    simp only [Routine.ahead, stopped, if_true]

/-- A loop looks whether to begin a round, notes that it does, and has the body run before it goes on. -/
theorem Follows.round {rest : Except Interrupt Rounds → Routine σ Unit} {q : Routine σ (Except Interrupt Rounds)}
    (follows : s.Follows t rest
      (ExceptT.run (i.rounds itemVariable indexVariable stops context body index soFar (item :: items))) n₀ deeds q n) :
    s.Round i t context itemVariable indexVariable body stops index soFar item items n₀ rest q n := by
  have whole := run_rounds_cons i itemVariable indexVariable stops context body index soFar item items
  rw [whole] at follows
  cases follows with
  | here =>
    rw [← whole]
    exact .here
  | act runs later =>
    have looked : s.world (n₀ + 1) = s.world n₀ := runs.act.2
    cases free : i.isCancelled (s.world n₀) with
    | true =>
      simp only [free, if_true] at later
      obtain ⟨rfl, rfl, rfl⟩ := later.of_done
      exact .stopped free
    | false =>
      simp only [free, Bool.false_eq_true, if_false] at later
      cases later with
      | here => exact .cleared free looked fun _ same => nomatch same
      | act runs later =>
        have noted : s.world (n₀ + 2) = (s.world n₀).note (.iterated context.execution context.stepIndex index) := by
          rw [runs.act.2, looked]
        cases opens : roundScope itemVariable indexVariable item index with
        | error fault =>
          simp only [opens] at later
          obtain ⟨rfl, rfl, rfl⟩ := later.of_done
          exact .unfit free noted opens
        | ok scope =>
          simp only [opens] at later
          rcases later.bind with ⟨left, runs, rfl, ongoing⟩ | ⟨came, n₁, _, _, runs, goes, -⟩
          · exact .within ⟨free, noted, scope, _, _, opens, runs⟩ ongoing
          · exact .after ⟨free, noted, scope, _, _, opens, runs⟩ goes

/-- While the test holds, a loop is in the body of a round that began before, or it closes by itself. -/
theorem Follows.rounds {rest : Except Interrupt Rounds → Routine σ Unit} {q : Routine σ (Except Interrupt Rounds)}
    (follows : s.Follows t rest
      (ExceptT.run (i.rounds itemVariable indexVariable stops context body index soFar items)) n₀ deeds q n)
    (unread : ∀ w h, i.isCancelled (w.note h) = i.isCancelled w)
    (prompt : ∀ context rest m deeds fault m', s.Follows t rest (ExceptT.run (body context)) m deeds
      (.done (.error (.fault fault))) m' → m' = m)
    (stopped : i.isCancelled (s.world n) = true) :
    s.Rounding i t context itemVariable indexVariable body index items soFar n₀ q n := by
  induction items generalizing index soFar n₀ deeds with
  | nil =>
    obtain ⟨rfl, rfl, rfl⟩ := Follows.of_done (a := (.ok soFar : Except Interrupt Rounds)) follows
    exact .closing rfl (.none _ _) rfl (.closed rfl (.inr (.inl rfl)))
  | cons item items ih =>
    -- Where the test has failed, noting the round does not change that, so the moment in question is later.
    have early (free : i.isCancelled (s.world n₀) = false)
        (noted : s.world (n₀ + 2) = (s.world n₀).note (.iterated context.execution context.stepIndex index)) :
        n ≠ n₀ + 2 := by
      rintro rfl
      rw [noted, unread, free] at stopped
      cases stopped
    cases follows.round with
    | here =>
      obtain ⟨last, ends, closes⟩ :=
        exists_rounds_ahead stopped itemVariable indexVariable stops context body index soFar (item :: items)
      exact .closing rfl (.none _ _) ends closes
    | stopped => exact .closing rfl (.none _ _) rfl (.closed rfl (.inl rfl))
    | cleared free looked =>
      rw [looked, free] at stopped
      cases stopped
    | unfit free noted => exact absurd rfl (early free noted)
    | within begins ongoing => exact .inside rfl (.none _ _) begins ongoing (Routine.bind_ne_done ongoing)
    | @after came _ _ n₁ _ begins goes =>
      rcases came with (fault | message) | result
      · obtain ⟨_, _, _, _, runs⟩ := begins.runs
        obtain rfl := prompt _ _ _ _ _ _ runs
        exact absurd goes.of_done.2.2 (early begins.free begins.noted)
      · obtain ⟨rfl, rfl, rfl⟩ := goes.of_done
        exact .closing rfl (.none _ _) rfl (.cut message)
      · rw [roundsAfter] at goes
        split at goes
        · next fails =>
          obtain ⟨rfl, rfl, rfl⟩ := goes.of_done
          simp only [Bool.and_eq_true, Bool.not_eq_true'] at fails
          exact .closing rfl (.lap begins (.none _ _)) rfl
            (.closed rfl (.inr (.inr ⟨_, List.mem_singleton_self _, fails.1⟩)))
        · cases ih goes with
          | @inside laps _ _ _ _ split through begins' ongoing unended =>
            subst split
            refine .inside rfl (.lap begins through) ?_ ongoing unended
            rw [List.length_cons, ← Nat.add_assoc, Nat.add_right_comm]
            exact begins'
          | @closing laps _ _ _ split through ends closes =>
            subst split
            exact .closing rfl (.lap begins through) ends (closes.cons rfl)

end

/-! ## Loops -/

theorem Laps.free {itemVariable indexVariable : Value} {body : Context → Attempt σ StepResult} {index : Nat}
    {laps : List Lap} (through : s.Laps i t context itemVariable indexVariable body index n₀ laps n) :
    ∀ lap ∈ laps, i.isCancelled (s.world lap.begun) = false := by
  induction through with
  | none => exact fun _ member => nomatch member
  | lap begins _ ih => exact List.forall_mem_cons.mpr ⟨begins.free, ih⟩

/-- Where a loop over items is that a task entered at a moment, once the test has come to hold for good. -/
inductive Halting (s : Story service) (i : Interpreter σ) (t : TaskId) (context : Context)
    (itemVariable indexVariable : Value) (body : Context → Attempt σ StepResult) (N : Nat) (items : List Value)
    (n₀ : Nat) (q : Routine σ Outcome) (n : Nat) : Prop
  /-- The task is in the body of a round that began before. -/
  | inside {laps : List Lap} {item : Value} {others : List Value} {n₁ : Nat} {left : Routine σ Outcome}
      (split : items = laps.map (·.iteration.item) ++ item :: others)
      (through : s.Laps i t context itemVariable indexVariable body 0 (n₀ + 1) laps n₁)
      (begins : s.Begins i t context itemVariable indexVariable body laps.length item n₁ left n)
      (ongoing : ∀ outcome, left ≠ .done outcome) (before : ∀ lap ∈ laps, lap.begun < N) (last : n₁ < N)
  /-- The loop comes to its end before anybody else has a turn. If it has left out items, it fails, with the rounds
  among its details that it had begun. -/
  | ends {laps : List Lap} {ahead : List Value} {n₁ : Nat} {r : StepResult}
      (split : items = laps.map (·.iteration.item) ++ ahead)
      (through : s.Laps i t context itemVariable indexVariable body 0 (n₀ + 1) laps n₁)
      (before : ∀ lap ∈ laps, lap.begun < N) (ends : q.ahead (s.world n) = (.done (.ok r), s.world n))
      (fails : ahead ≠ [] → r.status = .failed ∧
        ∃ cancelled, r.details = .iterations (laps.map (·.iteration)) cancelled)

/-- What a loop closes with is told with its time. -/
theorem Closes.ends {time : Timeline} (punctual : s.Punctual time) {laps : List Lap} {ahead : List Value}
    {outcome : Except Interrupt Rounds} (closes : Closes laps ahead {} outcome)
    (uncut : ∀ message, (q.ahead (s.world n)).1 ≠ .done (.error (.cancelled message)))
    (told : q.ahead (s.world n) =
      (timing context (s.world n₀).agenda.now (outcome.map (loopResult context))).ahead (s.world n)) :
    ∃ r, q.ahead (s.world n) = (.done (.ok r), s.world n) ∧ (ahead ≠ [] → r.status = .failed ∧
      ∃ cancelled, r.details = .iterations (laps.map (·.iteration)) cancelled) := by
  rcases ahead_timing punctual n₀ n (outcome.map (loopResult context)) with
    ⟨message, timed, _⟩ | ⟨r, ms, timed, same⟩
  · rw [told, timed] at uncut
    exact absurd rfl (uncut message)
  · refine ⟨_, told.trans timed, fun left => ?_⟩
    cases closes with
    | cut message =>
      rw [told] at uncut
      exact absurd rfl (uncut message)
    | @closed last done why =>
      obtain rfl := same _ rfl
      constructor
      · refine loopResult_failed (why.imp_right ?_)
        rintro (none | ⟨lap, member, fails⟩)
        · exact absurd none left
        · exact ⟨lap.iteration, by simpa [done] using ⟨lap, member, rfl⟩, fails⟩
      · refine ⟨last.cancelled, (loopResult_details context last).trans ?_⟩
        rw [done]
        simp

/-- Once the test holds for good, a loop is in the last of the rounds that it had begun, or ends. -/
theorem Follows.loop {time : Timeline} (punctual : s.Punctual time)
    (unread : ∀ w h, i.isCancelled (w.note h) = i.isCancelled w) {N : Nat}
    (stopped : ∀ n, N ≤ n → i.isCancelled (s.world n) = true) {common : Step.Common}
    {items itemVariable indexVariable : Value} {limit : Option Int} {body : Step} {chosen : List Value}
    (chooses : i.chosenItems context items limit (some body) = .ok chosen)
    (follows : s.Follows t rest (ExceptT.run
      (i.interpret (.loop common items itemVariable indexVariable limit (some body)) context)) n₀ deeds q n)
    (late : N ≤ n) (uncut : ∀ message, (q.ahead (s.world n)).1 ≠ .done (.error (.cancelled message))) :
    s.Halting i t context itemVariable indexVariable (i.interpretNested body) N chosen n₀ q n := by
  have now := stopped n late
  have early {m : Nat} (free : i.isCancelled (s.world m) = false) : m < N := by
    by_contra later
    rw [stopped m (Nat.le_of_not_lt later)] at free
    cases free
  obtain ⟨attempt, whole, run⟩ := interpret_loop chooses common itemVariable indexVariable
  rw [whole] at follows
  rcases follows.timed with ⟨rfl, rfl⟩ | ⟨rest', others, left, n₁, follows, same, told, ongoing⟩
  · obtain ⟨last, ends, closes⟩ := exists_rounds_ahead now itemVariable indexVariable
      (common.stopOnFailure.getD false) context (i.interpretNested body) 0 {} chosen
    have told : (ExceptT.run (Interpreter.timed context attempt)).ahead (s.world n) =
        (timing context (s.world n).agenda.now ((.ok last : Except Interrupt Rounds).map (loopResult context))).ahead
          (s.world n) := by
      rw [run_timed, run]
      change Routine.ahead (Routine.bind _ _) _ = _
      rw [Routine.bind_bind, Routine.ahead_bind _ ends]
      rfl
    obtain ⟨r, ends, fails⟩ := closes.ends punctual uncut told
    exact .ends rfl (.none _ _) (fun _ member => nomatch member) ends fails
  · rw [run] at follows
    obtain ⟨left, through, rfl⟩ := follows.bind_done
    cases through.rounds unread (fun _ _ _ _ _ _ raised => raised.prompt punctual) (same ▸ now) with
    | inside split through begins ongoing' unended =>
      obtain ⟨rfl, rfl⟩ := ongoing (Routine.bind_ne_done unended)
      rw [Nat.zero_add] at begins
      exact .inside split through begins ongoing' (fun lap member => early (through.free lap member))
        (early begins.free)
    | closing split through ends closes =>
      rw [same] at ends
      rw [Routine.bind_bind, Routine.ahead_bind _ ends] at told
      obtain ⟨r, ends, fails⟩ := closes.ends punctual uncut told
      exact .ends split through (fun lap member => early (through.free lap member)) ends fails

end Story

def stoppedContext : Context := { execution := "x", stepIndex := 0, scope := [], mode := .text "default" }

end Runbook
