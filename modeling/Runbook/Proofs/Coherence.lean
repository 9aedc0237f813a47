import Runbook.Proofs.Company

/-! # Results are coherent

The result of a step, and every result that is somewhere in its details, bears the index of its context, is
successful exactly if it is completed, has an error exactly if it is neither completed nor skipped, and publishes
nothing if it is skipped or in error. A step that is interpreted is not skipped.
-/

namespace Runbook

open Interpreter

variable {σ : Type}

/-! ## Results and their parts -/

/-- The results that details hold. -/
def Details.results : Details → List StepResult
  | .branch _ _ (some result) => [result]
  | .iterations done _ => done.map (·.result)
  | .branches results => results
  | _ => []

namespace StepResult

/-- A result is another one, or is somewhere in its details. -/
inductive Part : StepResult → StepResult → Prop
  | whole (r : StepResult) : Part r r
  | within {part inner r : StepResult} (member : inner ∈ r.details.results) (isPart : Part part inner) : Part part r

/-- What a result says fits together. -/
structure Sound (index : Int) (r : StepResult) : Prop where
  index : r.stepIndex = index
  success : r.success = true ↔ r.status = .completed
  error : r.error = .null ↔ r.status = .completed ∨ r.status = .skipped
  outputs : r.status = .skipped ∨ r.status = .error → r.outputs = []

/-- What a result and everything in its details says fits together. -/
def Coherent (index : Int) (r : StepResult) : Prop := ∀ part : StepResult, part.Part r → part.Sound index

variable {index : Int} {r : StepResult}

theorem Sound.coherent (sound : r.Sound index) (inner : ∀ r' ∈ r.details.results, r'.Coherent index) :
    r.Coherent index := by
  intro part isPart
  cases isPart with
  | whole => exact sound
  | within member isPart => exact inner _ member part isPart

theorem Coherent.sound (coherent : r.Coherent index) : r.Sound index := coherent r (.whole r)

theorem Coherent.inner (coherent : r.Coherent index) : ∀ r' ∈ r.details.results, r'.Coherent index :=
  fun _ member part isPart => coherent part (.within member isPart)

/-- The duration of a result is of no account. -/
theorem Coherent.timed (coherent : r.Coherent index) (durationMs : Int) : ({ r with durationMs }).Coherent index :=
  have sound := coherent.sound
  Sound.coherent ⟨sound.index, sound.success, sound.error, sound.outputs⟩ coherent.inner

theorem coherent_ofError (index : Int) (message : String) (durationMs : Int) :
    (ofError index (.text message) durationMs).Coherent index :=
  Sound.coherent ⟨rfl, by simp [ofError], by simp [ofError], fun _ => rfl⟩ fun _ member => nomatch member

/-- A result counts as a success exactly if it has no error. -/
theorem Sound.countsAsSuccess_iff (sound : r.Sound index) : r.countsAsSuccess = true ↔ r.error = .null := by
  rw [sound.error, countsAsSuccess, Bool.or_eq_true, beq_iff_eq, sound.success]

end StepResult

theorem Value.orElse_text_ne_null (v : Value) {s : String} : v.orElse (.text s) ≠ .null := by
  unfold orElse
  split
  · next truthy =>
    rintro rfl
    cases truthy
  · exact fun same => nomatch same

namespace Interpreter

variable {c : Climate} {d : Weather} {i : Interpreter σ} {context : Context} {success : Bool} {details : Details}
  {outputs : Entries} {error : Value} {r : StepResult}

/-- A finished step is completed or has failed. -/
theorem finished_coherent (tells : error = .null ↔ success = true)
    (inner : ∀ r ∈ details.results, r.Coherent context.stepIndex) :
    (finished context success details outputs error).Coherent context.stepIndex ∧
      (finished context success details outputs error).status ≠ .skipped := by
  refine ⟨StepResult.Sound.coherent ⟨rfl, ?_, ?_, ?_⟩ inner, ?_⟩
  · cases success <;> simp [finished]
  · change error = .null ↔ _
    rw [tells]
    cases success <;> simp [finished]
  · cases success <;> simp [finished]
  · cases success <;> rintro ⟨⟩

/-- The details of most kinds of steps hold no results. -/
theorem plain_coherent (tells : error = .null ↔ success = true) (plain : details.results = []) :
    (finished context success details outputs error).Coherent context.stepIndex ∧
      (finished context success details outputs error).status ≠ .skipped :=
  finished_coherent tells (by simp [plain])

/-! ## One result for each kind of step -/

theorem callReport_coherent {raw : Entries} {otherwise : String} (plain : details.results = [])
    (reports : callReport context outputs raw details otherwise = .ok r) :
    r.Coherent context.stepIndex ∧ r.status ≠ .skipped := by
  obtain ⟨published, _, same⟩ := bind_eq_ok reports
  cases same
  refine plain_coherent ?_ plain
  unfold callError
  split
  · next known => simp [known]
  · next known => simp [known, Value.orElse_text_ne_null]

theorem adoptBranch_coherent {met : Bool} {taken : Taken} {branch : StepResult}
    (coherent : branch.Coherent context.stepIndex) : (i.adoptBranch context met taken branch).Coherent context.stepIndex ∧
      (i.adoptBranch context met taken branch).status ≠ .skipped := by
  have inner : ∀ r ∈ (Details.branch met taken (some branch)).results, r.Coherent context.stepIndex := by
    simpa [Details.results] using coherent
  unfold adoptBranch
  cases i.policies.conditionalResults with
  | nest => exact finished_coherent (by simp) inner
  | adopt => exact finished_coherent coherent.sound.countsAsSuccess_iff.symm inner

theorem loopResult_coherent {rounds : Rounds} (coherent : ∀ round ∈ rounds.done, round.result.Coherent context.stepIndex) :
    (loopResult context rounds).Coherent context.stepIndex ∧ (loopResult context rounds).status ≠ .skipped := by
  have inner (cancelled : Bool) :
      ∀ r ∈ (Details.iterations rounds.done.reverse cancelled).results, r.Coherent context.stepIndex := by
    intro r member
    obtain ⟨round, listed, rfl⟩ := List.mem_map.mp member
    exact coherent round (List.mem_reverse.mp listed)
  unfold loopResult
  split
  · exact finished_coherent (by simp) (inner true)
  · refine finished_coherent ?_ (inner false)
    cases rounds.done.reverse.find? fun round => !round.result.countsAsSuccess <;> simp

/-- What holds of the rounds that have been run, and is kept by each further one, holds of all of them. -/
theorem Rounding.keeps (Kept : Rounds → Prop) (Item : Value → Prop) {itemVariable indexVariable : Value} {stops : Bool}
    {Body : Context → Outcome → Prop} {index : Nat} {soFar : Rounds} {items : List Value}
    {outcome : Except Interrupt Rounds} {rounds : Rounds}
    (rounding : i.Rounding d context itemVariable indexVariable stops Body index soFar items outcome)
    (halted : ∀ soFar, Kept soFar → Kept { soFar with cancelled := true })
    (more : ∀ soFar index item scope r, Item item → roundScope itemVariable indexVariable item index = .ok scope →
      Body (context.derive scope) (.ok r) → Kept soFar → Kept (i.recorded soFar index item r))
    (before : Kept soFar) (each : ∀ item ∈ items, Item item) (same : outcome = .ok rounds) : Kept rounds := by
  induction rounding with
  | done =>
    cases same
    exact before
  | cancelled =>
    cases same
    exact halted _ before
  | unscoped => cases same
  | interrupted => cases same
  | stopped scopes came =>
    cases same
    exact more _ _ _ _ _ (each _ List.mem_cons_self) scopes came before
  | next scopes came _ _ ih =>
    obtain ⟨first, rest⟩ := List.forall_mem_cons.mp each
    exact ih (more _ _ _ _ _ first scopes came before) rest same

theorem Rounding.coherent {itemVariable indexVariable : Value} {stops : Bool} {Body : Context → Outcome → Prop}
    {index : Nat} {soFar : Rounds} {items : List Value} {outcome : Except Interrupt Rounds} {rounds : Rounds}
    (rounding : i.Rounding d context itemVariable indexVariable stops Body index soFar items outcome)
    (body : ∀ scope r, Body (context.derive scope) (.ok r) → r.Coherent context.stepIndex)
    (before : ∀ round ∈ soFar.done, round.result.Coherent context.stepIndex) (same : outcome = .ok rounds) :
    ∀ round ∈ rounds.done, round.result.Coherent context.stepIndex :=
  rounding.keeps (fun rounds => ∀ round ∈ rounds.done, round.result.Coherent context.stepIndex) (fun _ => True)
    (fun _ kept => kept)
    (fun _ _ _ _ _ _ _ came kept => List.forall_mem_cons.mpr ⟨body _ _ came, kept⟩) before (fun _ _ => trivial) same

/-- What holds of the results of branches, and of errors, holds of the results that they are collected to. -/
theorem every_settled {Kept : StepResult → Prop} {outcomes : List Outcome} {results : List StepResult}
    (fails : ∀ message durationMs, Kept (.ofError context.stepIndex (.text message) durationMs))
    (each : ∀ outcome ∈ outcomes, ∀ r, outcome = .ok r → Kept r) (settles : settled context outcomes = .ok results) :
    ∀ r ∈ results, Kept r := by
  induction outcomes generalizing results with
  | nil =>
    cases settles
    exact fun _ member => nomatch member
  | cons first rest ih =>
    obtain ⟨mine, others⟩ := List.forall_mem_cons.mp each
    rcases first with (fault | message) | result
    · obtain ⟨later, settled, rfl⟩ := map_eq_ok settles
      exact List.forall_mem_cons.mpr ⟨fails _ _, ih others settled⟩
    · cases settles
    · obtain ⟨later, settled, rfl⟩ := map_eq_ok settles
      exact List.forall_mem_cons.mpr ⟨mine result rfl, ih others settled⟩

theorem parallelResult_coherent {results : List StepResult} (coherent : ∀ r ∈ results, r.Coherent context.stepIndex)
    (reports : parallelResult context results = .ok r) : r.Coherent context.stepIndex ∧ r.status ≠ .skipped := by
  unfold parallelResult at reports
  split at reports
  · cases reports
    exact finished_coherent (by simp) coherent
  · obtain ⟨errors, _, same⟩ := bind_eq_ok reports
    cases same
    exact finished_coherent (by simp [Value.orElse_text_ne_null]) coherent

/-! ## Steps of every kind -/

theorem callOutcome_coherent {outputs : Entries} {details : Entries → Details} {otherwise : String}
    {raw : Except Interrupt Entries} (plain : ∀ raw, (details raw).results = [])
    (same : callOutcome context outputs details otherwise raw = .ok r) :
    r.Coherent context.stepIndex ∧ r.status ≠ .skipped := by
  cases raw with
  | error => cases same
  | ok raw => exact callReport_coherent (plain raw) (mapError_eq_ok same)

/-- The result of a step is coherent, and not that of a skipped step, if the results of those inside it are coherent. -/
theorem Amounts.coherent {step : Step} {r : StepResult} (amounts : i.Amounts d step context (.ok r))
    (nested : ∀ {inner : Step} {scope : Entries} {r : StepResult}, inner.Inside step →
      i.ComesNested d inner (context.derive scope) (.ok r) → r.Coherent context.stepIndex) :
    r.Coherent context.stepIndex ∧ r.status ≠ .skipped := by
  cases step with
  | tool | command =>
    rw [Amounts] at amounts
    obtain ⟨raw, _, same⟩ := amounts
    exact callOutcome_coherent (fun _ => rfl) same.symm
  | conditional =>
    rw [Amounts] at amounts
    rcases amounts with ⟨_, _, same⟩ | ⟨met, _, _, same⟩ | ⟨met, branch, chosen, inner, _, came, same⟩
    · cases same
    · cases same
      exact plain_coherent (by simp) rfl
    · obtain ⟨result, rfl, rfl⟩ := map_eq_ok same.symm
      exact adoptBranch_coherent (nested (.branch chosen) came)
  | loop =>
    rw [Amounts] at amounts
    rcases amounts with ⟨_, _, same⟩ | ⟨chosen, round, rfl, rounds, _, rounding, same⟩
    · cases same
    · obtain ⟨done, rfl, rfl⟩ := map_eq_ok same.symm
      refine loopResult_coherent (rounding.coherent (fun scope r came => nested .round came) ?_ rfl)
      rintro _ ⟨⟩
  | parallel =>
    rw [Amounts] at amounts
    rcases amounts with ⟨outcomes, each, same⟩ | ⟨_, _, same⟩
    · cases settles : settled context outcomes with
      | error =>
        rw [joined, settles] at same
        cases same
      | ok results =>
        have coherent : ∀ outcome ∈ outcomes, ∀ r, outcome = .ok r → r.Coherent context.stepIndex := by
          rintro _ member r rfl
          obtain ⟨branch, listed, came | ⟨_, _, cut⟩⟩ := each.exists_of_mem member
          · exact nested (.side listed) came
          · cases cut
        rw [joined, settles] at same
        exact parallelResult_coherent (every_settled (StepResult.coherent_ofError _) coherent settles)
          (mapError_eq_ok same.symm)
    · cases same
  | delay =>
    rw [Amounts] at amounts
    rcases amounts with same | ⟨_, _, same⟩
    · obtain ⟨ms, _, rfl⟩ := map_eq_ok (mapError_eq_ok same.symm)
      exact plain_coherent (by simp) rfl
    · cases same
  | manual =>
    rw [Amounts] at amounts
    cases amounts with
    | told => exact plain_coherent (by simp) rfl
    | approved => exact plain_coherent (by simp) rfl
    | rejected => exact plain_coherent (by simp [Value.orElse_text_ne_null]) rfl
    | cut cut => cases cut.2.choose_spec
  | unknown =>
    rw [Amounts] at amounts
    cases amounts

end Interpreter

/-! ## All that happens around an engine -/

/-- An interpreter that reports branches as its own. -/
def adopting : Interpreter Unit where
  policies := { conditionalResults := .adopt }
  authority := openEngine.authority
  isCancelled _ := false

end Runbook
