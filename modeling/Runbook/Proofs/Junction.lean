import Runbook.Proofs.Coherence
import Runbook.Proofs.Parallel
import Runbook.Proofs.Presentation

/-! # What is left of branches

After its branches a parallel step puts together what they tell of their failures. That goes well as long as they
tell texts, and then its result holds one result for each branch, in order. A branch can pass on whatever a tool has
reported, though. If one has failed and one tells something that is no text, nothing is left of the branches but a
message about that.
-/

namespace Runbook

open Interpreter

variable {σ : Type} {e : Engine σ} {host : Host σ} {time : Timeline} {harsh : Prop} {i : Interpreter σ} {d : Weather}
  {context : Context} {outcome : Outcome} {results : List StepResult} {r : StepResult}

/-! ## Putting texts together -/

theorem Value.join_go_error (index : Nat) {before after : List Value} {v : Value}
    (texts : ∀ w ∈ before, w.asText?.isSome = true) (other : v.asText? = none) :
    Value.join.go index (before ++ v :: after) = .error (.notJoinable (index + before.length) v.kind) := by
  induction before generalizing index with
  | nil => cases v <;> first | rfl | cases other
  | cons w before ih =>
    obtain ⟨mine, others⟩ := List.forall_mem_cons.mp texts
    have later := ih (index + 1) others
    rw [Nat.add_assoc, Nat.add_comm 1] at later
    cases w with
    | text | status => rw [List.cons_append, Value.join.go, later]; rfl
    | _ => cases mine

/-- What is no text cannot be put together with texts, and the first of its kind is named. -/
theorem Value.join_error (separator : String) {before after : List Value} {v : Value}
    (texts : ∀ w ∈ before, w.asText?.isSome = true) (other : v.asText? = none) :
    Value.join separator (before ++ v :: after) = .error (.notJoinable before.length v.kind) := by
  rw [Value.join, Value.join_go_error 0 texts other, Nat.zero_add]
  rfl

/-- What the branches of a parallel step tell of their failures. -/
def told (results : List StepResult) : List Value := (results.map (·.error)).filter (·.truthy)

/-- Unless the results tell only texts there is a first one that does not. -/
theorem exists_told {result : StepResult} (member : result ∈ results) (unspoken : ¬result.error.Spoken) :
    ∃ before v after, told results = before ++ v :: after ∧ (∀ w ∈ before, w.asText?.isSome = true) ∧
      v.asText? = none := by
  obtain ⟨truthy, silent⟩ := Classical.not_imp.mp unspoken
  have among : result.error ∈ told results := List.mem_filter.mpr ⟨List.mem_map_of_mem member, truthy⟩
  have some : ((told results).find? (·.asText?.isNone)).isSome = true :=
    List.find?_isSome.mpr ⟨result.error, among, by simpa using silent⟩
  obtain ⟨v, found⟩ := Option.isSome_iff_exists.mp some
  obtain ⟨other, before, after, same, texts⟩ := List.find?_eq_some_iff_append.mp found
  refine ⟨before, v, after, same, fun w listed => ?_, by simpa using other⟩
  simpa [Option.isSome_iff_ne_none] using texts w listed

namespace Interpreter

/-! ## Results put together -/

/-- What a parallel step makes of the results of its branches. -/
structure Joins (context : Context) (results : List StepResult) (r : StepResult) : Prop where
  /-- It is in error if a branch has failed and a branch tells something that is no text. -/
  error_iff : r.status = .error ↔
    (∃ result ∈ results, result.countsAsSuccess = false) ∧ ∃ result ∈ results, ¬result.error.Spoken
  /-- Otherwise it has all of the results, and is successful if each of them counts as a success. -/
  kept : r.status ≠ .error → r.details = .branches results ∧ r.outputs = [] ∧
    (r.success = true ∧ r.status = .completed ∧ (∀ result ∈ results, result.countsAsSuccess = true) ∨
      r.success = false ∧ r.status = .failed ∧ ∃ result ∈ results, result.countsAsSuccess = false)
  /-- If it is in error, it tells of the first that is no text, and of nothing else. -/
  lost : r.status = .error → ∃ before v after, told results = before ++ v :: after ∧
    (∀ w ∈ before, w.asText?.isSome = true) ∧ v.asText? = none ∧
    r = .ofError context.stepIndex (.text (Fault.notJoinable before.length v.kind).message) r.durationMs

/-- If a branch has failed and one tells something that is no text, the results cannot be put together. -/
theorem parallelResult_error {result : StepResult} (failing : ∃ result ∈ results, result.countsAsSuccess = false)
    (member : result ∈ results) (unspoken : ¬result.error.Spoken) :
    ∃ before v after, told results = before ++ v :: after ∧ (∀ w ∈ before, w.asText?.isSome = true) ∧
      v.asText? = none ∧ parallelResult context results = .error (.notJoinable before.length v.kind) := by
  obtain ⟨before, v, after, same, texts, other⟩ := exists_told member unspoken
  refine ⟨before, v, after, same, texts, other, ?_⟩
  unfold parallelResult
  rw [if_neg (by simpa using failing)]
  change (Value.join "; " (told results)).bind _ = _
  rw [same, Value.join_error _ texts other]
  rfl

/-- Otherwise they can. -/
theorem exists_finished (keeps : ¬((∃ result ∈ results, result.countsAsSuccess = false) ∧
      ∃ result ∈ results, ¬result.error.Spoken)) :
    ∃ error, parallelResult context results =
      .ok (finished context (results.all (·.countsAsSuccess)) (.branches results) [] error) := by
  by_cases all : results.all (·.countsAsSuccess) = true
  · refine ⟨.null, ?_⟩
    unfold parallelResult
    rw [if_pos all, all]
    rfl
  · refine exists_parallelResult context fun result member => ?_
    by_contra unspoken
    exact keeps ⟨by simpa using all, result, member, unspoken⟩

theorem joins_of_reports
    (reports : Reports context ((parallelResult context results).mapError .fault) outcome) :
    ∃ r, outcome = .ok r ∧ Joins context results r := by
  by_cases loses : (∃ result ∈ results, result.countsAsSuccess = false) ∧ ∃ result ∈ results, ¬result.error.Spoken
  · obtain ⟨failing, result, member, unspoken⟩ := loses
    obtain ⟨before, v, after, same, texts, other, fails⟩ := parallelResult_error failing member unspoken
    rw [fails] at reports
    cases reports with
    | fault =>
      exact ⟨_, rfl, iff_of_true rfl ⟨failing, result, member, unspoken⟩, fun kept => absurd rfl kept,
        fun _ => ⟨before, v, after, same, texts, other, rfl⟩⟩
  · obtain ⟨error, same⟩ := exists_finished loses
    rw [same] at reports
    cases all : results.all (·.countsAsSuccess) with
    | true =>
      rw [all] at reports
      cases reports
      exact ⟨_, rfl, iff_of_false nofun loses, fun _ => ⟨rfl, rfl, .inl ⟨rfl, rfl, List.all_eq_true.mp all⟩⟩, nofun⟩
    | false =>
      rw [all] at reports
      cases reports
      exact ⟨_, rfl, iff_of_false nofun loses, fun _ => ⟨rfl, rfl, .inr ⟨rfl, rfl, by simpa using all⟩⟩, nofun⟩

/-! ## The outcomes of branches -/

theorem counts_of_settled {outcomes : List Outcome} (settles : settled context outcomes = .ok results) :
    List.Forall₂ (CountsAs context) outcomes results := by
  induction outcomes generalizing results with
  | nil =>
    cases settles
    exact .nil
  | cons first rest ih =>
    rcases first with (fault | message) | result
    · obtain ⟨others, same, rfl⟩ := map_eq_ok settles
      exact .cons (.fault fault) (ih same)
    · cases settles
    · obtain ⟨others, same, rfl⟩ := map_eq_ok settles
      exact .cons (.result result) (ih same)

theorem cancelled_of_settled {outcomes : List Outcome} {interrupt : Interrupt}
    (settles : settled context outcomes = .error interrupt) : interrupt = .cancelled "" := by
  induction outcomes with
  | nil => cases settles
  | cons first rest ih =>
    rcases first with (fault | message) | result
    · rw [settled] at settles
      cases later : settled context rest with
      | error => exact ih (by rw [later] at settles ⊢; exact settles)
      | ok => rw [later] at settles; cases settles
    · cases settles
      rfl
    · rw [settled] at settles
      cases later : settled context rest with
      | error => exact ih (by rw [later] at settles ⊢; exact settles)
      | ok => rw [later] at settles; cases settles

/-- The results are those of the branches, one for each and in order: what each can come to alone. -/
def Branched (i : Interpreter σ) (d : Weather) (context : Context) (steps : List Step) (results : List StepResult) :
    Prop :=
  List.Forall₂ (fun step result => ∃ alone, i.ComesNested d step context alone ∧ CountsAs context alone result) steps
    results

theorem ComesEach.branched {steps : List Step} {outcomes : List Outcome}
    (each : i.ComesEach d steps (context.derive []) outcomes)
    (counts : List.Forall₂ (CountsAs context) outcomes results) : i.Branched d context steps results := by
  have pairs := comesEach_iff.mp each
  clear each
  induction pairs generalizing results with
  | nil =>
    cases counts
    exact .nil
  | cons came pairs ih =>
    cases counts with
    | cons mine counts =>
      refine .cons ⟨_, came.resolve_right ?_, mine⟩ (ih counts)
      rintro ⟨_, message, rfl⟩
      cases mine

theorem Branched.spoken {steps : List Step} (branched : i.Branched d context steps results) (plain : d.Plain)
    (auto : i.policies.manualSteps = .auto) : ∀ result ∈ results, result.error.Spoken := by
  induction branched with
  | nil => exact List.forall_mem_nil _
  | cons mine _ ih =>
    obtain ⟨alone, came, counts⟩ := mine
    refine List.forall_mem_cons.mpr ⟨?_, ih⟩
    cases counts with
    | result => exact came.spoken plain auto
    | fault => exact Value.spoken_text _

/-- What a parallel step comes to, whatever its branches do: unless it is cancelled, to what it makes of the results
of its branches. -/
theorem Comes.joins {common : Step.Common} {steps : List Step}
    (comes : i.Comes d (.parallel common steps) context outcome) :
    (d.harsh ∧ ∃ message, outcome = .error (.cancelled message)) ∨
      ∃ r results, outcome = .ok r ∧ i.Branched d context steps results ∧ Joins context results r := by
  have bears := comes.bears
  rw [Comes] at comes
  obtain ⟨inner, amounts, reports⟩ := comes
  have cut {message : String} (same : inner = .error (.cancelled message)) :
      d.harsh ∧ ∃ message, outcome = .error (.cancelled message) := by
    subst same
    cases reports
    exact ⟨bears message rfl, message, rfl⟩
  rw [Amounts] at amounts
  rcases amounts with ⟨outcomes, each, rfl⟩ | ⟨_, message, same⟩
  · cases settles : settled context outcomes with
    | error interrupt =>
      obtain rfl := cancelled_of_settled settles
      exact .inl (cut (by rw [joined, settles]))
    | ok results =>
      rw [joined, settles] at reports
      obtain ⟨r, rfl, joins⟩ := joins_of_reports reports
      exact .inr ⟨r, results, rfl, each.branched (counts_of_settled settles), joins⟩
  · exact .inl (cut same)

end Interpreter

/-! ## All that happens around an engine -/

/-- Unless it is cancelled, a parallel step comes to a result, whatever its branches come to, and there is a result of
each branch. The parallel step has them all, in order, unless one of them failed and one tells something that is no
text; then it is in error and has none of them. It does not come to that if the errors are texts that tools report, and
no operator is waited for. -/
theorem results_kept_unless_unspoken (befits : i.Befits harsh) (auto : ¬harsh → e.config.policies.manualSteps = .auto)
    (calm : ¬harsh → host.Calm) (common : Step.Common) (steps : List Step) (context : Context) :
    Machine.Gives e host time harsh (i.interpret (.parallel common steps) context) fun outcome =>
      (harsh ∧ ∃ message, outcome = .error (.cancelled message)) ∨
      ∃ r results, outcome = .ok r ∧ i.Branched (host.weather harsh calm) context steps results ∧
        Joins context results r ∧
        ((host.weather harsh calm).Plain → i.policies.manualSteps = .auto → r.status ≠ .error) := by
  refine .of_meets auto calm ((befits.interpret_meets _ context).mono fun outcome comes => ?_)
  rcases comes.joins with cancelled | ⟨r, results, rfl, branched, joins⟩
  · exact .inl cancelled
  refine .inr ⟨r, results, rfl, branched, joins, fun plain auto inError => ?_⟩
  obtain ⟨_, result, member, unspoken⟩ := joins.error_iff.mp inError
  exact unspoken (branched.spoken plain auto result member)

/-- A call of a tool beside a step that does not fail. -/
def toolBesideDelay : Step := .parallel {} [.tool {} "probe" [] [], .delay {} (.int 0)]

theorem reportingHost_calm (error : Value) : (reportingHost error).Calm where
  tool _ _ := trivial
  observer _ _ := trivial
  courteous errand message answers := by
    cases errand with
    | tool => cases answers
    | observer =>
      obtain ⟨_, rfl, same⟩ := answers
      cases same

/-- The tool reports a text, and both results are there. -/
theorem told_text_kept : ∃ r first second, (Machine.attempting openEngine (reportingHost (.text "no"))
      ((openEngine.interpreter "exec").interpret toolBesideDelay ⟨"exec", 0, [], .text "code"⟩) () 60).Left 0 (.ok r) ∧
    r.details = .branches [first, second] ∧ r.status = .failed := by
  have befits : (openEngine.interpreter "exec").Befits False := Engine.befits (fun _ => rfl) "exec"
  have gives : Machine.Gives openEngine (reportingHost (.text "no")) stillTime False _ _ :=
    results_kept_unless_unspoken befits (fun _ => rfl) (fun _ => reportingHost_calm _) {}
      [.tool {} "probe" [] [], .delay {} (.int 0)] ⟨"exec", 0, [], .text "code"⟩
  obtain ⟨outcome, left, tested⟩ := Machine.exists_left_of_any (m := Machine.attempting openEngine
      (reportingHost (.text "no")) ((openEngine.interpreter "exec").interpret toolBesideDelay
        ⟨"exec", 0, [], .text "code"⟩) () 60) (t := 0) (p := isResult fun r => !r.success) (by decide +kernel)
  rcases gives.kept _ _ outcome (Machine.stay_attempting ..) left with ⟨harsh, _⟩ |
    ⟨r, results, rfl, branched, joins, spoken⟩
  · cases harsh
  have plain : ((reportingHost (.text "no")).weather False fun _ => reportingHost_calm _).Plain := by
    rintro name parameters report ⟨⟩
    exact Value.spoken_text "no"
  obtain ⟨details, _, ⟨success, _⟩ | ⟨_, failed, _⟩⟩ := joins.kept (spoken plain rfl)
  · rw [isResult, success] at tested
    cases tested
  · cases branched with
    | @cons _ first _ _ _ rest =>
      cases rest with
      | @cons _ second _ _ _ none =>
        cases none
        exact ⟨r, first, second, left, details, failed⟩

/-- The tool reports an object, and nothing is left of that or of what the other step has come to. -/
theorem told_object_loses : ∃ r, (Machine.attempting openEngine (reportingHost (Value.record [("code", .int 1)]))
      ((openEngine.interpreter "exec").interpret toolBesideDelay ⟨"exec", 0, [], .text "code"⟩) () 60).Left 0 (.ok r) ∧
    r.status = .error ∧ r.error.asText? = some "sequence item 0: expected str instance, dict found" ∧
    r.details.results = [] := by
  obtain ⟨outcome, left, tested⟩ := Machine.exists_left_of_any (m := Machine.attempting openEngine
      (reportingHost (Value.record [("code", .int 1)])) ((openEngine.interpreter "exec").interpret toolBesideDelay
        ⟨"exec", 0, [], .text "code"⟩) () 60) (t := 0)
    (p := isResult fun r => r.status == .error && (r.error.asText? ==
      some "sequence item 0: expected str instance, dict found") && r.details.results.isEmpty) (by decide +kernel)
  rcases outcome with _ | r
  · cases tested
  · simp only [isResult, Bool.and_eq_true, List.isEmpty_iff] at tested
    obtain ⟨⟨inError, message⟩, empty⟩ := tested
    exact ⟨r, left, eq_of_beq inError, eq_of_beq message, empty⟩

end Runbook
