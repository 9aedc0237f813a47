import Runbook.Proofs.Records
import Runbook.Proofs.Writing

/-! # Results are shown as records

Whatever a step is, its result and every result in its details have the details of some kind of step, so that their
records keep the standard fields. A result as an object can be in a record only if it was in a literal of the step, in
a variable, in what a tool answered or in an operator's note. Where those are documents, none is.
-/

namespace Runbook

open Interpreter

/-! ## Where values come from -/

/-- The values that stand in the definition of a step, apart from the steps inside it, and can be shown of it. -/
def Step.literals : Step → List Value
  | tool _ _ parameters outputs => [.dict parameters, .dict outputs]
  | command _ line _ outputs => [line, .dict outputs]
  | loop _ items itemVariable indexVariable _ _ => [items, itemVariable, indexVariable]
  | manual common instructions => [instructions, common.description]
  | conditional .. | parallel .. | delay .. | unknown .. => []

/-- The value stands in the definition of the step or of one inside it. -/
inductive Step.Literal : Step → Value → Prop
  | own {step : Step} {v : Value} (member : v ∈ step.literals) : Literal step v
  | within {inner step : Step} {v : Value} (inside : inner.Inside step) (literal : Literal inner v) : Literal step v

variable {Q : Value → Prop} {v : Value} {es : Entries}

/-! ### Steps that are read -/

theorem Value.Only.readTable (only : v.Only Q) (read : Step.readTable v = .ok es) : es.Only Q := by
  have table : (v.orElse (.dict [])).Only Q := only.orElse (only_dict.mpr Entries.only_nil)
  have listed : Entries.Only Q (v.orElse (.dict [])).listed.1 := by
    unfold Value.listed
    split
    · next same => exact only_dict.mp (same ▸ table)
    · split
      · exact Entries.only_nil
      · next items same => exact pairs_only (table.items? same) 0
  unfold Step.readTable Value.toEntries at read
  split at read
  · next entries same =>
    cases read
    rw [same] at listed
    exact Entries.only_nil.merge listed
  · cases read

theorem Entries.Only.first? (only : es.Only Q) {other : Value} (ofOther : other.Only Q) (names : List String) :
    ((es.first? names).getD other).Only Q := by
  cases found : es.first? names with
  | none => exact ofOther
  | some v =>
    obtain ⟨name, _, there⟩ := List.exists_of_findSome?_eq_some found
    exact only.get? there

namespace Step

/-- What stands in the definition of a step is of some kind if what stands in its own fields is, and in the steps
inside it. -/
theorem literal_of_parts {step : Step} (own : ∀ v ∈ step.literals, v.Only Q)
    (inner : ∀ s : Step, s.Inside step → ∀ v, s.Literal v → v.Only Q) : ∀ v, step.Literal v → v.Only Q := by
  intro v literal
  cases literal with
  | own member => exact own v member
  | within inside literal => exact inner _ inside v literal

theorem readCommon_only {c : Common} (only : es.Only Q) (read : Common.read es = .ok c) : c.description.Only Q := by
  obtain ⟨_, _, same⟩ := bind_eq_ok read
  cases same
  exact only.getD "description"

theorem readTool_only {c : Common} {step : Step} (only : es.Only Q) (read : readTool c es = .ok step) :
    ∀ v, step.Literal v → v.Only Q := by
  obtain ⟨parameters, first, read⟩ := bind_eq_ok read
  obtain ⟨outputs, second, same⟩ := bind_eq_ok read
  cases same
  have ofParameters := (only.getD "parameters").readTable first
  have ofOutputs := (only.getD "outputs").readTable second
  exact literal_of_parts (by simp [literals, ofParameters, ofOutputs]) nofun

theorem readCommand_only {c : Common} {step : Step} (only : es.Only Q) (read : readCommand c es = .ok step) :
    ∀ v, step.Literal v → v.Only Q := by
  obtain ⟨outputs, table, same⟩ := bind_eq_ok read
  cases same
  have ofOutputs := (only.getD "outputs").readTable table
  have ofLine : ((es.get? "command").getD (.text "")).Only Q := by
    cases found : es.get? "command" with
    | none => exact Value.only_text ""
    | some v => exact only.get? found
  exact literal_of_parts (by simp [literals, ofLine, ofOutputs]) nofun

mutual

theorem readFields_only {step : Step} (es : Entries) (only : es.Only Q) (ok : readFields es = .ok step) :
    ∀ v, step.Literal v → v.Only Q := by
  rw [readFields] at ok
  obtain ⟨c, common, ok⟩ := bind_eq_ok ok
  split at ok
  case _ => exact readTool_only only ok
  case _ => exact readCommand_only only ok
  case _ =>
    obtain ⟨_, _, ok⟩ := bind_eq_ok ok
    obtain ⟨thenStep, first, ok⟩ := bind_eq_ok ok
    obtain ⟨elseStep, second, same⟩ := bind_eq_ok ok
    cases same
    refine literal_of_parts nofun fun s inside => ?_
    obtain ⟨met, chosen⟩ : ∃ met, branchOf met thenStep elseStep = some s := by
      cases inside with
      | branch chosen => exact ⟨_, chosen⟩
    cases met with
    | true => exact readOptional_only (es.getD "then") (only.getD "then") first s chosen
    | false => exact readOptional_only (es.getD "else") (only.getD "else") second s chosen
  case _ =>
    obtain ⟨limit, _, ok⟩ := bind_eq_ok ok
    obtain ⟨body, inner, same⟩ := bind_eq_ok ok
    cases same
    have ofItems := only.getD "items"
    have ofItem := only.first? (Value.only_text defaultItemVariable) ["itemVariable", "item_variable"]
    have ofIndex := only.first? (Value.only_text defaultIndexVariable) ["indexVariable", "index_variable"]
    refine literal_of_parts (by simp [literals, ofItems, ofItem, ofIndex]) fun s inside => ?_
    obtain rfl : body = some s := by
      cases inside
      rfl
    exact readOptional_only (es.getD "step") (only.getD "step") inner s rfl
  case _ =>
    obtain ⟨steps, inner, same⟩ := bind_eq_ok ok
    cases same
    refine literal_of_parts nofun fun s inside => ?_
    have member : s ∈ steps := by
      cases inside with
      | side member => exact member
    exact readBranches_only (es.getD "steps") (only.getD "steps") inner s member
  case _ =>
    cases ok
    exact literal_of_parts nofun nofun
  case _ =>
    cases ok
    have ofInstructions := only.getD "instructions"
    have ofDescription := readCommon_only only common
    exact literal_of_parts (by simp [literals, ofInstructions, ofDescription]) nofun
  case _ =>
    cases ok
    exact literal_of_parts nofun nofun
termination_by 3 * sizeOf (Value.dict es)
decreasing_by
  · have := Entries.sizeOf_getD es "else"
    omega
  · have := Entries.sizeOf_getD es "then"
    omega
  · have := Entries.sizeOf_getD es "step"
    omega
  · have := Entries.sizeOf_getD es "steps"
    omega

/-- What stands in a step that is read from a value stands in the value. -/
theorem read_only {step : Step} (v : Value) (only : v.Only Q) (ok : read v = .ok step) :
    ∀ v, step.Literal v → v.Only Q := by
  unfold read at ok
  split at ok
  · next es => exact readFields_only es (Value.only_dict.mp only) ok
  · cases ok
termination_by 3 * sizeOf v + 1

theorem readOptional_only {step : Option Step} (v : Value) (only : v.Only Q) (ok : readOptional v = .ok step) :
    ∀ s, step = some s → ∀ v, s.Literal v → v.Only Q := by
  rintro s rfl
  unfold readOptional at ok
  split at ok
  · cases ok
  · obtain ⟨s, ok, same⟩ := map_eq_ok ok
    cases same
    exact read_only v only ok
termination_by 3 * sizeOf v + 2

theorem readBranches_only {steps : List Step} (v : Value) (only : v.Only Q) (ok : readBranches v = .ok steps) :
    ∀ s ∈ steps, ∀ v, s.Literal v → v.Only Q := by
  unfold readBranches at ok
  split at ok
  · cases ok
    exact nofun
  · split at ok
    · next items _ => exact readAll_only items (Value.only_list.mp only) ok
    · cases ok
termination_by 3 * sizeOf v + 2

theorem readAll_only {steps : List Step} (items : List Value) (only : ∀ item ∈ items, item.Only Q)
    (ok : readAll items = .ok steps) : ∀ s ∈ steps, ∀ v, s.Literal v → v.Only Q := by
  match items with
  | [] =>
    rw [readAll] at ok
    cases ok
    exact nofun
  | v :: rest =>
    rw [readAll] at ok
    obtain ⟨mine, others⟩ := List.forall_mem_cons.mp only
    obtain ⟨first, head, ok⟩ := bind_eq_ok ok
    obtain ⟨later, tail, same⟩ := bind_eq_ok ok
    cases same
    exact List.forall_mem_cons.mpr ⟨read_only v mine head, readAll_only rest others tail⟩
termination_by 3 * sizeOf items

end

end Step

/-! ### Notes -/

/-- The note of an operator is told by the result, or by one in its details. -/
def StepResult.Note (r : StepResult) (note : Value) : Prop :=
  ∃ (part : StepResult) (instructions : Value) (token : String), part.Part r ∧
    part.details = .decision instructions token note

variable {σ : Type} {i : Interpreter σ} {d : Weather} {context : Context} {r : StepResult} {details : Details}
  {outputs : Entries} {error : Value} {success : Bool}

theorem StepResult.Note.outer {inner : StepResult} (member : inner ∈ r.details.results) (note : inner.Note v) :
    r.Note v := by
  obtain ⟨part, instructions, token, isPart, kind⟩ := note
  exact ⟨part, instructions, token, .within member isPart, kind⟩

/-- If results inside notes are of some kind, so are those inside everything that the result and its parts hold. -/
def StepResult.Pure (Q : Value → Prop) (r : StepResult) : Prop := (∀ note, r.Note note → note.Only Q) → r.Cleans Q

theorem StepResult.Pure.inner (pure : ∀ r' ∈ r.details.results, r'.Pure Q) (notes : ∀ note, r.Note note → note.Only Q) :
    ∀ r' ∈ r.details.results, r'.Cleans Q :=
  fun r' member => pure r' member fun _ note => notes _ (note.outer member)

namespace Interpreter

/-! ## Parts of an interpretation -/

theorem skipped_cleans (index : Int) : (StepResult.skipped index).Cleans Q :=
  StepResult.Clean.cleans ⟨trivial, Entries.only_nil, Value.only_null, List.forall_mem_nil _⟩ (List.forall_mem_nil _)

theorem ofError_cleans (index : Int) (message : String) (durationMs : Int) :
    (StepResult.ofError index (.text message) durationMs).Cleans Q :=
  StepResult.Clean.cleans ⟨trivial, Entries.only_nil, Value.only_text message, List.forall_mem_nil _⟩
    (List.forall_mem_nil _)

/-- The duration of a result is of no account. -/
theorem timed_cleans (cleans : r.Cleans Q) (durationMs : Int) : ({ r with durationMs }).Cleans Q :=
  have clean := cleans.clean
  StepResult.Clean.cleans ⟨clean.known, clean.outputs, clean.error, clean.values⟩ cleans.inner

theorem timed_pure (pure : r.Pure Q) (durationMs : Int) : ({ r with durationMs }).Pure Q := by
  intro notes
  apply timed_cleans
  apply pure
  rintro note ⟨part, instructions, token, isPart, kind⟩
  cases isPart with
  | whole => exact notes note ⟨_, instructions, token, .whole _, kind⟩
  | within member isPart => exact notes note ⟨part, instructions, token, .within member isPart, kind⟩

theorem finished_cleans (known : details.Known) (ofOutputs : outputs.Only Q) (ofError : error.Only Q)
    (values : ∀ v ∈ details.values, v.Only Q) (inner : ∀ r ∈ details.results, r.Cleans Q) :
    (finished context success details outputs error).Cleans Q :=
  StepResult.Clean.cleans ⟨known, ofOutputs, ofError, values⟩ inner

theorem tabulated_only (only : v.Only Q) : Entries.Only Q (tabulated v) := by
  unfold tabulated
  split
  · exact Value.only_dict.mp only
  · simp [only]

theorem callReport_cleans {raw : Entries} {otherwise : String} (known : details.Known) (plain : details.results = [])
    (ofRaw : raw.Only Q) (ofOutputs : outputs.Only Q) (values : ∀ v ∈ details.values, v.Only Q)
    (reports : callReport context outputs raw details otherwise = .ok r) : r.Cleans Q := by
  obtain ⟨published, read, same⟩ := bind_eq_ok reports
  cases same
  apply finished_cleans known ((Value.only_dict.mpr ofRaw).extract ofOutputs read) _ values (by simp [plain])
  unfold callError
  split
  · exact Value.only_null
  · exact (ofRaw.getD "error").orElse (Value.only_text _)

theorem callOutcome_cleans {details : Entries → Details} {otherwise : String} {raw : Except Interrupt Entries}
    (known : ∀ raw, (details raw).Known) (plain : ∀ raw, (details raw).results = [])
    (ofRaw : ∀ table, raw = .ok table → Entries.Only Q table) (ofOutputs : outputs.Only Q)
    (values : ∀ table : Entries, table.Only Q → ∀ v ∈ (details table).values, v.Only Q)
    (same : callOutcome context outputs details otherwise raw = .ok r) : r.Cleans Q := by
  cases raw with
  | error => cases same
  | ok table =>
    have ofTable := ofRaw table rfl
    exact callReport_cleans (known table) (plain table) ofTable ofOutputs (values table ofTable) (mapError_eq_ok same)

theorem roundScope_only {itemVariable indexVariable item : Value} {index : Nat} {scope : Entries}
    (ofItemVariable : itemVariable.Only Q) (ofIndexVariable : indexVariable.Only Q) (ofItem : item.Only Q)
    (scopes : roundScope itemVariable indexVariable item index = .ok scope) : scope.Only Q := by
  cases first : itemVariable.unhashable? with
  | some =>
    rw [roundScope, first] at scopes
    cases scopes
  | none =>
    cases second : indexVariable.unhashable? with
    | some =>
      rw [roundScope, first, second] at scopes
      cases scopes
    | none =>
      rw [roundScope, first, second] at scopes
      cases scopes
      apply Entries.only_nil.merge
      simp [ofItemVariable, ofIndexVariable, ofItem]

theorem frontOf_subset {xs ys : List Value} {limit : Value} (front : Value.frontOf xs limit = .ok ys) : ys ⊆ xs := by
  unfold Value.frontOf at front
  split at front
  · cases front
    exact List.Subset.refl xs
  · split at front
    · cases front
      split
      · exact List.take_subset _ xs
      · exact List.take_subset _ xs
    · cases front

theorem chosenItems_only {items : Value} {limit : Option Int} {body : Option Step} {chosen : List Value}
    (ofScope : context.scope.Only Q) (ofItems : items.Only Q)
    (chooses : i.chosenItems context items limit body = .ok chosen) : ∀ v ∈ chosen, v.Only Q := by
  obtain ⟨listed, looped, chooses⟩ := bind_eq_ok chooses
  have ofListed : ∀ v ∈ listed, v.Only Q := by
    have resolved : (items.resolve context.scope).Only Q := Value.Only.resolve ofScope ofItems
    unfold loopItems at looped
    split at looped
    · next same =>
      cases looped
      rw [same] at resolved
      exact Value.only_list.mp resolved
    · next same =>
      cases looped
      rw [same] at resolved
      exact Value.only_tuple.mp resolved
    · cases looped
  cases body with
  | none => cases chooses
  | some body =>
    obtain ⟨most, _, front⟩ := bind_eq_ok chooses
    exact fun v member => ofListed v (frontOf_subset front member)

/-! ## Rounds and branches -/

/-- What the rounds that have been run hold. -/
structure PureRounds (Q : Value → Prop) (rounds : Rounds) : Prop where
  items : ∀ round ∈ rounds.done, round.item.Only Q
  results : ∀ round ∈ rounds.done, round.result.Pure Q
  outputs : (∀ round ∈ rounds.done, round.result.Cleans Q) → rounds.outputs.Only Q

theorem PureRounds.recorded {rounds : Rounds} (pure : PureRounds Q rounds) (index : Nat) (ofItem : v.Only Q)
    (ofResult : r.Pure Q) : PureRounds Q (i.recorded rounds index v r) where
  items := List.forall_mem_cons.mpr ⟨ofItem, pure.items⟩
  results := List.forall_mem_cons.mpr ⟨ofResult, pure.results⟩
  outputs cleans := by
    obtain ⟨last, before⟩ := List.forall_mem_cons.mp cleans
    apply (pure.outputs before).merge
    split
    · exact last.clean.outputs
    · exact Entries.only_nil

theorem loopResult_pure {rounds : Rounds} (pure : PureRounds Q rounds) : (loopResult context rounds).Pure Q := by
  have results (cancelled : Bool) : ∀ r ∈ (Details.iterations rounds.done.reverse cancelled).results, r.Pure Q := by
    intro r member
    obtain ⟨round, listed, rfl⟩ := List.mem_map.mp member
    exact pure.results round (List.mem_reverse.mp listed)
  have values (cancelled : Bool) : ∀ v ∈ (Details.iterations rounds.done.reverse cancelled).values, v.Only Q := by
    intro v member
    obtain ⟨round, listed, rfl⟩ := List.mem_map.mp member
    exact pure.items round (List.mem_reverse.mp listed)
  unfold loopResult
  split
  · intro notes
    have inner := StepResult.Pure.inner (results true) notes
    exact finished_cleans trivial Entries.only_nil (Value.only_text _) (values true) inner
  · intro notes
    have inner := StepResult.Pure.inner (results false) notes
    have outputs : rounds.outputs.Only Q := by
      apply pure.outputs
      intro round listed
      exact inner round.result (List.mem_map_of_mem (List.mem_reverse.mpr listed))
    have known : (Details.iterations rounds.done.reverse false).Known := trivial
    apply finished_cleans known outputs _ (values false) inner
    split
    · exact Value.only_null
    · exact Value.only_text _

theorem adoptBranch_pure {met : Bool} {taken : Taken} (pure : r.Pure Q) :
    (i.adoptBranch context met taken r).Pure Q := by
  have results : ∀ r' ∈ (Details.branch met taken (some r)).results, r'.Pure Q := List.forall_mem_singleton.mpr pure
  unfold adoptBranch
  cases i.policies.conditionalResults with
  | nest =>
    intro notes
    exact finished_cleans trivial Entries.only_nil Value.only_null (List.forall_mem_nil _)
      (StepResult.Pure.inner results notes)
  | adopt =>
    intro notes
    have inner := StepResult.Pure.inner results notes
    have clean := (inner r List.mem_cons_self).clean
    exact finished_cleans trivial clean.outputs clean.error (List.forall_mem_nil _) inner

theorem parallelResult_pure {results : List StepResult} (pure : ∀ r ∈ results, r.Pure Q)
    (reports : parallelResult context results = .ok r) : r.Pure Q := by
  have sides : ∀ r ∈ (Details.branches results).results, r.Pure Q := pure
  unfold parallelResult at reports
  split at reports
  · cases reports
    intro notes
    exact finished_cleans trivial Entries.only_nil Value.only_null (List.forall_mem_nil _)
      (StepResult.Pure.inner sides notes)
  · obtain ⟨errors, _, same⟩ := bind_eq_ok reports
    cases same
    intro notes
    have error := (Value.only_text (Q := Q) errors).orElse (Value.only_text "Parallel branch failed")
    exact finished_cleans trivial Entries.only_nil error (List.forall_mem_nil _)
      (StepResult.Pure.inner sides notes)

theorem noticed_pure {instructions : Value} {outcome : Outcome} (ofInstructions : instructions.Only Q)
    (noticed : i.Noticed d context instructions outcome) (same : outcome = .ok r) : r.Pure Q := by
  cases noticed with
  | told =>
    cases same
    exact fun _ => finished_cleans trivial Entries.only_nil Value.only_null (by simpa [Details.values])
      (List.forall_mem_nil _)
  | approved _ token decision =>
    cases same
    intro notes
    have ofNote := notes decision.note ⟨_, instructions, token, .whole _, rfl⟩
    exact finished_cleans trivial Entries.only_nil Value.only_null
      (by simp [Details.values, ofInstructions, ofNote]) (List.forall_mem_nil _)
  | rejected _ token decision =>
    cases same
    intro notes
    have ofNote := notes decision.note ⟨_, instructions, token, .whole _, rfl⟩
    exact finished_cleans trivial Entries.only_nil (ofNote.orElse (Value.only_text _))
      (by simp [Details.values, ofInstructions, ofNote]) (List.forall_mem_nil _)
  | cut cut =>
    obtain ⟨_, _, rfl⟩ := cut
    cases same

/-! ## Steps of every kind -/

/-- What the definition of a step, the variables and the answers of tools hold is of some kind. -/
structure Supplies (Q : Value → Prop) (d : Weather) (step : Step) (context : Context) : Prop where
  literals : ∀ v, step.Literal v → v.Only Q
  scope : context.scope.Only Q
  answers : ∀ name parameters v, d.Answers (.tool name parameters) (.ok v) → v.Only Q

theorem Supplies.own {step : Step} (supplies : Supplies Q d step context) : ∀ v ∈ step.literals, v.Only Q :=
  fun _ member => supplies.literals _ (.own member)

/-- They are for the steps inside the step, with more variables of the kind. -/
theorem Supplies.inner {step inner : Step} {scope : Entries} (supplies : Supplies Q d step context)
    (inside : inner.Inside step) (more : scope.Only Q) : Supplies Q d inner (context.derive scope) where
  literals _ literal := supplies.literals _ (.within inside literal)
  scope := supplies.scope.merge more
  answers := supplies.answers

theorem Called.only {parameters raw : Entries} {tool : Value} {answer : Except Interrupt Entries}
    (answers : ∀ name parameters v, d.Answers (.tool name parameters) (.ok v) → v.Only Q)
    (called : i.Called d context parameters tool answer) (same : answer = .ok raw) : raw.Only Q := by
  cases called with
  | unknown | refused => cases same
  | @answered name memory answer _ _ given =>
    obtain ⟨v, rfl, rfl⟩ := map_eq_ok same
    exact tabulated_only (answers name parameters v given)

variable {common : Step.Common}

/-- What the steps inside a step come to, with more variables of the kind, is of the kind as well. -/
def InnerPure (Q : Value → Prop) (i : Interpreter σ) (d : Weather) (step : Step) (context : Context) : Prop :=
  ∀ (inner : Step) (scope : Entries) (r : StepResult), inner.Inside step → scope.Only Q →
    i.ComesNested d inner (context.derive scope) (.ok r) → r.Pure Q

theorem tool_pure {name : String} {parameters outputs : Entries}
    (supplies : Supplies Q d (.tool common name parameters outputs) context)
    (amounts : i.Amounts d (.tool common name parameters outputs) context (.ok r)) : r.Pure Q := by
  rw [Amounts] at amounts
  obtain ⟨raw, called, same⟩ := amounts
  obtain ⟨ofParameters, ofOutputs⟩ : Entries.Only Q parameters ∧ Entries.Only Q outputs := by
    simpa [Step.literals] using supplies.own
  have ofResolved : Entries.Only Q (Value.resolveEntries context.scope parameters) :=
    Value.Only.resolveEntries supplies.scope ofParameters
  have known (raw : Entries) : (Details.tool name (Value.resolveEntries context.scope parameters) raw).Known := trivial
  intro _
  apply callOutcome_cleans known (fun _ => rfl) (fun _ => called.only supplies.answers) ofOutputs _ same.symm
  intro table ofTable
  simp [Details.values, ofResolved, ofTable]

theorem command_pure {line directory : Value} {outputs : Entries}
    (supplies : Supplies Q d (.command common line directory outputs) context)
    (amounts : i.Amounts d (.command common line directory outputs) context (.ok r)) : r.Pure Q := by
  rw [Amounts] at amounts
  obtain ⟨raw, called, same⟩ := amounts
  obtain ⟨ofLine, ofOutputs⟩ : line.Only Q ∧ Entries.Only Q outputs := by
    simpa [Step.literals] using supplies.own
  have ofResolved : (line.resolve context.scope).Only Q := Value.Only.resolve supplies.scope ofLine
  have known (raw : Entries) : (Details.command (line.resolve context.scope) raw).Known := trivial
  intro _
  apply callOutcome_cleans known (fun _ => rfl) (fun _ => called.only supplies.answers) ofOutputs _ same.symm
  intro table ofTable
  simp [Details.values, ofResolved, ofTable]

theorem conditional_pure {conditions : List Condition} {thenStep elseStep : Option Step}
    (inner : InnerPure Q i d (.conditional common conditions thenStep elseStep) context)
    (amounts : i.Amounts d (.conditional common conditions thenStep elseStep) context (.ok r)) : r.Pure Q := by
  rw [Amounts] at amounts
  rcases amounts with ⟨_, _, same⟩ | ⟨met, _, _, same⟩ | ⟨met, branch, chosen, came, _, comes, same⟩
  · cases same
  · cases same
    intro _
    exact finished_cleans trivial Entries.only_nil Value.only_null (List.forall_mem_nil _) (List.forall_mem_nil _)
  · obtain ⟨result, rfl, rfl⟩ := map_eq_ok same.symm
    exact adoptBranch_pure (inner _ _ _ (.branch chosen) Entries.only_nil comes)

theorem loop_pure {items itemVariable indexVariable : Value} {limit : Option Int} {body : Option Step}
    (supplies : Supplies Q d (.loop common items itemVariable indexVariable limit body) context)
    (inner : InnerPure Q i d (.loop common items itemVariable indexVariable limit body) context)
    (amounts : i.Amounts d (.loop common items itemVariable indexVariable limit body) context (.ok r)) : r.Pure Q := by
  rw [Amounts] at amounts
  rcases amounts with ⟨_, _, same⟩ | ⟨chosen, round, rfl, rounds, chooses, rounding, same⟩
  · cases same
  · obtain ⟨done, rfl, rfl⟩ := map_eq_ok same.symm
    obtain ⟨ofItems, ofItemVariable, ofIndexVariable⟩ :
        items.Only Q ∧ itemVariable.Only Q ∧ indexVariable.Only Q := by
      simpa [Step.literals] using supplies.own
    apply loopResult_pure
    apply rounding.keeps (PureRounds Q) (·.Only Q) _ _ _ (chosenItems_only supplies.scope ofItems chooses) rfl
    · exact fun _ pure => ⟨pure.items, pure.results, pure.outputs⟩
    · intro _ index _ _ _ ofItem scopes comes pure
      have more := roundScope_only ofItemVariable ofIndexVariable ofItem scopes
      exact pure.recorded index ofItem (inner _ _ _ .round more comes)
    · exact ⟨List.forall_mem_nil _, List.forall_mem_nil _, fun _ => Entries.only_nil⟩

theorem parallel_pure {branches : List Step}
    (inner : InnerPure Q i d (.parallel common branches) context)
    (amounts : i.Amounts d (.parallel common branches) context (.ok r)) : r.Pure Q := by
  rw [Amounts] at amounts
  rcases amounts with ⟨outcomes, each, same⟩ | ⟨_, _, same⟩
  · have pure : ∀ outcome ∈ outcomes, ∀ r, outcome = .ok r → r.Pure Q := by
      rintro _ member r rfl
      obtain ⟨branch, listed, comes | ⟨_, _, cut⟩⟩ := each.exists_of_mem member
      · exact inner _ _ _ (.side listed) Entries.only_nil comes
      · cases cut
    cases settles : settled context outcomes with
    | error =>
      rw [joined, settles] at same
      cases same
    | ok results =>
      rw [joined, settles] at same
      have faulty (message : String) (ms : Int) := ofError_cleans (Q := Q) context.stepIndex message ms
      exact parallelResult_pure (every_settled (fun message ms _ => faulty message ms) pure settles)
        (mapError_eq_ok same.symm)
  · cases same

theorem delay_pure {duration : Value} (amounts : i.Amounts d (.delay common duration) context (.ok r)) :
    r.Pure Q := by
  rw [Amounts] at amounts
  rcases amounts with same | ⟨_, _, same⟩
  · obtain ⟨ms, _, rfl⟩ := map_eq_ok (mapError_eq_ok same.symm)
    intro _
    exact finished_cleans trivial Entries.only_nil Value.only_null (List.forall_mem_nil _) (List.forall_mem_nil _)
  · cases same

theorem manual_pure {instructions : Value}
    (supplies : Supplies Q d (.manual common instructions) context)
    (amounts : i.Amounts d (.manual common instructions) context (.ok r)) : r.Pure Q := by
  rw [Amounts] at amounts
  obtain ⟨ofInstructions, ofDescription⟩ : instructions.Only Q ∧ common.description.Only Q := by
    simpa [Step.literals] using supplies.own
  exact noticed_pure (Value.Only.resolve supplies.scope (ofInstructions.orElse ofDescription)) amounts rfl

theorem amounts_pure {step : Step} (supplies : Supplies Q d step context) (inner : InnerPure Q i d step context)
    (amounts : i.Amounts d step context (.ok r)) : r.Pure Q := by
  cases step with
  | tool => exact tool_pure supplies amounts
  | command => exact command_pure supplies amounts
  | conditional => exact conditional_pure inner amounts
  | loop => exact loop_pure supplies inner amounts
  | parallel => exact parallel_pure inner amounts
  | delay => exact delay_pure amounts
  | manual => exact manual_pure supplies amounts
  | unknown =>
    rw [Amounts] at amounts
    cases amounts

/-- Whatever a step is, its result holds only what was supplied and what notes hold. -/
theorem Comes.pure {step : Step} {outcome : Outcome} (comes : i.Comes d step context outcome)
    (supplies : Supplies Q d step context) (same : outcome = .ok r) : r.Pure Q := by
  induction step using Step.byParts generalizing context outcome r with
  | whole step ih =>
  have nested : InnerPure Q i d step context := by
    intro inner scope r inside more comes
    rcases comes.skipped_or with rfl | comes
    · exact fun _ => skipped_cleans _
    · exact ih inner inside comes (supplies.inner inside more) rfl
  rw [Comes] at comes
  obtain ⟨_, came, reports⟩ := comes
  cases reports with
  | result r durationMs =>
    cases same
    exact timed_pure (amounts_pure supplies nested came) durationMs
  | fault cause durationMs =>
    cases same
    exact fun _ => ofError_cleans _ _ _
  | cancelled message => cases same

end Interpreter

/-! ## Results that are shown -/

/-- Where a result as an object can come from that is in a record. -/
inductive Brought (host : Host σ) (step : Step) (context : Context) (r : StepResult) (part : Value) : Prop
  | literal {v : Value} (literal : step.Literal v) (inside : part.Inside v)
  | scope (inside : part.Inside (.dict context.scope))
  | answer {name : String} {parameters : Entries} {v : Value}
      (answers : host.Answers True (.tool name parameters) (.ok v)) (inside : part.Inside v)
  | note {v : Value} (note : r.Note v) (inside : part.Inside v)

/-- What the record of a step's result shows. -/
structure Shown (host : Host σ) (step : Step) (context : Context) (r : StepResult) : Prop where
  /-- The record of the result, and of each that is somewhere in its details, keeps the standard fields and has a
  record for each result in the details. -/
  recorded : ∀ part : StepResult, part.Part r → part.RecordedIn part.entries
  /-- A result as an object is in the record only if it was in something that the step was supplied with. -/
  brought : ∀ part : Value, part.Inside r.toValue → part.isReport = true → Brought host step context r part
  /-- So there is none if the definition of the step, the variables, the answers of tools and the notes of operators
  are documents. -/
  plain : ∀ definition : Value, Step.read definition = .ok step → definition.IsDocument →
    (Value.dict context.scope).IsDocument →
    (∀ name parameters v, host.Answers True (.tool name parameters) (.ok v) → v.IsDocument) →
    (∀ note, r.Note note → note.IsDocument) → ∀ part : Value, part.Inside r.toValue → part.isReport = false

theorem Interpreter.Comes.shown {host : Host σ} {step : Step} {calm : ¬True → host.Calm}
    (comes : i.Comes (host.weather True calm) step context (.ok r)) : Shown host step context r := by
  have cleans : r.Cleans (Brought host step context r) := by
    apply comes.pure _ rfl
    · exact fun _ note part inside _ => .note note inside
    · exact {
        literals := fun _ literal part inside _ => .literal literal inside
        scope := Value.only_dict.mp fun part inside _ => .scope inside
        answers := fun _ _ _ answers part inside _ => .answer answers inside }
  refine ⟨fun part isPart => StepResult.recordedIn_entries (cleans part isPart).known, cleans.toValue, ?_⟩
  intro definition read document scope answers notes part inside
  cases report : part.isReport with
  | false => rfl
  | true =>
    have none {v : Value} (document : v.IsDocument) : v.Only fun _ => False := document.only
    exfalso
    cases cleans.toValue part inside report with
    | literal literal inside => exact Step.read_only definition (none document) read _ literal part inside report
    | scope inside => exact none scope part inside report
    | answer answered inside => exact none (answers _ _ _ answered) part inside report
    | note note inside => exact none (notes _ note) part inside report

/-- Whoever has a step interpreted, by itself or in an execution, and whatever happens meanwhile: the record of its
result keeps the standard fields of the result, and what is in it as an object was there before. -/
theorem results_shown (e : Engine σ) (host : Host σ) (time : Timeline) (i : Interpreter σ) (step : Step)
    (context : Context) :
    Machine.Gives e host time True (i.interpret step context)
        (fun outcome => ∀ r, outcome = .ok r → Shown host step context r) ∧
      ∀ m step context r, Machine.Develops e host time True m → .interpreted step context (.ok r) ∈ m.world.journal →
        Shown host step context r := by
  have auto : ¬True → e.config.policies.manualSteps = .auto := fun mild => absurd trivial mild
  have calm : ¬True → host.Calm := fun mild => absurd trivial mild
  constructor
  · refine .of_meets auto calm ((i.befits_true.interpret_meets step context).mono ?_)
    rintro _ comes r rfl
    exact comes.shown
  · intro m step context r develops member
    obtain ⟨id, comes⟩ := develops.comes auto calm member
    exact comes.shown

/-- A conditional step around a manual one that greets somebody. -/
def greetingStep : Step := .conditional {} [] (some (.manual {} (.text "Hello \x7b\x7bwho\x7d\x7d"))) none

/-- Where it is interpreted. -/
def greetingContext : Context := ⟨"exec", 0, [(.text "who", .text "Ada")], .text "code"⟩

/-- The result is that of the branch, which greets Ada. -/
def greetsAda (r : StepResult) : Bool :=
  match r.details with
  | .branch _ _ (some { details := .notice (.text "Hello Ada"), .. }) => true
  | _ => false

theorem not_note_of_greetsAda (greets : greetsAda r = true) : ¬r.Note v := by
  rintro ⟨part, instructions, token, isPart, kind⟩
  unfold greetsAda at greets
  split at greets
  · next same =>
    cases isPart with
    | whole => cases same.symm.trans kind
    | within member isPart =>
      rw [same] at member
      obtain rfl := List.mem_singleton.mp member
      cases isPart with
      | whole => cases kind
      | within member => cases member
  · cases greets

theorem greeting_read : Step.read greetingStep.written = .ok greetingStep := by
  apply Step.read_written
  apply Step.WellTyped.conditional
  · rintro _ ⟨⟩
    exact .manual {} _
  · exact nofun

theorem greeting_document : greetingStep.written.IsDocument := by
  have branch : (Value.record [("type", .text "manual"), ("conditions", .list []), ("optional", .bool false),
      ("instructions", .text "Hello \x7b\x7bwho\x7d\x7d")]).IsDocument := by
    apply Value.isDocument_record (by simp)
    simp [Value.IsDocument.text, Value.IsDocument.bool, Value.IsDocument.list]
  have same : greetingStep.written = Value.record [("type", .text "conditional"), ("conditions", .list []),
      ("optional", .bool false), ("condition", .list []), ("then", Value.record [("type", .text "manual"),
        ("conditions", .list []), ("optional", .bool false),
        ("instructions", .text "Hello \x7b\x7bwho\x7d\x7d")])] := rfl
  rw [same]
  apply Value.isDocument_record (by simp)
  simp [Value.IsDocument.text, Value.IsDocument.bool, Value.IsDocument.list, branch]

/-- Documents are all that the step is supplied with; so its record is one of records only. -/
theorem greeting_shown : ∃ r, (Machine.attempting openEngine idleHost
      (adopting.interpret greetingStep greetingContext) () 40).Left 0 (.ok r) ∧ greetsAda r = true ∧
    (∀ part : StepResult, part.Part r → part.RecordedIn part.entries) ∧
    ∀ part : Value, part.Inside r.toValue → part.isReport = false := by
  obtain ⟨outcome, left, tested⟩ := Machine.exists_left_of_any (m := Machine.attempting openEngine idleHost
      (adopting.interpret greetingStep greetingContext) () 40) (t := 0) (p := isResult greetsAda) (by decide +kernel)
  have gives := (results_shown openEngine idleHost stillTime adopting greetingStep greetingContext).1
  have shows := gives.kept _ _ outcome (Machine.stay_attempting ..) left
  cases outcome with
  | error => cases tested
  | ok r =>
    have shown := shows r rfl
    have scope : (Value.record [("who", .text "Ada")]).IsDocument := by
      apply Value.isDocument_record (by simp)
      exact List.forall_mem_singleton.mpr (.text _)
    refine ⟨r, left, tested, shown.recorded, shown.plain _ greeting_read greeting_document scope ?_ ?_⟩
    · rintro name parameters v ⟨⟩
      exact .null
    · exact fun note told => absurd told (not_note_of_greetsAda tested)

end Runbook
