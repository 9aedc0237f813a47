import Runbook.Proofs.Finality
import Runbook.Proofs.Provenance
import Runbook.Proofs.Responses

/-! # Executions that can be shown

The interface shows an execution only if what it shows as a text is one: the keys of its variables and of the
outputs of its results, and their errors. A single execution that cannot be shown spoils every list that it
stands in. What is no text comes in from outside: as a key of the workflow, of its caller or of a step's outputs,
or as what a tool or an operator gave for an error.
-/

namespace Runbook

open Web

variable {σ : Type} {x : Execution} {r : StepResult}

/-- A text, or something that is written as one. -/
def Value.IsText : Value → Prop
  | .text _ | .status _ => True
  | _ => False

/-- An error as the interface shows it: none, or a text. -/
def Value.IsNote (v : Value) : Prop := v = .null ∨ v.IsText

/-- Everything in an execution that has to be a text is one. -/
structure Execution.Presentable (x : Execution) : Prop where
  keys : ∀ key ∈ x.scope.keys, key.IsText
  outputs : ∀ r ∈ x.results, ∀ key ∈ r.outputs.keys, key.IsText
  errors : ∀ r ∈ x.results, r.error.IsNote

namespace Web

/-! ## What is out of place -/

/-- A query is answered before anybody else has a turn, and nothing changes: with a document if it can be shown,
and as a value that is not acceptable otherwise. -/
def Interface.Shows (i : Interface σ) (r : Request) (w : World σ) (v : Value) (presentable : Prop) : Prop :=
  ∀ number, ∃ response, (i.respond r number).ahead w = (.done response, w) ∧
    (presentable → response.status = 200 ∧ response.content = .document v) ∧
    (¬presentable → response.status = 400)

variable {i : Interface σ} {q : Request} {w : World σ} {id : String}

end Web

/-! ## Where errors come from -/

namespace StepResult

/-- A result has the error that came in from outside: what a tool reported, or what an operator noted; or it has
adopted such a result of its branch. -/
inductive Relays : StepResult → Prop
  | tool {r : StepResult} {name : String} {parameters raw : Entries} (call : r.details = .tool name parameters raw)
      (same : r.error = raw.getD "error") : Relays r
  | command {r : StepResult} {command : Value} {raw : Entries} (call : r.details = .command command raw)
      (same : r.error = raw.getD "error") : Relays r
  | operator {r : StepResult} {instructions note : Value} {token : String}
      (asked : r.details = .decision instructions token note) (same : r.error = note) : Relays r
  | branch {r inner : StepResult} {met : Bool} {taken : Taken} (adopted : r.details = .branch met taken (some inner))
      (same : r.error = inner.error) (relays : Relays inner) : Relays r

/-- The error of a result can be shown, or came in from outside. -/
def Accountable (r : StepResult) : Prop := r.error.IsNote ∨ r.Relays

theorem accountable_ofError (index : Int) (message : String) : (ofError index (.text message)).Accountable :=
  .inl (.inr trivial)

/-- The duration of a result is of no account. -/
theorem Relays.timed {durationMs : Int} (relays : r.Relays) : ({ r with durationMs } : StepResult).Relays := by
  cases relays with
  | tool call same => exact .tool call same
  | command call same => exact .command call same
  | operator asked same => exact .operator asked same
  | branch adopted same relays => exact .branch adopted same relays

end StepResult

namespace Interpreter

variable {context : Context} {success : Bool} {details : Details} {outputs raw : Entries} {error : Value}

theorem isNote_text (s : String) : (Value.text s).IsNote := .inr trivial

/-- The error of a call is none, or a text of its own, or what the tool reported. -/
theorem callError_cases (success : Bool) (raw : Entries) (otherwise : String) :
    (callError success raw otherwise).IsNote ∨ callError success raw otherwise = raw.getD "error" := by
  unfold callError
  split
  · exact .inl (.inl rfl)
  · unfold Value.orElse
    split
    · exact .inr rfl
    · exact .inl (isNote_text otherwise)

theorem timed_accountable {attempt : Attempt σ StepResult} (accountable : attempt.Ensures (·.Accountable)) :
    (timed context attempt).Ensures (·.Accountable) :=
  timed_ensures (StepResult.accountable_ofError _) (fun _ _ before => before.imp_right .timed) accountable

theorem checked_accountable {step : Step} {attempt : Attempt σ StepResult}
    (accountable : attempt.Ensures (·.Accountable)) : (checked step context attempt).Ensures (·.Accountable) := by
  refine .last fun holds => ?_
  cases holds with
  | true => exact accountable
  | false => exact .pure (.inl (.inl rfl))

theorem runTool_accountable (i : Interpreter σ) (name : String) (parameters mapping : Entries) (context : Context) :
    (i.runTool name parameters mapping context).Ensures (·.Accountable) :=
  .last fun raw => .last fun _ => .pure <|
    (callError_cases (raw.getD "success").truthy raw ("Tool '" ++ name ++ "' failed")).imp_right (.tool rfl)

theorem runCommand_accountable (i : Interpreter σ) (command directory : Value) (mapping : Entries)
    (context : Context) : (i.runCommand command directory mapping context).Ensures (·.Accountable) :=
  .last fun raw => .last fun _ => .pure <|
    (callError_cases (raw.getD "success").truthy raw _).imp_right (.command rfl)

theorem adoptBranch_accountable (i : Interpreter σ) (met : Bool) (taken : Taken) (accountable : r.Accountable) :
    (i.adoptBranch context met taken r).Accountable := by
  unfold adoptBranch
  cases i.policies.conditionalResults with
  | nest => exact .inl (.inl rfl)
  | adopt => exact accountable.imp_right (.branch rfl rfl)

theorem loopResult_accountable (done : Rounds) : (loopResult context done).Accountable := by
  unfold loopResult
  split
  · exact .inl (isNote_text _)
  · simp only
    split
    · exact .inl (.inl rfl)
    · exact .inl (isNote_text _)

theorem parallelResult_accountable {results : List StepResult} (result : parallelResult context results = .ok r) :
    r.Accountable := by
  unfold parallelResult at result
  split at result
  · cases result
    exact .inl (.inl rfl)
  · obtain ⟨errors, _, result⟩ := ok_of_bind result
    cases result
    refine .inl ?_
    change ((Value.text errors).orElse (.text "Parallel branch failed")).IsNote
    unfold Value.orElse
    split <;> exact isNote_text _

theorem runManual_accountable (i : Interpreter σ) (step : Step) (given : Value) (context : Context) :
    (i.runManual step given context).Ensures (·.Accountable) := by
  unfold runManual
  cases i.policies.manualSteps with
  | auto => exact .last fun _ => .pure (.inl (.inl rfl))
  | await =>
    refine .last fun token => .last fun _ => .last fun decision => ?_
    split
    · exact .pure (.inl (.inl rfl))
    · refine .pure ?_
      by_cases noted : decision.note.truthy = true
      · exact .inr (.operator rfl (by simp [finished, Value.orElse, noted]))
      · exact .inl (by simp [finished, Value.orElse, noted, isNote_text])

mutual

/-- The error of a step's result can be shown, or came in from outside. -/
theorem interpret_accountable (i : Interpreter σ) (step : Step) (context : Context) :
    (i.interpret step context).Ensures (·.Accountable) := by
  cases step with
  | tool common name parameters outputs =>
    rw [interpret]
    exact timed_accountable (runTool_accountable i name parameters outputs context)
  | command common command directory outputs =>
    rw [interpret]
    exact timed_accountable (runCommand_accountable i command directory outputs context)
  | conditional common condition thenStep elseStep =>
    rw [interpret]
    refine timed_accountable (.last fun met => ?_)
    split
    · next branch =>
      exact .bind (interpretNested_accountable i branch (context.derive [])) fun r accountable =>
        .pure (adoptBranch_accountable i true .thenBranch accountable)
    · next branch =>
      exact .bind (interpretNested_accountable i branch (context.derive [])) fun r accountable =>
        .pure (adoptBranch_accountable i false .elseBranch accountable)
    · exact .pure (.inl (.inl rfl))
  | loop common items itemVariable indexVariable limit body =>
    rw [interpret]
    refine timed_accountable (.last fun items => ?_)
    cases body with
    | none => exact .fail _
    | some body => exact .last fun limit => .last fun chosen => .last fun done => .pure (loopResult_accountable done)
  | parallel common steps =>
    rw [interpret]
    exact timed_accountable (.last fun ids => .last fun _ => .last fun outcomes => .last fun results =>
      .ofExcept fun r result => parallelResult_accountable result)
  | delay common delay =>
    rw [interpret]
    exact timed_accountable (.last fun ms => .last fun _ => .pure (.inl (.inl rfl)))
  | manual common instructions =>
    rw [interpret]
    exact timed_accountable (runManual_accountable i _ instructions context)
  | unknown common tag fields =>
    rw [interpret]
    exact timed_accountable (.fail _)

theorem interpretNested_accountable (i : Interpreter σ) (step : Step) (context : Context) :
    (i.interpretNested step context).Ensures (·.Accountable) := by
  rw [interpretNested]
  exact checked_accountable (interpret_accountable i step context)

end

end Interpreter

/-! ## Executions -/

variable {e : Engine σ} {host : Host σ} {spared : String → Prop} {m : Machine σ} {id : String} {mode : Value}
  {step : Step} {index : Nat} {scope : Entries} {journal : List Happening} {workflow : Workflow} {options : Options}

theorem Warranted.accountable (warranted : Warranted e id mode step index scope journal r) : r.Accountable := by
  unfold Warranted at warranted
  split at warranted
  · subst warranted
    exact StepResult.accountable_ofError index _
  · subst warranted
    exact .inl (.inl rfl)
  · obtain ⟨outcome, _, yields, result⟩ := warranted
    rcases outcome with (fault | message) | inner
    · obtain rfl := Option.some.inj result
      exact StepResult.accountable_ofError index _
    · cases result
    · obtain rfl : inner = r := Option.some.inj result
      exact Interpreter.interpret_accountable (e.interpreter id) step _ inner yields

/-- A name that is no text has come from outside: it is a variable of the workflow or of its caller, or an output
that a step declares. -/
def Misnamed (e : Engine σ) (workflow : Workflow) (options : Options) : Prop :=
  ∃ key : Value, ¬key.IsText ∧ (key ∈ workflow.scope.keys ∨
    (∃ given, (options.scope.orElse (.dict [])).mapping = .ok given ∧ key ∈ given.keys) ∨
    ∃ step ∈ workflow.steps, step.Declares e.config.policies key)

/-- The record of an execution that accounts for its results can be shown, unless a name or an error in it came in
from outside and is no text. -/
theorem Replays.presentable (replays : Replays e id workflow options x journal)
    (named : ¬Misnamed e workflow options) (told : ∀ r ∈ x.results, r.Relays → r.error.IsNote) : x.Presentable := by
  obtain ⟨given, mapping, walk, final⟩ := replays.fold
  have source (r : StepResult) (listed : r ∈ x.results) :
      r.error.IsNote ∧ ∀ key ∈ r.outputs.keys, key.IsText := by
    obtain ⟨i, found⟩ := List.mem_iff_getElem?.mp listed
    obtain ⟨step, standing, _, warranted⟩ := walk.warranted i r found
    constructor
    · rcases warranted.accountable with note | relays
      · exact note
      · exact told r listed relays
    · intro key member
      by_contra notText
      exact named ⟨key, notText, .inr (.inr ⟨step, List.mem_of_getElem? standing, warranted.within key member⟩)⟩
  refine ⟨fun key member => ?_, fun r listed => (source r listed).2, fun r listed => (source r listed).1⟩
  by_contra notText
  rw [final] at member
  refine named ⟨key, notText, ?_⟩
  rcases walk.keys member with initial | declared
  · exact (Entries.mem_keys_merge initial).imp_right fun own => .inl ⟨given, mapping, own⟩
  · exact .inr (.inr declared)

/-- Tools that report an error. -/
def reportingHost (error : Value) : Host Unit where
  tool _ _ := .done (.ok (Value.record [("success", .bool false), ("error", error)]))
  observer _ _ := .done (.ok ())

/-- The open engine after two executions, of a workflow without steps and of one whose first tool reports an
error. -/
def reported (error : Value) : Machine Unit :=
  ((Machine.blank () {}).executing openEngine (reportingHost error) emptyWorkflow .null 60).executing openEngine
    (reportingHost error) twoTools .null 60

end Runbook
