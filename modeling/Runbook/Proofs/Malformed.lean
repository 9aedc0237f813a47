import Runbook.Proofs.Rejections
import Runbook.Proofs.Responses

/-! # Definitions that cannot be read

A definition is refused as malformed where a part of it is missing or is no object or list. Tables of
parameters and outputs and numbers of iterations are taken from whatever stands in their fields, and what
cannot be taken so has a fault of its own, which is no refusal. Whether one meets such a fault depends on
nothing but the fields of the steps, however deep they stand in one another.
-/

namespace Runbook

open Web

variable {σ α β : Type} {es child inner : Entries} {v : Value} {fault : Fault}

/-! ## Steps in a definition -/

namespace Step

/-- The word in a table for the kind of its step. -/
def kindOf (es : Entries) : String := ((es.get? "type").map Value.toText).getD ""

/-- A table stands directly in another one as a step to run. -/
inductive Child (es : Entries) : Entries → Prop
  | branch {child : Entries} {field : String} (kind : kindOf es = "conditional") (known : field ∈ ["then", "else"])
      (there : es.getD field = .dict child) : Child es child
  | body {child : Entries} (kind : kindOf es = "loop") (there : es.getD "step" = .dict child) : Child es child
  | item {child : Entries} {items : List Value} (kind : kindOf es = "parallel")
      (there : es.getD "steps" = .list items) (listed : .dict child ∈ items) : Child es child

/-- A table is another one or stands in it as a step to run, however deep. -/
inductive Within : Entries → Entries → Prop
  | self (es : Entries) : Within es es
  | deeper {es child inner : Entries} (first : Child es child) (rest : Within child inner) : Within es inner

/-- A field of a step cannot be taken as the table or the number that the step needs. -/
inductive Unfit (es : Entries) : Fault → Prop
  | parameters {fault : Fault} (kind : kindOf es = "tool")
      (bad : readTable (es.getD "parameters") = .error fault) : Unfit es fault
  | outputs {fault : Fault} (kind : kindOf es ∈ ["tool", "command"])
      (bad : readTable (es.getD "outputs") = .error fault) : Unfit es fault
  | limit {fault : Fault} (kind : kindOf es = "loop") (bad : readLimit es = .error fault) : Unfit es fault

end Step

/-- A table stands in a definition as a step to run, however deep. -/
def Workflow.Part (v : Value) (inner : Entries) : Prop :=
  ∃ (entries : Entries) (steps : List Value) (top : Entries), v = .dict entries ∧
    entries.getD "steps" = .list steps ∧ .dict top ∈ steps ∧ Step.Within top inner

/-! ## Faults of taking a value -/

/-- A fault of taking a value as something else: its kind, or else what it is, does not allow that. -/
def Fault.Conversion (fault : Fault) : Prop :=
  fault.family = .type ∨ fault.family = .value ∨ fault.family = .overflow

theorem Value.pairs_fault (items : List Value) (index : Nat) (bad : (pairs index items).2 = some fault) :
    fault.Conversion := by
  induction items generalizing index with
  | nil => cases bad
  | cons v rest ih =>
    unfold pairs at bad
    split at bad
    · cases bad
      exact .inl rfl
    · split at bad
      · cases bad
        exact .inl rfl
      · exact ih _ bad
    · cases bad
      exact .inr (.inl rfl)

theorem Value.toEntries_fault (bad : v.toEntries = .error fault) : fault.Conversion := by
  unfold toEntries at bad
  split at bad
  · cases bad
  · rename_i listed
    cases bad
    unfold Value.listed at listed
    split at listed
    · cases listed
    · split at listed
      · cases listed
        exact .inl rfl
      · exact pairs_fault _ 0 (by rw [listed])

theorem Value.toInteger_fault (bad : v.toInteger = .error fault) : fault.Conversion := by
  unfold toInteger at bad
  repeat' split at bad
  all_goals cases bad
  · exact .inr (.inr rfl)
  · exact .inr (.inl rfl)
  · exact .inr (.inl rfl)
  · exact .inr (.inl rfl)
  · exact .inl rfl

theorem Step.Unfit.conversion (unfit : Step.Unfit es fault) : fault.Conversion := by
  cases unfit with
  | parameters _ bad => exact Value.toEntries_fault bad
  | outputs _ bad => exact Value.toEntries_fault bad
  | limit _ bad =>
    unfold Step.readLimit at bad
    split at bad
    · cases bad
    · cases bad
    · rename_i v _ _
      cases taken : v.toInteger with
      | ok n => simp [taken, Except.map] at bad
      | error other =>
        simp only [taken, Except.map, Except.error.injEq] at bad
        exact bad ▸ Value.toInteger_fault taken

/-! ## Faults of reading -/

/-- The fault is that a definition is malformed. -/
def Fault.Malformed (fault : Fault) : Prop := ∃ message, fault = .invalid message

theorem Condition.read_fails (v : Value) : FailsWith Fault.Malformed (Condition.read v) := by
  unfold Condition.read
  split
  · exact .ok _
  · split
    · exact .ok _
    · exact .error ⟨_, rfl⟩
  · exact .error ⟨_, rfl⟩

namespace Step

theorem readConditions_fails (v : Value) : FailsWith Fault.Malformed (readConditions v) := by
  unfold readConditions
  split
  · exact .ok _
  · exact (Condition.read_fails _).map _
  · exact .ok _
  · exact .mapM Condition.read_fails _
  · exact .mapM Condition.read_fails _
  · exact .error ⟨_, rfl⟩

/-- What becomes of a table that cannot be read: it is malformed, or a field of the step, or of one within it,
is unfit. -/
def Defect (es : Entries) (fault : Fault) : Prop :=
  fault.Malformed ∨ ∃ inner, Within es inner ∧ Unfit inner fault

/-- The same for a value that a step is read from. -/
def Flaw (v : Value) (fault : Fault) : Prop :=
  fault.Malformed ∨ ∃ es, v = .dict es ∧ Defect es fault

theorem Common.read_fails (es : Entries) : FailsWith (Defect es) (Common.read es) := by
  have conditions : FailsWith (Defect es) (readConditions (es.getD "conditions")) :=
    (readConditions_fails _).mono fun _ => .inl
  exact conditions.bind fun _ => .ok _

theorem Unfit.defect (unfit : Unfit es fault) : Defect es fault := .inr ⟨es, .self es, unfit⟩

theorem Flaw.defect (flaw : Flaw v fault) (inside : ∀ child, v = .dict child → Child es child) :
    Defect es fault := by
  rcases flaw with malformed | ⟨child, rfl, malformed | ⟨inner, within, unfit⟩⟩
  · exact .inl malformed
  · exact .inl malformed
  · exact .inr ⟨inner, .deeper (inside child rfl) within, unfit⟩

theorem readTool_fails (c : Common) (kind : kindOf es = "tool") : FailsWith (Defect es) (readTool c es) := by
  refine FailsWith.bind (fun _ bad => (Unfit.parameters kind bad).defect) fun _ => ?_
  exact FailsWith.bind (fun _ bad => (Unfit.outputs (by simp [kind]) bad).defect) fun _ => .ok _

theorem readCommand_fails (c : Common) (kind : kindOf es = "command") :
    FailsWith (Defect es) (readCommand c es) :=
  FailsWith.bind (fun _ bad => (Unfit.outputs (by simp [kind]) bad).defect) fun _ => .ok _

mutual

/-- A table that cannot be read is malformed, or a step in it has an unfit field. -/
theorem readFields_fails (es : Entries) : FailsWith (Defect es) (readFields es) := by
  rw [readFields]
  refine (Common.read_fails es).bind fun c => ?_
  split
  case _ kind => exact readTool_fails c kind
  case _ kind => exact readCommand_fails c kind
  case _ kind =>
    refine FailsWith.bind ((readConditions_fails _).mono fun _ => .inl) fun _ => ?_
    refine FailsWith.bind ((readOptional_fails (es.getD "then")).mono fun _ flaw => flaw.defect fun _ => ?_) fun _ => ?_
    · exact .branch kind (by simp)
    refine FailsWith.bind ((readOptional_fails (es.getD "else")).mono fun _ flaw => flaw.defect fun _ => ?_) fun _ => ?_
    · exact .branch kind (by simp)
    exact .ok _
  case _ kind =>
    refine FailsWith.bind (fun _ bad => (Unfit.limit kind bad).defect) fun _ => ?_
    refine FailsWith.bind ((readOptional_fails (es.getD "step")).mono fun _ flaw => flaw.defect fun _ => ?_) fun _ => ?_
    · exact .body kind
    exact .ok _
  case _ kind =>
    refine FailsWith.bind ?_ fun _ => .ok _
    refine (readBranches_fails (es.getD "steps")).mono ?_
    rintro fault (malformed | ⟨items, there, v, listed, flaw⟩)
    · exact .inl malformed
    · exact flaw.defect fun child same => .item kind there (same ▸ listed)
  case _ => exact .ok _
  case _ => exact .ok _
  case _ => exact .ok _
termination_by 3 * sizeOf (Value.dict es)
decreasing_by
  · have := Entries.sizeOf_getD es "then"
    omega
  · have := Entries.sizeOf_getD es "else"
    omega
  · have := Entries.sizeOf_getD es "step"
    omega
  · have := Entries.sizeOf_getD es "steps"
    omega

theorem read_fails (v : Value) : FailsWith (Flaw v) (read v) := by
  unfold read
  split
  · exact (readFields_fails _).mono fun _ defect => .inr ⟨_, rfl, defect⟩
  · exact .error (.inl ⟨_, rfl⟩)
termination_by 3 * sizeOf v + 1

theorem readOptional_fails (v : Value) : FailsWith (Flaw v) (readOptional v) := by
  unfold readOptional
  split
  · exact .ok _
  · exact (read_fails v).map _
termination_by 3 * sizeOf v + 2

theorem readBranches_fails (v : Value) :
    FailsWith (fun fault => fault.Malformed ∨ ∃ items, v = .list items ∧ ∃ item ∈ items, Flaw item fault)
      (readBranches v) := by
  unfold readBranches
  split
  · exact .ok _
  · split
    · exact (readAll_fails _).mono fun _ flawed => .inr ⟨_, rfl, flawed⟩
    · exact .error (.inl ⟨_, rfl⟩)
termination_by 3 * sizeOf v + 2

/-- Of several steps one is to blame. -/
theorem readAll_fails (items : List Value) :
    FailsWith (fun fault => ∃ item ∈ items, Flaw item fault) (readAll items) := by
  match items with
  | [] =>
    rw [readAll]
    exact .ok _
  | v :: rest =>
    rw [readAll]
    refine FailsWith.bind ((read_fails v).mono fun _ flaw => ⟨v, by simp, flaw⟩) fun _ => ?_
    refine FailsWith.bind ((readAll_fails rest).mono fun _ => ?_) fun _ => .ok _
    rintro ⟨item, listed, flaw⟩
    exact ⟨item, List.mem_cons_of_mem v listed, flaw⟩
termination_by 3 * sizeOf items

end

/-! ## What is read as a whole -/

theorem readOptional_dict (es : Entries) : readOptional (.dict es) = (readFields es).map some := by
  rw [readOptional, read]
  rfl

theorem readFields_of_readOptional {step : Option Step} (there : v = .dict child) (ok : readOptional v = .ok step) :
    ∃ s, readFields child = .ok s := by
  rw [there, readOptional_dict] at ok
  cases fields : readFields child with
  | ok s => exact ⟨s, rfl⟩
  | error fault => simp [fields, Except.map] at ok

theorem readFields_of_readAll {items : List Value} {steps : List Step} (listed : .dict child ∈ items)
    (ok : readAll items = .ok steps) : ∃ s, readFields child = .ok s := by
  induction items generalizing steps with
  | nil => cases listed
  | cons v rest ih =>
    rw [readAll] at ok
    obtain ⟨first, head, ok⟩ := ok_of_bind ok
    obtain ⟨others, tail, _⟩ := ok_of_bind ok
    rcases List.mem_cons.mp listed with rfl | later
    · rw [read] at head
      exact ⟨first, head⟩
    · exact ih later tail

/-- Where a table is read, so is every table that stands in it as a step. -/
theorem Child.readFields {step : Step} (inside : Child es child) (ok : readFields es = .ok step) :
    ∃ s, readFields child = .ok s := by
  rw [Step.readFields, ← kindOf] at ok
  obtain ⟨c, _, ok⟩ := ok_of_bind ok
  cases inside with
  | @branch field kind known there =>
    simp only [kind] at ok
    obtain ⟨_, _, ok⟩ := ok_of_bind ok
    obtain ⟨thenStep, first, ok⟩ := ok_of_bind ok
    obtain ⟨elseStep, second, ok⟩ := ok_of_bind ok
    simp only [List.mem_cons, List.not_mem_nil, or_false] at known
    rcases known with rfl | rfl
    · exact readFields_of_readOptional there first
    · exact readFields_of_readOptional there second
  | body kind there =>
    simp only [kind] at ok
    obtain ⟨_, _, ok⟩ := ok_of_bind ok
    obtain ⟨_, body, _⟩ := ok_of_bind ok
    exact readFields_of_readOptional there body
  | @item items kind there listed =>
    simp only [kind] at ok
    obtain ⟨steps, branches, _⟩ := ok_of_bind ok
    have some : (!(Value.list items).truthy) = false := by
      cases items with
      | nil => cases listed
      | cons => rfl
    rw [there, readBranches, some] at branches
    exact readFields_of_readAll listed branches

theorem Within.readFields {step : Step} (within : Within es inner) (ok : readFields es = .ok step) :
    ∃ s, readFields inner = .ok s := by
  induction within generalizing step with
  | self => exact ⟨step, ok⟩
  | deeper first _ ih =>
    obtain ⟨s, ok⟩ := first.readFields ok
    exact ih ok

end Step

namespace Workflow

theorem Outline.read_fails (v : Value) : FailsWith Fault.Malformed (Outline.read v) := by
  unfold Outline.read ofEntries
  repeat' split
  all_goals first | exact .ok _ | exact .error ⟨_, rfl⟩

/-- The steps of an outline are those of the definition. -/
theorem Outline.steps_of_read {outline : Outline} (ok : Outline.read v = .ok outline) :
    ∃ entries : Entries, v = .dict entries ∧ entries.getD "steps" = .list outline.steps := by
  unfold Outline.read ofEntries at ok
  split at ok
  · split at ok
    · rename_i listed
      split at ok
      · cases ok
        exact ⟨_, rfl, listed⟩
      · cases ok
    · cases ok
  · cases ok

/-- A definition that cannot be read is malformed, or a step in it has an unfit field. -/
theorem read_fails (generated : Nat) (v : Value) :
    FailsWith (fun fault => fault.Malformed ∨ ∃ inner, Part v inner ∧ Step.Unfit inner fault)
      (Workflow.read generated v).1 := by
  have completed {outline : Outline} (fallback : String) (outlined : Outline.read v = .ok outline) :
      FailsWith (fun fault => fault.Malformed ∨ ∃ inner, Part v inner ∧ Step.Unfit inner fault)
        (outline.complete fallback) := by
    refine FailsWith.bind ((Step.readAll_fails outline.steps).mono ?_) fun _ => .ok _
    rintro fault ⟨item, listed, malformed | ⟨top, rfl, malformed | ⟨inner, within, unfit⟩⟩⟩
    · exact .inl malformed
    · exact .inl malformed
    · obtain ⟨entries, same, steps⟩ := Outline.steps_of_read outlined
      exact .inr ⟨inner, ⟨entries, outline.steps, top, same, steps, listed, within⟩, unfit⟩
  unfold Workflow.read
  split
  · rename_i fault bad
    exact .error (.inl (Outline.read_fails v fault bad))
  · split <;> exact completed _ ‹_›

end Workflow

/-! ## What a submission is answered -/

theorem Fault.Malformed.reply (malformed : fault.Malformed) : fault.reply = 422 := by
  obtain ⟨message, rfl⟩ := malformed
  rfl

theorem Fault.Conversion.reply (conversion : fault.Conversion) : fault.reply = 400 ∨ fault.reply = 500 := by
  unfold Fault.reply
  rcases conversion with type | value | overflow
  · exact .inr (by rw [type])
  · exact .inl (by rw [value])
  · exact .inr (by rw [overflow])

/-- The request is for a submission that is filled in properly. -/
def Web.Interface.Brings (i : Interface σ) (r : Request) (s : Submission) : Prop :=
  (∃ id, i.Leads r .submit id) ∧ ∃ c, cargo r = .ok c ∧ Submission.ofCargo c = .ok s

theorem Web.Interface.Brings.dispatch {i : Interface σ} {r : Request} {s : Submission} (brings : i.Brings r s) :
    i.dispatch r = i.submit s := by
  obtain ⟨⟨id, leads⟩, c, carried, filled⟩ := brings
  rw [leads.dispatch]
  simp only [Interface.serve, Interface.withEntry, carried, filled]

/-- A submission that is rejected is answered with the status of the reason. -/
theorem Web.Interface.Brings.rejected {i : Interface σ} {r : Request} {s : Submission} {w : World σ}
    (brings : i.Brings r s) (number : Nat) (rejects : i.engine.Rejects (.dict s.workflow) s.options w fault) :
    ∃ response w', w.Intact w' ∧ (i.respond r number).ahead w = (.done response, w') ∧
      response.status = fault.reply := by
  have failed := Engine.submission_of_rejects rejects
  have started := (show i.engine.Submits _ s.options _ from .inr rfl).alone failed
  have dispatched : (ExceptT.run (i.dispatch r)).ahead w =
      (.done (.error (.fault fault)), (i.engine.submission (.dict s.workflow) s.options w).2) := by
    rw [brings.dispatch]
    exact Attempt.ahead_bind_error _ started
  obtain ⟨⟨id, leads⟩, _⟩ := brings
  obtain ⟨response, answered, answers⟩ := Interface.respond_ahead number (leads.plain (by simp)) dispatched
  exact ⟨response, _, Engine.submission_intact failed, answered, answers.status⟩

end Runbook
