import Mathlib.Data.List.Nodup
import Runbook.Proofs.Keys
import Runbook.Workflow

/-! # Definitions written down

The canonical definition of a step has each field under its name in camel case and leaves out what is null, and so do
the definitions of the steps inside it. A step of one of the seven kinds is read back from its canonical definition as
it was, however deep steps stand in one another, and so is a workflow with its steps.
-/

namespace Runbook

/-! ## Fields that are given -/

namespace Entries

/-- The table of fields, without those that are null. -/
def given (fields : List (String × Value)) : Entries :=
  (fields.filter fun field => !field.2.isNull).map fun field => (.text field.1, field.2)

variable {fields : List (String × Value)} {name : String} {v : Value}

theorem named_given (fields : List (String × Value)) : (given fields).Named :=
  named_map (fun field : String × Value => field.1) (·.2) _

theorem mem_keys_given : .text name ∈ (given fields).keys ↔ ∃ v, (name, v) ∈ fields ∧ v.isNull = false := by
  rw [given, keys_map (fun field : String × Value => field.1) (·.2)]
  simp

theorem get?_given (once : (fields.map (·.1)).Nodup) (member : (name, v) ∈ fields) :
    (given fields).get? name = if v.isNull then none else some v := by
  cases null : v.isNull with
  | false =>
    have kept : ((fields.filter fun field => !field.2.isNull).map (·.1)).Nodup :=
      once.sublist (List.filter_sublist.map _)
    apply (named_given fields).get?_of_mem (nodup_keys_map kept _)
    exact List.mem_map.mpr ⟨(name, v), List.mem_filter.mpr ⟨member, by simp [null]⟩, rfl⟩
  | true =>
    apply (named_given fields).get?_of_not_mem
    intro listed
    obtain ⟨w, there, some⟩ := mem_keys_given.mp listed
    obtain ⟨-, rfl⟩ := Prod.mk.inj (List.inj_on_of_nodup_map once member there rfl)
    rw [null] at some
    cases some

theorem get?_given_of_not_mem (absent : name ∉ fields.map (·.1)) : (given fields).get? name = none := by
  apply (named_given fields).get?_of_not_mem
  intro listed
  obtain ⟨v, there, _⟩ := mem_keys_given.mp listed
  exact absent (List.mem_map.mpr ⟨(name, v), there, rfl⟩)

/-- A field that is left out counts as null. -/
theorem getD_given (once : (fields.map (·.1)).Nodup) (member : (name, v) ∈ fields) : (given fields).getD name = v := by
  rw [getD, get?_given once member]
  cases v <;> rfl

/-- A field that goes by its first name alone is found under the first of its names. -/
theorem first?_given (once : (fields.map (·.1)).Nodup) (member : (name, v) ∈ fields) (rest : List String)
    (others : ∀ other ∈ rest, other ∉ fields.map (·.1)) :
    (given fields).first? (name :: rest) = if v.isNull then none else some v := by
  rw [first?, List.findSome?_cons, get?_given once member]
  cases v with
  | null => exact List.findSome?_eq_none_iff.mpr fun other listed => get?_given_of_not_mem (others other listed)
  | _ => rfl

end Entries

/-! ## Canonical definitions -/

/-- A condition as a definition has it. -/
def Condition.written (c : Condition) : Value :=
  .dict (Entries.given [("variable", .text c.subject), ("operator", .text c.operator), ("value", c.comparand)])

theorem Condition.read_written (c : Condition) : Condition.read c.written = .ok c := by
  have once : ([("variable", Value.text c.subject), ("operator", .text c.operator), ("value", c.comparand)].map
      (·.1)).Nodup := by simp
  have subject := Entries.get?_given once (.head _)
  have operator := Entries.get?_given once (.tail _ (.head _))
  have comparand := Entries.getD_given once (.tail _ (.tail _ (.head _)))
  rw [Condition.written, Condition.read]
  simp only [subject, operator, comparand]
  rfl

namespace Step

/-- The fields of every step as a definition has them. -/
def Common.written (c : Common) (tag : String) : List (String × Value) :=
  [("type", .text tag), ("name", c.name), ("description", c.description),
    ("conditions", .list (c.conditions.map Condition.written)), ("optional", .bool c.optional),
    ("stopOnFailure", (c.stopOnFailure.map Value.bool).getD .null)]

mutual

/-- The fields of a step of its kind as a definition has them. -/
def ownWritten : Step → List (String × Value)
  | tool _ name parameters outputs =>
    [("toolName", .text name), ("parameters", .dict parameters), ("outputs", .dict outputs)]
  | command _ line directory outputs =>
    [("command", line), ("workingDirectory", directory), ("outputs", .dict outputs)]
  | conditional _ condition thenStep elseStep =>
    [("condition", .list (condition.map Condition.written)), ("then", optionalWritten thenStep),
      ("else", optionalWritten elseStep)]
  | loop _ items itemVariable indexVariable limit body =>
    [("items", items), ("itemVariable", itemVariable), ("indexVariable", indexVariable),
      ("maxIterations", (limit.map Value.int).getD .null), ("step", optionalWritten body)]
  | parallel _ steps => [("steps", .list (allWritten steps))]
  | delay _ duration => [("delay", duration)]
  | manual _ instructions => [("instructions", instructions)]
  | unknown .. => []

/-- A step that may be missing as a definition has it. -/
def optionalWritten : Option Step → Value
  | none => .null
  | some s => .dict (Entries.given (s.common.written s.tag ++ ownWritten s))

/-- Steps as a definition has them. -/
def allWritten : List Step → List Value
  | [] => []
  | s :: rest => .dict (Entries.given (s.common.written s.tag ++ ownWritten s)) :: allWritten rest

end

/-- The fields of a step as a definition has them. -/
def fields (s : Step) : List (String × Value) := s.common.written s.tag ++ s.ownWritten

/-- The canonical definition of a step. -/
def written (s : Step) : Value := .dict (Entries.given s.fields)

/-- A step of one of the seven kinds, the fields of which are of the types that they are declared with: names of tools,
commands and names of variables are texts, a delay is not null, tables have each key once. -/
inductive WellTyped : Step → Prop
  | tool (c : Common) (name : String) {parameters outputs : Entries} (parametersApart : parameters.Apart)
      (outputsApart : outputs.Apart) : WellTyped (.tool c name parameters outputs)
  | command (c : Common) (line : String) (directory : Value) {outputs : Entries} (outputsApart : outputs.Apart) :
      WellTyped (.command c (.text line) directory outputs)
  | conditional (c : Common) (condition : List Condition) {thenStep elseStep : Option Step}
      (thenTyped : ∀ s, thenStep = some s → WellTyped s) (elseTyped : ∀ s, elseStep = some s → WellTyped s) :
      WellTyped (.conditional c condition thenStep elseStep)
  | loop (c : Common) (items : Value) (itemVariable indexVariable : String) (limit : Option Int) {body : Option Step}
      (bodyTyped : ∀ s, body = some s → WellTyped s) :
      WellTyped (.loop c items (.text itemVariable) (.text indexVariable) limit body)
  | parallel (c : Common) {steps : List Step} (typed : ∀ s ∈ steps, WellTyped s) : WellTyped (.parallel c steps)
  | delay (c : Common) {duration : Value} (there : duration ≠ .null) : WellTyped (.delay c duration)
  | manual (c : Common) (instructions : Value) : WellTyped (.manual c instructions)

variable {s : Step} {name : String} {v : Value} {es : Entries} {steps : List Step}

/-! ## Fields read back -/

/-- No two fields of a step go by one name. -/
theorem nodup_fields (s : Step) : (s.fields.map (·.1)).Nodup := by
  cases s <;> simp [fields, Common.written, ownWritten]

/-- A field of the step's own kind is read back under its name. -/
theorem getD_own (member : (name, v) ∈ s.ownWritten) : (Entries.given s.fields).getD name = v :=
  Entries.getD_given s.nodup_fields (List.mem_append_right _ member)

theorem get?_own (member : (name, v) ∈ s.ownWritten) :
    (Entries.given s.fields).get? name = if v.isNull then none else some v :=
  Entries.get?_given s.nodup_fields (List.mem_append_right _ member)

theorem first?_own (member : (name, v) ∈ s.ownWritten) (rest : List String)
    (others : ∀ other ∈ rest, other ∉ s.fields.map (·.1)) :
    (Entries.given s.fields).first? (name :: rest) = if v.isNull then none else some v :=
  Entries.first?_given s.nodup_fields (List.mem_append_right _ member) rest others

/-- The word for the kind of a step is read back. -/
theorem kind_fields (s : Step) : (((Entries.given s.fields).get? "type").map Value.toText).getD "" = s.tag := by
  rw [Entries.get?_given s.nodup_fields (List.mem_append_left _ (.head _))]
  rfl

theorem readConditions_written (conditions : List Condition) :
    readConditions (.list (conditions.map Condition.written)) = .ok conditions := by
  change (conditions.map Condition.written).mapM Condition.read = .ok conditions
  induction conditions with
  | nil => rfl
  | cons c rest ih =>
    rw [List.map_cons, List.mapM_cons, Condition.read_written, ih]
    rfl

/-- What every step has is read back. -/
theorem readCommon_fields (s : Step) : Common.read (.given s.fields) = .ok s.common := by
  have field {name : String} {v : Value} (member : (name, v) ∈ s.common.written s.tag) :
      (Entries.given s.fields).getD name = v :=
    Entries.getD_given s.nodup_fields (List.mem_append_left _ member)
  have name : ("name", s.common.name) ∈ s.common.written s.tag := by simp [Common.written]
  have description : ("description", s.common.description) ∈ s.common.written s.tag := by simp [Common.written]
  have conditions : ("conditions", Value.list (s.common.conditions.map Condition.written)) ∈
      s.common.written s.tag := by
    simp [Common.written]
  have optional : ("optional", Value.bool s.common.optional) ∈ s.common.written s.tag := by simp [Common.written]
  have stops : ("stopOnFailure", (s.common.stopOnFailure.map Value.bool).getD .null) ∈ s.common.written s.tag := by
    simp [Common.written]
  have others : ∀ other ∈ ["stop_on_failure"], other ∉ s.fields.map (·.1) := by
    cases s <;> simp [fields, Common.written, ownWritten]
  have stop := Entries.first?_given s.nodup_fields (List.mem_append_left _ stops) ["stop_on_failure"] others
  rw [Common.read, field conditions, readConditions_written, field name, field description, field optional, stop]
  obtain ⟨_, _, _, _, stopOnFailure⟩ := s.common
  cases stopOnFailure <;> rfl

/-- A table whose keys are apart is taken as it is. -/
theorem readTable_dict (apart : es.Apart) : readTable (.dict es) = .ok es := by
  cases es with
  | nil => rfl
  | cons e rest => exact congrArg Except.ok (Entries.ofList_of_apart apart)

/-! ## Steps of every kind read back -/

section Kinds

variable (c : Common)

theorem readTool_fields {parameters outputs : Entries} (parametersApart : parameters.Apart)
    (outputsApart : outputs.Apart) :
    readTool c (.given (fields (.tool c name parameters outputs))) = .ok (.tool c name parameters outputs) := by
  have first : (Entries.given (fields (.tool c name parameters outputs))).first? ["toolName", "tool_name", "tool"] =
      some (.text name) :=
    first?_own (s := .tool ..) (.head _) _ (by simp [fields, Common.written, ownWritten])
  have parameters' : (Entries.given (fields (.tool c name parameters outputs))).getD "parameters" = .dict parameters :=
    getD_own (s := .tool ..) (.tail _ (.head _))
  have outputs' : (Entries.given (fields (.tool c name parameters outputs))).getD "outputs" = .dict outputs :=
    getD_own (s := .tool ..) (.tail _ (.tail _ (.head _)))
  rw [readTool, first, parameters', outputs', readTable_dict parametersApart, readTable_dict outputsApart]
  rfl

theorem readCommand_fields (line : String) (directory : Value) {outputs : Entries} (outputsApart : outputs.Apart) :
    readCommand c (.given (fields (.command c (.text line) directory outputs))) =
      .ok (.command c (.text line) directory outputs) := by
  have line' : (Entries.given (fields (.command c (.text line) directory outputs))).get? "command" =
      some (.text line) :=
    get?_own (s := .command ..) (.head _)
  have directory' := first?_own (s := .command c (.text line) directory outputs) (.tail _ (.head _))
    ["working_directory", "cwd"] (by simp [fields, Common.written, ownWritten])
  have outputs' : (Entries.given (fields (.command c (.text line) directory outputs))).getD "outputs" =
      .dict outputs :=
    getD_own (s := .command ..) (.tail _ (.tail _ (.head _)))
  rw [readCommand, line', directory', outputs', readTable_dict outputsApart]
  cases directory <;> rfl

theorem readLimit_fields (items itemVariable indexVariable : Value) (limit : Option Int) (body : Option Step) :
    readLimit (.given (fields (.loop c items itemVariable indexVariable limit body))) = .ok limit := by
  have first := first?_own (s := .loop c items itemVariable indexVariable limit body)
    (.tail _ (.tail _ (.tail _ (.head _)))) ["max_iterations"] (by simp [fields, Common.written, ownWritten])
  rw [readLimit, first]
  cases limit <;> rfl

end Kinds

theorem readOptional_written {step : Option Step} (back : ∀ s, step = some s → read s.written = .ok s) :
    readOptional (optionalWritten step) = .ok step := by
  cases step with
  | none =>
    rw [optionalWritten, readOptional]
    rfl
  | some s =>
    have same : optionalWritten (some s) = s.written := by rw [optionalWritten, written, fields]
    rw [same, readOptional, back s rfl]
    rfl

theorem readAll_written (back : ∀ s ∈ steps, read s.written = .ok s) : readAll (allWritten steps) = .ok steps := by
  induction steps with
  | nil => rw [allWritten, readAll]
  | cons s rest ih =>
    rw [List.forall_mem_cons] at back
    rw [allWritten, ← fields, ← written, readAll, back.1, ih back.2]
    rfl

theorem readBranches_written (back : ∀ s ∈ steps, read s.written = .ok s) :
    readBranches (.list (allWritten steps)) = .ok steps := by
  have all := readAll_written back
  cases steps with
  | nil =>
    rw [allWritten, readBranches]
    rfl
  | cons s rest =>
    rw [readBranches]
    rw [allWritten] at all ⊢
    exact all

/-- A step is read back from its canonical definition: by induction on the step, the steps in it are. -/
theorem read_written (typed : s.WellTyped) : read s.written = .ok s := by
  induction typed with
  | tool c name parametersApart outputsApart =>
    rw [written, read, readFields, readCommon_fields, kind_fields]
    exact readTool_fields c parametersApart outputsApart
  | command c line directory outputsApart =>
    rw [written, read, readFields, readCommon_fields, kind_fields]
    exact readCommand_fields c line directory outputsApart
  | @conditional c condition thenStep elseStep _ _ thenBack elseBack =>
    have condition' := getD_own (s := .conditional c condition thenStep elseStep) (.head _)
    have then' := getD_own (s := .conditional c condition thenStep elseStep) (.tail _ (.head _))
    have else' := getD_own (s := .conditional c condition thenStep elseStep) (.tail _ (.tail _ (.head _)))
    rw [written, read, readFields, readCommon_fields, kind_fields, condition', then', else', readConditions_written,
      readOptional_written thenBack, readOptional_written elseBack]
    rfl
  | @loop c items itemVariable indexVariable limit body _ bodyBack =>
    let s : Step := .loop c items (.text itemVariable) (.text indexVariable) limit body
    have items' : (Entries.given s.fields).getD "items" = items := getD_own (.head _)
    have item : (Entries.given s.fields).first? ["itemVariable", "item_variable"] = some (.text itemVariable) :=
      first?_own (s := s) (.tail _ (.head _)) _ (by simp [s, fields, Common.written, ownWritten])
    have index : (Entries.given s.fields).first? ["indexVariable", "index_variable"] = some (.text indexVariable) :=
      first?_own (s := s) (.tail _ (.tail _ (.head _))) _ (by simp [s, fields, Common.written, ownWritten])
    have body' : (Entries.given s.fields).getD "step" = optionalWritten body :=
      getD_own (.tail _ (.tail _ (.tail _ (.tail _ (.head _)))))
    rw [written, read, readFields, readCommon_fields, kind_fields, readLimit_fields, items', item, index, body',
      readOptional_written bodyBack]
    rfl
  | @parallel c steps _ back =>
    have steps' := getD_own (s := .parallel c steps) (.head _)
    rw [written, read, readFields, readCommon_fields, kind_fields, steps', readBranches_written back]
    rfl
  | @delay c duration there =>
    have duration' := get?_own (s := .delay c duration) (.head _)
    rw [written, read, readFields, readCommon_fields, kind_fields, duration']
    cases duration with
    | null => exact absurd rfl there
    | _ => rfl
  | manual c instructions =>
    have instructions' := getD_own (s := .manual c instructions) (.head _)
    rw [written, read, readFields, readCommon_fields, kind_fields, instructions']
    rfl

end Step

example : (Step.delay { stopOnFailure := some true } (.text "250")).written =
    .dict [(.text "type", .text "delay"), (.text "conditions", .list []), (.text "optional", .bool false),
      (.text "stopOnFailure", .bool true), (.text "delay", .text "250")] := by rfl

/-! ## Workflows read back -/

namespace Workflow

/-- The canonical definition of a workflow. -/
def written (w : Workflow) : Value :=
  .dict (Entries.given [("id", .text w.id), ("name", .text w.name), ("steps", .list (Step.allWritten w.steps)),
    ("variables", .dict w.scope)])

theorem outline_written (w : Workflow) :
    Outline.read w.written = .ok ⟨.text w.id, .text w.name, Step.allWritten w.steps, w.scope⟩ := by
  have once : ([("id", Value.text w.id), ("name", .text w.name), ("steps", .list (Step.allWritten w.steps)),
      ("variables", .dict w.scope)].map (·.1)).Nodup := by simp
  have id := Entries.getD_given once (.head _)
  have name := Entries.getD_given once (.tail _ (.head _))
  have steps := Entries.getD_given once (.tail _ (.tail _ (.head _)))
  have scope := Entries.getD_given once (.tail _ (.tail _ (.tail _ (.head _))))
  rw [written, Outline.read, Outline.ofEntries, id, name, steps, scope]
  cases w.scope <;> rfl

theorem truthy_text {name : String} (there : name ≠ "") : (Value.text name).truthy = true := by
  simpa [Value.truthy] using there

/-- A workflow that has an identifier and a name is read back, and no identifier is generated. -/
theorem read_written (generated : Nat) {w : Workflow} (id : w.id ≠ "") (name : w.name ≠ "")
    (typed : ∀ s ∈ w.steps, s.WellTyped) : read generated w.written = (.ok w, generated) := by
  have steps := Step.readAll_written fun s member => Step.read_written (typed s member)
  simp only [read, outline_written, truthy_text id, if_true, Outline.complete, Value.orElse, truthy_text name, steps]
  rfl

end Workflow

/-- Whatever steps and workflows there are can be written down as definitions, and are read back as they were: a step
of any of the seven kinds whose fields are of their types, to any depth of steps in steps, and so a workflow that has
an identifier and a name. -/
theorem definitions_read_back :
    (∀ s : Step, s.WellTyped → Step.read s.written = .ok s) ∧
      ∀ (generated : Nat) (w : Workflow), w.id ≠ "" → w.name ≠ "" → (∀ s ∈ w.steps, s.WellTyped) →
        Workflow.read generated w.written = (.ok w, generated) := by
  constructor
  · exact fun _ typed => Step.read_written typed
  · exact fun generated _ id name typed => Workflow.read_written generated id name typed

/-- A loop over the servers of a scope: each that is up is backed up and, side by side, waited for; for the others an
operator is asked. -/
def backup : Step :=
  .loop { name := .text "backup", stopOnFailure := some false } (.text "\x7b\x7bservers\x7d\x7d")
    (.text "server") (.text "n") (some 20)
    (some (.conditional { optional := true } [⟨"server.up", "equals", .bool true⟩]
      (some (.parallel {} [
        .tool { conditions := [⟨"dry", "not_exists", .null⟩] } "archive"
          [(.text "host", .text "\x7b\x7bserver.host\x7d\x7d")]
          [(.text "size", .text "result.size")],
        .delay {} (.text "250"),
        .command {} (.text "sync") .null [] ]))
      (some (.manual {} (.text "Start the server")))))

theorem backup_typed : backup.WellTyped := by
  have branches : ∀ s ∈ [
      Step.tool { conditions := [⟨"dry", "not_exists", .null⟩] } "archive"
        [(.text "host", .text "\x7b\x7bserver.host\x7d\x7d")]
        [(.text "size", .text "result.size")],
      .delay {} (.text "250"),
      .command {} (.text "sync") .null [] ], s.WellTyped := by
    rw [List.forall_mem_cons, List.forall_mem_cons, List.forall_mem_singleton]
    refine ⟨.tool _ _ (List.pairwise_singleton _ _) (List.pairwise_singleton _ _), .delay _ ?_, .command _ _ _ .nil⟩
    intro null
    cases null
  apply Step.WellTyped.loop
  rintro _ ⟨⟩
  apply Step.WellTyped.conditional
  · rintro _ ⟨⟩
    exact .parallel _ branches
  · rintro _ ⟨⟩
    exact .manual _ _

/-- The workflow of these backups. -/
def backups : Workflow :=
  { id := "wf_backups", name := "Backups", steps := [backup], scope := [(.text "servers", .list [])] }

theorem backups_read_back :
    (backup.WellTyped ∧ backups.id ≠ "" ∧ backups.name ≠ "" ∧ ∀ s ∈ backups.steps, s.WellTyped) ∧
      Step.read backup.written = .ok backup ∧ Workflow.read 3 backups.written = (.ok backups, 3) := by
  have id : backups.id ≠ "" := by decide
  have name : backups.name ≠ "" := by decide
  have typed : ∀ s ∈ backups.steps, s.WellTyped := List.forall_mem_singleton.mpr backup_typed
  exact ⟨⟨backup_typed, id, name, typed⟩, definitions_read_back.1 backup backup_typed,
    definitions_read_back.2 3 backups id name typed⟩

end Runbook
