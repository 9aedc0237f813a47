import Runbook.Proofs.Addresses
import Runbook.Proofs.Coherence
import Runbook.Template

/-! # Records of results

The record of a result has the standard fields of the result and beside them what its details tell, and the two have
no field in common. The details hold results of other steps as objects; in the record each of them is a record again.
What is shown, looked up or resolved holds no result that was not there before.
-/

namespace Runbook

/-! ## Results inside values -/

namespace Entries

/-- The keys and values. -/
def parts (es : Entries) : List Value := es.flatMap fun e => [e.1, e.2]

theorem mem_parts {es : Entries} {v : Value} : v ∈ es.parts ↔ ∃ e ∈ es, v = e.1 ∨ v = e.2 := by
  simp [parts]

end Entries

namespace Value

/-- The value is the result of a step as an object. -/
def isReport : Value → Bool
  | report .. => true
  | _ => false

/-- The values directly inside a value. -/
def parts : Value → List Value
  | list items | tuple items => items
  | dict entries => Entries.parts entries
  | object attributes => attributes.map (·.2)
  | condition _ _ comparand => [comparand]
  | report _ _ _ outputs error _ details => Entries.parts outputs ++ error :: Entries.parts details
  | _ => []

/-- A value is another one, or is somewhere in it. -/
inductive Inside : Value → Value → Prop
  | here (v : Value) : Inside v v
  | deeper {part inner v : Value} (member : inner ∈ v.parts) (inside : Inside part inner) : Inside part v

/-- Every result inside the value is of some kind. -/
def Only (Q : Value → Prop) (v : Value) : Prop := ∀ part : Value, part.Inside v → part.isReport = true → Q part

end Value

/-- Every result inside the table is of some kind. -/
def Entries.Only (Q : Value → Prop) (es : Entries) : Prop := ∀ e ∈ es, e.1.Only Q ∧ e.2.Only Q

variable {Q : Value → Prop} {v : Value} {es base later : Entries} {items : List Value}

namespace Value

theorem only_iff : v.Only Q ↔ (v.isReport = true → Q v) ∧ ∀ inner ∈ v.parts, inner.Only Q := by
  constructor
  · intro only
    exact ⟨only v (.here v), fun inner member part inside => only part (.deeper member inside)⟩
  · rintro ⟨own, inner⟩ part inside
    cases inside with
    | here => exact own
    | deeper member inside => exact inner _ member part inside

theorem only_of_parts (plain : v.isReport = false) (none : v.parts = []) : v.Only Q := by
  rw [only_iff, plain, none]
  exact ⟨nofun, nofun⟩

@[simp] theorem only_null : null.Only Q := only_of_parts rfl rfl

@[simp] theorem only_bool (b : Bool) : (bool b).Only Q := only_of_parts rfl rfl

@[simp] theorem only_int (n : Int) : (int n).Only Q := only_of_parts rfl rfl

@[simp] theorem only_float (x : Float) : (float x).Only Q := only_of_parts rfl rfl

@[simp] theorem only_text (s : String) : (text s).Only Q := only_of_parts rfl rfl

@[simp] theorem only_status (s : StepStatus) : (status s).Only Q := only_of_parts rfl rfl

@[simp] theorem only_list : (list items).Only Q ↔ ∀ v ∈ items, v.Only Q := by
  rw [only_iff]
  exact and_iff_right nofun

@[simp] theorem only_tuple : (tuple items).Only Q ↔ ∀ v ∈ items, v.Only Q := by
  rw [only_iff]
  exact and_iff_right nofun

@[simp] theorem only_dict : (dict es).Only Q ↔ es.Only Q := by
  rw [only_iff, and_iff_right nofun]
  simp only [parts, Entries.mem_parts, Entries.Only]
  constructor
  · exact fun only e member => ⟨only e.1 ⟨e, member, .inl rfl⟩, only e.2 ⟨e, member, .inr rfl⟩⟩
  · rintro only _ ⟨e, member, rfl | rfl⟩
    · exact (only e member).1
    · exact (only e member).2

@[simp] theorem only_condition {subject operator : String} {comparand : Value} :
    (condition subject operator comparand).Only Q ↔ comparand.Only Q := by
  rw [only_iff, and_iff_right nofun]
  exact List.forall_mem_singleton

theorem Only.report {i : Int} {s : StepStatus} {ok : Bool} {outputs details : Entries} {error : Value} {ms : Int}
    (only : (report i s ok outputs error ms details).Only Q) :
    Entries.Only Q outputs ∧ error.Only Q ∧ Entries.Only Q details := by
  have inner := (only_iff.mp only).2
  simp only [parts, List.forall_mem_append, List.forall_mem_cons, Entries.mem_parts] at inner
  obtain ⟨outputs, error, details⟩ := inner
  refine ⟨fun e member => ⟨?_, ?_⟩, error, fun e member => ⟨?_, ?_⟩⟩
  · exact outputs e.1 ⟨e, member, .inl rfl⟩
  · exact outputs e.2 ⟨e, member, .inr rfl⟩
  · exact details e.1 ⟨e, member, .inl rfl⟩
  · exact details e.2 ⟨e, member, .inr rfl⟩

end Value

/-! ### Tables -/

namespace Entries

@[simp] theorem only_nil : Only Q [] := nofun

@[simp] theorem only_cons {e : Value × Value} : Only Q (e :: es) ↔ (e.1.Only Q ∧ e.2.Only Q) ∧ es.Only Q :=
  List.forall_mem_cons

@[simp] theorem only_append : Only Q (base ++ later) ↔ base.Only Q ∧ later.Only Q := List.forall_mem_append

theorem Only.put (only : es.Only Q) {key : Value} (ofKey : key.Only Q) (ofValue : v.Only Q) :
    (es.put key v).Only Q := by
  induction es with
  | nil => exact only_cons.mpr ⟨⟨ofKey, ofValue⟩, only_nil⟩
  | cons e rest ih =>
    obtain ⟨first, others⟩ := only_cons.mp only
    rw [Entries.put]
    split
    · exact only_cons.mpr ⟨⟨first.1, ofValue⟩, others⟩
    · exact only_cons.mpr ⟨first, ih others⟩

theorem Only.merge (only : base.Only Q) (others : later.Only Q) : (base.merge later).Only Q := by
  induction later generalizing base with
  | nil => exact only
  | cons e rest ih =>
    obtain ⟨first, others⟩ := only_cons.mp others
    exact ih (only.put first.1 first.2) others

theorem Only.get? (only : es.Only Q) {name : String} (found : es.get? name = some v) : v.Only Q := by
  obtain ⟨e, member, rfl⟩ := Option.map_eq_some_iff.mp found
  exact (only e (List.mem_of_find?_eq_some member)).2

theorem Only.getD (only : es.Only Q) (name : String) : (es.getD name).Only Q := by
  rw [Entries.getD]
  cases found : es.get? name with
  | none => exact Value.only_null
  | some v => exact only.get? found

end Entries

/-! ### Values resolved, looked into and shown -/

namespace Value

theorem Only.orElse {other : Value} (only : v.Only Q) (others : other.Only Q) : (v.orElse other).Only Q := by
  rw [Value.orElse]
  split
  · exact only
  · exact others

theorem only_fill {scope : Entries} (only : scope.Only Q) (s : String) : (Template.resolve scope s).Only Q := by
  rw [Template.resolve]
  split
  · next name _ =>
    cases found : scope.get? (Template.nameOf name) with
    | none => exact only_text s
    | some v => exact only.get? found
  · exact only_text _

mutual

/-- A value in a scope holds what it held before and what the variables hold. -/
theorem Only.resolve {scope : Entries} (ofScope : scope.Only Q) : ∀ {v : Value}, v.Only Q → (v.resolve scope).Only Q
  | .text s, _ => by
    rw [Value.resolve]
    exact only_fill ofScope s
  | .list items, only => by
    rw [Value.resolve, only_list]
    exact Only.resolveItems ofScope (only_list.mp only)
  | .tuple items, only => by
    rw [Value.resolve, only_tuple]
    exact Only.resolveItems ofScope (only_tuple.mp only)
  | .dict entries, only => by
    rw [Value.resolve, only_dict]
    exact Only.resolveEntries ofScope (only_dict.mp only)
  | .null, only | .bool _, only | .int _, only | .float _, only | .object _, only | .status _, only
  | .condition .., only | .report .., only => by
    rw [Value.resolve]
    · exact only
    all_goals nofun

theorem Only.resolveItems {scope : Entries} (ofScope : scope.Only Q) :
    ∀ {items : List Value}, (∀ v ∈ items, v.Only Q) → ∀ v ∈ Value.resolveItems scope items, v.Only Q
  | [], _ => by
    rw [Value.resolveItems]
    exact nofun
  | v :: rest, only => by
    rw [Value.resolveItems, List.forall_mem_cons]
    rw [List.forall_mem_cons] at only
    exact ⟨Only.resolve ofScope only.1, Only.resolveItems ofScope only.2⟩

theorem Only.resolveEntries {scope : Entries} (ofScope : scope.Only Q) :
    ∀ {es : Entries}, es.Only Q → Entries.Only Q (Value.resolveEntries scope es)
  | [], _ => by
    rw [Value.resolveEntries]
    exact Entries.only_nil
  | (k, v) :: rest, only => by
    obtain ⟨⟨key, value⟩, others⟩ := Entries.only_cons.mp only
    rw [Value.resolveEntries]
    exact Entries.only_cons.mpr ⟨⟨key, Only.resolve ofScope value⟩, Only.resolveEntries ofScope others⟩

end

theorem only_shownText {attributes : List (String × Value)} (only : (object attributes).Only Q) :
    (object attributes).plain.Only Q := by
  rw [Value.plain]
  split
  · exact only_text _
  · exact only

mutual

/-- What is shown of a value holds what the value holds. -/
theorem Only.plain : ∀ {v : Value}, v.Only Q → v.plain.Only Q
  | .list items, only => by
    rw [Value.plain, only_list]
    exact Only.plainItems (only_list.mp only)
  | .dict entries, only => by
    rw [Value.plain, only_dict]
    exact Only.plainEntries (only_dict.mp only)
  | .object attributes, only => only_shownText only
  | .status s, _ => by
    rw [Value.plain]
    exact only_text _
  | .condition subject operator comparand, only => by
    cases comparand with
    | text s =>
      rw [Value.plain]
      exact only_text s
    | _ =>
      rw [Value.plain]
      · exact only
      · nofun
  | .report i s ok outputs error ms details, only => by
    obtain ⟨ofOutputs, ofError, ofDetails⟩ := only.report
    rw [Value.plain, only_dict]
    apply Entries.Only.merge _ (Only.plainEntries ofDetails)
    simp [resultFields, moment, ofOutputs, ofError]
  | .null, only | .bool _, only | .int _, only | .float _, only | .text _, only | .tuple _, only => by
    rw [Value.plain]
    · exact only
    all_goals nofun

theorem Only.plainItems : ∀ {items : List Value}, (∀ v ∈ items, v.Only Q) → ∀ v ∈ Value.plainItems items, v.Only Q
  | [], _ => by
    rw [Value.plainItems]
    exact nofun
  | v :: rest, only => by
    rw [Value.plainItems, List.forall_mem_cons]
    rw [List.forall_mem_cons] at only
    exact ⟨Only.plain only.1, Only.plainItems only.2⟩

theorem Only.plainEntries : ∀ {es : Entries}, es.Only Q → Entries.Only Q (Value.plainEntries es)
  | [], _ => by
    rw [Value.plainEntries]
    exact Entries.only_nil
  | (k, v) :: rest, only => by
    obtain ⟨⟨key, value⟩, others⟩ := Entries.only_cons.mp only
    rw [Value.plainEntries]
    exact Entries.only_cons.mpr ⟨⟨key, Only.plain value⟩, Only.plainEntries others⟩

end

theorem Only.item? (only : ∀ v ∈ items, v.Only Q) (index : Int) : ((item? items index).getD null).Only Q := by
  cases found : Value.item? items index with
  | none => exact only_null
  | some v =>
    rw [Value.item?] at found
    split at found
    · split at found
      · exact only v (List.mem_of_getElem? found)
      · cases found
    · exact only v (List.mem_of_getElem? found)

theorem Only.attribute? (only : v.Only Q) (name : String) : ((v.attribute? name).getD null).Only Q := by
  cases v with
  | object attributes =>
    cases found : (object attributes).attribute? name with
    | none => exact only_null
    | some v =>
      obtain ⟨a, member, rfl⟩ := Option.map_eq_some_iff.mp found
      exact (only_iff.mp only).2 a.2 (List.mem_map_of_mem (List.mem_of_find?_eq_some member))
  | report =>
    obtain ⟨ofOutputs, ofError, ofDetails⟩ := only.report
    simp only [Value.attribute?]
    repeat' split
    all_goals simp [ofOutputs, ofError, ofDetails, moment]
  | condition =>
    have ofComparand := only_condition.mp only
    simp only [Value.attribute?]
    repeat' split
    all_goals simp [ofComparand]
  | _ =>
    simp only [Value.attribute?]
    repeat' split
    all_goals simp

theorem Only.follow (only : v.Only Q) (segment : String) : (v.follow segment).Only Q := by
  unfold Value.follow
  split
  · exact (only_dict.mp only).getD segment
  · split
    · exact Only.item? (only_list.mp only) _
    · exact only_null
  · split
    · exact Only.item? (only_tuple.mp only) _
    · exact only_null
  · exact only.attribute? segment

/-- What is found under a path was there before. -/
theorem Only.nested (only : v.Only Q) (path : String) : (v.nested path).Only Q := by
  rw [Value.nested]
  induction Text.split '.' path generalizing v with
  | nil => exact only
  | cons segment rest ih => exact ih (only.follow segment)

theorem Only.extractEach (only : v.Only Q) {mapping published : Entries} (ofNames : mapping.Only Q)
    (read : v.extractEach mapping = .ok published) : Entries.Only Q published := by
  induction mapping generalizing published with
  | nil =>
    cases read
    exact Entries.only_nil
  | cons e rest ih =>
    obtain ⟨first, others⟩ := Entries.only_cons.mp ofNames
    rw [Value.extractEach] at read
    obtain ⟨part, found, read⟩ := bind_eq_ok read
    obtain ⟨parts, later, same⟩ := bind_eq_ok read
    cases same
    refine Entries.only_cons.mpr ⟨⟨first.1, ?_⟩, ih others later⟩
    unfold Value.nestedAt at found
    split at found
    · cases found
      exact only.nested _
    · cases found
      exact only.nested _
    · cases found

theorem Only.extract (only : v.Only Q) {mapping published : Entries} (ofNames : mapping.Only Q)
    (read : (dict mapping).extract v = .ok published) : Entries.Only Q published := by
  rw [Value.extract] at read
  split at read
  · cases read
    exact Entries.only_nil
  · exact only.extractEach ofNames read

theorem Only.items? (only : v.Only Q) (listed : v.items? = some items) :
    ∀ item ∈ items, item.Only Q := by
  unfold Value.items? at listed
  split at listed
  · cases listed
    exact only_list.mp only
  · cases listed
    exact only_tuple.mp only
  · cases listed
    intro key member
    obtain ⟨e, there, rfl⟩ := List.mem_map.mp member
    exact (only_dict.mp only e there).1
  · cases listed
    intro item member
    obtain ⟨c, _, rfl⟩ := List.mem_map.mp member
    exact only_text _
  · cases listed
    intro item member
    obtain ⟨c, _, rfl⟩ := List.mem_map.mp member
    exact only_text _
  · cases listed

theorem pairs_only (only : ∀ item ∈ items, item.Only Q) (index : Nat) :
    Entries.Only Q (Value.pairs index items).1 := by
  induction items generalizing index with
  | nil => exact Entries.only_nil
  | cons v rest ih =>
    obtain ⟨first, others⟩ := List.forall_mem_cons.mp only
    unfold Value.pairs
    split
    · exact Entries.only_nil
    · next key value pair =>
      have parts := first.items? pair
      split
      · exact Entries.only_nil
      · exact Entries.only_cons.mpr ⟨⟨parts key (by simp), parts value (by simp)⟩, ih others _⟩
    · exact Entries.only_nil

/-- A document holds no results. -/
theorem IsDocument.only (document : v.IsDocument) : v.Only Q := by
  induction document with
  | null => exact only_null
  | bool b => exact only_bool b
  | int n => exact only_int n
  | float x => exact only_float x
  | text s => exact only_text s
  | list _ _ ih => exact only_list.mpr ih
  | dict named _ _ ih =>
    refine only_dict.mpr fun e member => ⟨?_, ih e member⟩
    obtain ⟨name, same⟩ := named e.1 (List.mem_map_of_mem member)
    exact same ▸ only_text name

end Value

/-! ## Results as objects -/

mutual

/-- A result as an object. -/
def StepResult.report : StepResult → Value
  | ⟨i, s, ok, outputs, error, ms, details⟩ => .report i s ok outputs error ms details.raw

/-- The details of a result as they are before they are shown, with the results among them as objects. -/
def Details.raw : Details → Entries
  | .nothing => []
  | .given fields => fields
  | .reason text => [(.text "reason", .text text)]
  | .tool name parameters raw =>
    [(.text "tool", .text name), (.text "parameters", .dict parameters), (.text "raw_result", .dict raw)]
  | .command command raw => [(.text "command", command), (.text "raw_result", .dict raw)]
  | .branch met taken none =>
    [(.text "condition_met", .bool met), (.text "branch_taken", .text taken.label)]
  | .branch met taken (some result) =>
    [(.text "condition_met", .bool met), (.text "branch_taken", .text taken.label),
      (.text "branch_result", result.report)]
  | .iterations done cancelled =>
    [(.text "iterations", .list (Iteration.reports done)), (.text "total_iterations", .int done.length)] ++
      if cancelled then [(.text "cancelled", .bool true)] else []
  | .branches results =>
    [(.text "results", .list (StepResult.reports results)), (.text "parallel_steps", .int results.length)]
  | .delay ms => [(.text "delay_ms", .float ms)]
  | .notice instructions => [(.text "manual", .bool true), (.text "instructions", instructions)]
  | .decision instructions token note =>
    [(.text "manual", .bool true), (.text "instructions", instructions), (.text "token", .text token),
      (.text "note", note)]

/-- The rounds of a loop as they are before they are shown. -/
def Iteration.reports : List Iteration → List Value
  | [] => []
  | ⟨index, item, result⟩ :: rest =>
    .dict [(.text "index", .int index), (.text "item", item), (.text "result", result.report)] ::
      Iteration.reports rest

/-- Several results as objects. -/
def StepResult.reports : List StepResult → List Value
  | [] => []
  | r :: rest => r.report :: StepResult.reports rest

end

mutual

/-- What is shown of a result is its record. -/
theorem StepResult.plain_report : ∀ r : StepResult, r.report.plain = r.toValue
  | ⟨i, s, ok, outputs, error, ms, details⟩ => by
    rw [StepResult.report, Value.plain, StepResult.toValue, Details.plainEntries_raw]

theorem Details.plainEntries_raw : ∀ d : Details, Value.plainEntries d.raw = d.fields
  | .given fields => by rw [Details.raw, Details.fields]
  | .branch met taken (some result) => by
    simp only [Details.raw, Details.fields, Value.plainEntries, Value.plain, StepResult.plain_report]
  | .iterations done cancelled => by
    have rounds := Iteration.plainItems_reports done
    cases cancelled <;> simp [Details.raw, Details.fields, Value.plainEntries, Value.plain, rounds]
  | .branches results => by
    simp only [Details.raw, Details.fields, Value.plainEntries, Value.plain, StepResult.plainItems_reports]
  | .nothing | .reason _ | .tool .. | .command .. | .branch _ _ none | .delay _ | .notice _ | .decision .. => by
    simp only [Details.raw, Details.fields, Value.plainEntries, Value.plain]

theorem Iteration.plainItems_reports : ∀ done : List Iteration,
    Value.plainItems (Iteration.reports done) = Iteration.toValues done
  | [] => rfl
  | ⟨index, item, result⟩ :: rest => by
    rw [Iteration.reports, Value.plainItems, Iteration.toValues, Iteration.plainItems_reports rest]
    simp only [Value.plain, Value.plainEntries, StepResult.plain_report]

theorem StepResult.plainItems_reports : ∀ results : List StepResult,
    Value.plainItems (StepResult.reports results) = StepResult.toValues results
  | [] => rfl
  | r :: rest => by
    rw [StepResult.reports, Value.plainItems, StepResult.toValues, StepResult.plain_report,
      StepResult.plainItems_reports rest]

end

/-! ## The fields of a record -/

/-- The record of a round. -/
def Iteration.record (round : Iteration) : Value :=
  .dict [(.text "index", .int round.index), (.text "item", round.item.plain), (.text "result", round.result.toValue)]

theorem Iteration.toValues_eq (done : List Iteration) : Iteration.toValues done = done.map Iteration.record := by
  induction done with
  | nil => rfl
  | cons round rest ih =>
    obtain ⟨index, item, result⟩ := round
    rw [Iteration.toValues, ih]
    rfl

theorem StepResult.toValues_eq (results : List StepResult) : StepResult.toValues results = results.map toValue := by
  induction results with
  | nil => rfl
  | cons r rest ih =>
    rw [StepResult.toValues, ih]
    rfl

/-- The details are those of some kind of step, and not given from outside. -/
def Details.Known : Details → Prop
  | .given _ => False
  | _ => True

namespace StepResult

variable {r : StepResult}

/-- The standard fields of the record. -/
def standard (r : StepResult) : Entries :=
  Value.resultFields r.stepIndex r.status r.success r.outputs r.error r.durationMs

/-- All fields of the record. -/
def entries (r : StepResult) : Entries := r.standard ++ r.details.fields

theorem toValue_eq_merge (r : StepResult) : r.toValue = .dict (r.standard.merge r.details.fields) := by
  obtain ⟨_, _, _, _, _, _, _⟩ := r
  rw [toValue]
  rfl

/-- No detail goes by the name of a standard field, or by that of another detail. -/
theorem entries_names (known : r.details.Known) :
    ∃ names : List String, r.entries.keys = names.map .text ∧ names.Nodup := by
  have keys (details : Entries) (names : List String) (same : details.keys = names.map .text) :
      (r.standard ++ details).keys =
        (["step_index", "status", "success", "outputs", "error", "duration_ms", "timestamp"] ++ names).map .text := by
    rw [Entries.keys, List.map_append, List.map_append, ← same]
    rfl
  rw [entries]
  cases kind : r.details with
  | given fields =>
    rw [kind] at known
    exact known.elim
  | iterations done cancelled =>
    cases cancelled with
    | false => exact ⟨_, keys _ ["iterations", "total_iterations"] (by simp [Details.fields]), by decide⟩
    | true => exact ⟨_, keys _ ["iterations", "total_iterations", "cancelled"] (by simp [Details.fields]), by decide⟩
  | nothing => exact ⟨_, keys _ [] (by simp [Details.fields]), by decide⟩
  | reason => exact ⟨_, keys _ ["reason"] (by simp [Details.fields]), by decide⟩
  | tool => exact ⟨_, keys _ ["tool", "parameters", "raw_result"] (by simp [Details.fields]), by decide⟩
  | command => exact ⟨_, keys _ ["command", "raw_result"] (by simp [Details.fields]), by decide⟩
  | branch met taken result =>
    cases result with
    | none => exact ⟨_, keys _ ["condition_met", "branch_taken"] (by simp [Details.fields]), by decide⟩
    | some => exact ⟨_, keys _ ["condition_met", "branch_taken", "branch_result"] (by simp [Details.fields]), by decide⟩
  | branches => exact ⟨_, keys _ ["results", "parallel_steps"] (by simp [Details.fields]), by decide⟩
  | delay => exact ⟨_, keys _ ["delay_ms"] (by simp [Details.fields]), by decide⟩
  | notice => exact ⟨_, keys _ ["manual", "instructions"] (by simp [Details.fields]), by decide⟩
  | decision => exact ⟨_, keys _ ["manual", "instructions", "token", "note"] (by simp [Details.fields]), by decide⟩

theorem entries_named (known : r.details.Known) : r.entries.Named ∧ r.entries.keys.Nodup := by
  obtain ⟨names, same, once⟩ := entries_names known
  rw [Entries.Named, same]
  constructor
  · intro key listed
    obtain ⟨name, _, rfl⟩ := List.mem_map.mp listed
    exact ⟨name, rfl⟩
  · exact List.pairwise_map.mpr (once.imp fun different same => different (Value.text.inj same))

theorem toValue_eq (known : r.details.Known) : r.toValue = .dict r.entries := by
  obtain ⟨named, once⟩ := entries_named known
  rw [toValue_eq_merge, Entries.merge_of_apart (named.apart once)]
  rfl

/-- The table is the record of the result, and has in it what it should have. -/
structure RecordedIn (r : StepResult) (es : Entries) : Prop where
  /-- The record is what is shown of the result and of the results in its details. -/
  shown : r.toValue = .dict es ∧ r.report.plain = .dict es
  /-- No detail stands in for a standard field. -/
  standard : ∀ name v, (.text name, v) ∈ r.standard → es.get? name = some v
  /-- The result of a branch, those of the rounds of a loop and those of steps side by side are records. -/
  branch : ∀ met taken inner, r.details = .branch met taken (some inner) →
    es.get? "branch_result" = some inner.toValue
  rounds : ∀ done cancelled, r.details = .iterations done cancelled →
    es.get? "iterations" = some (.list (done.map Iteration.record))
  sides : ∀ results, r.details = .branches results → es.get? "results" = some (.list (results.map toValue))

theorem recordedIn_entries (known : r.details.Known) : r.RecordedIn r.entries := by
  obtain ⟨named, once⟩ := entries_named known
  have field {name : String} {v : Value} (member : (.text name, v) ∈ r.details.fields) :
      r.entries.get? name = some v :=
    named.get?_of_mem once (List.mem_append_right _ member)
  exact {
    shown := ⟨toValue_eq known, (plain_report r).trans (toValue_eq known)⟩
    standard := fun name v member => named.get?_of_mem once (List.mem_append_left _ member)
    branch := fun met taken inner kind => field (by simp [kind, Details.fields])
    rounds := fun done cancelled kind => field (by simp [kind, Details.fields, Iteration.toValues_eq])
    sides := fun results kind => field (by simp [kind, Details.fields, toValues_eq]) }

/-! ## What results hold -/

end StepResult

/-- The values that details hold, but for the results among them. -/
def Details.values : Details → List Value
  | .given fields => [.dict fields]
  | .tool _ parameters raw => [.dict parameters, .dict raw]
  | .command line raw => [line, .dict raw]
  | .iterations done _ => done.map (·.item)
  | .notice instructions => [instructions]
  | .decision instructions _ note => [instructions, note]
  | .nothing | .reason _ | .branch .. | .branches _ | .delay _ => []

namespace StepResult

variable {r : StepResult}

/-- A result that an interpreter makes of values in which every result is of some kind. -/
structure Clean (Q : Value → Prop) (r : StepResult) : Prop where
  known : r.details.Known
  outputs : r.outputs.Only Q
  error : r.error.Only Q
  values : ∀ v ∈ r.details.values, v.Only Q

/-- So are all results in its details. -/
def Cleans (Q : Value → Prop) (r : StepResult) : Prop := ∀ part : StepResult, part.Part r → part.Clean Q

theorem Clean.cleans (clean : r.Clean Q) (inner : ∀ r' ∈ r.details.results, r'.Cleans Q) : r.Cleans Q := by
  intro part isPart
  cases isPart with
  | whole => exact clean
  | within member isPart => exact inner _ member part isPart

theorem Cleans.clean (cleans : r.Cleans Q) : r.Clean Q := cleans r (.whole r)

theorem Cleans.inner (cleans : r.Cleans Q) : ∀ r' ∈ r.details.results, r'.Cleans Q :=
  fun _ member part isPart => cleans part (.within member isPart)

end StepResult

/-- The results in details are smaller than the details. -/
theorem Details.smaller {d : Details} {inner : StepResult} (member : inner ∈ d.results) : sizeOf inner < sizeOf d := by
  cases d with
  | branch met taken result =>
    cases result with
    | none => cases member
    | some result =>
      rw [List.mem_singleton.mp member, Details.branch.sizeOf_spec, Option.some.sizeOf_spec]
      omega
  | iterations done cancelled =>
    obtain ⟨round, listed, rfl⟩ := List.mem_map.mp member
    have smaller := List.sizeOf_lt_of_mem listed
    have part : sizeOf round.result < sizeOf round := by
      cases round
      simp only [Iteration.mk.sizeOf_spec]
      omega
    rw [Details.iterations.sizeOf_spec]
    omega
  | branches results =>
    have smaller : sizeOf inner < sizeOf results := List.sizeOf_lt_of_mem member
    rw [Details.branches.sizeOf_spec]
    omega
  | nothing | given | reason | tool | command | delay | notice | decision => cases member

namespace StepResult

variable {r : StepResult}

/-- What holds of a result if it holds of the results in its details holds of every result. -/
@[elab_as_elim]
theorem byParts {motive : StepResult → Prop}
    (whole : ∀ r : StepResult, (∀ inner ∈ r.details.results, motive inner) → motive r) (r : StepResult) : motive r :=
  whole r fun inner _ => byParts whole inner
termination_by sizeOf r
decreasing_by
  obtain ⟨_, _, _, _, _, _, details⟩ := r
  have smaller : sizeOf inner < sizeOf details := Details.smaller ‹_›
  rw [StepResult.mk.sizeOf_spec]
  omega

end StepResult

/-- What details show is what they hold, and the records of the results in them. -/
theorem Details.only_fields {d : Details} (known : d.Known) (values : ∀ v ∈ d.values, v.Only Q)
    (records : ∀ r ∈ d.results, r.toValue.Only Q) : Entries.Only Q d.fields := by
  cases d with
  | given fields => exact known.elim
  | nothing | reason | delay =>
    rw [Details.fields]
    simp
  | tool name parameters raw =>
    obtain ⟨ofParameters, ofRaw⟩ : Entries.Only Q parameters ∧ Entries.Only Q raw := by
      simpa [Details.values] using values
    rw [Details.fields]
    simp [Value.Only.plainEntries ofParameters, Value.Only.plainEntries ofRaw]
  | command line raw =>
    obtain ⟨ofLine, ofRaw⟩ : line.Only Q ∧ Entries.Only Q raw := by simpa [Details.values] using values
    rw [Details.fields]
    simp [ofLine.plain, Value.Only.plainEntries ofRaw]
  | branch met taken result =>
    cases result with
    | none =>
      rw [Details.fields]
      simp
    | some result =>
      have record : result.toValue.Only Q := records result List.mem_cons_self
      rw [Details.fields]
      simp [record]
  | iterations done cancelled =>
    have rounds : ∀ v ∈ done.map Iteration.record, v.Only Q := by
      intro v listed
      obtain ⟨round, member, rfl⟩ := List.mem_map.mp listed
      have item := values round.item (List.mem_map_of_mem member)
      have record := records round.result (List.mem_map_of_mem member)
      simp [Iteration.record, item.plain, record]
    rw [Details.fields, Iteration.toValues_eq]
    cases cancelled <;> simp_all
  | branches results =>
    have records : ∀ v ∈ results.map StepResult.toValue, v.Only Q := by
      intro v listed
      obtain ⟨r, member, rfl⟩ := List.mem_map.mp listed
      exact records r member
    rw [Details.fields, StepResult.toValues_eq]
    simp only [Entries.only_cons, Value.only_text, Value.only_list, Value.only_int, true_and, and_true]
    exact ⟨records, Entries.only_nil⟩
  | notice instructions =>
    have ofInstructions : instructions.Only Q := by simpa [Details.values] using values
    rw [Details.fields]
    simp [ofInstructions.plain]
  | decision instructions token note =>
    obtain ⟨ofInstructions, ofNote⟩ : instructions.Only Q ∧ note.Only Q := by simpa [Details.values] using values
    rw [Details.fields]
    simp [ofInstructions.plain, ofNote.plain]

namespace StepResult

variable {r : StepResult}

/-- The record of a result holds what the result and those in its details hold. -/
theorem Cleans.toValue (cleans : r.Cleans Q) : r.toValue.Only Q := by
  induction r using byParts with
  | whole r ih =>
  obtain ⟨known, outputs, error, values⟩ := cleans.clean
  have records : ∀ inner ∈ r.details.results, inner.toValue.Only Q := fun inner member =>
    ih inner member (cleans.inner inner member)
  have standard : r.standard.Only Q := by
    simp [StepResult.standard, Value.resultFields, Value.moment, outputs, error]
  rw [toValue_eq known, Value.only_dict]
  exact Entries.only_append.mpr ⟨standard, Details.only_fields known values records⟩

end StepResult

end Runbook
