import Mathlib.Data.List.Permutation
import Runbook.Proofs.Keys
import Runbook.Proofs.Malformed

/-! # Steps spelled in other ways

Six fields of a step can be spelled in two ways or three. A definition whose steps are all of known kinds, and that
spells no field of a step twice, is read alike however its fields are spelled: as the same step, or with the same
fault, at whatever depth the spellings differ.
-/

namespace Runbook

namespace Step

/-! ## Spellings -/

/-- The fields that can be spelled in several ways, each with its spellings. -/
def spellings : List (List String) :=
  [["toolName", "tool_name", "tool"], ["workingDirectory", "working_directory", "cwd"],
    ["itemVariable", "item_variable"], ["indexVariable", "index_variable"], ["maxIterations", "max_iterations"],
    ["stopOnFailure", "stop_on_failure"]]

/-- The words for the kinds of steps. -/
def kinds : List String := ["tool", "command", "conditional", "loop", "parallel", "delay", "manual"]

/-- The entry stands under one of several names. -/
def under (names : List String) (e : Value × Value) : Bool := names.any fun name => e.1.equal (.text name)

/-- No field of a step is spelled in more than one way. -/
def SpelledOnce (es : Entries) : Prop := ∀ names ∈ spellings, es.countP (under names) ≤ 1

/-- The names of the fields that hold steps. -/
def nesting : List String := ["then", "else", "step", "steps"]

mutual

/-- A value and the same value with fields of the steps in it spelled in other ways. -/
inductive Respelled : Value → Value → Prop
  | same (v : Value) : Respelled v v
  | items {vs vs' : List Value} (items : List.Forall₂ Respelled vs vs') : Respelled (.list vs) (.list vs')
  | step {es es' : Entries} (known : kindOf es ∈ kinds) (once : SpelledOnce es)
      (entries : List.Forall₂ RespelledEntry es es') : Respelled (.dict es) (.dict es')

/-- An entry of a step and the same entry spelled in another way. -/
inductive RespelledEntry : Value × Value → Value × Value → Prop
  | same (e : Value × Value) : RespelledEntry e e
  /-- The field has another name. -/
  | field {names : List String} {name name' : String} (listed : names ∈ spellings) (one : name ∈ names)
      (other : name' ∈ names) (v : Value) : RespelledEntry (.text name, v) (.text name', v)
  /-- The field holds steps. -/
  | nested {name : String} {v v' : Value} (holds : name ∈ nesting) (respelled : Respelled v v') :
      RespelledEntry (.text name, v) (.text name, v')

end

variable {es es' : Entries} {e e' : Value × Value} {v v' : Value} {name : String} {names : List String}

/-! ## Fields found under their names -/

/-- The names do not tell the spellings of a field apart. -/
def Blind (names : List String) : Prop :=
  ∀ group ∈ spellings, ∀ one ∈ group, ∀ other ∈ group, (names.contains one = names.contains other)

instance (names : List String) : Decidable (Blind names) := inferInstanceAs (Decidable (∀ _ ∈ _, _))

/-- The spellings of one field are those of no other. -/
theorem blind_of_listed (listed : names ∈ spellings) : Blind names := by
  have all : ∀ names ∈ spellings, Blind names := by decide +kernel
  exact all names listed

theorem under_text (names : List String) (name : String) (v : Value) :
    under names (.text name, v) = names.contains name := by
  rw [under, List.contains_eq_any_beq]
  simp [Value.equal, Value.equalScalar]

/-- Names that do not tell spellings apart find the same entries. -/
theorem RespelledEntry.under_eq (respelled : RespelledEntry e e') (blind : Blind names) :
    under names e = under names e' := by
  cases respelled with
  | same => rfl
  | field listed one other v => rw [under_text, under_text, blind _ listed _ one _ other]
  | nested => rw [under_text, under_text]

theorem countP_respelled (entries : List.Forall₂ RespelledEntry es es') (blind : Blind names) :
    es.countP (under names) = es'.countP (under names) := by
  induction entries with
  | nil => rfl
  | cons respelled _ ih => rw [List.countP_cons, List.countP_cons, ih, respelled.under_eq blind]

theorem SpelledOnce.respelled (once : SpelledOnce es) (entries : List.Forall₂ RespelledEntry es es') :
    SpelledOnce es' :=
  fun names listed => countP_respelled entries (blind_of_listed listed) ▸ once names listed

/-- What is found under names that do not tell spellings apart is the same entry, in another way. -/
theorem find?_respelled (entries : List.Forall₂ RespelledEntry es es') (blind : Blind names) :
    Option.Rel (fun e e' => under names e = true ∧ RespelledEntry e e') (es.find? (under names))
      (es'.find? (under names)) := by
  induction entries with
  | nil => exact .none
  | @cons e e' rest rest' respelled _ ih =>
    rw [List.find?_cons, List.find?_cons, ← respelled.under_eq blind]
    cases found : under names e with
    | true => exact .some ⟨found, respelled⟩
    | false => exact ih

/-- The names of the other fields, which have one name each. -/
def plain : List String :=
  ["type", "name", "description", "conditions", "optional", "parameters", "outputs", "command", "condition", "items",
    "delay", "instructions"]

/-- An entry that holds no step has the same value in every spelling. -/
theorem RespelledEntry.value_eq (respelled : RespelledEntry e e') (found : under names e = true)
    (flat : ∀ name ∈ names, name ∉ nesting) : e.2 = e'.2 := by
  cases respelled with
  | same => rfl
  | field => rfl
  | nested holds =>
    rw [under_text, List.contains_iff_mem] at found
    exact absurd holds (flat _ found)

theorem value_respelled (entries : List.Forall₂ RespelledEntry es es') (blind : Blind names)
    (flat : ∀ name ∈ names, name ∉ nesting) :
    (es.find? (under names)).map (·.2) = (es'.find? (under names)).map (·.2) := by
  have found := find?_respelled entries blind
  generalize es.find? (under names) = one at found ⊢
  generalize es'.find? (under names) = other at found ⊢
  cases found with
  | none => rfl
  | some respelled => exact congrArg some (respelled.2.value_eq respelled.1 flat)

theorem get?_eq (es : Entries) (name : String) : es.get? name = (es.find? (under [name])).map (·.2) := by
  have same : under [name] = fun e => e.1.equal (.text name) := funext fun e => by simp [under]
  rw [same]
  rfl

/-- A field with one name that holds no step has the same value in every spelling. -/
theorem get?_respelled (entries : List.Forall₂ RespelledEntry es es') (known : name ∈ plain) :
    es.get? name = es'.get? name := by
  have all : ∀ name ∈ plain, Blind [name] ∧ ∀ other ∈ [name], other ∉ nesting := by decide +kernel
  rw [get?_eq, get?_eq, value_respelled entries (all name known).1 (all name known).2]

theorem getD_plain (entries : List.Forall₂ RespelledEntry es es') (known : name ∈ plain) :
    es.getD name = es'.getD name := by
  rw [Entries.getD, Entries.getD, get?_respelled entries known]

theorem first?_congr (same : ∀ name ∈ names, es.get? name = es'.get? name) : es.first? names = es'.first? names := by
  unfold Entries.first?
  induction names with
  | nil => rfl
  | cons name rest ih =>
    rw [List.findSome?_cons, List.findSome?_cons, same name List.mem_cons_self,
      ih fun other member => same other (List.mem_cons_of_mem name member)]

/-- The names of a field that is spelled at most once find the one entry that there is. -/
theorem first?_eq (once : es.countP (under names) ≤ 1) : es.first? names = (es.find? (under names)).map (·.2) := by
  induction es with
  | nil => exact List.findSome?_eq_none_iff.mpr fun _ _ => rfl
  | cons e rest ih =>
    rw [List.countP_cons] at once
    rw [List.find?_cons]
    cases here : under names e with
    | false =>
      rw [← ih (by omega)]
      refine first?_congr fun name member => ?_
      rw [Entries.get?_cons, if_neg (by simpa using List.any_eq_false.mp here name member)]
    | true =>
      rw [here, if_pos rfl] at once
      have others := List.countP_eq_zero.mp (show rest.countP (under names) = 0 by omega)
      have looked (name : String) (member : name ∈ names) :
          Entries.get? (e :: rest) name = if e.1.equal (.text name) then some e.2 else none := by
        have absent : Entries.get? rest name = none := by
          rw [get?_eq, List.find?_eq_none.mpr fun e' listed found => others e' listed ?_, Option.map_none]
          exact List.any_eq_true.mpr ⟨name, member, by simpa [under] using found⟩
        rw [Entries.get?_cons, absent]
      cases found : Entries.first? (e :: rest) names with
      | none =>
        obtain ⟨name, member, equal⟩ := List.any_eq_true.mp here
        have missing := List.findSome?_eq_none_iff.mp found name member
        rw [looked name member, if_pos equal] at missing
        cases missing
      | some v =>
        obtain ⟨name, member, there⟩ := List.exists_of_findSome?_eq_some found
        rw [looked name member] at there
        split at there
        · exact there.symm
        · cases there

/-- A field with several names has the same value in every spelling. -/
theorem first?_respelled (entries : List.Forall₂ RespelledEntry es es') (once : SpelledOnce es)
    (listed : names ∈ spellings) : es.first? names = es'.first? names := by
  have apart : ∀ names ∈ spellings, ∀ name ∈ names, name ∉ nesting := by decide +kernel
  rw [first?_eq (once names listed), first?_eq (once.respelled entries names listed),
    value_respelled entries (blind_of_listed listed) (apart names listed)]

/-- A field that holds steps holds the same steps in another way. -/
theorem getD_respelled (entries : List.Forall₂ RespelledEntry es es') (holds : name ∈ nesting) :
    Respelled (es.getD name) (es'.getD name) := by
  have known : ∀ name ∈ nesting, Blind [name] ∧ ∀ names ∈ spellings, name ∉ names := by decide +kernel
  obtain ⟨blind, apart⟩ := known name holds
  rw [Entries.getD, Entries.getD, get?_eq, get?_eq]
  have found := find?_respelled entries blind
  generalize es.find? (under [name]) = one at found ⊢
  generalize es'.find? (under [name]) = other at found ⊢
  cases found with
  | none => exact .same .null
  | some respelled =>
    obtain ⟨found, respelled⟩ := respelled
    cases respelled with
    | same => exact .same _
    | field listed one =>
      rw [under_text, List.contains_iff_mem, List.mem_singleton] at found
      subst found
      exact absurd one (apart _ listed)
    | nested _ respelled => exact respelled

/-! ## Steps read in another spelling -/

theorem Respelled.isNull (respelled : Respelled v v') : v.isNull = v'.isNull := by
  cases respelled <;> rfl

theorem Common.read_respelled (entries : List.Forall₂ RespelledEntry es es') (once : SpelledOnce es) :
    Common.read es = Common.read es' := by
  rw [Common.read, Common.read, getD_plain entries (by decide : "conditions" ∈ plain),
    getD_plain entries (by decide : "name" ∈ plain), getD_plain entries (by decide : "description" ∈ plain),
    getD_plain entries (by decide : "optional" ∈ plain), first?_respelled entries once (by decide)]

theorem readTool_respelled (entries : List.Forall₂ RespelledEntry es es') (once : SpelledOnce es) (c : Common) :
    readTool c es = readTool c es' := by
  rw [readTool, readTool, getD_plain entries (by decide : "parameters" ∈ plain),
    getD_plain entries (by decide : "outputs" ∈ plain), first?_respelled entries once (by decide)]

theorem readCommand_respelled (entries : List.Forall₂ RespelledEntry es es') (once : SpelledOnce es) (c : Common) :
    readCommand c es = readCommand c es' := by
  rw [readCommand, readCommand, getD_plain entries (by decide : "outputs" ∈ plain),
    get?_respelled entries (by decide : "command" ∈ plain), first?_respelled entries once (by decide)]

theorem readLimit_respelled (entries : List.Forall₂ RespelledEntry es es') (once : SpelledOnce es) :
    readLimit es = readLimit es' := by
  rw [readLimit, readLimit, first?_respelled entries once (by decide)]

section Smaller

-- all that is smaller than some value is read alike in every spelling
variable {size : Nat} (smaller : ∀ {v v' : Value}, sizeOf v < size → Respelled v v' → read v = read v')

include smaller

theorem readOptional_respelled (small : sizeOf v < size) (respelled : Respelled v v') :
    readOptional v = readOptional v' := by
  rw [readOptional, readOptional, respelled.isNull, smaller small respelled]

theorem readAll_respelled {vs vs' : List Value} (items : List.Forall₂ Respelled vs vs') (small : sizeOf vs < size) :
    readAll vs = readAll vs' := by
  induction items with
  | nil => rfl
  | cons respelled _ ih =>
    rw [List.cons.sizeOf_spec] at small
    rw [readAll, readAll, smaller (by omega) respelled, ih (by omega)]

theorem readBranches_respelled (small : sizeOf v < size) (respelled : Respelled v v') :
    readBranches v = readBranches v' := by
  cases respelled with
  | same => rfl
  | items items =>
    rw [Value.list.sizeOf_spec] at small
    have alike := readAll_respelled smaller items (by omega)
    cases items with
    | nil => rfl
    | cons => simp [readBranches, Value.truthy, alike]
  | step _ _ entries =>
    cases entries with
    | nil => rfl
    | cons => simp [readBranches, Value.truthy]

end Smaller

/-- A table is read alike in every spelling if the steps in it are. -/
theorem readFields_respelled (entries : List.Forall₂ RespelledEntry es es') (once : SpelledOnce es)
    (known : kindOf es ∈ kinds)
    (smaller : ∀ {v v' : Value}, sizeOf v < sizeOf (Value.dict es) → Respelled v v' → read v = read v') :
    readFields es = readFields es' := by
  have kind : kindOf es = kindOf es' := by rw [kindOf, kindOf, get?_respelled entries (by decide)]
  have optional (name : String) (holds : name ∈ nesting) :=
    readOptional_respelled smaller (Entries.sizeOf_getD es name) (getD_respelled entries holds)
  have branches := readBranches_respelled smaller (Entries.sizeOf_getD es "steps") (getD_respelled entries (by decide))
  rw [readFields, readFields, Common.read_respelled entries once]
  refine bind_congr fun c => ?_
  rw [← kindOf, ← kindOf, ← kind]
  simp only [kinds, List.mem_cons, List.not_mem_nil, or_false] at known
  rcases known with same | same | same | same | same | same | same <;> rw [same]
  · exact readTool_respelled entries once c
  · exact readCommand_respelled entries once c
  · simp only [getD_plain entries (by decide : "condition" ∈ plain), optional "then" (by decide),
      optional "else" (by decide)]
  · simp only [readLimit_respelled entries once, optional "step" (by decide),
      getD_plain entries (by decide : "items" ∈ plain),
      first?_respelled entries once (by decide : ["itemVariable", "item_variable"] ∈ spellings),
      first?_respelled entries once (by decide : ["indexVariable", "index_variable"] ∈ spellings)]
  · simp only [branches]
  · simp only [get?_respelled entries (by decide : "delay" ∈ plain)]
  · simp only [getD_plain entries (by decide : "instructions" ∈ plain)]

/-- A value is read as the same step, or with the same fault, however the fields of the steps in it are spelled, when
these steps are all of known kinds and no field is spelled in more than one way. -/
theorem read_of_respelled (respelled : Respelled v v') : read v = read v' := by
  induction size : sizeOf v using Nat.strongRecOn generalizing v v' with
  | _ n smaller =>
    cases respelled with
    | same => rfl
    | items => simp only [read, Value.kind]
    | step known once entries =>
      rw [read, read]
      refine readFields_respelled entries once known fun small respelled => ?_
      exact smaller _ (size ▸ small) respelled rfl

/-- A loop over a parallel step with one tool, with the names of five fields. -/
def spelledLoop (item limit stop tool : String) : Value :=
  .dict [(.text "type", .text "loop"), (.text "items", .text "docs"), (.text item, .text "file"), (.text limit, .int 3),
    (.text "step", .dict [(.text "type", .text "parallel"), (.text stop, .bool true),
      (.text "steps", .list [.dict [(.text "type", .text "tool"), (.text tool, .text "read_file")]])])]

/-- The loop is read as the same step with one choice of the names and with another. -/
theorem loop_respelled :
    let one := spelledLoop "itemVariable" "maxIterations" "stopOnFailure" "toolName"
    let other := spelledLoop "item_variable" "max_iterations" "stop_on_failure" "tool"
    Respelled one other ∧ read one = read other ∧
      read one = .ok (.loop {} (.text "docs") (.text "file") (.text "index") (some 3)
        (some (.parallel { stopOnFailure := some true } [.tool {} "read_file" [] []]))) := by
  intro one other
  have once (es : Entries) (few : (spellings.all fun names => es.countP (under names) ≤ 1) = true) : SpelledOnce es :=
    fun names listed => of_decide_eq_true (List.all_eq_true.mp few names listed)
  have tool : Respelled (.dict [(.text "type", .text "tool"), (.text "toolName", .text "read_file")])
      (.dict [(.text "type", .text "tool"), (.text "tool", .text "read_file")]) :=
    .step (by decide +kernel) (once _ (by decide +kernel)) (.cons (.same _)
      (.cons (.field (.head _) (by decide) (by decide) _) .nil))
  have parallel : Respelled
      (.dict [(.text "type", .text "parallel"), (.text "stopOnFailure", .bool true),
        (.text "steps", .list [.dict [(.text "type", .text "tool"), (.text "toolName", .text "read_file")]])])
      (.dict [(.text "type", .text "parallel"), (.text "stop_on_failure", .bool true),
        (.text "steps", .list [.dict [(.text "type", .text "tool"), (.text "tool", .text "read_file")]])]) := by
    refine .step (by decide +kernel) (once _ (by decide +kernel)) (.cons (.same _) (.cons ?_ (.cons ?_ .nil)))
    · exact .field (by decide : ["stopOnFailure", "stop_on_failure"] ∈ spellings) (by decide) (by decide) _
    · exact .nested (by decide) (.items (.cons tool .nil))
  have respelled : Respelled one other := by
    refine .step (by decide +kernel) (once _ (by decide +kernel))
      (.cons (.same _) (.cons (.same _) (.cons ?_ (.cons ?_ (.cons ?_ .nil)))))
    · exact .field (by decide : ["itemVariable", "item_variable"] ∈ spellings) (by decide) (by decide) _
    · exact .field (by decide : ["maxIterations", "max_iterations"] ∈ spellings) (by decide) (by decide) _
    · exact .nested (by decide) parallel
  exact ⟨respelled, read_of_respelled respelled, by cbv⟩

end Step

end Runbook
