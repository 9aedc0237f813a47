import Runbook.Proofs.Numerals

/-! # Comparisons

A condition has a verdict unless an integer is too large for what its operator does: beyond the floating-point numbers
where numbers are compared, or of too many digits where a text is searched. Integers are ordered as the numbers are that
they are rounded to, so those that are rounded to the same number count as equal.
-/

namespace Runbook

open Number

namespace Value

/-! ## Values as numbers -/

variable {v w : Value}

/-- The value is an integer beyond the floating-point numbers. -/
def beyondNumbers : Value → Bool
  | int n => decide (tooLarge ≤ n.natAbs)
  | _ => false

/-- Both values are numbers, or texts that write numbers. -/
def Numbers (v w : Value) : Prop :=
  (∃ x, v.asNumber = .ok (some x)) ∧ ∃ y, w.asNumber = .ok (some y)

theorem floatOfInteger_eq (n : Int) :
    floatOfInteger n = if tooLarge ≤ n.natAbs then .error .integerTooLarge else .ok (Float.ofInt n) := by
  rw [floatOfInteger]
  split_ifs with beyond
  · rw [(floatOfInt?_eq_none_iff n).mpr beyond]
  · have some : floatOfInt? n ≠ none := mt (floatOfInt?_eq_none_iff n).mp beyond
    rw [floatOfInt?_eq] at some ⊢
    split_ifs at some ⊢
    · rfl
    · contradiction

theorem asNumber_int {n : Int} (near : n.natAbs < tooLarge) : (int n).asNumber = .ok (some (Float.ofInt n)) := by
  rw [asNumber, toFloat?, floatOfInteger_eq, if_neg (Nat.not_le.mpr near)]
  all_goals simp

theorem asNumber_of_beyond (beyond : v.beyondNumbers = true) : v.asNumber = .error .integerTooLarge := by
  cases v with
  | int n =>
    rw [asNumber, toFloat?, floatOfInteger_eq, if_pos (of_decide_eq_true beyond)]
    all_goals simp
  | _ => contradiction

theorem asNumber_of_near (near : v.beyondNumbers = false) : ∃ number, v.asNumber = .ok number := by
  cases v with
  | int n => exact ⟨_, asNumber_int (Nat.not_le.mp (of_decide_eq_false near))⟩
  | _ => exact ⟨_, rfl⟩

/-- Two values are taken as numbers one after the other, and an integer beyond the numbers ends it. -/
theorem asNumbers_of_beyond {α : Type} (next : Option Float → Option Float → Except Fault α)
    (beyond : (v.beyondNumbers || w.beyondNumbers) = true) :
    (v.asNumber >>= fun a => w.asNumber >>= fun b => next a b) = .error .integerTooLarge := by
  cases first : v.beyondNumbers with
  | true => rw [asNumber_of_beyond first]; rfl
  | false =>
    obtain ⟨number, some⟩ := asNumber_of_near first
    rw [first, Bool.false_or] at beyond
    rw [some, asNumber_of_beyond beyond]
    rfl

theorem asNumbers_of_near (near : (v.beyondNumbers || w.beyondNumbers) = false) :
    ∃ a b, v.asNumber = .ok a ∧ w.asNumber = .ok b := by
  rw [Bool.or_eq_false_iff] at near
  obtain ⟨a, first⟩ := asNumber_of_near near.1
  obtain ⟨b, second⟩ := asNumber_of_near near.2
  exact ⟨a, b, first, second⟩

theorem near_of_isNumeric (other : v.isNumeric = false) : v.beyondNumbers = false := by
  cases v with
  | int n => contradiction
  | _ => rfl

theorem near_of_asText? {s : String} (text : v.asText? = some s) : v.beyondNumbers = false := by
  cases v with
  | int n => contradiction
  | _ => rfl

end Value

/-! ## Verdicts -/

namespace Operator

/-- What the operator fails with on the value of a variable and the value to compare it with. -/
def strain? (operator : Operator) (value comparand : Value) : Option Fault :=
  match operator with
  | .equals | .notEquals =>
    if !(value.isNull || comparand.isNull || value.equal comparand) && (value.beyondNumbers || comparand.beyondNumbers)
    then some .integerTooLarge else none
  | .greaterThan | .lessThan =>
    if !(value.isNull || comparand.isNull) && (value.beyondNumbers || comparand.beyondNumbers)
    then some .integerTooLarge else none
  | .contains =>
    if !value.isNull && (value.hasLongInteger || comparand.hasLongInteger) then some .integerUnwritable else none
  | .exists | .notExists => none

/-- The operator can compare the two values. -/
def Compares (operator : Operator) (value comparand : Value) : Prop :=
  match operator with
  | .equals | .notEquals => value.equal comparand = true ∨ value.Numbers comparand
  | .greaterThan | .lessThan =>
    (value.asText?.isSome = true ∧ comparand.asText?.isSome = true) ∨ value.Numbers comparand
  | .contains | .exists | .notExists => True

end Operator

/-- A comparison fails if it is strained. If not, it has a verdict, and that is given beforehand where the comparison
makes no sense. -/
def Settled (verdict : Except Fault Bool) (strain : Option Fault) (sense : Prop) (otherwise : Bool) : Prop :=
  match strain with
  | some fault => verdict = .error fault
  | none => ∃ b, verdict = .ok b ∧ (¬sense → b = otherwise)

variable {v w : Value}

/-- Two values that are taken as numbers are compared if they are numbers. -/
theorem asNumbers_settled {next : Option Float → Option Float → Except Fault Bool} {before : Float → Float → Bool}
    {sense : Prop} (compared : ∀ a b, next a b = .ok (match a, b with | some x, some y => before x y | _, _ => false)) :
    Settled (v.asNumber >>= fun a => w.asNumber >>= fun b => next a b)
      (if v.beyondNumbers || w.beyondNumbers then some .integerTooLarge else none) (sense ∨ v.Numbers w) false := by
  cases beyond : v.beyondNumbers || w.beyondNumbers with
  | true => exact Value.asNumbers_of_beyond next beyond
  | false =>
    obtain ⟨a, b, first, second⟩ := Value.asNumbers_of_near beyond
    rw [first, second]
    refine ⟨_, compared a b, fun senseless => ?_⟩
    cases a with
    | none => rfl
    | some x =>
      cases b with
      | none => rfl
      | some y => exact absurd (.inr ⟨⟨x, first⟩, ⟨y, second⟩⟩) senseless

theorem looselyEqual_settled (v w : Value) :
    Settled (v.looselyEqual w) (Operator.equals.strain? v w) (Operator.equals.Compares v w) false := by
  simp only [Operator.strain?, Operator.Compares, Value.looselyEqual]
  cases null : v.isNull || w.isNull with
  | true =>
    refine ⟨_, if_pos rfl, fun senseless => ?_⟩
    cases v <;> cases w <;> first | rfl | contradiction | exact absurd (.inl rfl) senseless
  | false =>
    cases same : v.equal w with
    | true => exact ⟨true, rfl, fun senseless => absurd (.inl rfl) senseless⟩
    | false =>
      simp only [Bool.or_self, Bool.not_false, Bool.true_and, Bool.false_eq_true, if_false]
      cases numeric : v.isNumeric || w.isNumeric with
      | true => exact asNumbers_settled fun a b => by cases a <;> cases b <;> rfl
      | false =>
        have near : (v.beyondNumbers || w.beyondNumbers) = false := by
          rw [Bool.or_eq_false_iff] at numeric ⊢
          exact numeric.imp Value.near_of_isNumeric Value.near_of_isNumeric
        rw [near]
        exact ⟨false, rfl, fun _ => rfl⟩

theorem ordered_settled (before : Bool) (v w : Value) :
    Settled (v.ordered before w) (Operator.lessThan.strain? v w) (Operator.lessThan.Compares v w) false := by
  simp only [Operator.strain?, Operator.Compares, Value.ordered]
  cases null : v.isNull || w.isNull with
  | true => exact ⟨false, rfl, fun _ => rfl⟩
  | false =>
    simp only [Bool.not_false, Bool.true_and, Bool.false_eq_true, if_false]
    cases first : v.asText? with
    | none => exact asNumbers_settled fun a b => by cases a <;> cases b <;> rfl
    | some s =>
      cases second : w.asText? with
      | none => exact asNumbers_settled fun a b => by cases a <;> cases b <;> rfl
      | some t =>
        rw [Value.near_of_asText? first, Value.near_of_asText? second]
        exact ⟨_, rfl, fun senseless => absurd (.inl ⟨rfl, rfl⟩) senseless⟩

theorem Settled.not {verdict : Except Fault Bool} {strain : Option Fault} {sense : Prop} {otherwise : Bool}
    (settled : Settled verdict strain sense otherwise) : Settled (verdict.map (!·)) strain sense (!otherwise) := by
  cases strain with
  | some fault =>
    change verdict = .error fault at settled
    rw [settled]
    rfl
  | none =>
    obtain ⟨b, rfl, senseless⟩ := settled
    exact ⟨!b, rfl, fun none => congrArg (!·) (senseless none)⟩

/-! ## Texts -/

/-- An integer is too long if it has more digits than are written. -/
theorem isLong_eq (n : Int) : Value.isLong n = decide (digitLimit < (digitsOf n.natAbs).length) := by
  have fits {k : Nat} (some : 0 < k) : (digitsOf n.natAbs).length ≤ k ↔ n.natAbs < Nat.pow 10 k :=
    Nat.length_toDigits_le_iff (by decide) some
  rw [Value.isLong, decide_eq_decide, ← Nat.not_lt, ← fits (by decide), Nat.not_le]

theorem searchText_eq (v : Value) : v.searchText =
    if v.hasLongInteger then .error .integerUnwritable else .ok (v.searchText.toOption.getD "") := by
  cases v with
  | null | bool b => rfl
  | _ =>
    simp only [Value.searchText]
    split_ifs <;> rfl

theorem contains_settled (v w : Value) : Settled (Condition.apply .contains v w) (Operator.contains.strain? v w)
    (Operator.contains.Compares v w) false := by
  simp only [Operator.strain?, Operator.Compares, Condition.apply]
  cases null : v.isNull with
  | true => exact ⟨false, rfl, fun _ => rfl⟩
  | false =>
    rw [searchText_eq v, searchText_eq w]
    cases v.hasLongInteger <;> cases w.hasLongInteger <;> first
      | rfl
      | exact ⟨_, rfl, fun senseless => absurd trivial senseless⟩

/-- Every operator has a verdict on all values on which it does not fail. -/
theorem apply_settled (operator : Operator) (v w : Value) :
    Settled (Condition.apply operator v w) (operator.strain? v w) (operator.Compares v w) (operator == .notEquals) := by
  cases operator with
  | equals => exact looselyEqual_settled v w
  | notEquals => exact (looselyEqual_settled v w).not
  | greaterThan => exact ordered_settled false v w
  | lessThan => exact ordered_settled true v w
  | contains => exact contains_settled v w
  | «exists» | notExists => exact ⟨_, rfl, fun senseless => absurd trivial senseless⟩

theorem Settled.eq_error_iff {verdict : Except Fault Bool} {strain : Option Fault} {sense : Prop} {otherwise : Bool}
    (settled : Settled verdict strain sense otherwise) (fault : Fault) :
    verdict = .error fault ↔ strain = some fault := by
  cases strain with
  | some strain =>
    change verdict = .error strain at settled
    rw [settled, Except.error.injEq, Option.some.injEq]
  | none =>
    obtain ⟨b, rfl, -⟩ := settled
    exact iff_of_false nofun nofun

theorem Operator.strain?_eq_none (operator : Operator) (near : v.beyondNumbers = false)
    (near' : w.beyondNumbers = false) (short : v.hasLongInteger = false) (short' : w.hasLongInteger = false) :
    operator.strain? v w = none := by
  cases operator <;> simp only [Operator.strain?, near, near', short, short', Bool.or_self, Bool.and_false] <;> rfl

namespace Condition

/-- What a condition fails with in a scope. -/
def strain? (c : Condition) (scope : Entries) : Option Fault :=
  (Operator.ofText? c.operator).bind fun operator => operator.strain? (Entries.getD scope c.subject) c.comparand

/-- The condition compares what can be compared. -/
def Compares (c : Condition) (scope : Entries) : Prop :=
  ∀ operator, Operator.ofText? c.operator = some operator →
    operator.Compares (Entries.getD scope c.subject) c.comparand

/-- The verdict on values that cannot be compared: they are different, and not in order. -/
def otherwise (c : Condition) : Bool := Operator.ofText? c.operator == some .notEquals

theorem holds_settled (c : Condition) (scope : Entries) :
    Settled (c.holds scope) (c.strain? scope) (c.Compares scope) c.otherwise := by
  rw [holds, strain?, Compares, otherwise]
  cases named : Operator.ofText? c.operator with
  | none => exact ⟨true, rfl, fun senseless => absurd (fun operator other => nomatch other) senseless⟩
  | some operator =>
    have settled := apply_settled operator (Entries.getD scope c.subject) c.comparand
    simpa only [Option.bind_some, Option.some.injEq, forall_eq', Option.some_beq_some] using settled

end Condition

/-- A condition has a verdict unless an integer in it is too large for its operator, and values that cannot be compared
are neither equal nor in order. -/
theorem verdict_unless_strained (c : Condition) (scope : Entries) :
    (∀ fault, c.holds scope = .error fault ↔ c.strain? scope = some fault) ∧
      (c.strain? scope = none → ¬c.Compares scope → c.holds scope = .ok c.otherwise) ∧
      ((∀ v ∈ [Entries.getD scope c.subject, c.comparand], v.beyondNumbers = false ∧ v.hasLongInteger = false) →
        ∃ verdict, c.holds scope = .ok verdict) := by
  have settled := c.holds_settled scope
  have judged (easy : c.strain? scope = none) :
      ∃ verdict, c.holds scope = .ok verdict ∧ (¬c.Compares scope → verdict = c.otherwise) := by
    rwa [easy] at settled
  refine ⟨settled.eq_error_iff, fun easy senseless => ?_, fun small => ?_⟩
  · obtain ⟨verdict, same, otherwise⟩ := judged easy
    rw [same, otherwise senseless]
  · have easy : c.strain? scope = none := by
      obtain ⟨near, short⟩ := small _ List.mem_cons_self
      obtain ⟨near', short'⟩ := small _ (List.mem_cons_of_mem _ List.mem_cons_self)
      rw [Condition.strain?]
      cases Operator.ofText? c.operator with
      | none => rfl
      | some operator => exact operator.strain?_eq_none near near' short short'
    obtain ⟨verdict, same, -⟩ := judged easy
    exact ⟨verdict, same⟩

/-- Whether one is above `10 ^ 400` has no answer. -/
theorem above_numbers_unanswered : ¬∃ verdict,
    Condition.holds ⟨"x", ">", .int (10 ^ 400 : Nat)⟩ [(.text "x", .int 1)] = .ok verdict := by
  have beyond : Value.beyondNumbers (.int (10 ^ 400 : Nat)) = true := decide_eq_true tooLarge_le
  have strain : Condition.strain? ⟨"x", ">", .int (10 ^ 400 : Nat)⟩ [(.text "x", .int 1)] = some .integerTooLarge := by
    change (if !(false || false) && (Value.beyondNumbers (.int 1) || Value.beyondNumbers (.int (10 ^ 400 : Nat)))
      then some Fault.integerTooLarge else none) = _
    rw [beyond, Bool.or_true]
    rfl
  rintro ⟨verdict, same⟩
  rw [((Condition.holds_settled _ _).eq_error_iff _).mpr strain] at same
  contradiction

/-! ## Integers -/

/-- An integer given as itself or as its decimal text. -/
def numeral (written : Bool) (n : Int) : Value := if written then .text (intText n) else .int n

/-- The four signs order two integers. -/
structure InOrder (verdict : String → Except Fault Bool) (a b : Int) : Prop where
  equal : verdict "==" = .ok (decide (a = b))
  notEqual : verdict "!=" = .ok (decide (a ≠ b))
  above : verdict ">" = .ok (decide (b < a))
  below : verdict "<" = .ok (decide (a < b))

/-- A numeral that is not beyond the numbers is taken as what the integer is rounded to. -/
theorem asNumber_numeral {written : Bool} {n : Int} (near : (numeral written n).beyondNumbers = false) :
    ∃ x, (numeral written n).asNumber = .ok (some x) ∧ Stands x (roundInt n) := by
  cases written with
  | true =>
    obtain ⟨x, read, stands⟩ := readFloat?_intText n
    exact ⟨x, congrArg Except.ok read, stands⟩
  | false =>
    exact ⟨Float.ofInt n, Value.asNumber_int (Nat.not_le.mp (of_decide_eq_false near)), stands_ofInt n⟩

variable {written written' : Bool} {a b : Int}

theorem equal_numeral (one : (written && written') = false) :
    (numeral written a).equal (numeral written' b) = (written == written' && a == b) := by
  cases written <;> cases written' <;> first | rfl | contradiction

/-- One of the two numerals is an integer, and rounded to a finite number if that is not beyond the numbers. -/
theorem finite_of_near (one : (written && written') = false)
    (near : ((numeral written a).beyondNumbers || (numeral written' b).beyondNumbers) = false) :
    (roundInt a).natAbs < ceiling ∨ (roundInt b).natAbs < ceiling := by
  have finite {n : Int} (near : (numeral false n).beyondNumbers = false) : (roundInt n).natAbs < ceiling := by
    rw [natAbs_roundInt, ← Nat.not_le, ceiling_le_roundNat_iff]
    exact of_decide_eq_false near
  rw [Bool.or_eq_false_iff] at near
  rw [Bool.and_eq_false_iff] at one
  rcases one with rfl | rfl
  · exact .inl (finite near.1)
  · exact .inr (finite near.2)

theorem isNull_numeral (written : Bool) (n : Int) : (numeral written n).isNull = false := by
  cases written <;> rfl

/-- Two numerals are compared as what they are rounded to. -/
theorem looselyEqual_numeral (one : (written && written') = false)
    (near : ((numeral written a).beyondNumbers || (numeral written' b).beyondNumbers) = false) :
    (numeral written a).looselyEqual (numeral written' b) = .ok (decide (roundInt a = roundInt b)) := by
  simp only [Value.looselyEqual, isNull_numeral, Bool.or_self, Bool.false_eq_true, if_false]
  cases same : (numeral written a).equal (numeral written' b) with
  | true =>
    rw [equal_numeral one, Bool.and_eq_true, beq_iff_eq, beq_iff_eq] at same
    rw [same.2, decide_eq_true rfl]
    rfl
  | false =>
    have finite := finite_of_near one near
    rw [Bool.or_eq_false_iff] at near
    obtain ⟨x, first, stands⟩ := asNumber_numeral near.1
    obtain ⟨y, second, stands'⟩ := asNumber_numeral near.2
    have numeric : ((numeral written a).isNumeric || (numeral written' b).isNumeric) = true := by
      cases written <;> cases written' <;> first | rfl | contradiction
    rw [numeric, first, second]
    exact congrArg Except.ok (Bool.eq_iff_iff.mpr ((stands.beq_iff stands' finite).trans (decide_eq_true_iff).symm))

theorem ordered_numeral (one : (written && written') = false)
    (near : ((numeral written a).beyondNumbers || (numeral written' b).beyondNumbers) = false) (before : Bool) :
    (numeral written a).ordered before (numeral written' b) =
      .ok (if before then decide (roundInt a < roundInt b) else decide (roundInt b < roundInt a)) := by
  have finite := finite_of_near one near
  rw [Bool.or_eq_false_iff] at near
  obtain ⟨x, first, stands⟩ := asNumber_numeral near.1
  obtain ⟨y, second, stands'⟩ := asNumber_numeral near.2
  simp only [Value.ordered, isNull_numeral, Bool.or_self, Bool.false_eq_true, if_false]
  split
  · next first second => cases written <;> cases written' <;> contradiction
  · rw [first, second]
    cases before with
    | true => exact congrArg Except.ok (decide_eq_decide.mpr (stands.lt_iff stands' finite))
    | false => exact congrArg Except.ok (decide_eq_decide.mpr (stands'.lt_iff stands finite.symm))

/-- The verdict of a condition that compares a variable with a value, sign by sign. -/
def verdictOn (subject : String) (scope : Entries) (comparand : Value) (sign : String) : Except Fault Bool :=
  Condition.holds ⟨subject, sign, comparand⟩ scope

theorem verdictOn_eq {subject sign : String} {scope : Entries} (operator : Operator)
    (bound : Entries.getD scope subject = v) (named : Operator.ofText? sign = some operator) :
    verdictOn subject scope w sign = Condition.apply operator v w := by
  rw [verdictOn, Condition.holds, named, bound]

theorem inOrder_rounded {subject : String} {scope : Entries} (one : (written && written') = false)
    (bound : Entries.getD scope subject = numeral written a)
    (near : ((numeral written a).beyondNumbers || (numeral written' b).beyondNumbers) = false) :
    InOrder (verdictOn subject scope (numeral written' b)) (roundInt a) (roundInt b) where
  equal := (verdictOn_eq .equals bound rfl).trans (looselyEqual_numeral one near)
  notEqual := by
    rw [verdictOn_eq .notEquals bound rfl, Condition.apply, looselyEqual_numeral one near, decide_not]
    rfl
  above := (verdictOn_eq .greaterThan bound rfl).trans (ordered_numeral one near false)
  below := (verdictOn_eq .lessThan bound rfl).trans (ordered_numeral one near true)

/-- Numbers that are rounded apart are ordered as they were before. -/
theorem InOrder.of_rounded {verdict : String → Except Fault Bool} (rounded : InOrder verdict (roundInt a) (roundInt b))
    (apart : roundInt a = roundInt b → a = b) : InOrder verdict a b := by
  have same : roundInt a = roundInt b ↔ a = b := ⟨apart, congrArg roundInt⟩
  have less {m n : Int} (apart : roundInt m = roundInt n → m = n) : roundInt m < roundInt n ↔ m < n := by
    have mono := roundInt_mono (a := m) (b := n)
    have mono' := roundInt_mono (a := n) (b := m)
    constructor
    · intro less
      by_contra more
      exact absurd (mono' (Int.not_lt.mp more)) (Int.not_le.mpr less)
    · intro less
      exact lt_of_le_of_ne (mono less.le) (mt apart less.ne)
  obtain ⟨equal, notEqual, above, below⟩ := rounded
  exact ⟨equal.trans (congrArg Except.ok (decide_eq_decide.mpr same)),
    notEqual.trans (congrArg Except.ok (decide_eq_decide.mpr (not_congr same))),
    above.trans (congrArg Except.ok (decide_eq_decide.mpr (less fun equal => (apart equal.symm).symm))),
    below.trans (congrArg Except.ok (decide_eq_decide.mpr (less apart)))⟩

/-- Integers beyond the numbers are told from others only if both are given as integers and are the same. -/
theorem unanswered_of_beyond {subject : String} {scope : Entries} {sign : String} {operator : Operator}
    (one : (written && written') = false) (bound : Entries.getD scope subject = numeral written a)
    (beyond : ((numeral written a).beyondNumbers || (numeral written' b).beyondNumbers) = true)
    (named : Operator.ofText? sign = some operator)
    (order : operator = .greaterThan ∨ operator = .lessThan ∨
      (operator = .equals ∨ operator = .notEquals) ∧ ¬(written = written' ∧ a = b)) :
    verdictOn subject scope (numeral written' b) sign = .error .integerTooLarge := by
  rw [verdictOn_eq operator bound named, (apply_settled _ _ _).eq_error_iff]
  rcases order with rfl | rfl | ⟨rfl | rfl, other⟩
  · simp only [Operator.strain?, isNull_numeral, beyond, Bool.or_self, Bool.not_false, Bool.and_self, if_true]
  · simp only [Operator.strain?, isNull_numeral, beyond, Bool.or_self, Bool.not_false, Bool.and_self, if_true]
  all_goals
    have differ : (numeral written a).equal (numeral written' b) = false := by
      rw [equal_numeral one, Bool.and_eq_false_iff, beq_eq_false_iff_ne, beq_eq_false_iff_ne]
      exact not_and_or.mp other
    simp only [Operator.strain?, isNull_numeral, differ, beyond, Bool.or_self, Bool.not_false, Bool.and_self, if_true]

/-- An integer that is compared with an integer, or with the text of one, is compared after rounding. So the order is
the order of the integers exactly if none of them is beyond the numbers and rounding does not make them equal. -/
theorem integers_compared (written written' : Bool) (a b : Int) (subject : String) (scope : Entries)
    (one : (written && written') = false) (bound : Entries.getD scope subject = numeral written a) :
    let verdict := verdictOn subject scope (numeral written' b)
    let beyond := (numeral written a).beyondNumbers || (numeral written' b).beyondNumbers
    (beyond = false → InOrder verdict (roundInt a) (roundInt b)) ∧
      (beyond = true → verdict ">" = .error .integerTooLarge ∧ verdict "<" = .error .integerTooLarge ∧
        (¬(written = written' ∧ a = b) →
          verdict "==" = .error .integerTooLarge ∧ verdict "!=" = .error .integerTooLarge)) ∧
      (InOrder verdict a b ↔ beyond = false ∧ (roundInt a = roundInt b → a = b)) ∧
      (a.natAbs ≤ 2 ^ 53 → b.natAbs ≤ 2 ^ 53 → InOrder verdict a b) := by
  intro verdict beyond
  have rounded (near : beyond = false) : InOrder verdict (roundInt a) (roundInt b) := inOrder_rounded one bound near
  refine ⟨rounded, fun far => ⟨?_, ?_, fun other => ⟨?_, ?_⟩⟩, ⟨fun order => ?_, fun ⟨near, apart⟩ => ?_⟩, ?_⟩
  · exact unanswered_of_beyond one bound far rfl (.inl rfl)
  · exact unanswered_of_beyond one bound far rfl (.inr (.inl rfl))
  · exact unanswered_of_beyond one bound far rfl (.inr (.inr ⟨.inl rfl, other⟩))
  · exact unanswered_of_beyond one bound far rfl (.inr (.inr ⟨.inr rfl, other⟩))
  · have near : beyond = false := by
      rw [← Bool.not_eq_true]
      intro far
      have fails : verdict ">" = .error .integerTooLarge := unanswered_of_beyond one bound far rfl (.inl rfl)
      rw [order.above] at fails
      contradiction
    refine ⟨near, fun same => ?_⟩
    have equal := order.equal
    rw [(rounded near).equal, decide_eq_true same] at equal
    exact of_decide_eq_true (Except.ok.inj equal).symm
  · exact (rounded near).of_rounded apart
  · intro small small'
    have near {written : Bool} {n : Int} (small : n.natAbs ≤ 2 ^ 53) : (numeral written n).beyondNumbers = false := by
      cases written with
      | true => rfl
      | false => exact decide_eq_false (Nat.not_le.mpr (small.trans_lt (by decide +kernel)))
    apply (rounded (Bool.or_eq_false_iff.mpr ⟨near small, near small'⟩)).of_rounded
    rw [roundInt_of_natAbs_le small, roundInt_of_natAbs_le small']
    exact id

/-- A number is compared with the text of a smaller one. -/
theorem twelve_above_seven :
    Condition.holds ⟨"x", ">", numeral true 7⟩ [(.text "x", numeral false 12)] = .ok true :=
  ((integers_compared false true 12 7 "x" [(.text "x", numeral false 12)] rfl rfl).2.2.2 (by decide) (by decide)).above

/-- Two integers above `2 ^ 53` next to each other count as equal. -/
theorem neighbours_equal : (9007199254740992 : Int) ≠ 9007199254740993 ∧
    Condition.holds ⟨"x", "==", .int 9007199254740993⟩ [(.text "x", .int 9007199254740992)] = .ok true := by
  have near : ((numeral false 9007199254740992).beyondNumbers ||
      (numeral false 9007199254740993).beyondNumbers) = false := by decide +kernel
  have same : roundInt 9007199254740992 = roundInt 9007199254740993 := by decide +kernel
  have rounded : InOrder (verdictOn "x" [(.text "x", .int 9007199254740992)] (.int 9007199254740993))
      (roundInt 9007199254740992) (roundInt 9007199254740993) := inOrder_rounded rfl rfl near
  exact ⟨by decide, rounded.equal.trans (congrArg Except.ok (decide_eq_true same))⟩

end Runbook
