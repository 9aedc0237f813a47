import Runbook.Delay
import Runbook.Proofs.Comparison
import Runbook.Proofs.Magnitude

/-! # Delays that end

What gives no number is refused as a delay, and so is a number below zero. What is left need not be a finite number: an
integer beyond the numbers fails in its own way, infinity is not below zero, and what is no number is not below
anything. It depends on the value alone which of these it is, and for a text on what is spelled there.
-/

namespace Runbook

open Number Float.Model

namespace Delay

/-- What a delay is that is neither refused nor a finite number. -/
inductive Anomaly where
  | overflow
  | infinite
  | nan
deriving DecidableEq, Repr

/-- The anomaly of a number as a delay. A number below zero has none, since it is refused. -/
def anomalyOf? (x : Float) : Option Anomaly :=
  if x.isNaN then some .nan else if x.isInf ∧ 0.0 < x then some .infinite else none

/-- A delay is refused, or it is a finite number that is not negative. -/
def Ends (outcome : Except Fault Float) : Prop :=
  (∃ message, outcome = .error (.invalid message)) ∨ ∃ ms, outcome = .ok ms ∧ ms.isFinite = true ∧ 0.0 ≤ ms

/-- What comes of a value that is taken for a delay, with an anomaly or without. -/
inductive Gives : Option Anomaly → Except Fault Float → Prop
  | ends {outcome : Except Fault Float} (ends : Ends outcome) : Gives none outcome
  | overflow : Gives (some .overflow) (.error .integerTooLarge)
  | infinite {ms : Float} (infinite : ms.isInf = true) (above : 0.0 < ms) : Gives (some .infinite) (.ok ms)
  | nan {ms : Float} (none : ms.isNaN = true) : Gives (some .nan) (.ok ms)

/-! ## Numbers as delays -/

variable {v : Value} {x : Float}

theorem anomalyOf?_eq (x : Float) : anomalyOf? x =
    match x.toModel.unpack with
    | .notANumber => some .nan
    | .infinity .positive => some .infinite
    | _ => none := by
  have none : x.isNaN = x.toModel.unpack.isNaN := rfl
  have infinite : x.isInf = x.toModel.unpack.isInf := rfl
  simp only [anomalyOf?, lt_iff_unpack, none, infinite, unpack_zero]
  generalize x.toModel.unpack = u
  cases u with
  | notANumber => rfl
  | zero sign | infinity sign => cases sign <;> rfl
  | finite sign => cases sign <;> rfl

/-- A value that gives a number for a delay is treated as the number is. -/
theorem gives_of_number (number : v.delayNumber = .ok x) : Gives (anomalyOf? x) v.toDelay := by
  have delay : v.toDelay =
      if x < 0.0 then .error (.invalid ("Delay must not be negative: " ++ v.display)) else .ok x := by
    rw [Value.toDelay, number]
    simp only [bind, Except.bind, pure, Except.pure, throw, throwThe, MonadExceptOf.throw]
  have finite : x.isFinite = x.toModel.unpack.isFinite := rfl
  have infinite : x.isInf = x.toModel.unpack.isInf := rfl
  have none : x.isNaN = x.toModel.unpack.isNaN := rfl
  have below := lt_iff_unpack x 0.0
  have above := lt_iff_unpack 0.0 x
  have least := le_iff_unpack 0.0 x
  rw [unpack_zero] at below above least
  rw [anomalyOf?_eq, delay]
  generalize x.toModel.unpack = u at *
  cases u with
  | notANumber =>
    rw [if_neg (mt below.mp Bool.false_ne_true)]
    exact .nan none
  | zero sign =>
    have level : ¬x < 0.0 := mt below.mp (by cases sign <;> exact Bool.false_ne_true)
    rw [if_neg level]
    exact .ends (.inr ⟨x, rfl, finite, least.mpr rfl⟩)
  | infinity sign =>
    cases sign with
    | negative =>
      rw [if_pos (below.mpr rfl)]
      exact .ends (.inl ⟨_, rfl⟩)
    | positive =>
      rw [if_neg (mt below.mp Bool.false_ne_true)]
      exact .infinite infinite (above.mpr rfl)
  | finite sign =>
    cases sign with
    | negative =>
      rw [if_pos (below.mpr rfl)]
      exact .ends (.inl ⟨_, rfl⟩)
    | positive =>
      rw [if_neg (mt below.mp Bool.false_ne_true)]
      exact .ends (.inr ⟨x, rfl, finite, least.mpr rfl⟩)

/-- The anomaly that shows in what is given for a delay. -/
def anomalyIn? : Except Fault Float → Option Anomaly
  | .ok ms => anomalyOf? ms
  | .error .integerTooLarge => some .overflow
  | .error _ => none

theorem anomalyOf?_of_isFinite (finite : x.isFinite = true) : anomalyOf? x = none := by
  change x.toModel.unpack.isFinite = true at finite
  rw [anomalyOf?_eq]
  cases unpacked : x.toModel.unpack with
  | notANumber | infinity => rw [unpacked] at finite; contradiction
  | zero | finite => rfl

theorem anomalyOf?_of_infinite (infinite : x.isInf = true) (above : 0.0 < x) : anomalyOf? x = some .infinite := by
  have number : x.isNaN = false := by
    change x.toModel.unpack.isInf = true at infinite
    change x.toModel.unpack.isNaN = false
    cases unpacked : x.toModel.unpack with
    | notANumber => rw [unpacked] at infinite; contradiction
    | _ => rfl
  rw [anomalyOf?, number, if_neg Bool.false_ne_true, if_pos ⟨infinite, above⟩]

/-- What is given shows the anomaly. -/
theorem Gives.anomalyIn?_eq {anomaly : Option Anomaly} {outcome : Except Fault Float}
    (gives : Gives anomaly outcome) : anomalyIn? outcome = anomaly := by
  cases gives with
  | ends ends =>
    rcases ends with ⟨message, rfl⟩ | ⟨ms, rfl, finite, -⟩
    · rfl
    · exact anomalyOf?_of_isFinite finite
  | overflow => rfl
  | infinite infinite above => exact anomalyOf?_of_infinite infinite above
  | nan none => exact if_pos none

theorem Gives.unique {anomaly anomaly' : Option Anomaly} {outcome : Except Fault Float}
    (gives : Gives anomaly outcome) (gives' : Gives anomaly' outcome) : anomaly = anomaly' :=
  gives.anomalyIn?_eq.symm.trans gives'.anomalyIn?_eq

/-! ## Spelled numbers as delays -/

/-- A number that is not negative is an anomaly if it is infinite. -/
theorem anomalyOf?_of_counts (counts : Counts x.toModel.unpack) :
    anomalyOf? x = if x.isFinite then none else some .infinite := by
  change _ = if x.toModel.unpack.isFinite then _ else _
  rw [anomalyOf?_eq]
  generalize x.toModel.unpack = u at counts ⊢
  cases counts <;> rfl

theorem anomalyOf?_neg_of_counts (counts : Counts x.toModel.unpack) : anomalyOf? (-x) = none := by
  obtain ⟨u, negated, counts⟩ := Counts.neg counts
  rw [anomalyOf?_eq, negated]
  cases counts <;> rfl

end Delay

/-- The anomaly of a number that is spelled after a sign. -/
def Number.Literal.anomaly? (negative : Bool) : Literal → Option Delay.Anomaly
  | decimal d => if !negative && d.beyond then some .infinite else none
  | infinity => if negative then none else some .infinite
  | nan => some .nan

/-- The anomaly of a value as a delay. -/
def Value.anomaly? : Value → Option Delay.Anomaly
  | .int n => if tooLarge ≤ n.natAbs then some .overflow else none
  | .float x => Delay.anomalyOf? x
  | .text s =>
    let (negative, body) := splitSign (Text.trim s).toList
    (readLiteral? body).bind (·.anomaly? negative)
  | _ => none

namespace Delay

theorem anomalyOf?_literal (negative : Bool) (n : Literal) :
    anomalyOf? (if negative then -n.toFloat else n.toFloat) = n.anomaly? negative := by
  cases n with
  | decimal d =>
    obtain ⟨counts, finite⟩ := floatOfDecimal_spec d
    cases negative with
    | true => exact anomalyOf?_neg_of_counts counts
    | false =>
      refine (anomalyOf?_of_counts counts).trans ?_
      change (if (floatOfDecimal d.digits d.exponent).isFinite then _ else _) = if d.beyond then _ else _
      cases beyond : d.beyond with
      | true => exact if_neg (mt finite.mp (by rw [beyond]; decide))
      | false => exact if_pos (finite.mpr beyond)
  | infinity | nan => cases negative <;> rfl

/-! ## Values as delays -/

/-- An integer is rounded to a finite number, or it fails. -/
theorem gives_int (n : Int) : Gives (Value.int n).anomaly? (Value.int n).toDelay := by
  have number : (Value.int n).delayNumber = _ := Value.floatOfInteger_eq n
  rw [Value.anomaly?]
  split_ifs at number ⊢ with beyond
  · rw [Value.toDelay, number]
    exact .overflow
  · have finite : (Float.ofInt n).isFinite = true := by
      rwa [(stands_ofInt n).isFinite, natAbs_roundInt, ← Nat.not_le, ceiling_le_roundNat_iff]
    have given := gives_of_number number
    rwa [anomalyOf?_of_isFinite finite] at given

/-- A text that spells no number is refused, and else the number that it spells is taken with its sign. -/
theorem gives_text (s : String) : Gives (Value.text s).anomaly? (Value.text s).toDelay := by
  rcases signed : splitSign (Text.trim s).toList with ⟨negative, body⟩
  have read : readFloat? (Text.trim s) =
      (readLiteral? body).map fun n => if negative then -n.toFloat else n.toFloat := by
    rw [readFloat?, signed]
  have anomaly : (Value.text s).anomaly? = (readLiteral? body).bind (·.anomaly? negative) := by
    rw [Value.anomaly?, signed]
  rw [anomaly]
  cases spelled : readLiteral? body with
  | none =>
    have refused : (Value.text s).toDelay = .error (Value.text s).notDelay := by
      rw [Value.toDelay, Value.delayNumber, read, spelled]
      rfl
    exact .ends (.inl ⟨_, refused⟩)
  | some n =>
    have number : (Value.text s).delayNumber = .ok (if negative then -n.toFloat else n.toFloat) := by
      rw [Value.delayNumber, read, spelled]
      rfl
    rw [Option.bind_some, ← anomalyOf?_literal]
    exact gives_of_number number

theorem gives (v : Value) : Gives v.anomaly? v.toDelay := by
  cases v with
  | int n => exact gives_int n
  | float x =>
    have number : (Value.float x).delayNumber = .ok x := rfl
    exact gives_of_number number
  | text s => exact gives_text s
  | _ => exact .ends (.inl ⟨_, rfl⟩)

end Delay

end Runbook
