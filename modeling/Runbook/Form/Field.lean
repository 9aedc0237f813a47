import Runbook.Number.Reading
import Runbook.Value.Coercion

/-! # Typed fields

Fields of a form have a type. A value of a near type is taken as well: a text that writes a number, a
number that is whole where an integer is wanted, a word for a truth value. Whatever cannot be taken
has a flaw, which is told with the place of the field.
-/

namespace Runbook.Form

/-- Why a field cannot be taken. -/
inductive Flaw where
  | missing
  /-- A field that the form does not have. -/
  | extra
  | notText
  | notInteger
  | malformedInteger
  | integerTooLong
  /-- A number with a fraction where an integer is wanted. -/
  | fractional
  | notFinite
  | notNumber
  | malformedNumber
  | notBool
  | malformedBool
  | notTable
  /-- No form at all. -/
  | notForm
  /-- A number below the least one. -/
  | belowLeast
  /-- A number that is not above its bound. -/
  | tooSmall
  | notDocument
deriving DecidableEq, Repr

/-- The name of a flaw. -/
def Flaw.label : Flaw → String
  | missing => "missing"
  | extra => "extra_forbidden"
  | notText => "string_type"
  | notInteger => "int_type"
  | malformedInteger => "int_parsing"
  | integerTooLong => "int_parsing_size"
  | fractional => "int_from_float"
  | notFinite => "finite_number"
  | notNumber => "float_type"
  | malformedNumber => "float_parsing"
  | notBool => "bool_type"
  | malformedBool => "bool_parsing"
  | notTable => "dict_type"
  | notForm => "model_attributes_type"
  | belowLeast => "greater_than_equal"
  | tooSmall => "greater_than"
  | notDocument => "json_invalid"

/-- A flaw and its place. -/
structure Problem where
  place : List Value
  flaw : Flaw

/-- A text field. -/
def text : Value → Except Flaw String
  | .text s => .ok s
  | .status s => .ok s.label
  | _ => .error .notText

/-- A word for a truth value. -/
def boolWord? (s : String) : Option Bool :=
  let word := String.ofList (s.toList.map Char.toLower)
  if ["1", "t", "y", "on", "yes", "true"].contains word then some true
  else if ["0", "f", "n", "no", "off", "false"].contains word then some false
  else none

/-- An integer as a truth value. -/
def boolOfInteger : Int → Except Flaw Bool
  | 0 => .ok false
  | 1 => .ok true
  | _ => .error .malformedBool

/-- A field for a truth value. -/
def bool : Value → Except Flaw Bool
  | .bool b => .ok b
  | .text s => match boolWord? s with
    | some b => .ok b
    | none => .error .malformedBool
  | .int n => boolOfInteger n
  | .float x =>
    match Number.truncate x with
    | .ok n => if Number.compareInt x n == some .eq then boolOfInteger n else .error .notBool
    | .error _ => .error .notBool
  | _ => .error .notBool

/-- Characters without the low lines between them, if these are single and not at an end. -/
def withoutLowLines? : (afterOther : Bool) → List Char → Option (List Char)
  | _, [] => some []
  | after, '_' :: rest =>
    match rest with
    | [] => none
    | c :: _ => if after && c != '_' then withoutLowLines? false rest else none
  | _, c :: rest => (withoutLowLines? true rest).map (c :: ·)

/-- A number without zeros in front, of which one stays before a point or the end. Something else than
a digit or a minus in front is an error. -/
def withoutZeros? : List Char → Option (List Char)
  | '0' :: rest => behindZeros '0' rest
  | c :: rest => if c == '-' || ('1' ≤ c && c ≤ '9') then some (c :: rest) else none
  | [] => none
where
  /-- What is left behind a zero or low line in front. -/
  behindZeros (last : Char) : List Char → Option (List Char)
    | [] => some [last]
    | '.' :: rest => some (last :: '.' :: rest)
    | c :: rest =>
      if c == '0' || c == '_' then behindZeros c rest
      else if '1' ≤ c && c ≤ '9' then some (c :: rest)
      else none

/-- A number without a fraction of nothing but zeros. -/
def withoutFraction (cs : List Char) : List Char :=
  match cs.dropWhile (· != '.') with
  | '.' :: zeros => if zeros.all (· == '0') then cs.takeWhile (· != '.') else cs
  | _ => cs

/-- The integer that a text writes in a field. -/
def integerOfText (s : String) : Except Flaw Int :=
  let cs := Number.unpadded s
  let (unsigned, cs) := match cs with
    | '+' :: rest => (true, rest)
    | cs => (false, cs)
  match (withoutZeros? cs).map withoutFraction with
  | none => .error .malformedInteger
  | some cs =>
    let (negative, digits) := match cs with
      | '-' :: rest => (true, rest)
      | cs => (false, cs)
    match if digits.contains '_' then withoutLowLines? false digits else some digits with
    | none => .error .malformedInteger
    | some digits =>
      if digits.isEmpty || digits.any (!Char.isDigit ·) || (unsigned && negative) then
        .error .malformedInteger
      else if Number.digitLimit < digits.length then .error .integerTooLong
      else
        let n : Int := Number.ofDigits (digits.map fun c => c.toNat - '0'.toNat)
        .ok (if negative then -n else n)

/-- An integer field. -/
def integer : Value → Except Flaw Int
  | .bool b => .ok (if b then 1 else 0)
  | .int n => .ok n
  | .text s => integerOfText s
  | .float x =>
    match Number.truncate x with
    | .error _ => .error .notFinite
    | .ok n =>
      if Number.compareInt x n != some .eq then .error .fractional
      else if n < -9223372036854775808 || 9223372036854775807 < n then .error .integerTooLong
      else .ok n
  | _ => .error .notInteger

/-- The number that a text writes in a field. Only plain digits count. -/
def numberOfText (s : String) : Except Flaw Float :=
  let plain (cs : List Char) : Option Float :=
    if cs.any fun c => c == '_' || 128 ≤ c.toNat then none
    else Number.readFloat? (String.ofList cs)
  let stripped := if s.toList.contains '_' then withoutLowLines? false s.toList else none
  match (plain (Number.unpadded s)).orElse fun _ => stripped.bind plain with
  | some x => .ok x
  | none => .error .malformedNumber

/-- A number field. -/
def number : Value → Except Flaw Float
  | .text s => numberOfText s
  | v =>
    match v.toFloat? with
    | some (.ok x) => .ok x
    | _ => .error .notNumber

/-- A number field with a lower bound that is not reached. -/
def numberAbove (bound : Float) (v : Value) : Except Flaw Float := do
  let x ← number v
  if bound < x then return x else .error .tooSmall

/-- A table field. -/
def table : Value → Except Flaw Entries
  | .dict entries => .ok entries
  | _ => .error .notTable

/-- A field that may be null. -/
def optional {α : Type} (field : Value → Except Flaw α) : Value → Except Flaw (Option α)
  | .null => .ok none
  | v => (field v).map some

example : (integerOfText " +7_0.00 ").toOption = some 70 ∧ (integerOfText "7.5").toOption = none ∧
    (integerOfText "-3").toOption = some (-3) ∧ (integerOfText "").toOption = none := by
  decide +kernel

end Runbook.Form
