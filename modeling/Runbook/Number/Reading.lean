import Runbook.Number.Shortest
import Runbook.Text.Character

/-! # Numbers read from text

An integer is an optional sign and digits; a number may also have a point and an exponent, or be one
of the words for infinity and not-a-number. Digits of every script count, and a single low line may
stand between two digits. Blanks around an integer are ignored, but not the record separators.
-/

namespace Runbook.Number

/-- A sign in front: whether it is a minus, and the rest. -/
def splitSign : List Char → Bool × List Char
  | '-' :: rest => (true, rest)
  | '+' :: rest => (false, rest)
  | cs => (false, cs)

/-- The digits at the front and the rest. A low line counts as part of the digits when one digit
stands before it, as `afterDigit` says, and one behind it. -/
def spanDigits (afterDigit : Bool) : List Char → List Nat × List Char
  | [] => ([], [])
  | c :: rest =>
    match Text.digitValue? c with
    | some d =>
      let (ds, tail) := spanDigits true rest
      (d :: ds, tail)
    | none =>
      if c == '_' && afterDigit && rest.head?.any Text.isDigit then spanDigits false rest
      else ([], c :: rest)

/-- The number that decimal digits write, most significant first. -/
def ofDigits (ds : List Nat) : Nat := ds.foldl (fun n d => 10 * n + d) 0

/-- Blanks that may surround an integer. -/
def isPadding (c : Char) : Bool := Text.isBlank c && !(28 ≤ c.toNat && c.toNat ≤ 31)

/-- Characters without the padding around them. -/
def unpadded (s : String) : List Char :=
  ((s.toList.dropWhile isPadding).reverse.dropWhile isPadding).reverse

/-- Why a text is no integer. -/
inductive IntegerFault where
  | malformed
  /-- More digits than are converted. -/
  | tooLong (digits : Nat)
deriving DecidableEq, Repr

/-- The most digits of an integer that are converted between text and number. -/
def digitLimit : Nat := 4300

/-- The integer that a text writes. -/
def readInt (s : String) : Except IntegerFault Int :=
  let (negative, body) := splitSign (unpadded s)
  match spanDigits false body with
  | ([], _) => .error .malformed
  | (ds, []) =>
    if digitLimit < ds.length then .error (.tooLong ds.length)
    else .ok (if negative then -(ofDigits ds : Int) else ofDigits ds)
  | _ => .error .malformed

/-- The number `digits * 10 ^ exponent`, rounded to the nearest floating-point number. -/
def floatOfDecimal (digits : Nat) (exponent : Int) : Float :=
  let magnitude := ((Nat.toDigits 10 digits).length : Int) + exponent
  if digits == 0 || magnitude < -400 then 0.0
  else if 400 < magnitude then infinity
  else Float.ofScientific digits (exponent < 0) exponent.natAbs

/-- The exponent part of a number: its value and the rest, if it is well formed. -/
def spanExponent : List Char → Option (Int × List Char)
  | [] => some (0, [])
  | c :: rest =>
    if c == 'e' || c == 'E' then
      let (negative, body) := splitSign rest
      match spanDigits false body with
      | ([], _) => none
      | (ds, tail) => some (if negative then -(ofDigits ds : Int) else ofDigits ds, tail)
    else some (0, c :: rest)

/-- The decimal that characters write, without a sign. -/
def readDecimal? (cs : List Char) : Option Decimal := do
  let (whole, rest) := spanDigits false cs
  let (fraction, rest) := match rest with
    | '.' :: more => spanDigits false more
    | _ => ([], rest)
  guard (!(whole.isEmpty && fraction.isEmpty))
  let (exponent, tail) ← spanExponent rest
  guard tail.isEmpty
  return ⟨ofDigits (whole ++ fraction), exponent - fraction.length⟩

/-- What characters spell as a number, without a sign. -/
inductive Literal where
  | decimal (d : Decimal)
  | infinity
  | nan
deriving DecidableEq, Repr

/-- The floating-point number that is spelled. -/
def Literal.toFloat : Literal → Float
  | decimal d => floatOfDecimal d.digits d.exponent
  | infinity => Number.infinity
  | nan => Number.nan

/-- A decimal without a sign, or one of the words for infinity and not-a-number, in any case. -/
def readLiteral? (cs : List Char) : Option Literal :=
  match String.ofList (cs.map Char.toLower) with
  | "inf" | "infinity" => some .infinity
  | "nan" => some .nan
  | _ => (readDecimal? cs).map .decimal

/-- The floating-point number that a text writes, nothing else standing in the text. -/
def readFloat? (s : String) : Option Float :=
  let (negative, body) := splitSign s.toList
  (readLiteral? body).map fun n => if negative then -n.toFloat else n.toFloat

example : (readInt " +٥_5 ").toOption = some 55 ∧ (readInt "1__0").toOption = none := by
  decide +kernel

example : (readFloat? "1_0.5e1").map Float.toBits = some (105.0 : Float).toBits := by decide +kernel

example : (readFloat? "1._0").isNone ∧ (readFloat? ".").isNone ∧ (readFloat? "1e").isNone := by
  decide +kernel

end Runbook.Number
