/-! # Binary numbers taken apart

A floating-point number is a sign and a mantissa times a power of two, or it is infinite, or not a
number. Taken apart in this way it can be compared with integers, cut to an integer and written in
decimal by exact arithmetic on natural numbers.
-/

namespace Runbook.Number

/-- What a floating-point number stands for: `finite s m q` is `m * 2 ^ q`, negative when `s`. -/
inductive Binary where
  | finite (negative : Bool) (mantissa : Nat) (exponent : Int)
  | infinite (negative : Bool)
  | nan
deriving DecidableEq, Repr

/-- The number of fractions that fit in the bits of a number: `2 ^ 52`. -/
def fractions : Nat := 0x10000000000000

/-- The number of exponents that fit in the bits of a number: `2 ^ 11`. -/
def exponents : Nat := 0x800

/-- The sign, mantissa and exponent that the bits of a number hold. -/
def Binary.ofBits (bits : Nat) : Binary :=
  let negative := bits / (exponents * fractions) % 2 == 1
  let exponent : Nat := bits / fractions % exponents
  let fraction : Nat := bits % fractions
  if exponent == 2047 then
    if fraction == 0 then .infinite negative else .nan
  else if exponent == 0 then .finite negative fraction (-1074)
  else .finite negative (fractions + fraction) ((exponent : Int) - 1075)

/-- A number taken apart. -/
def Binary.ofFloat (x : Float) : Binary := .ofBits x.toBits.toNat

/-- `m * 2 ^ q` as a quotient of natural numbers. -/
def ratio (mantissa : Nat) (exponent : Int) : Nat × Nat :=
  match exponent with
  | .ofNat q => (mantissa * Nat.pow 2 q, 1)
  | .negSucc q => (mantissa, Nat.pow 2 (q + 1))

/-- Why a number has no integer part. -/
inductive NoInteger where
  | infinite
  | nan
deriving DecidableEq, Repr

/-- The integer part, cut toward zero. -/
def Binary.truncate : Binary → Except NoInteger Int
  | .finite negative mantissa exponent =>
    let (top, bottom) := ratio mantissa exponent
    let size : Int := (top / bottom : Nat)
    .ok (if negative then -size else size)
  | .infinite _ => .error .infinite
  | .nan => .error .nan

/-- The integer part of a floating-point number, cut toward zero. -/
def truncate (x : Float) : Except NoInteger Int := (Binary.ofFloat x).truncate

/-- How a number compares with an integer, exactly; a number that is none compares with nothing. -/
def Binary.compareInt (b : Binary) (n : Int) : Option Ordering :=
  match b with
  | .finite negative mantissa exponent =>
    let (top, bottom) := ratio mantissa exponent
    let value : Int := if negative then -(top : Int) else top
    some (compare value (n * bottom))
  | .infinite negative => some (if negative then .lt else .gt)
  | .nan => none

/-- How a floating-point number compares with an integer, without rounding the integer. -/
def compareInt (x : Float) (n : Int) : Option Ordering := (Binary.ofFloat x).compareInt n

/-- The nearest floating-point number, or `none` when the integer is beyond all of them. -/
def floatOfInt? (n : Int) : Option Float :=
  let x := Float.ofInt n
  match Binary.ofFloat x with
  | .finite .. => some x
  | _ => none

/-- Not a number. -/
def nan : Float := 0.0 / 0.0

/-- Positive infinity. -/
def infinity : Float := 1.0 / 0.0

example : truncate (-2.75) = .ok (-2) := rfl

example : truncate infinity = .error .infinite := rfl

example : compareInt 9007199254740992.0 9007199254740993 = some .lt := by decide +kernel

example : compareInt nan 0 = none := by decide +kernel

end Runbook.Number
