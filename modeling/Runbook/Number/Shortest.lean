import Runbook.Number.Binary

/-! # The shortest decimal that reads back

A floating-point number stands for every real that rounds to it, an interval around its exact value.
Among the decimals in that interval the shortest is taken, of several the nearest to the exact
value, and of two equally near the one whose last digit is even.

The interval holds a point of a decimal grid only if it holds one of the two neighbours of the exact
value on that grid, so those two are all that each grid has to be asked for.
-/

namespace Runbook.Number

/-- A decimal `digits * 10 ^ exponent`. -/
structure Decimal where
  digits : Nat
  exponent : Int
deriving DecidableEq, Repr

/-- `digits * 10 ^ exponent` as a quotient. -/
def Decimal.ratio (d : Decimal) : Nat × Nat :=
  match d.exponent with
  | .ofNat k => (d.digits * Nat.pow 10 k, 1)
  | .negSucc k => (d.digits, Nat.pow 10 (k + 1))

/-- The reals that round to one number: the exact value and the two ends, in units of
`1 / denominator`, where the ends belong to the interval if `closed`. -/
structure Rounding where
  low : Nat
  exact : Nat
  high : Nat
  denominator : Nat
  closed : Bool

/-- The interval of reals that round to `mantissa * 2 ^ exponent`. Below a power of two the next
number is half as far as above it. -/
def Rounding.of (mantissa : Nat) (exponent : Int) : Rounding :=
  let (scale, denominator) := Number.ratio 1 (exponent - 2)
  let below := if mantissa == fractions && exponent > -1074 then 1 else 2
  { low := (4 * mantissa - below) * scale
    exact := 4 * mantissa * scale
    high := (4 * mantissa + 2) * scale
    denominator
    closed := mantissa % 2 == 0 }

/-- A quotient lies in the interval. -/
def Rounding.contains (r : Rounding) (top bottom : Nat) : Bool :=
  let value := top * r.denominator
  if r.closed then r.low * bottom ≤ value && value ≤ r.high * bottom
  else r.low * bottom < value && value < r.high * bottom

/-- The distance of a quotient from the exact value, up to the factor `bottom * denominator`. -/
def Rounding.distance (r : Rounding) (top bottom : Nat) : Nat :=
  let value := top * r.denominator
  let exact := r.exact * bottom
  (value - exact) + (exact - value)

/-- The better of the two neighbours of the exact value on the grid of multiples of `10 ^ exponent`,
if one of them lies in the interval. -/
def Rounding.onGrid? (r : Rounding) (exponent : Int) : Option Decimal :=
  let (unitTop, unitBottom) := (Decimal.mk 1 exponent).ratio
  let floor := r.exact * unitBottom / (r.denominator * unitTop)
  let down : Decimal := ⟨floor, exponent⟩
  let up : Decimal := ⟨floor + 1, exponent⟩
  let fits (d : Decimal) := r.contains d.ratio.1 d.ratio.2
  let distance (d : Decimal) := r.distance d.ratio.1 d.ratio.2
  match fits down && floor != 0, fits up with
  | true, true =>
    match compare (distance down) (distance up) with
    | .lt => some down
    | .gt => some up
    | .eq => some (if floor % 2 == 0 then down else up)
  | true, false => some down
  | false, true => some up
  | false, false => none

/-- The coarsest of `count` successive grids that has a point in the interval. -/
def Rounding.search (r : Rounding) (exponent : Int) : (count : Nat) → Option Decimal
  | 0 => none
  | count + 1 =>
    match r.onGrid? exponent with
    | some d => some d
    | none => r.search (exponent - 1) count

/-- An exponent of ten that is not below the decimal exponent of `mantissa * 2 ^ exponent`. -/
def topExponent (mantissa : Nat) (exponent : Int) : Int :=
  ((mantissa.log2 + 1 : Int) + exponent) * 30103 / 100000 + 1

/-- Trailing zeros of the digits moved into the exponent. -/
def Decimal.normalize (d : Decimal) : (fuel : Nat) → Decimal
  | 0 => d
  | fuel + 1 =>
    if d.digits % 10 == 0 && d.digits != 0 then
      normalize ⟨d.digits / 10, d.exponent + 1⟩ fuel
    else d

/-- The shortest decimal that reads back as `mantissa * 2 ^ exponent`, for a mantissa above zero.
Twenty grids below the leading digit always hold a point of the interval. -/
def shortest (mantissa : Nat) (exponent : Int) : Decimal :=
  match (Rounding.of mantissa exponent).search (topExponent mantissa exponent) 22 with
  | some d => d.normalize 400
  | none => ⟨0, 0⟩

example : shortest 1 (-1074) = ⟨5, -324⟩ := by decide +kernel

example : shortest 7205759403792794 (-56) = ⟨1, -1⟩ := by decide +kernel

example : shortest fractions 971 = ⟨898846567431158, 293⟩ := by decide +kernel

end Runbook.Number
