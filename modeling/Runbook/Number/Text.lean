import Runbook.Number.Shortest

/-! # Numbers as text

One record says how a floating-point number is laid out, `fractional`: positional between `1e-4` and
`1e16`, always with a fractional part, and with an exponent of at least two digits elsewhere.
Fixed-point texts round half to even, on the exact binary value.
-/

namespace Runbook.Number

/-- The decimal digits of a natural number. -/
def digitsOf (n : Nat) : List Char := Nat.toDigits 10 n

/-- An integer in decimal. -/
def intText (n : Int) : String :=
  match n with
  | .ofNat n => String.ofList (digitsOf n)
  | .negSucc n => String.ofList ('-' :: digitsOf (n + 1))

/-- How floating-point numbers are laid out. -/
structure Layout where
  /-- The least decimal exponent that is written positionally. -/
  positionalFrom : Int
  /-- The first decimal exponent above the positional ones. -/
  positionalTo : Int
  /-- The least number of digits of an exponent. -/
  exponentWidth : Nat
  nanText : String
  infinityText : String

/-- The layout of numbers in values and messages. -/
def Layout.fractional : Layout := ⟨-4, 16, 2, "nan", "inf"⟩

/-- The layout of numbers inside embedded documents. -/
def Layout.document : Layout := ⟨-4, 16, 2, "NaN", "Infinity"⟩

/-- Zeros in front of the digits up to a width. -/
def padLeft (width : Nat) (digits : List Char) : List Char :=
  List.replicate (width - digits.length) '0' ++ digits

/-- The magnitude of a decimal with a point, the last digit standing at `10 ^ exponent`. -/
def positional (digits : List Char) (exponent : Int) : List Char :=
  match exponent with
  | .ofNat k => digits ++ List.replicate k '0' ++ ['.', '0']
  | .negSucc k =>
    let places := k + 1
    let padded := padLeft (places + 1) digits
    padded.take (padded.length - places) ++ '.' :: padded.drop (padded.length - places)

/-- The magnitude of a decimal with an exponent. -/
def scientific (width : Nat) (digits : List Char) (leading : Int) : List Char :=
  let mantissa := match digits with
    | [] => []
    | [d] => [d]
    | d :: rest => d :: '.' :: rest
  let sign := if leading < 0 then '-' else '+'
  mantissa ++ 'e' :: sign :: padLeft width (digitsOf leading.natAbs)

/-- The text of a magnitude in a layout. -/
def Layout.decimal (layout : Layout) (d : Decimal) : List Char :=
  let digits := digitsOf d.digits
  let leading := d.exponent + (digits.length - 1 : Nat)
  if layout.positionalFrom ≤ leading && leading < layout.positionalTo then
    positional digits d.exponent
  else scientific layout.exponentWidth digits leading

/-- The text of a floating-point number in a layout. -/
def Layout.render (layout : Layout) (x : Float) : String :=
  match Binary.ofFloat x with
  | .nan => layout.nanText
  | .infinite negative => if negative then "-" ++ layout.infinityText else layout.infinityText
  | .finite negative mantissa exponent =>
    let magnitude :=
      if mantissa == 0 then positional ['0'] 0 else layout.decimal (shortest mantissa exponent)
    String.ofList (if negative then '-' :: magnitude else magnitude)

/-- The text of a floating-point number: the shortest that reads back. -/
def floatText (x : Float) : String := Layout.fractional.render x

/-- A quotient rounded to the nearest integer, a half to the even neighbour. -/
def roundHalfEven (top bottom : Nat) : Nat :=
  let floor := top / bottom
  let rest := 2 * (top % bottom)
  if rest < bottom then floor
  else if bottom < rest then floor + 1
  else if floor % 2 == 0 then floor else floor + 1

/-- A number with a fixed count of places, rounded half to even on its exact value. -/
def fixedText (places : Nat) (x : Float) : String :=
  match Binary.ofFloat x with
  | .nan => "nan"
  | .infinite negative => if negative then "-inf" else "inf"
  | .finite negative mantissa exponent =>
    let (top, bottom) := ratio mantissa exponent
    let scaled := padLeft (places + 1) (digitsOf (roundHalfEven (top * Nat.pow 10 places) bottom))
    let whole := scaled.take (scaled.length - places)
    let part := scaled.drop (scaled.length - places)
    let magnitude := if places == 0 then whole else whole ++ '.' :: part
    String.ofList (if negative then '-' :: magnitude else magnitude)

/-- A number rounded to a count of decimal places, as a number again. -/
def roundPlaces (places : Nat) (x : Float) : Float :=
  match Binary.ofFloat x with
  | .finite negative mantissa exponent =>
    let (top, bottom) := ratio mantissa exponent
    let rounded := Float.ofScientific (roundHalfEven (top * Nat.pow 10 places) bottom) true places
    if negative then -rounded else rounded
  | _ => x

example : floatText 0.1 = "0.1" ∧ floatText 1e16 = "1e+16" ∧ floatText 1e-5 = "1e-05" := by
  decide +kernel

example : floatText 300 = "300.0" ∧ floatText (-0.0) = "-0.0" ∧ floatText 1e22 = "1e+22" := by
  decide +kernel

example : fixedText 2 0.125 = "0.12" ∧ fixedText 2 0 = "0.00" := by decide +kernel

end Runbook.Number
