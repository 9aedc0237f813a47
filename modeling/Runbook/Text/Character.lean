/-! # Kinds of characters

The blank characters of every script with the four separators of plain text records, the decimal digits of every
script with the hexadecimal ones, and tables of other kinds.
-/

namespace Runbook.Text

/-! ## Blanks

Trimming takes blanks away at both ends of a text and nowhere else.
-/

/-- A blank: a space of any script, a line or paragraph break, or a record separator. -/
def isBlank (c : Char) : Bool :=
  let n := c.toNat
  (9 ≤ n && n ≤ 13) || (28 ≤ n && n ≤ 32) || n == 0x85 || n == 0xa0 || n == 0x1680 ||
    (0x2000 ≤ n && n ≤ 0x200a) || n == 0x2028 || n == 0x2029 || n == 0x202f || n == 0x205f ||
    n == 0x3000

/-- Characters without the blanks at both ends. -/
def trimChars (cs : List Char) : List Char :=
  ((cs.dropWhile isBlank).reverse.dropWhile isBlank).reverse

/-- A text without the blanks at both ends. -/
def trim (s : String) : String := String.ofList (trimChars s.toList)

example : trim " \t a b\u00a0" = "a b" := by decide +kernel

/-! ## Digits

Each script with decimal digits has them in one run of ten code points, zero first, so the table of the zeros fixes
every digit's value.
-/

/-- The code points of the digit zero, script by script. -/
def zeroDigits : Array Nat :=
  #[0x30, 0x660, 0x6f0, 0x7c0, 0x966, 0x9e6, 0xa66, 0xae6, 0xb66, 0xbe6, 0xc66, 0xce6, 0xd66, 0xde6,
    0xe50, 0xed0, 0xf20, 0x1040, 0x1090, 0x17e0, 0x1810, 0x1946, 0x19d0, 0x1a80, 0x1a90, 0x1b50,
    0x1bb0, 0x1c40, 0x1c50, 0xa620, 0xa8d0, 0xa900, 0xa9d0, 0xa9f0, 0xaa50, 0xabf0, 0xff10, 0x104a0,
    0x10d30, 0x11066, 0x110f0, 0x11136, 0x111d0, 0x112f0, 0x11450, 0x114d0, 0x11650, 0x116c0,
    0x11730, 0x118e0, 0x11950, 0x11c50, 0x11d50, 0x11da0, 0x16a60, 0x16ac0, 0x16b50, 0x1d7ce,
    0x1d7d8, 0x1d7e2, 0x1d7ec, 0x1d7f6, 0x1e140, 0x1e2f0, 0x1e950, 0x1fbf0]

/-- The value of a decimal digit of any script. -/
def digitValue? (c : Char) : Option Nat :=
  let n := c.toNat
  if n < 0x80 then
    if 0x30 ≤ n && n ≤ 0x39 then some (n - 0x30) else none
  else
    (zeroDigits.find? fun start => start ≤ n && n ≤ start + 9).map (n - ·)

/-- A decimal digit of any script. -/
def isDigit (c : Char) : Bool := (digitValue? c).isSome

/-- The value of a hexadecimal digit. -/
def hexValue? (c : Char) : Option Nat :=
  let n := c.toNat
  if 0x30 ≤ n && n ≤ 0x39 then some (n - 0x30)
  else if 0x41 ≤ n && n ≤ 0x46 then some (n - 0x37)
  else if 0x61 ≤ n && n ≤ 0x66 then some (n - 0x57)
  else none

example : digitValue? '7' = some 7 ∧ digitValue? '٥' = some 5 ∧ digitValue? '²' = none := by
  decide +kernel

/-! ## Ranges of code points

Tables of character properties are sorted arrays of closed ranges, searched by bisection.
-/

/-- Bisection for `code` in the part of the table from `low` up to, not including, `high`. -/
def bisectRanges (table : Array (Nat × Nat)) (code low high : Nat) : Bool :=
  if _ : low < high then
    let middle := (low + high) / 2
    match table[middle]? with
    | none => false
    | some (first, last) =>
      if code < first then bisectRanges table code low middle
      else if last < code then bisectRanges table code (middle + 1) high
      else true
  else false
termination_by high - low

/-- A code point lies in one of the ranges of a sorted table. -/
def inRanges (table : Array (Nat × Nat)) (code : Nat) : Bool :=
  bisectRanges table code 0 table.size

end Runbook.Text
