import Runbook.Text.Unprintable

/-! # Quoted texts

A text in quotes, as values and messages show it. The quote is the single one unless the text holds
a single quote and no double one. A backslash and the quote in use are escaped with a backslash,
line breaks and tabs have letters of their own, and a character with no printed form is written with
the fewest hexadecimal digits of two, four or eight.
-/

namespace Runbook.Text

/-- A natural number in lower case hexadecimal with at least `width` digits. -/
def hex (width n : Nat) : List Char :=
  let digits := Nat.toDigits 16 n
  List.replicate (width - digits.length) '0' ++ digits

/-- The quote that a text is shown in. -/
def quoteFor (cs : List Char) : Char :=
  if cs.contains '\'' && !cs.contains '"' then '"' else '\''

/-- A character inside quotes. -/
def quoteChar (quote c : Char) : List Char :=
  if c == quote || c == '\\' then ['\\', c]
  else if c == '\n' then ['\\', 'n']
  else if c == '\r' then ['\\', 'r']
  else if c == '\t' then ['\\', 't']
  else if isPrintable c then [c]
  else if c.toNat < 0x100 then '\\' :: 'x' :: hex 2 c.toNat
  else if c.toNat < 0x10000 then '\\' :: 'u' :: hex 4 c.toNat
  else '\\' :: 'U' :: hex 8 c.toNat

/-- A text in quotes. -/
def quoted (s : String) : String :=
  let quote := quoteFor s.toList
  String.ofList (quote :: s.toList.flatMap (quoteChar quote) ++ [quote])

example : quoted "a\nb" = "'a\\nb'" ∧ quoted "it's" = "\"it's\"" ∧ quoted "\u2028" = "'\\u2028'" := by
  decide +kernel

end Runbook.Text
