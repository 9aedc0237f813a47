import Runbook.Number.Reading
import Runbook.Number.Text
import Runbook.Text.Bytes

/-! # Formatted output

What the two printing commands make of their arguments: escapes that stand for bytes, and formats
with places for arguments. A format is used again as long as there are arguments left.
-/

namespace Runbook.Shell

/-- An octal digit. -/
def octal? (c : Char) : Option Nat :=
  if '0' ≤ c && c ≤ '7' then some (c.toNat - '0'.toNat) else none

/-- A number in octal digits, no more than a few of them, and what is behind it. -/
def readOctal (n : Nat) : (most : Nat) → List Char → Nat × List Char
  | most + 1, c :: rest =>
    match octal? c with
    | some d => readOctal (8 * n + d) most rest
    | none => (n, c :: rest)
  | _, cs => (n, cs)

/-- The byte that a letter stands for behind a backslash. -/
def escapeByte? : Char → Option UInt8
  | 'a' => some 7
  | 'b' => some 8
  | 'f' => some 12
  | 'n' => some 10
  | 'r' => some 13
  | 't' => some 9
  | 'v' => some 11
  | '\\' => some 92
  | _ => none

/-- The bytes of an escape, by the characters behind the backslash, and what is behind it. -/
def readEscape : List Char → Bytes × List Char
  | [] => ([92], [])
  | c :: rest =>
    match escapeByte? c with
    | some b => ([b], rest)
    | none =>
      match octal? c with
      | some _ =>
        let (n, rest) := readOctal 0 3 (c :: rest)
        ([UInt8.ofNat n], rest)
      | none => (92 :: Text.encodeChar c, rest)

/-- The bytes of a text with escapes, and whether it ends the output. A zero behind a backslash may
come before three more octal digits. -/
def escapedFrom : (fuel : Nat) → List Char → Bytes × Bool
  | _ + 1, '\\' :: 'c' :: _ => ([], true)
  | fuel + 1, '\\' :: '0' :: rest =>
    let (n, rest) := readOctal 0 3 rest
    let (others, ends) := escapedFrom fuel rest
    (UInt8.ofNat n :: others, ends)
  | fuel + 1, '\\' :: rest =>
    let (bytes, rest) := readEscape rest
    let (others, ends) := escapedFrom fuel rest
    (bytes ++ others, ends)
  | fuel + 1, c :: rest =>
    let (others, ends) := escapedFrom fuel rest
    (Text.encodeChar c ++ others, ends)
  | _, _ => ([], false)

/-- The bytes of a text with escapes, and whether it ends the output. -/
def escaped (text : String) : Bytes × Bool := escapedFrom text.length text.toList

/-- What a plain print makes of its arguments. -/
def echoed (arguments : List String) : Bytes :=
  let (line, words) := match arguments with
    | "-n" :: words => (false, words)
    | words => (true, words)
  let (bytes, ends) := escaped (" ".intercalate words)
  if line && !ends then bytes ++ [10] else bytes

/-- The integer that an argument is, and whether all of it is one. -/
def integerArgument (text : String) : Int × Bool :=
  match text.toList with
  | [] => (0, true)
  | '\'' :: c :: _ => (c.toNat, true)
  | '"' :: c :: _ => (c.toNat, true)
  | cs =>
    let (negative, body) := Number.splitSign cs
    let digits := body.takeWhile Char.isDigit
    let n : Int := Number.ofDigits (digits.map fun c => c.toNat - '0'.toNat)
    (if negative then -n else n, !digits.isEmpty && digits.length == body.length)

/-- How an argument is put into its place. -/
structure Layout where
  left : Bool := false
  zeros : Bool := false
  plus : Bool := false
  space : Bool := false
  width : Nat := 0
  precision : Option Nat := none

/-- Bytes filled up to the width of a place. -/
def Layout.fill (layout : Layout) (bytes : Bytes) : Bytes :=
  let missing := List.replicate (layout.width - bytes.length) (32 : UInt8)
  if layout.left then bytes ++ missing else missing ++ bytes

/-- A number in its place, by its sign and digits. -/
def Layout.number (layout : Layout) (sign : String) (digits : List Char) : Bytes :=
  let digits := List.replicate ((layout.precision.getD 1) - digits.length) '0' ++ digits
  let zeros :=
    if layout.zeros && !layout.left && layout.precision.isNone then
      layout.width - digits.length - sign.length
    else 0
  layout.fill (Text.encode (sign ++ String.ofList (List.replicate zeros '0' ++ digits)))

/-- The sign of a number. -/
def Layout.sign (layout : Layout) (n : Int) : String :=
  if n < 0 then "-" else if layout.plus then "+" else if layout.space then " " else ""

/-- What stands between a percent sign and the letter of a place. -/
def readLayout (layout : Layout) : List Char → Layout × List Char
  | '-' :: rest => readLayout { layout with left := true } rest
  | '+' :: rest => readLayout { layout with plus := true } rest
  | ' ' :: rest => readLayout { layout with space := true } rest
  | '#' :: rest => readLayout layout rest
  | '0' :: rest => readLayout { layout with zeros := true } rest
  | cs =>
    let number (cs : List Char) : Nat :=
      Number.ofDigits ((cs.takeWhile Char.isDigit).map fun c => c.toNat - '0'.toNat)
    let width := number cs
    match cs.dropWhile Char.isDigit with
    | '.' :: rest =>
      ({ layout with width, precision := some (number rest) }, rest.dropWhile Char.isDigit)
    | rest => ({ layout with width }, rest)

/-- What a format has written so far. -/
structure Print where
  bytes : Bytes := []
  /-- What was said against arguments. -/
  complaints : List String := []
  arguments : List String
  /-- Some argument was used. -/
  used : Bool := false
  ended : Bool := false

/-- The print with more bytes. -/
def Print.add (p : Print) (bytes : Bytes) : Print := { p with bytes := p.bytes ++ bytes }

/-- The next argument. -/
def Print.next (p : Print) : String × Print :=
  match p.arguments with
  | [] => ("", { p with used := true })
  | a :: rest => (a, { p with arguments := rest, used := true })

/-- A number in a place. -/
def Print.addNumber (p : Print) (layout : Layout) (signed : Bool) (base : Nat) (upper : Bool) :
    Print :=
  let (argument, p) := p.next
  let (n, fits) := integerArgument argument
  let n := if signed || 0 ≤ n then n else n + 0x10000000000000000
  let digits := Nat.toDigits base n.natAbs
  let digits := if upper then digits.map Char.toUpper else digits
  let p := p.add (layout.number (if signed then layout.sign n else "") digits)
  if fits then p
  else { p with complaints := p.complaints ++ [argument ++ ": expected numeric value"] }

/-- A place for an argument, by its letter. -/
def Print.place (p : Print) (layout : Layout) (letter : Char) : Print :=
  match letter with
  | '%' => p.add [37]
  | 's' =>
    let (argument, p) := p.next
    let bytes := Text.encode argument
    p.add (layout.fill (match layout.precision with
      | some n => bytes.take n
      | none => bytes))
  | 'b' =>
    let (argument, p) := p.next
    let (bytes, ended) := escaped argument
    { p.add (layout.fill bytes) with ended }
  | 'c' =>
    let (argument, p) := p.next
    p.add (layout.fill ((Text.encode argument).take 1))
  | 'd' | 'i' => p.addNumber layout true 10 false
  | 'u' => p.addNumber layout false 10 false
  | 'o' => p.addNumber layout false 8 false
  | 'x' => p.addNumber layout false 16 false
  | 'X' => p.addNumber layout false 16 true
  | letter =>
    { p with
      ended := true
      complaints := p.complaints ++ ["%" ++ String.singleton letter ++ ": invalid directive"] }

/-- One use of a format. -/
def printOnce (p : Print) : (fuel : Nat) → List Char → Print
  | fuel + 1, c :: rest =>
    if p.ended then p
    else if c == '\\' then
      let (bytes, rest) := readEscape rest
      printOnce (p.add bytes) fuel rest
    else if c == '%' then
      let (layout, rest) := readLayout {} rest
      match rest with
      | [] => p
      | letter :: rest => printOnce (p.place layout letter) fuel rest
    else printOnce (p.add (Text.encodeChar c)) fuel rest
  | _, _ => p

/-- Uses of a format as long as there are arguments for it. -/
def printAll (format : List Char) : (fuel : Nat) → Print → Print
  | 0, p => p
  | fuel + 1, p =>
    let p := printOnce { p with used := false } format.length format
    if p.ended || p.arguments.isEmpty || !p.used then p else printAll format fuel p

/-- What a formatted print makes of its arguments, and what is said against them. -/
def printed (format : String) (arguments : List String) : Bytes × List String :=
  let p := printAll format.toList (arguments.length + 1) { arguments }
  (p.bytes, p.complaints)

example : (printed "%s-%03d\\n" ["a", "7", "b"]).1 = Text.encode "a-007\nb-000\n" := by
  decide +kernel

example : echoed ["-n", "a\\tb\\0101"] = Text.encode "a\tbA" := by decide +kernel

end Runbook.Shell
