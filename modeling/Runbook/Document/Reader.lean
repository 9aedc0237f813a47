import Runbook.Number.Reading
import Runbook.Value.Entries

/-! # Documents read

The reader of the interchange format whose writer is `Value.document?`. Besides the standard it reads
the words for infinity and not-a-number, it keeps the order of keys, and of two entries with one key
the later value stands in the place of the earlier.

A malformed document is refused with the position at which the reader could not go on. Inside the
reader that position is the number of characters that were left.
-/

namespace Runbook.Document

/-- Why a text is no document. -/
inductive Malformed where
  /-- The reader stopped with so many characters left. -/
  | stopped (left : Nat)
  /-- An integer with more digits than are converted. -/
  | tooLong
deriving DecidableEq, Repr

/-- White space between the parts of a document. -/
def isSpace (c : Char) : Bool := c == ' ' || c == '\t' || c == '\n' || c == '\r'

/-- A document from its first character that is no white space. -/
def skip (cs : List Char) : List Char := cs.dropWhile isSpace

/-- Four hexadecimal digits and what follows. -/
def unit? : List Char → Option (Nat × List Char)
  | a :: b :: c :: d :: rest => do
    let a ← Text.hexValue? a
    let b ← Text.hexValue? b
    let c ← Text.hexValue? c
    let d ← Text.hexValue? d
    return (((a * 16 + b) * 16 + c) * 16 + d, rest)
  | _ => none

/-- The character of a code unit and what follows; two units of a surrogate pair are one
character, and half a pair is the replacement character. -/
def unitChar (unit : Nat) (rest : List Char) : Char × List Char :=
  if 0xd800 ≤ unit && unit < 0xdc00 then
    match rest with
    | '\\' :: 'u' :: more =>
      match unit? more with
      | some (low, after) =>
        if 0xdc00 ≤ low && low < 0xe000 then
          (Char.ofNat (0x10000 + (unit - 0xd800) * 0x400 + (low - 0xdc00)), after)
        else ('\ufffd', rest)
      | none => ('\ufffd', rest)
    | _ => ('\ufffd', rest)
  else if 0xdc00 ≤ unit && unit < 0xe000 then ('\ufffd', rest)
  else (Char.ofNat unit, rest)

/-- The character that a letter after a backslash stands for. -/
def escape? : Char → Option Char
  | '"' => some '"'
  | '\\' => some '\\'
  | '/' => some '/'
  | 'b' => some '\x08'
  | 'f' => some '\x0c'
  | 'n' => some '\n'
  | 'r' => some '\r'
  | 't' => some '\t'
  | _ => none

/-- The characters of a text up to its closing quote, and what follows. `opened` is what was left at
the opening quote. -/
def chars (opened : Nat) : (fuel : Nat) → List Char → Except Malformed (List Char × List Char)
  | 0, _ => .error (.stopped opened)
  | _ + 1, [] => .error (.stopped opened)
  | _ + 1, '"' :: rest => .ok ([], rest)
  | fuel + 1, '\\' :: rest =>
    match rest with
    | [] => .error (.stopped opened)
    | 'u' :: more =>
      match unit? more with
      | none | some (_, []) => .error (.stopped rest.length)
      | some (unit, after) =>
        let (c, after) := unitChar unit after
        (chars opened fuel after).map fun (cs, tail) => (c :: cs, tail)
    | letter :: more =>
      match escape? letter with
      | none => .error (.stopped (rest.length + 1))
      | some c => (chars opened fuel more).map fun (cs, tail) => (c :: cs, tail)
  | fuel + 1, c :: rest =>
    if c.toNat < 0x20 then .error (.stopped (rest.length + 1))
    else (chars opened fuel rest).map fun (cs, tail) => (c :: cs, tail)

/-- A text after its opening quote. -/
def text (rest : List Char) : Except Malformed (String × List Char) :=
  (chars (rest.length + 1) (rest.length + 1) rest).map fun (cs, tail) => (String.ofList cs, tail)

/-- The ASCII digits at the front and what follows. -/
def digits (cs : List Char) : List Char × List Char :=
  (cs.takeWhile Char.isDigit, cs.dropWhile Char.isDigit)

/-- The number that ASCII digits write. -/
def natOf (ds : List Char) : Nat := ds.foldl (fun n d => 10 * n + (d.toNat - 0x30)) 0

/-- The fraction of a number: its digits and what follows. -/
def fraction : List Char → List Char × List Char
  | '.' :: rest =>
    match digits rest with
    | ([], _) => ([], '.' :: rest)
    | found => found
  | cs => ([], cs)

/-- The exponent of a number and what follows. -/
def exponent (cs : List Char) : Option Int × List Char :=
  match cs with
  | c :: rest =>
    if c == 'e' || c == 'E' then
      let (negative, body) := Number.splitSign rest
      match digits body with
      | ([], _) => (none, cs)
      | (ds, after) => (some (if negative then -(natOf ds : Int) else natOf ds), after)
    else (none, cs)
  | [] => (none, [])

/-- A number without its sign; zero is not followed by further digits of the same number. -/
def magnitude (negative : Bool) (cs : List Char) : Except Malformed (Value × List Char) :=
  let (whole, rest) := match cs with
    | '0' :: rest => (['0'], rest)
    | cs => digits cs
  if whole.isEmpty then .error (.stopped (cs.length + if negative then 1 else 0))
  else
    let (part, rest) := fraction rest
    let (power, rest) := exponent rest
    if part.isEmpty && power.isNone then
      if Number.digitLimit < whole.length then .error .tooLong
      else
        let n : Int := natOf whole
        .ok (.int (if negative then -n else n), rest)
    else
      let x := Number.floatOfDecimal (natOf (whole ++ part)) (power.getD 0 - part.length)
      .ok (.float (if negative then -x else x), rest)

/-- The word at the front of a text and what follows. -/
def word? (word : String) (cs : List Char) : Option (List Char) :=
  if word.toList.isPrefixOf cs then some (cs.drop word.length) else none

/-- A value that is a word or a number. -/
def scalar (cs : List Char) : Except Malformed (Value × List Char) :=
  let words : List (String × Value) :=
    [("null", .null), ("true", .bool true), ("false", .bool false), ("NaN", .float Number.nan),
      ("Infinity", .float Number.infinity), ("-Infinity", .float (-Number.infinity))]
  match words.findSome? fun (word, v) => (word? word cs).map fun rest => (v, rest) with
  | some found => .ok found
  | none =>
    match cs with
    | '-' :: rest => magnitude true rest
    | cs => magnitude false cs

mutual

/-- A value and what follows it. -/
def value : (fuel : Nat) → List Char → Except Malformed (Value × List Char)
  | 0, cs => .error (.stopped cs.length)
  | fuel + 1, cs =>
    match cs with
    | '"' :: rest => (text rest).map fun (s, tail) => (.text s, tail)
    | '[' :: rest =>
      match skip rest with
      | [] => .error (.stopped 0)
      | ']' :: tail => .ok (.list [], tail)
      | more => (items fuel more).map fun (vs, tail) => (.list vs, tail)
    | '\x7b' :: rest =>
      match skip rest with
      | '\x7d' :: tail => .ok (.dict [], tail)
      | more => (entries fuel [] more).map fun (es, tail) => (.dict es, tail)
    | cs => scalar cs

/-- The items of a list up to its closing bracket. -/
def items : (fuel : Nat) → List Char → Except Malformed (List Value × List Char)
  | 0, cs => .error (.stopped cs.length)
  | fuel + 1, cs => do
    let (v, rest) ← value fuel cs
    match skip rest with
    | ']' :: tail => return ([v], tail)
    | ',' :: more =>
      match skip more with
      | [] => throw (.stopped 0)
      | more =>
        let (vs, tail) ← items fuel more
        return (v :: vs, tail)
    | other => throw (.stopped other.length)

/-- The entries of a table up to its closing brace. -/
def entries :
    (fuel : Nat) → Entries → List Char → Except Malformed (Entries × List Char)
  | 0, _, cs => .error (.stopped cs.length)
  | fuel + 1, es, cs =>
    match cs with
    | '"' :: rest => do
      let (key, rest) ← text rest
      match skip rest with
      | ':' :: rest =>
        let (v, rest) ← value fuel (skip rest)
        let es := es.put (.text key) v
        match skip rest with
        | '\x7d' :: tail => return (es, tail)
        | ',' :: more => entries fuel es (skip more)
        | other => throw (.stopped other.length)
      | other => throw (.stopped other.length)
    | other => .error (.stopped other.length)

end

/-- The value of a whole document, or the position at which it is malformed. -/
def read (s : String) : Except Malformed Value :=
  let cs := s.toList
  match value (2 * cs.length + 2) (skip cs) with
  | .error (.stopped left) => .error (.stopped (cs.length - left))
  | .error fault => .error fault
  | .ok (v, rest) =>
    match skip rest with
    | [] => .ok v
    | extra => .error (.stopped (cs.length - extra.length))

end Runbook.Document
