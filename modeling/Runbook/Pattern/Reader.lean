import Runbook.Fault
import Runbook.Number.Reading
import Runbook.Pattern.Basic

/-! # Patterns read from text

The notation of patterns: alternatives with bars, repetition with `*`, `+`, `?` and counts in braces,
groups, classes in brackets, and escapes. A group that opens with `?:` only groups, one with `?=` or
`?!` looks ahead; `(?i)` in front of everything makes case irrelevant. A malformed text matches
nothing. A count that is too large is a fault, whatever would follow it.
-/

namespace Runbook.Pattern

/-- The characters that an escaped letter stands for as a class. -/
def classEscape? : Char → Option Class
  | 'd' => some (.digit false)
  | 'D' => some (.digit true)
  | 'w' => some (.word false)
  | 'W' => some (.word true)
  | 's' => some (.blank false)
  | 'S' => some (.blank true)
  | _ => none

/-- The character that an escaped character stands for. A letter without a meaning is refused. -/
def charEscape? : Char → Option Char
  | 'n' => some '\n'
  | 't' => some '\t'
  | 'r' => some '\r'
  | 'f' => some '\x0c'
  | 'v' => some '\x0b'
  | 'a' => some '\x07'
  | c => if c.isAlphanum then none else some c

/-- A number of so many hexadecimal digits. -/
def hexNumber? (digits : List Char) (count : Nat) : Option Nat :=
  if digits.length == count then
    (digits.mapM Text.hexValue?).map fun values => values.foldl (fun n d => 16 * n + d) 0
  else none

/-- The digits that write numbers in base eight. -/
def isOctal (c : Char) : Bool := '0' ≤ c && c ≤ '7'

/-- A number in base eight. -/
def octalNumber (digits : List Char) : Nat := digits.foldl (fun n d => 8 * n + (d.toNat - 0x30)) 0

/-- The character with a number, if there is one. -/
def charOf? (n : Nat) : Option Char := if n.isValidChar then some (Char.ofNat n) else none

/-- The character that is written with its number after a backslash, and what follows. In base eight
it has three digits, or up to three if the first is zero or if it stands inside brackets. -/
def numbered? (inBrackets : Bool) : List Char → Option (Char × List Char)
  | 'x' :: rest => ((hexNumber? (rest.take 2) 2).bind charOf?).map (·, rest.drop 2)
  | 'u' :: rest => ((hexNumber? (rest.take 4) 4).bind charOf?).map (·, rest.drop 4)
  | 'U' :: rest => ((hexNumber? (rest.take 8) 8).bind charOf?).map (·, rest.drop 8)
  | cs =>
    let digits := (cs.take 3).takeWhile isOctal
    let number := octalNumber digits
    if digits.isEmpty || 0o377 < number then none
    else if digits.length == 3 || digits.head? == some '0' || inBrackets then
      some (Char.ofNat number, cs.drop digits.length)
    else none

/-- The character that is written after a backslash, and what follows. -/
def escaped? (inBrackets : Bool) : List Char → Option (Char × List Char)
  | [] => none
  | c :: rest =>
    match charEscape? c with
    | some d => some (d, rest)
    | none => numbered? inBrackets (c :: rest)

/-- What is written after a backslash outside brackets, and what follows. -/
def escape? : List Char → Option (Pattern × List Char)
  | [] => none
  | 'A' :: rest => some (.start, rest)
  | 'Z' :: rest => some (.veryEnd, rest)
  | 'b' :: rest => some (.boundary false, rest)
  | 'B' :: rest => some (.boundary true, rest)
  | c :: rest =>
    match classEscape? c with
    | some k => some (.oneOf false [k], rest)
    | none => (escaped? false (c :: rest)).map fun (d, tail) => (.char d, tail)

/-- One end of a range or one class inside brackets, and what follows. -/
def member? : List Char → Option ((Char ⊕ Class) × List Char)
  | ['\\'] => none
  | '\\' :: 'b' :: rest => some (.inl '\x08', rest)
  | '\\' :: c :: rest =>
    match classEscape? c with
    | some k => some (.inr k, rest)
    | none => (escaped? true (c :: rest)).map fun (d, tail) => (.inl d, tail)
  | c :: rest => some (.inl c, rest)
  | [] => none

/-- The classes inside brackets up to the closing one, which is a character when it comes first. -/
def classes? (first : Bool) : (fuel : Nat) → List Char → Option (List Class × List Char)
  | 0, _ => none
  | fuel + 1, cs =>
    match cs with
    | [] => none
    | c :: rest =>
      if c == ']' && !first then some ([], rest)
      else do
        let (low, rest) ← member? cs
        match low, rest with
        | .inl a, '-' :: ']' :: tail => return ([.range a a, .range '-' '-'], tail)
        | .inr k, '-' :: ']' :: tail => return ([k, .range '-' '-'], tail)
        | .inl a, '-' :: more =>
          let (high, tail) ← member? more
          match high with
          | .inl b =>
            if b < a then none
            else
              let (others, tail) ← classes? false fuel tail
              return (.range a b :: others, tail)
          | .inr _ => none
        | .inr _, '-' :: _ => none
        | .inl a, rest =>
          let (others, tail) ← classes? false fuel rest
          return (.range a a :: others, tail)
        | .inr k, rest =>
          let (others, tail) ← classes? false fuel rest
          return (k :: others, tail)

/-- Why a text is no pattern. -/
inductive Flaw where
  | malformed
  /-- A count that no repetition may reach. -/
  | countTooLarge
  /-- A count of more digits than are read. -/
  | countTooLong (digits : Nat)
deriving DecidableEq, Repr

/-- What a reader gives, if it is anything. -/
def orMalformed {α : Type} : Option α → Except Flaw α
  | some a => .ok a
  | none => .error .malformed

/-- The least count that is too large. -/
def countLimit : Nat := 0xffffffff

/-- The count that some digits write, if there are any. -/
def count (digits : List Char) : Except Flaw (Option Nat) :=
  if digits.isEmpty then .ok none
  else if Number.digitLimit < digits.length then .error (.countTooLong digits.length)
  else
    let n := digits.foldl (fun n d => 10 * n + (d.toNat - 0x30)) 0
    if countLimit ≤ n then .error .countTooLarge else .ok (some n)

/-- The repetition at the front of a text: how often at least and at most. Braces that hold no count
are ordinary characters, and then there is none. -/
def repetition : List Char → Except Flaw (Option ((Nat × Option Nat) × List Char))
  | '*' :: rest => .ok (some ((0, none), rest))
  | '+' :: rest => .ok (some ((1, none), rest))
  | '?' :: rest => .ok (some ((0, some 1), rest))
  | '\x7b' :: rest =>
    match rest.dropWhile Char.isDigit with
    | '\x7d' :: tail => do
      let times ← count (rest.takeWhile Char.isDigit)
      return times.map fun n => ((n, some n), tail)
    | ',' :: more =>
      match more.dropWhile Char.isDigit with
      | '\x7d' :: tail => do
        let least ← count (rest.takeWhile Char.isDigit)
        let most ← count (more.takeWhile Char.isDigit)
        return some ((least.getD 0, most), tail)
      | _ => .ok none
    | _ => .ok none
  | _ => .ok none

/-- The bounds of a repetition are in order. -/
def inOrder : Nat × Option Nat → Bool
  | (least, some most) => least ≤ most
  | (_, none) => true

/-- A pattern that matches a place and no character. -/
def isPlace : Pattern → Bool
  | .start | .stop | .veryEnd | .boundary _ => true
  | _ => false

/-- A body with the repetition that follows it. A second one is refused, but a question mark or plus
sign after the first only says which matches are tried first. -/
def repeated (canRepeat : Bool) (body : Pattern) (cs : List Char) :
    Except Flaw (Pattern × List Char) := do
  match ← repetition cs with
  | none => return (body, cs)
  | some ((least, most), rest) =>
    if !canRepeat || !inOrder (least, most) then .error .malformed
    else
      let rest := match rest with
        | '?' :: tail => tail
        | '+' :: tail => tail
        | tail => tail
      match ← repetition rest with
      | some _ => .error .malformed
      | none => return (.times body least most, rest)

mutual

/-- Alternatives up to the end of the text or of the group. -/
def alternatives : (fuel : Nat) → List Char → Except Flaw (Pattern × List Char)
  | 0, _ => .error .malformed
  | fuel + 1, cs => do
    let (first, rest) ← sequence fuel cs
    match rest with
    | '|' :: more =>
      let (second, tail) ← alternatives fuel more
      return (.alt first second, tail)
    | rest => return (first, rest)

/-- A sequence up to a bar, a closing parenthesis, or the end of the text. -/
def sequence : (fuel : Nat) → List Char → Except Flaw (Pattern × List Char)
  | 0, _ => .error .malformed
  | fuel + 1, cs =>
    match cs with
    | [] => .ok (.empty, [])
    | '|' :: _ => .ok (.empty, cs)
    | ')' :: _ => .ok (.empty, cs)
    | cs => do
      let (first, rest) ← piece fuel cs
      let (others, tail) ← sequence fuel rest
      return (.seq first others, tail)

/-- One piece with its repetition. -/
def piece : (fuel : Nat) → List Char → Except Flaw (Pattern × List Char)
  | 0, _ => .error .malformed
  | fuel + 1, cs =>
    match cs with
    | [] => .error .malformed
    | '(' :: '?' :: ':' :: rest => group fuel id rest
    | '(' :: '?' :: '=' :: rest => group fuel (.ahead false) rest
    | '(' :: '?' :: '!' :: rest => group fuel (.ahead true) rest
    | '(' :: '?' :: _ => .error .malformed
    | '(' :: rest => group fuel id rest
    | '[' :: '^' :: rest => do
      let (classes, tail) ← orMalformed (classes? true (rest.length + 1) rest)
      repeated true (.oneOf true classes) tail
    | '[' :: rest => do
      let (classes, tail) ← orMalformed (classes? true (rest.length + 1) rest)
      repeated true (.oneOf false classes) tail
    | '^' :: rest => repeated false .start rest
    | '$' :: rest => repeated false .stop rest
    | '.' :: rest => repeated true .any rest
    | '\\' :: rest => do
      let (p, tail) ← orMalformed (escape? rest)
      repeated (!p.isPlace) p tail
    | c :: rest => do
      match ← repetition cs with
      | some _ => .error .malformed
      | none => repeated true (.char c) rest

/-- A group after its opening parenthesis, with what it makes of its body. -/
def group : (fuel : Nat) → (make : Pattern → Pattern) → List Char →
    Except Flaw (Pattern × List Char)
  | 0, _, _ => .error .malformed
  | fuel + 1, make, cs => do
    let (body, rest) ← alternatives fuel cs
    match rest with
    | ')' :: tail => repeated true (make body) tail
    | _ => .error .malformed

end

/-- A text without the marks in front that make case irrelevant, and whether there was one. -/
def withoutMarks : List Char → Bool × List Char
  | '(' :: '?' :: 'i' :: ')' :: rest => (true, (withoutMarks rest).2)
  | cs => (false, cs)

/-- The pattern that a text writes, and whether case is irrelevant. -/
def read (s : String) : Except Flaw (Pattern × Bool) :=
  let (ignoreCase, cs) := withoutMarks s.toList
  match alternatives (4 * cs.length + 4) cs with
  | .ok (p, []) => .ok (p, ignoreCase)
  | .ok _ => .error .malformed
  | .error flaw => .error flaw

/-- A file name matches a pattern given as text. -/
def matchesText (path pattern : String) : Bool :=
  match read pattern with
  | .ok (p, ignoreCase) => p.occursIn ignoreCase path
  | .error _ => false

/-- What is wrong with a pattern that cannot even be tried: one of its counts is too large. -/
def strain? (pattern : String) : Option Fault :=
  match read pattern with
  | .error .countTooLarge => some .repetitionTooLarge
  | .error (.countTooLong digits) => some (.integerTooLong digits)
  | _ => none

/-- A file name is tried against a pattern given as text. -/
def tryText (path pattern : String) : Except Fault Bool :=
  match strain? pattern with
  | some fault => .error fault
  | none => .ok (matchesText path pattern)

example : matchesText "docs/plan.md\n" "\\.md$" = true := by decide +kernel

example : matchesText "src/x.tsx" "^src/.*\\.(ts|tsx)$" = true := by decide +kernel

example : matchesText "draft-a.md" "^(?!draft).*\\x2emd$" = false := by decide +kernel

example : matchesText "a" "[unclosed" = false ∧ matchesText "a" "*a" = false := by decide +kernel

end Runbook.Pattern
