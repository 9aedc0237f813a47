import Runbook.Text.Character
import Runbook.Text.Case
import Runbook.Text.Word

/-! # Patterns

Regular patterns of file names. `Pattern.ends` gives every position at which a match that begins at a
position can end, so a search never goes back over a choice, and `Pattern.occursIn` asks whether a
match begins anywhere.
-/

namespace Runbook

/-- A class of characters inside brackets, or the class of an escape. -/
inductive Pattern.Class where
  | range (first last : Char)
  | digit (negated : Bool)
  | word (negated : Bool)
  | blank (negated : Bool)
deriving DecidableEq, Repr

/-- A regular pattern. -/
inductive Pattern where
  | empty
  | char (c : Char)
  /-- Any character but a line break. -/
  | any
  | oneOf (negated : Bool) (classes : List Pattern.Class)
  /-- The start of the text. -/
  | start
  /-- The end of the text, or the place before a line break that ends it. -/
  | stop
  /-- The end of the text. -/
  | veryEnd
  /-- A place between a word character and another, or none of them. An empty text has no places. -/
  | boundary (negated : Bool)
  /-- A place at which a match begins, or none. -/
  | ahead (negated : Bool) (body : Pattern)
  | seq (first second : Pattern)
  | alt (first second : Pattern)
  | times (body : Pattern) (least : Nat) (most : Option Nat)
deriving Repr

namespace Pattern

/-- A character belongs to a class. -/
def Class.has (c : Char) : Class → Bool
  | range first last => first ≤ c && c ≤ last
  | digit negated => Text.isDigit c != negated
  | word negated => Text.isWord c != negated
  | blank negated => Text.isBlank c != negated

/-- Small letters that are the same letter when case does not matter, by code point. -/
def sameLetters : List (List Nat) :=
  [[0x69, 0x131], [0x73, 0x17f], [0xb5, 0x3bc], [0x345, 0x3b9, 0x1fbe], [0x390, 0x1fd3],
    [0x3b0, 0x1fe3], [0x3b2, 0x3d0], [0x3b5, 0x3f5], [0x3b8, 0x3d1], [0x3ba, 0x3f0], [0x3c0,
    0x3d6], [0x3c1, 0x3f1], [0x3c2, 0x3c3], [0x3c6, 0x3d5], [0x432, 0x1c80], [0x434, 0x1c81],
    [0x43e, 0x1c82], [0x441, 0x1c83], [0x442, 0x1c84, 0x1c85], [0x44a, 0x1c86], [0x463,
    0x1c87], [0x1c88, 0xa64b], [0x1e61, 0x1e9b], [0xfb05, 0xfb06]]

/-- The small letters that are the same as one. -/
def variants (c : Char) : List Char :=
  match sameLetters.find? (·.contains c.toNat) with
  | some codes => codes.map Char.ofNat
  | none => [c]

/-- A character as it is compared when case does not matter. -/
def folded (ignoreCase : Bool) (c : Char) : Char :=
  if !ignoreCase then c
  else if c == 'İ' then 'i'
  else
    let small := Text.lowerChar c
    (variants small).headD small

/-- The characters that are the same as one when case does not matter. -/
def sameAs (c : Char) : List Char :=
  let small := variants (folded true c)
  c :: small ++ (small.map Text.upperChars).flatMap (fun cs => if cs.length == 1 then cs else []) ++
    (if folded true c == 'i' then ['İ'] else [])

/-- A character belongs to one of several classes. -/
def inClasses (ignoreCase : Bool) (classes : List Class) (c : Char) : Bool :=
  classes.any (·.has c) || (ignoreCase && (sameAs c).any fun d => classes.any (·.has d))

/-- The positions reached from some positions by one more step, each once. -/
def spread (step : Nat → List Nat) (positions : List Nat) : List Nat :=
  (positions.flatMap step).eraseDups

/-- The positions reached by exactly `count` steps. -/
def stepExactly (step : Nat → List Nat) : (count : Nat) → List Nat → List Nat
  | 0, positions => positions
  | count + 1, positions => stepExactly step count (spread step positions)

/-- The positions reached by at most `count` steps. -/
def stepAtMost (step : Nat → List Nat) : (count : Nat) → List Nat → List Nat
  | 0, positions => positions
  | count + 1, positions =>
    let next := (spread step positions).filter fun i => !positions.contains i
    if next.isEmpty then positions else stepAtMost step count (positions ++ next)

/-- The position after a character that passes a test. -/
def ifChar (text : Array Char) (i : Nat) (test : Char → Bool) : List Nat :=
  match text[i]? with
  | some c => if test c then [i + 1] else []
  | none => []

/-- The position itself, under a condition. -/
def ifPlace (i : Nat) (condition : Bool) : List Nat := if condition then [i] else []

/-- There is a word character at a position. -/
def wordAt (text : Array Char) (i : Nat) : Bool := text[i]?.any Text.isWord

/-- The positions at which a match that begins at a position can end. -/
def ends (ignoreCase : Bool) (text : Array Char) : Pattern → Nat → List Nat
  | empty, i => [i]
  | char c, i => ifChar text i fun d => folded ignoreCase c == folded ignoreCase d
  | any, i => ifChar text i (· != '\n')
  | oneOf negated classes, i => ifChar text i fun c => inClasses ignoreCase classes c != negated
  | start, i => ifPlace i (i == 0)
  | stop, i => ifPlace i (i == text.size || (i + 1 == text.size && text[i]? == some '\n'))
  | veryEnd, i => ifPlace i (i == text.size)
  | boundary negated, i =>
    let before := 0 < i && wordAt text (i - 1)
    ifPlace i (!text.isEmpty && (before != wordAt text i) != negated)
  | ahead negated body, i => ifPlace i ((ends ignoreCase text body i).isEmpty == negated)
  | seq first second, i =>
    ((ends ignoreCase text first i).flatMap (ends ignoreCase text second)).eraseDups
  | alt first second, i =>
    (ends ignoreCase text first i ++ ends ignoreCase text second i).eraseDups
  | times body least most, i =>
    let step := ends ignoreCase text body
    let needed := stepExactly step least [i]
    stepAtMost step ((most.map (· - least)).getD (text.size + 1)) needed

/-- A match begins somewhere in a text. -/
def occursIn (p : Pattern) (ignoreCase : Bool) (s : String) : Bool :=
  let text := s.toList.toArray
  (List.range (text.size + 1)).any fun i => !(p.ends ignoreCase text i).isEmpty

end Pattern

end Runbook
