import Runbook.Value.Document
import Runbook.Value.Entries
import Runbook.Text.Character

/-! # Templates

A text may hold placeholders, a name between double braces. `Template.segments` takes a text apart
and `Template.write` puts segments together again. Resolving a text in a scope replaces every
placeholder whose trimmed name is bound; a text that is one placeholder and nothing else becomes the
bound value itself. What is put in is not looked at again.

Containers are resolved part by part; keys stay as they are.
-/

namespace Runbook

/-- A piece of a text: characters that stand for themselves, or a placeholder with the characters
between its braces. -/
inductive Segment where
  | literal (cs : List Char)
  | hole (name : List Char)
deriving DecidableEq, Repr

namespace Template

/-- The characters that a segment was read from. -/
def writeSegment : Segment → List Char
  | .literal cs => cs
  | .hole name => '{' :: '{' :: (name ++ ['}', '}'])

/-- The text that segments were read from. -/
def write (segments : List Segment) : List Char := segments.flatMap writeSegment

/-- The placeholder at the front of a text and what follows it. Its name has no closing brace and
is not empty. -/
def hole? : List Char → Option (List Char × List Char)
  | '{' :: '{' :: rest =>
    match rest.dropWhile (· != '}') with
    | '}' :: '}' :: tail =>
      if (rest.takeWhile (· != '}')).isEmpty then none
      else some (rest.takeWhile (· != '}'), tail)
    | _ => none
  | _ => none

/-- What follows a placeholder is shorter than the text. -/
theorem hole?_length {cs name tail : List Char} (found : hole? cs = some (name, tail)) :
    tail.length < cs.length := by
  unfold hole? at found
  split at found
  · rename_i rest
    split at found
    · rename_i next dropped
      have short : (rest.dropWhile (· != '}')).length ≤ rest.length :=
        (List.dropWhile_sublist _).length_le
      rw [dropped] at short
      split at found
      · simp at found
      · simp only [Option.some.injEq, Prod.mk.injEq] at found
        simp only [List.length_cons] at short ⊢
        rw [← found.2]
        omega
    · simp at found
  · simp at found

/-- A character in front of segments, joined to a literal that comes first. -/
def consChar (c : Char) : List Segment → List Segment
  | .literal cs :: rest => .literal (c :: cs) :: rest
  | segments => .literal [c] :: segments

/-- A text taken apart, the leftmost placeholder first. -/
def segments (cs : List Char) : List Segment :=
  match cs with
  | [] => []
  | c :: rest =>
    match _found : hole? (c :: rest) with
    | some (name, tail) => .hole name :: segments tail
    | none => consChar c (segments rest)
termination_by cs.length
decreasing_by
  · exact hole?_length _found
  · simp

/-- The name that a placeholder is looked up by. -/
def nameOf (chars : List Char) : String := String.ofList (Text.trimChars chars)

/-- A segment in a scope, as a part of a larger text. -/
def fill (scope : Entries) : Segment → String
  | .literal cs => String.ofList cs
  | .hole name =>
    match scope.get? (nameOf name) with
    | some v => v.embed
    | none => String.ofList (writeSegment (.hole name))

/-- A text in a scope. -/
def resolve (scope : Entries) (s : String) : Value :=
  match segments s.toList with
  | [.hole name] => (scope.get? (nameOf name)).getD (.text s)
  | parts => .text (String.join (parts.map (fill scope)))

end Template

namespace Value

mutual

/-- A value in a scope: every text in it resolved, every container kept. -/
def resolve (scope : Entries) : Value → Value
  | .text s => Template.resolve scope s
  | .list items => .list (resolveItems scope items)
  | .tuple items => .tuple (resolveItems scope items)
  | .dict entries => .dict (resolveEntries scope entries)
  | v => v

/-- The items of a list in a scope. -/
def resolveItems (scope : Entries) : List Value → List Value
  | [] => []
  | v :: rest => v.resolve scope :: resolveItems scope rest

/-- The entries of a table in a scope. -/
def resolveEntries (scope : Entries) : List (Value × Value) → List (Value × Value)
  | [] => []
  | (k, v) :: rest => (k, v.resolve scope) :: resolveEntries scope rest

end

end Value

end Runbook
