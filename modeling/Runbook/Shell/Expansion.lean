import Runbook.Shell.Arithmetic
import Runbook.Shell.Format
import Runbook.Shell.Script
import Runbook.Shell.Session

/-! # Expansion of words

A word becomes the fields that a command gets: values and outputs take the place of what stands for
them, and outside quotes they are cut at blanks. A field with a star or a question mark that is not
quoted stands for the names in the directory that it matches, if there are any.
-/

namespace Runbook.Shell

/-- A part of an expanded word. -/
inductive Atom where
  /-- A character, which may be a star or question mark that matches names. -/
  | char (c : Char) (matching : Bool)
  /-- Nothing, but enough for a field. -/
  | presence
  | gap
deriving Repr, DecidableEq

/-- A text that takes the place of a piece. -/
def atomsOf (whole : Bool) (cs : List Char) : List Atom :=
  if whole then .presence :: cs.map fun c => .char c false
  else cs.map fun c => if c == ' ' || c == '\t' || c == '\n' then .gap else .char c true

/-- The output of a command line without the line feeds at its end. -/
def trimOutput (bytes : Bytes) : List Char :=
  ((Text.decodeChars (bytes.filter (· != 0))).reverse.dropWhile (· == '\n')).reverse

/-- The value of an arithmetic expression, in which a dollar sign in front of a name means nothing. -/
def calculate (source : List Char) : Deed Int := do
  let s ← get
  let number (name : String) : Int := (((s.value? name).map integerArgument).getD (0, true)).1
  match evaluate number (source.filter (· != '$')) with
  | .ok n => return n
  | .error why =>
    complain {} ("arithmetic expression: " ++ why ++ ": \"" ++ String.ofList source ++ "\"")
    throw (.exited 2)

/-- The atoms of a word. -/
def atoms (run : List Char → Deed Bytes) : Word → Deed (List Atom)
  | [] => pure []
  | piece :: rest => do
    let first ← match piece with
      | .plain c => pure [.char c true]
      | .quoted cs => pure (atomsOf true cs)
      | .value name fallback whole => do
        let found := (← get).value? name
        let text := match fallback, found with
          | some other, none => other
          | some other, some "" => other
          | _, value => value.getD ""
        pure (atomsOf whole text.toList)
      | .output source whole => do
        pure (atomsOf whole (trimOutput (← run source)))
      | .number source => do
        pure (atomsOf true (Number.intText (← calculate source)).toList)
    return first ++ (← atoms run rest)

/-- The fields that atoms make, where `field` has been read, in reverse. -/
def fieldsFrom (field : Option (List (Char × Bool))) : List Atom → List (List (Char × Bool))
  | [] => (field.map List.reverse).toList
  | .gap :: rest => (field.map List.reverse).toList ++ fieldsFrom none rest
  | .presence :: rest => fieldsFrom (some (field.getD [])) rest
  | .char c matching :: rest => fieldsFrom (some ((c, matching) :: field.getD [])) rest

/-- Everything that characters can end with. -/
def endings : List Char → List (List Char)
  | [] => [[]]
  | c :: rest => (c :: rest) :: endings rest

/-- A name matches a pattern of characters. -/
def matchesName : List (Char × Bool) → List Char → Bool
  | [], name => name.isEmpty
  | ('*', true) :: rest, name => (endings name).any (matchesName rest)
  | ('?', true) :: rest, name => match name with
    | [] => false
    | _ :: name => matchesName rest name
  | (c, _) :: rest, name => match name with
    | [] => false
    | d :: name => c == d && matchesName rest name

/-- What a field stands for. -/
def namesFor (s : Session) (field : List (Char × Bool)) : List String :=
  let text := String.ofList (field.map (·.1))
  if field.any (fun c => c.2 && (c.1 == '*' || c.1 == '?')) && !field.any (·.1 == '/') then
    let names := (s.files.children s.directory).filterMap fun l => l.getLast?
    let hits := names.filter fun name =>
      name.toList.head? != some '.' && matchesName field name.toList
    if hits.isEmpty then [text] else hits.mergeSort fun a b => decide (a ≤ b)
  else [text]

/-- A word in which a tilde in front of everything, or of a slash, is the home directory. -/
def withHome : Word → Word
  | [.plain '~'] => [.value "HOME" none true]
  | .plain '~' :: .plain '/' :: rest => .value "HOME" none true :: .plain '/' :: rest
  | w => w

/-- The fields of words. -/
def expand (run : List Char → Deed Bytes) (words : List Word) : Deed (List String) := do
  let expanded ← words.mapM fun w => atoms run (withHome w)
  let s ← get
  return (expanded.flatMap (fieldsFrom none)).flatMap (namesFor s)

/-- The text of a word that is not cut into fields. -/
def expandWhole (run : List Char → Deed Bytes) (w : Word) : Deed String := do
  return String.ofList ((← atoms run w).filterMap fun
    | .char c _ => some c
    | .gap => some ' '
    | .presence => none)

example : matchesName [('*', true), ('.', true), ('m', true)] "a.m".toList = true := by decide +kernel

end Runbook.Shell
