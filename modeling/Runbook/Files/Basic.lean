import Runbook.Fault
import Runbook.Text.Bytes
import Runbook.Text.Search

/-! # Files

A location says where a file or directory is: the names from the root down. A path as it is written is absolute or
starts at some directory; single dots and empty names in it say nothing.

There are files, directories and links at locations. `Files.walk` follows a path as the system does that
holds the files: every name on the way has to be there, links lead elsewhere, and the way ends after
too many of them.
-/

namespace Runbook

/-! ## Locations -/

/-- The names from the root to a file or directory. -/
abbrev Location := List String

namespace Location

/-- The path of a location. -/
def text (l : Location) : String := "/" ++ "/".intercalate l

/-- The directory that a location is in; the root is in itself. -/
def parent (l : Location) : Location := l.dropLast

/-- The first location is the second or beneath it. -/
def within (l root : Location) : Bool := root.isPrefixOf l

/-- The path of a location beneath another, from there. -/
def relativeTo (root l : Location) : String := "/".intercalate (l.drop root.length)

/-- The names in a path, two dots among them. -/
def namesOf (path : String) : List String :=
  (Text.split '/' path).filter fun name => name != "" && name != "."

/-- A path that starts at the root. -/
def isAbsolute (path : String) : Bool := path.toList.head? == some '/'

/-- Names that follow a location, where two dots lead to the directory before. -/
def follow : Location → List String → Location
  | l, [] => l
  | l, ".." :: rest => follow l.parent rest
  | l, name :: rest => follow (l ++ [name]) rest

/-- The order of locations: name by name, a directory before what is beneath it. -/
def precedes : Location → Location → Bool
  | [], _ => true
  | _ :: _, [] => false
  | a :: rest, b :: others => if a == b then precedes rest others else decide (a < b)

/-- The location that a path names when links are left out of account. -/
def ofPath (start : Location) (path : String) : Location :=
  follow (if isAbsolute path then [] else start) (namesOf path)

example : (ofPath ["w"] "a//./b/../c/").text = "/w/a/c" ∧ (ofPath ["w"] "/x").text = "/x" := by
  decide +kernel

end Location

/-! ## What is there -/

/-- What is at a location. -/
inductive Node where
  | directory
  | file (bytes : Bytes)
  | link (target : String)
deriving DecidableEq, Repr

/-- Everything that is stored, by location. The root is a directory and is not listed. -/
structure Files where
  nodes : List (Location × Node) := []
deriving Repr

/-- Why the system refuses to go to a location or to change it. -/
inductive Files.Obstacle where
  | missing
  /-- Something is there already. -/
  | exists
  | notDirectory
  | isDirectory
  | nameTooLong
  | tooManyLinks
deriving DecidableEq, Repr

namespace Files

/-- What is at a location. -/
def node? (fs : Files) (l : Location) : Option Node :=
  if l.isEmpty then some .directory else (fs.nodes.find? (·.1 == l)).map (·.2)

/-- The files with something at a location, in place of what was there. -/
def put (fs : Files) (l : Location) (node : Node) : Files :=
  if fs.nodes.any (·.1 == l) then
    { nodes := fs.nodes.map fun e => if e.1 == l then (l, node) else e }
  else { nodes := fs.nodes ++ [(l, node)] }

/-- The files without what is at a location and beneath it. -/
def remove (fs : Files) (l : Location) : Files :=
  { nodes := fs.nodes.filter fun e => !e.1.within l }

/-- The locations in a directory. -/
def children (fs : Files) (l : Location) : List Location :=
  (fs.nodes.map (·.1)).filter fun c => c.parent == l && !c.isEmpty

/-- The locations beneath a directory. -/
def descendants (fs : Files) (l : Location) : List Location :=
  (fs.nodes.map (·.1)).filter fun c => c.within l && c != l

/-- The most bytes of a name. -/
def nameLimit : Nat := 255

/-- The most links on the way to a location. -/
def linkLimit : Nat := 40

/-- The location that names lead to from another one, with no more than a number of links on the way.
A link at the end is followed as well. -/
def walk (fs : Files) (links : Nat) (l : Location) (names : List String) :
    Except Obstacle Location :=
  match names with
  | [] => .ok l
  | name :: rest =>
    if fs.node? l != some .directory then .error .notDirectory
    else if name == ".." then walk fs links l.parent rest
    else if nameLimit < (Text.encode name).length then .error .nameTooLong
    else
      match fs.node? (l ++ [name]) with
      | none => .error .missing
      | some (.link target) =>
        match links with
        | 0 => .error .tooManyLinks
        | links + 1 =>
          walk fs links (if Location.isAbsolute target then [] else l)
            (Location.namesOf target ++ rest)
      | some _ => walk fs links (l ++ [name]) rest
termination_by (links, names.length)
decreasing_by
  · exact Prod.Lex.right _ (Nat.lt_succ_self _)
  · exact Prod.Lex.left _ _ (Nat.lt_succ_self _)
  · exact Prod.Lex.right _ (Nat.lt_succ_self _)

/-- The location that one leads to when links on the way are followed. -/
def locate (fs : Files) (l : Location) : Except Obstacle Location := fs.walk linkLimit [] l

/-- What is at a location when links are followed; nothing if there is no way there. -/
def status (fs : Files) (l : Location) : Except Obstacle (Option Node) :=
  match fs.locate l with
  | .ok l => .ok (fs.node? l)
  | .error .nameTooLong => .error .nameTooLong
  | .error _ => .ok none

/-- A directory is at a location. -/
def isDirectory (fs : Files) (l : Location) : Except Obstacle Bool :=
  (fs.status l).map fun node => node == some .directory

/-- The fault that an obstacle at a location is. -/
def fault (l : Location) : Obstacle → Fault
  | .missing => .pathMissing l.text
  | .exists => .pathExists l.text
  | .notDirectory => .pathBlocked l.text
  | .isDirectory => .pathIsDirectory l.text
  | .nameTooLong => .pathTooLong l.text
  | .tooManyLinks => .pathLoops l.text

end Files

end Runbook
