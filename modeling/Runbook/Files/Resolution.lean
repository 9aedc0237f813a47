import Runbook.Files.Basic

/-! # Resolution of paths

The location that a path names once its links are followed. Unlike the way of the system, resolution
goes on where nothing is stored, since a file may yet be written there. A way that comes back to a
link it has not done with yet cannot be resolved; what is left of it is then taken as written.
-/

namespace Runbook.Files

/-- Where a resolution has come to. -/
structure Way where
  location : Location
  /-- What is left of a way that comes back to itself. -/
  rest : List String := []
  loops : Bool := false
deriving Repr

/-- Follow names from a location without links. The links that are being followed are `pending`. -/
def settle (fs : Files) (fuel : Nat) (pending : List Location) (l : Location)
    (names : List String) : Way :=
  match names with
  | [] => { location := l }
  | name :: rest =>
    if name == ".." then settle fs fuel pending l.parent rest
    else
      let here := l ++ [name]
      match fs.node? here with
      | some (.link target) =>
        match fuel with
        | 0 => { location := here, rest, loops := true }
        | fuel + 1 =>
          if pending.contains here then { location := here, rest, loops := true }
          else
            let way := settle fs fuel (here :: pending)
              (if Location.isAbsolute target then [] else l) (Location.namesOf target)
            if way.loops then { way with rest := way.rest ++ rest }
            else settle fs (fuel + 1) pending way.location rest
      | _ => settle fs fuel pending here rest
termination_by (fuel, names.length)
decreasing_by
  · exact Prod.Lex.right _ (Nat.lt_succ_self _)
  · exact Prod.Lex.left _ _ (Nat.lt_succ_self _)
  · exact Prod.Lex.right _ (Nat.lt_succ_self _)
  · exact Prod.Lex.right _ (Nat.lt_succ_self _)

/-- The location that a path names. -/
def resolve (fs : Files) (start : Location) (path : String) : Except Fault Location :=
  if path.toList.contains '\x00' then .error .nulByte
  else
    let start := if Location.isAbsolute path then [] else start
    let way := fs.settle (fs.nodes.length + 1) [] start (Location.namesOf path)
    let l := Location.follow way.location way.rest
    match fs.locate l with
    | .error .tooManyLinks => .error (.pathLoops l.text)
    | _ => .ok l

/-- The location that a value names as a path in a workspace, which it has to stay in. -/
def resolveWithin (fs : Files) (root : Location) : Value → Except Fault Location
  | .text path => do
    let l ← fs.resolve root path
    if l.within root then .ok l else .error (.outsideWorkspace path)
  | v => .error (.notPath v.kind)

end Runbook.Files
