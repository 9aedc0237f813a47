import Runbook.Files.Basic

/-! # Changes of files

Directories are made and files written at locations, as far as the system lets them.
-/

namespace Runbook.Files

/-- The directory in which something new can be put at a location, with its name. -/
def place (fs : Files) (l : Location) : Except Obstacle (Location × String) :=
  match l.getLast? with
  | none => .error .exists
  | some name => do
    let directory ← fs.locate l.parent
    if fs.node? directory != some .directory then .error .notDirectory
    else if nameLimit < (Text.encode name).length then .error .nameTooLong
    else .ok (directory, name)

/-- The files with a new directory. -/
def makeDirectory (fs : Files) (l : Location) : Except Obstacle Files := do
  let (directory, name) ← fs.place l
  if (fs.node? (directory ++ [name])).isSome then .error .exists
  else .ok (fs.put (directory ++ [name]) .directory)

/-- An obstacle to making a directory, which is none if a directory is there. -/
def tolerate (fs : Files) (l : Location) (obstacle : Obstacle) : Except Fault Unit :=
  match fs.isDirectory l with
  | .ok true => .ok ()
  | .ok false => .error (fault l obstacle)
  | .error obstacle => .error (fault l obstacle)

/-- The files with a directory at a location and with all that it is in. The names come from the last
one to the first. -/
def ensureNames (fs : Files) : List String → Files × Except Fault Unit
  | [] => (fs, .ok ())
  | name :: above =>
    let l := (name :: above).reverse
    match fs.makeDirectory l with
    | .ok fs => (fs, .ok ())
    | .error .missing =>
      match ensureNames fs above with
      | (fs, .error cause) => (fs, .error cause)
      | (fs, .ok _) =>
        match fs.makeDirectory l with
        | .ok fs => (fs, .ok ())
        | .error obstacle => (fs, fs.tolerate l obstacle)
    | .error obstacle => (fs, fs.tolerate l obstacle)

/-- The files with a directory at a location and with all that it is in. -/
def ensureDirectory (fs : Files) (l : Location) : Files × Except Fault Unit :=
  fs.ensureNames l.reverse

/-- The files with something at a location, and with the directories that it is in. Where there can be
no such directories the files stay as they are. -/
def install (fs : Files) (l : Location) (node : Node) : Files :=
  let fs := (fs.ensureDirectory l.parent).1
  match fs.place l with
  | .ok (directory, name) => fs.put (directory ++ [name]) node
  | .error _ => fs

/-- The location of the file that is written at a location. -/
def destination (fs : Files) (l : Location) : Except Obstacle Location :=
  match fs.locate l with
  | .ok l => if fs.node? l == some .directory then .error .isDirectory else .ok l
  | .error .missing => do
    let (directory, name) ← fs.place l
    if (fs.node? (directory ++ [name])).isSome then .error .missing
    else .ok (directory ++ [name])
  | .error obstacle => .error obstacle

/-- The files with a file at a location, in place of what it held. -/
def write (fs : Files) (l : Location) (bytes : Bytes) : Except Obstacle Files :=
  (fs.destination l).map fun l => fs.put l (.file bytes)

/-- The bytes of the file at a location. -/
def read? (fs : Files) (l : Location) : Except Obstacle (Option Bytes) :=
  (fs.status l).map fun
    | some (.file bytes) => some bytes
    | _ => none

end Runbook.Files
