import Runbook.Shell.Format
import Runbook.Shell.Session

/-! # Filters

Programs that write the beginning or the end of what they read, or count what is in it. They read
files, or their input if no file is named.
-/

namespace Runbook.Shell

/-- The lines of a file, each with the line feed that ends it. -/
def linesOf : Bytes → List Bytes
  | [] => []
  | b :: rest =>
    match b == 10, linesOf rest with
    | true, lines => [b] :: lines
    | false, [] => [[b]]
    | false, line :: lines => (b :: line) :: lines

/-- How much of a file is meant. -/
inductive Portion where
  | lines (count : Nat)
  | bytes (count : Nat)
deriving Repr, DecidableEq

/-- A beginning. -/
def Portion.beginning (bytes : Bytes) : Portion → Bytes
  | lines n => ((linesOf bytes).take n).flatten
  | Portion.bytes n => bytes.take n

/-- An end. -/
def Portion.ending (bytes : Bytes) : Portion → Bytes
  | lines n => let all := linesOf bytes; (all.drop (all.length - n)).flatten
  | Portion.bytes n => bytes.drop (bytes.length - n)

/-- The portion that options ask for, and the other arguments. -/
def portionOf (portion : Portion) : List String → Portion × List String
  | "-n" :: n :: rest => portionOf (.lines (integerArgument n).1.natAbs) rest
  | "-c" :: n :: rest => portionOf (.bytes (integerArgument n).1.natAbs) rest
  | argument :: rest =>
    match argument.toList with
    | '-' :: 'n' :: n => portionOf (.lines (integerArgument (String.ofList n)).1.natAbs) rest
    | '-' :: 'c' :: n => portionOf (.bytes (integerArgument (String.ofList n)).1.natAbs) rest
    | '-' :: d :: n =>
      if d.isDigit then portionOf (.lines (integerArgument (String.ofList (d :: n))).1.natAbs) rest
      else let (portion, others) := portionOf portion rest; (portion, argument :: others)
    | _ => let (portion, others) := portionOf portion rest; (portion, argument :: others)
  | [] => (portion, [])

/-- The bytes of a file that is to be read. -/
def bytesAt (path : String) : Deed (Except String Bytes) := do
  match ← locate path with
  | .error obstacle => return .error (obstacleText obstacle)
  | .ok l =>
    match (← get).files.node? l with
    | some (.file bytes) => return .ok bytes
    | _ => return .error (obstacleText .isDirectory)

/-- Write a portion of files, or of the input. -/
def excerpt (streams : Streams) (program : String) (part : Bytes → Portion → Bytes)
    (arguments : List String) : Deed Nat := do
  let (portion, paths) := portionOf (.lines 10) arguments
  if paths.isEmpty then emit streams.output (part streams.input portion)
  let mut status := 0
  let mut blank := false
  for path in paths do
    match ← bytesAt path with
    | .error why =>
      say streams.errors (program ++ ": cannot open '" ++ path ++ "' for reading: " ++ why)
      status := 1
    | .ok bytes =>
      if 1 < paths.length then
        say streams.output ((if blank then "\n" else "") ++ "==> " ++ path ++ " <==")
      emit streams.output (part bytes portion)
      blank := true
  return status

/-- The number of words. -/
def countWords (bytes : Bytes) : Nat :=
  let isBlank (b : UInt8) : Bool := b == 32 || (9 ≤ b && b ≤ 13)
  (bytes.foldl (fun (n, inside) b =>
    if isBlank b then (n, false) else if inside then (n, true) else (n + 1, true))
    ((0, false) : Nat × Bool)).1

/-- The counts that are asked for: of lines, words, and bytes. -/
def countsOf (options : List Char) (bytes : Bytes) : List Nat :=
  let asked (c : Char) : Bool := options.isEmpty || options.contains c
  (if asked 'l' then [bytes.count 10] else []) ++ (if asked 'w' then [countWords bytes] else []) ++
    if asked 'c' || asked 'm' then [bytes.length] else []

/-- Counts as they are written, right-aligned. -/
def countLine (width : Nat) (counts : List Nat) (path : String) : String :=
  let cells := counts.map fun n =>
    let digits := Number.digitsOf n
    String.ofList (List.replicate (width - digits.length) ' ' ++ digits)
  " ".intercalate (if path.isEmpty then cells else cells ++ [path])

/-- Count lines, words, and bytes. -/
def count (streams : Streams) (arguments : List String) : Deed Nat := do
  let marked (a : String) : Bool := a.toList.head? == some '-' && a != "-"
  let options := (arguments.filter marked).flatMap fun a => a.toList.drop 1
  let paths := arguments.filter (!marked ·)
  if paths.isEmpty then
    let counts := countsOf options streams.input
    say streams.output (countLine (if counts.length == 1 then 1 else 7) counts "")
    return 0
  let mut status := 0
  let mut read : List (String × Bytes) := []
  for path in paths do
    match ← bytesAt path with
    | .error why =>
      say streams.errors ("wc: " ++ path ++ ": " ++ why)
      status := 1
    | .ok bytes => read := read ++ [(path, bytes)]
  let all := (read.map (·.2)).flatten
  let single := paths.length == 1 && (countsOf options []).length == 1
  let width := if single then 1 else (Number.digitsOf all.length).length
  for (path, bytes) in read do
    say streams.output (countLine width (countsOf options bytes) path)
  if 1 < paths.length then
    say streams.output (countLine width (countsOf options all) "total")
  return status

example : linesOf (Text.encode "a\nb") = [[97, 10], [98]] := by decide +kernel

end Runbook.Shell
