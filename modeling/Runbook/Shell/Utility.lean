import Runbook.Shell.Filter

/-! # Utilities

The commands that a shell knows itself or finds among the programs of the system.
-/

namespace Runbook.Shell

/-- A status that an argument names. -/
def statusArgument? (text : String) : Option Nat :=
  if text.toList.isEmpty || text.toList.any (!Char.isDigit ·) then none
  else some (Number.ofDigits (text.toList.map fun c => c.toNat - '0'.toNat) % 256)

/-- End the shell with a status. -/
def exit (streams : Streams) : List String → Deed Nat
  | [] => do throw (.exited (← get).status)
  | argument :: _ =>
    match statusArgument? argument with
    | some n => throw (.exited n)
    | none => do
      complain streams ("exit: Illegal number: " ++ argument)
      throw (.exited 2)

/-- Go to another directory. -/
def changeDirectory (streams : Streams) (arguments : List String) : Deed Nat := do
  let s ← get
  let path := arguments.head?.getD ((s.value? "HOME").getD "/")
  match s.files.walk Files.linkLimit (if Location.isAbsolute path then [] else s.directory)
      (Location.namesOf path) with
  | .ok l =>
    if s.files.node? l == some .directory then
      set { s with directory := Location.ofPath s.directory path }
      return 0
    else
      complain streams ("cd: can't cd to " ++ path)
      return 2
  | .error _ =>
    complain streams ("cd: can't cd to " ++ path)
    return 2

/-- The names of signals and their numbers. -/
def signals : List (String × Nat) :=
  [("HUP", 1), ("INT", 2), ("QUIT", 3), ("ILL", 4), ("TRAP", 5), ("ABRT", 6), ("BUS", 7),
    ("FPE", 8), ("KILL", 9), ("USR1", 10), ("SEGV", 11), ("USR2", 12), ("PIPE", 13), ("ALRM", 14),
    ("TERM", 15), ("CHLD", 17), ("CONT", 18), ("URG", 23), ("XCPU", 24), ("XFSZ", 25),
    ("WINCH", 28), ("SYS", 31)]

/-- The signal that a text names. -/
def signal? (text : String) : Option Nat :=
  match statusArgument? text with
  | some n => some n
  | none => (signals.find? (·.1 == text.toUpper)).map (·.2)

/-- Signals that a process does not end by. -/
def harmless : List Nat := [0, 17, 18, 23, 28]

/-- Send a signal to the shell itself. -/
def signalSelf (streams : Streams) (signal : Option Nat) (process : String) : Deed Nat := do
  match signal with
  | none =>
    complain streams "kill: Illegal option"
    return 2
  | some n =>
    if process != ownProcess then
      complain streams "kill: No such process"
      return 1
    else if harmless.contains n then return 0
    else throw (.killed n)

/-- Send a signal. -/
def kill (streams : Streams) : List String → Deed Nat
  | ["-s", signal, process] => signalSelf streams (signal? signal) process
  | [option, process] => signalSelf streams (signal? (String.ofList (option.toList.drop 1))) process
  | [process] => signalSelf streams (some 15) process
  | _ => do
    complain streams "kill: usage: kill [-s sigspec | -signum | -sigspec] [pid | job]..."
    return 2

/-- The seconds that an interval of sleep is. -/
def interval? (text : String) : Option Float :=
  let cs := text.toList
  let (digits, scale) := match cs.getLast? with
    | some 's' => (cs.dropLast, 1.0)
    | some 'm' => (cs.dropLast, 60.0)
    | some 'h' => (cs.dropLast, 3600.0)
    | some 'd' => (cs.dropLast, 86400.0)
    | _ => (cs, 1.0)
  (Number.readFloat? (String.ofList digits)).bind fun x => if x < 0.0 then none else some (x * scale)

/-- Sleep for the sum of some intervals. -/
def sleep (streams : Streams) (arguments : List String) : Deed Nat := do
  if arguments.isEmpty then
    say streams.errors "sleep: missing operand\nTry 'sleep --help' for more information."
    return 1
  match arguments.find? fun a => (interval? a).isNone with
  | some bad =>
    say streams.errors ("sleep: invalid time interval ‘" ++ bad ++
      "’\nTry 'sleep --help' for more information.")
    return 1
  | none =>
    pass ((arguments.filterMap interval?).foldl (· + ·) 0.0)
    return 0

/-- Copy files, or the input, to the output. -/
def concatenate (streams : Streams) : List String → Deed Nat
  | [] => do
    emit streams.output streams.input
    return 0
  | [path] => one path
  | path :: rest => do
    let first ← one path
    let others ← concatenate streams rest
    return max first others
where
  /-- Copy one file. -/
  one (path : String) : Deed Nat := do
    if path == "-" then
      emit streams.output streams.input
      return 0
    match ← locate path with
    | .error obstacle =>
      say streams.errors ("cat: " ++ path ++ ": " ++ obstacleText obstacle)
      return 1
    | .ok l =>
      match (← get).files.node? l with
      | some (.file bytes) =>
        emit streams.output bytes
        return 0
      | _ =>
        say streams.errors ("cat: " ++ path ++ ": Is a directory")
        return 1

/-- The names in a directory that a listing shows. -/
def shownNames (files : Files) (l : Location) (hidden : Bool) : List String :=
  let names := (files.children l).filterMap fun c => c.getLast?
  (if hidden then "." :: ".." :: names else names.filter fun n => n.toList.head? != some '.').mergeSort
    fun a b => decide (a ≤ b)

/-- List directories and files. -/
def list (streams : Streams) (arguments : List String) : Deed Nat := do
  let options := arguments.filter fun a => a.toList.head? == some '-' && a != "-"
  let hidden := options.any fun o => o.toList.contains 'a'
  let paths := arguments.filter fun a => !options.contains a
  let paths := if paths.isEmpty then ["."] else paths
  let mut status := 0
  let mut files : List String := []
  let mut directories : List (String × Location) := []
  for path in paths do
    match ← locate path with
    | .error obstacle =>
      say streams.errors ("ls: cannot access '" ++ path ++ "': " ++ obstacleText obstacle)
      status := 2
    | .ok l =>
      if (← get).files.node? l == some .directory then directories := directories ++ [(path, l)]
      else files := files ++ [path]
  for path in files do
    say streams.output path
  let mut blank := !files.isEmpty
  for (path, l) in directories do
    if blank then say streams.output ""
    blank := true
    if 1 < paths.length then say streams.output (path ++ ":")
    for name in shownNames (← get).files l hidden do
      say streams.output name
  return status

/-- Make directories, with those that they are in if that is asked for. -/
def makeDirectories (streams : Streams) (arguments : List String) : Deed Nat := do
  let all := arguments.contains "-p"
  let mut status := 0
  for path in arguments.filter (· != "-p") do
    let s ← get
    let l := Location.ofPath s.directory path
    if all then
      let (files, outcome) := s.files.ensureDirectory l
      set { s with files }
      if outcome matches .error _ then
        say streams.errors ("mkdir: cannot create directory ‘" ++ path ++ "’: Not a directory")
        status := 1
    else
      match s.files.makeDirectory l with
      | .ok files => set { s with files }
      | .error obstacle =>
        say streams.errors ("mkdir: cannot create directory ‘" ++ path ++ "’: " ++
          obstacleText obstacle)
        status := 1
  return status

/-- Make empty files where there are none. -/
def touch (streams : Streams) (arguments : List String) : Deed Nat := do
  let mut status := 0
  for path in arguments do
    match ← locate path with
    | .ok _ => pure ()
    | .error _ =>
      match ← destination path with
      | .ok l => modify fun s => { s with files := s.files.put l (.file []) }
      | .error obstacle =>
        say streams.errors ("touch: cannot touch '" ++ path ++ "': " ++ obstacleText obstacle)
        status := 1
  return status

/-- Remove files, and directories if that is asked for. -/
def removeAll (streams : Streams) (arguments : List String) : Deed Nat := do
  let options := arguments.filter fun a => a.toList.head? == some '-'
  let deep := options.any fun o => o.toList.contains 'r'
  let force := options.any fun o => o.toList.contains 'f'
  let mut status := 0
  for path in arguments.filter fun a => !options.contains a do
    let s ← get
    let l := Location.ofPath s.directory path
    match s.files.node? l with
    | none =>
      if !force then
        say streams.errors ("rm: cannot remove '" ++ path ++ "': No such file or directory")
        status := 1
    | some .directory =>
      if deep then set { s with files := s.files.remove l }
      else
        say streams.errors ("rm: cannot remove '" ++ path ++ "': Is a directory")
        status := 1
    | some _ => set { s with files := s.files.remove l }
  return status

/-- Remove empty directories. -/
def removeDirectories (streams : Streams) (arguments : List String) : Deed Nat := do
  let mut status := 0
  for path in arguments do
    let s ← get
    let l := Location.ofPath s.directory path
    let why? : Option String := match s.files.node? l with
      | some .directory => if (s.files.children l).isEmpty then none else some "Directory not empty"
      | some _ => some (obstacleText .notDirectory)
      | none => some (obstacleText .missing)
    match why? with
    | none => set { s with files := s.files.remove l }
    | some why =>
      say streams.errors ("rmdir: failed to remove '" ++ path ++ "': " ++ why)
      status := 1
  return status

/-- Where a file goes that is copied or moved to a path: into it, if it is a directory. -/
def goal (source path : String) : Deed (Except Files.Obstacle Location) := do
  match ← locate path with
  | .ok l =>
    if (← get).files.node? l == some .directory then
      return .ok (l ++ ((Location.namesOf source).getLast?).toList)
    else return .ok l
  | .error _ => destination path

/-- Copy a file, and remove it where it was if it is moved. -/
def transfer (streams : Streams) (program : String) (moved : Bool) : List String → Deed Nat
  | [source, path] => do
    match ← locate source with
    | .error obstacle =>
      say streams.errors (program ++ ": cannot stat '" ++ source ++ "': " ++
        obstacleText obstacle)
      return 1
    | .ok l =>
      match (← get).files.node? l, ← goal source path with
      | some (.file bytes), .ok target =>
        modify fun s =>
          let files := if moved && l != target then s.files.remove l else s.files
          { s with files := files.put target (.file bytes) }
        return 0
      | some (.file _), .error obstacle =>
        say streams.errors (program ++ ": cannot create regular file '" ++ path ++ "': " ++
          obstacleText obstacle)
        return 1
      | _, _ =>
        say streams.errors (program ++ ": -r not specified; omitting directory '" ++ source ++ "'")
        return 1
  | [source] => do
    say streams.errors (program ++ ": missing destination file operand after '" ++ source ++
      "'\nTry '" ++ program ++ " --help' for more information.")
    return 1
  | _ => do
    say streams.errors (program ++ ": missing file operand\nTry '" ++ program ++
      " --help' for more information.")
    return 1

/-- A node at a path is of a kind. -/
def pathIs (kind : Option Node → Bool) (path : String) : Deed Bool := do
  match ← locate path with
  | .ok l => return kind ((← get).files.node? l)
  | .error _ => return false

/-- A test holds. -/
def test : List String → Deed Bool
  | [] => pure false
  | [text] => pure (text != "")
  | "!" :: rest => do return !(← test rest)
  | ["-n", text] => pure (text != "")
  | ["-z", text] => pure (text == "")
  | ["-e", path] => pathIs Option.isSome path
  | ["-f", path] => pathIs (fun
    | some (.file _) => true
    | _ => false) path
  | ["-d", path] => pathIs (· == some .directory) path
  | ["-s", path] => pathIs (fun
    | some (.file bytes) => !bytes.isEmpty
    | some .directory => true
    | _ => false) path
  | [a, "=", b] => pure (a == b)
  | [a, "!=", b] => pure (a != b)
  | [a, operator, b] =>
    let m := (integerArgument a).1
    let n := (integerArgument b).1
    pure (match operator with
      | "-eq" => m == n
      | "-ne" => m != n
      | "-lt" => decide (m < n)
      | "-le" => decide (m ≤ n)
      | "-gt" => decide (n < m)
      | "-ge" => decide (n ≤ m)
      | _ => false)
  | _ => pure false

/-- The status of a truth. -/
def statusOf (b : Bool) : Nat := if b then 0 else 1

/-- Set variables for the commands to come. -/
def assignAll : List String → Deed Nat
  | [] => pure 0
  | argument :: rest => do
    let name := argument.toList.takeWhile (· != '=')
    if name.length < argument.toList.length then
      modify (·.assign (String.ofList name) (String.ofList (argument.toList.drop (name.length + 1))))
    assignAll rest

/-- The numbers from one to another as lines. -/
def sequence (streams : Streams) (arguments : List String) : Deed Nat := do
  let numbers := arguments.map fun a => (integerArgument a).1
  let (first, last) := match numbers with
    | [last] => (1, last)
    | first :: rest => (first, rest.getLast?.getD first)
    | [] => (1, 0)
  for i in List.range (last - first + 1).toNat do
    say streams.output (Number.intText (first + i))
  return 0

/-- A command that the shell knows itself. -/
def builtIn? (streams : Streams) (name : String) (arguments : List String) : Option (Deed Nat) :=
  match name with
  | ":" | "true" => some (pure 0)
  | "false" => some (pure 1)
  | "echo" => some do
    emit streams.output (echoed arguments)
    return 0
  | "printf" => some do
    match arguments with
    | [] =>
      complain streams "printf: usage: printf format [arg ...]"
      return 2
    | format :: arguments =>
      let (bytes, complaints) := printed format arguments
      emit streams.output bytes
      for complaint in complaints do
        complain streams ("printf: " ++ complaint)
      return statusOf complaints.isEmpty
  | "exit" | "return" => some (exit streams arguments)
  | "cd" => some (changeDirectory streams arguments)
  | "pwd" => some do
    say streams.output (← get).directory.text
    return 0
  | "kill" => some (kill streams arguments)
  | "test" => some do return statusOf (← test arguments)
  | "[" => some do
    if arguments.getLast? == some "]" then return statusOf (← test arguments.dropLast)
    else
      complain streams "[: missing ]"
      return 2
  | "wait" => some (pure 0)
  | "export" => some (assignAll arguments)
  | "unset" => some do
    modify fun s => { s with environment := s.environment.filter fun v => !arguments.contains v.1 }
    return 0
  | _ => none

/-- A program of the system. -/
def program? (streams : Streams) (name : String) (arguments : List String) : Option (Deed Nat) :=
  match name with
  | "sleep" => some (sleep streams arguments)
  | "cat" => some (concatenate streams arguments)
  | "ls" => some (list streams arguments)
  | "mkdir" => some (makeDirectories streams arguments)
  | "touch" => some (touch streams arguments)
  | "rm" => some (removeAll streams arguments)
  | "rmdir" => some (removeDirectories streams arguments)
  | "cp" => some (transfer streams "cp" false arguments)
  | "mv" => some (transfer streams "mv" true arguments)
  | "head" => some (excerpt streams "head" Portion.beginning arguments)
  | "tail" => some (excerpt streams "tail" Portion.ending arguments)
  | "wc" => some (count streams arguments)
  | "seq" => some (sequence streams arguments)
  | _ => none

end Runbook.Shell
