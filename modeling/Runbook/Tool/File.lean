import Runbook.Files.Change
import Runbook.Files.Listing
import Runbook.Text.Bytes
import Runbook.Tool.Basic

/-! # File tools

Reading, writing and listing files of the workspace.
-/

namespace Runbook.Tool

/-- The content of the file that a path names. -/
def read (place : Workplace) (path : Value) : Except Fault Outcome := do
  let l ← place.files.resolveWithin place.root path
  match place.files.read? l with
  | .error obstacle => .error (Files.fault l obstacle)
  | .ok none => return .failure ("File not found: " ++ path.toText)
  | .ok (some bytes) =>
    let content := Text.readFile bytes
    return .succeeded [(.text "path", path), (.text "content", .text content),
      (.text "lines", .int (Text.countLines content.toList))]

/-- The tool that reads a file. -/
def readFile : Tool where
  kind := "ReadFileTask"
  displayName := "Read File"
  description := "Read the contents of a file"
  execute place parameters := .on place do
    let path := (← parametersOf parameters).getD "path"
    if !path.truthy then return .failure "Missing required parameter: path"
    read place path

/-- The files with a text at a location and the directories that it is in, or what stands in the way.
What was made of the directories stays. -/
def store (files : Files) (l : Location) (text : String) : Files × Except Fault Unit :=
  match files.ensureDirectory l.parent with
  | (files, .error cause) => (files, .error cause)
  | (files, .ok _) =>
    match files.write l (Text.encode text) with
    | .ok files => (files, .ok ())
    | .error obstacle => (files, .error (Files.fault l obstacle))

/-- Write a text to the file that a path names. -/
def write (place : Workplace) (path : Value) (content : Value) : Work :=
  match place.files.resolveWithin place.root path with
  | .error cause => .on place (.error cause)
  | .ok l =>
    let text := content.toText
    let (files, outcome) := store place.files l text
    { files
      outcome := outcome.map fun _ =>
        .succeeded [(.text "path", path), (.text "bytes_written", .int text.length)] }

/-- The tool that writes a file. -/
def writeFile : Tool where
  kind := "WriteToFileTask"
  displayName := "Write File"
  description := "Write content to a file, creating directories as needed"
  execute place parameters :=
    match parametersOf parameters with
    | .error cause => .on place (.error cause)
    | .ok entries =>
      let path := entries.getD "path"
      let content := entries.getD "content"
      if !path.truthy || content matches .null then
        .on place (.ok (.failure "Missing required parameters: path, content"))
      else write place path content

/-- The paths in the directory that a path names. -/
def list (place : Workplace) (path : Value) (recursive : Bool) : Except Fault Outcome := do
  let l ← place.files.resolveWithin place.root path
  match place.files.isDirectory l with
  | .error obstacle => .error (Files.fault l obstacle)
  | .ok false => return .failure ("Directory not found: " ++ path.toText)
  | .ok true =>
    let (paths, truncated) := place.files.listing place.root l recursive
    return .succeeded [(.text "path", path), (.text "files", .list (paths.map Value.text)),
      (.text "count", .int paths.length), (.text "truncated", .bool truncated)]

/-- The tool that lists a directory. -/
def listFiles : Tool where
  kind := "ListFilesTask"
  displayName := "List Files"
  description := "List files in a directory"
  execute place parameters := .on place do
    let entries ← parametersOf parameters
    list place ((entries.getD "path").orElse (.text ".")) (entries.getD "recursive").truthy

end Runbook.Tool
