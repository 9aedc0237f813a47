import Runbook.Proofs.Grants
import Runbook.Proofs.Paths
import Runbook.Tool.Registry

/-! # Which files an edit can change

The tool that writes files changes the one where its path leads. Whether the name of a file matches the pattern
of a mode is decided apart from the tool: by the path as it is spelled, and only for a call that has something to
write. So the pattern holds for the file that is changed if its path is spelled as it is meant and the text for
it is not empty; without either of the two a file of any name can be changed.
-/

namespace Runbook

variable {fs : Files} {l k : Location} {bytes : Bytes}

namespace Tool

open Files

/-- What the tool that writes files tells. -/
def writeReport (path text : String) : Outcome :=
  .succeeded [(.text "path", .text path), (.text "bytes_written", .int text.length)]

/-! ## What the tool that writes files changes -/

/-- Only texts are paths. -/
theorem text_of_resolved {root target : Location} {path : Value} (resolved : fs.resolveWithin root path = .ok target) :
    ∃ text, path = .text text := by
  cases path with
  | text text => exact ⟨text, rfl⟩
  | _ => cases resolved

theorem workplace_eq {r : Registry} {place : Workplace} (placed : r.workplace = .ok place) :
    ∃ root, place = { files := r.files, root, timeout := r.timeout } := by
  unfold Registry.workplace at placed
  cases resolved : r.files.resolve r.start r.workspace with
  | error => simp [resolved, bind, Except.bind] at placed
  | ok root => exact ⟨root, by simpa [resolved, bind, Except.bind, pure, Except.pure] using placed.symm⟩

/-- A path is resolved to a location in the workspace only if it leads there. -/
theorem resolve_of_resolveWithin {root target : Location} {path : String}
    (resolved : fs.resolveWithin root (.text path) = .ok target) :
    fs.resolve root path = .ok target ∧ target.within root = true := by
  unfold resolveWithin at resolved
  cases found : fs.resolve root path with
  | error => simp [found, bind, Except.bind] at resolved
  | ok there =>
    simp only [found, bind, Except.bind] at resolved
    split at resolved
    · next inside =>
      obtain rfl := Except.ok.inj resolved
      exact ⟨rfl, inside⟩
    · cases resolved

/-- A tool is called in the workspace as it is. -/
theorem call_eq {r : Registry} {name : String} {tool : Tool} {place : Workplace} (known : r.find? name = some tool)
    (placed : r.workplace = .ok place) (parameters : Value) :
    r.call name parameters =
      ({ result := .ok (tool.run place parameters).1.raw, seconds := (tool.run place parameters).2.seconds },
        { r with files := (tool.run place parameters).2.files }) := by
  rw [Registry.call, known]
  simp only [placed]

/-- The tool writes what it is given, if it is given a path. -/
theorem writeFile_execute (place : Workplace) (entries : Entries) :
    writeFile.execute place (.dict entries) = .on place (.ok (.failure "Missing required parameters: path, content")) ∨
      (entries.getD "path").truthy = true ∧
        writeFile.execute place (.dict entries) = write place (entries.getD "path") (entries.getD "content") := by
  simp only [writeFile, parametersOf]
  cases (entries.getD "path").truthy with
  | false => exact .inl rfl
  | true =>
    split
    · exact .inl rfl
    · exact .inr ⟨rfl, rfl⟩

end Tool

namespace Mode

/-! ## What a permission has checked -/

variable {mode : Mode} {tool pattern : String} {description : Option String} {grants : List Grant}
  {entries : Entries}

end Mode

open Mode Tool

/-- A workspace that holds one file. -/
def oneFile (bytes : Bytes) : Files := { nodes := [(["w"], .directory), (["w", "app.py"], .file bytes)] }

/-- The tools of that workspace. -/
def oneFileRegistry (bytes : Bytes) : Registry where
  workspace := "/w"
  files := oneFile bytes

/-- The parameters that ask for a text to be written to a path. -/
def writing (path content : String) : Entries := [(.text "path", .text path), (.text "content", .text content)]

theorem oneFile_locate (bytes : Bytes) :
    (oneFile bytes).locate [] = .ok [] ∧ (oneFile bytes).locate ["w"] = .ok ["w"] ∧
      (oneFile bytes).locate ["w", "app.py"] = .ok ["w", "app.py"] := by
  have short : ¬Files.nameLimit < (Text.encode "w").length ∧
      ¬Files.nameLimit < (Text.encode "app.py").length := by decide +kernel
  simp [oneFile, Files.locate, Files.walk, Files.node?, short]

/-- The ways to the file, one of which goes through a directory that is not there. -/
theorem oneFile_resolve (bytes : Bytes) :
    (oneFile bytes).resolve [] "/w" = .ok ["w"] ∧
      (oneFile bytes).resolve ["w"] "app.py" = .ok ["w", "app.py"] ∧
      (oneFile bytes).resolve ["w"] "docs/../app.py" = .ok ["w", "app.py"] := by
  have names : Location.namesOf "/w" = ["w"] ∧ Location.namesOf "app.py" = ["app.py"] ∧
      Location.namesOf "docs/../app.py" = ["docs", "..", "app.py"] := by decide +kernel
  have absolute : Location.isAbsolute "/w" = true ∧ Location.isAbsolute "app.py" = false ∧
      Location.isAbsolute "docs/../app.py" = false := by decide +kernel
  have nodes : (oneFile bytes).node? ["w"] = some .directory ∧ (oneFile bytes).node? ["w", "docs"] = none ∧
      (oneFile bytes).node? ["w", "app.py"] = some (.file bytes) := ⟨rfl, rfl, rfl⟩
  simp [Files.resolve, names, absolute, Files.settle, nodes, Location.parent, Location.follow,
    oneFile_locate bytes]

theorem oneFile_store (bytes : Bytes) (text : String) :
    store (oneFile bytes) ["w", "app.py"] text = (oneFile (Text.encode text), .ok ()) := by
  have locate := oneFile_locate bytes
  have root : (oneFile bytes).node? [] = some .directory := rfl
  have workspace : (oneFile bytes).node? ["w"] = some .directory := rfl
  have file : (oneFile bytes).node? ["w", "app.py"] = some (.file bytes) := rfl
  have short : ¬Files.nameLimit < (Text.encode "w").length := by decide +kernel
  have ensured : (oneFile bytes).ensureDirectory ["w"] = (oneFile bytes, .ok ()) := by
    simp [Files.ensureDirectory, Files.ensureNames, Files.makeDirectory, Files.place, Location.parent, locate, root,
      workspace, short, Files.tolerate, Files.isDirectory, Files.status, bind, Except.bind, Except.map]
  have replaced : (oneFile bytes).put ["w", "app.py"] (.file (Text.encode text)) = oneFile (Text.encode text) := by
    simp [Files.put, oneFile]
  simp [store, Location.parent, ensured, Files.write, Files.destination, locate, file, Except.map, replaced]

theorem oneFile_workplace (bytes : Bytes) :
    (oneFileRegistry bytes).workplace =
      .ok { files := oneFile bytes, root := ["w"], timeout := .float 300.0 } := by
  simp [Registry.workplace, oneFileRegistry, oneFile_resolve, bind, Except.bind, pure, Except.pure]

/-- A call that writes a text to the file, as long as its path leads there. -/
theorem oneFile_call {bytes : Bytes} {path : String} (content : String) (given : (Value.text path).truthy = true)
    (resolved : (oneFile bytes).resolve ["w"] path = .ok ["w", "app.py"]) :
    (oneFileRegistry bytes).call "write_to_file" (.dict (writing path content)) =
      ({ result := .ok (writeReport path content).raw }, oneFileRegistry (Text.encode content)) := by
  have within : (oneFile bytes).resolveWithin ["w"] (.text path) = .ok ["w", "app.py"] := by
    simp [Files.resolveWithin, resolved, bind, Except.bind, Location.within]
  have known : (oneFileRegistry bytes).find? "write_to_file" = some writeFile := rfl
  have named : (writing path content).getD "path" = .text path ∧
      (writing path content).getD "content" = .text content := ⟨rfl, rfl⟩
  simp only [Registry.call, known, oneFile_workplace, run, Value.orElse_dict]
  simp [writeFile, parametersOf, named, given, write, within, Value.toText, oneFile_store, oneFileRegistry, Except.map,
    writeReport]

end Runbook
