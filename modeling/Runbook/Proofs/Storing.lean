import Runbook.Proofs.Editing
import Runbook.Proofs.Encoding

/-! # What is written is there to be read

A path leads to the same place after a write as before, whatever links are on its way: directories are made only
where there was nothing, and no link is made or taken away. So the file that was written is the one that is read,
and it holds the bytes of the text. The text that is read has line feeds for all its line ends, though, and the
number of bytes that is told is the number of characters.
-/

namespace Runbook

variable {fs fs' : Files} {l k m : Location} {names first second : List String} {links left : Nat} {path : String}

namespace Files

/-! ## Ways as they are gone -/

/-- Names lead from a location to another one, and some number of links may follow then. -/
inductive Leads (fs : Files) : Nat → Location → List String → Nat → Location → Prop
  | here (links : Nat) (l : Location) : Leads fs links l [] links l
  /-- Two dots lead to the directory before. -/
  | back {links left : Nat} {l k : Location} {rest : List String} (inside : fs.node? l = some .directory)
      (onward : Leads fs links l.parent rest left k) : Leads fs links l (".." :: rest) left k
  /-- A link leads elsewhere. -/
  | follow {links left : Nat} {l k : Location} {name target : String} {rest : List String}
      (inside : fs.node? l = some .directory) (forward : name ≠ "..")
      (short : ¬nameLimit < (Text.encode name).length) (link : fs.node? (l ++ [name]) = some (.link target))
      (onward : Leads fs links (if Location.isAbsolute target then [] else l) (Location.namesOf target ++ rest)
        left k) :
      Leads fs (links + 1) l (name :: rest) left k
  /-- A file or a directory is gone to. -/
  | enter {links left : Nat} {l k : Location} {name : String} {rest : List String} {node : Node}
      (inside : fs.node? l = some .directory) (forward : name ≠ "..")
      (short : ¬nameLimit < (Text.encode name).length) (there : fs.node? (l ++ [name]) = some node)
      (solid : ∀ target, node ≠ .link target) (onward : Leads fs links (l ++ [name]) rest left k) :
      Leads fs links l (name :: rest) left k

theorem leads_of_walk (walked : fs.walk links l names = .ok k) : ∃ left, fs.Leads links l names left k := by
  induction links, l, names using walk.induct fs with
  | case1 links l =>
    rw [walk] at walked
    obtain rfl := Except.ok.inj walked
    exact ⟨links, .here links l⟩
  | case2 links l name rest outside => simp [walk, outside] at walked
  | case3 links l name rest inside back ih =>
    rw [walk, if_neg inside, if_pos back] at walked
    obtain ⟨left, onward⟩ := ih walked
    obtain rfl := eq_of_beq back
    exact ⟨left, .back (by simpa using inside) onward⟩
  | case4 links l name rest inside forward long =>
    rw [walk, if_neg inside, if_neg forward, if_pos long] at walked
    cases walked
  | case5 links l name rest inside forward short missing =>
    rw [walk, if_neg inside, if_neg forward, if_neg short] at walked
    simp [missing] at walked
  | case6 l name rest inside forward short target link =>
    rw [walk, if_neg inside, if_neg forward, if_neg short] at walked
    simp [link] at walked
  | case7 l name rest inside forward short target link links ih =>
    rw [walk, if_neg inside, if_neg forward, if_neg short] at walked
    simp only [link] at walked
    obtain ⟨left, onward⟩ := ih (by simpa using walked)
    exact ⟨left, .follow (by simpa using inside) (by simpa using forward) short link (by simpa using onward)⟩
  | case8 links l name rest inside forward short node solid there ih =>
    rw [walk, if_neg inside, if_neg forward, if_neg short] at walked
    simp only [there] at walked
    obtain ⟨left, onward⟩ := ih walked
    exact ⟨left, .enter (by simpa using inside) (by simpa using forward) short there
      (fun target same => solid target same) onward⟩

theorem Leads.walk (leads : fs.Leads links l names left k) : fs.walk links l names = .ok k := by
  induction leads with
  | here => rw [Files.walk]
  | back inside onward ih => rw [Files.walk, if_neg (by simpa using inside), if_pos (beq_self_eq_true _), ih]
  | follow inside forward short link onward ih =>
    rw [Files.walk, if_neg (by simpa using inside), if_neg (by simpa using forward), if_neg short]
    simp only [link, ih]
  | @enter links left l k name rest node inside forward short there solid onward ih =>
    rw [Files.walk, if_neg (by simpa using inside), if_neg (by simpa using forward), if_neg short]
    cases node with
    | link target => exact absurd rfl (solid target)
    | _ => simp only [there, ih]

/-- A way goes on from where its first part leads. -/
theorem Leads.append {left' : Nat} (leads : fs.Leads links l first left m) (onward : fs.Leads left m second left' k) :
    fs.Leads links l (first ++ second) left' k := by
  induction leads with
  | here => exact onward
  | back inside _ ih => exact .back inside (ih onward)
  | follow inside forward short link _ ih =>
    have further := ih onward
    rw [List.append_assoc] at further
    exact .follow inside forward short link further
  | enter inside forward short there solid _ ih => exact .enter inside forward short there solid (ih onward)

/-- The first part of a way leads somewhere, and the second part goes on from there. -/
theorem Leads.split (leads : fs.Leads links l (first ++ second) left k) :
    ∃ between m, fs.Leads links l first between m ∧ fs.Leads between m second left k := by
  generalize whole : first ++ second = names at leads
  induction leads generalizing first with
  | here links l =>
    obtain ⟨rfl, rfl⟩ := List.append_eq_nil_iff.mp whole
    exact ⟨links, l, .here links l, .here links l⟩
  | @back links left l k rest inside onward ih =>
    rcases List.append_eq_cons_iff.mp whole with ⟨rfl, rfl⟩ | ⟨first, rfl, rfl⟩
    · exact ⟨links, l, .here links l, .back inside onward⟩
    · obtain ⟨between, m, leads, others⟩ := ih rfl
      exact ⟨between, m, .back inside leads, others⟩
  | @follow links left l k name target rest inside forward short link onward ih =>
    rcases List.append_eq_cons_iff.mp whole with ⟨rfl, rfl⟩ | ⟨first, rfl, rfl⟩
    · exact ⟨links + 1, l, .here _ l, .follow inside forward short link onward⟩
    · obtain ⟨between, m, leads, others⟩ := ih (List.append_assoc ..)
      exact ⟨between, m, .follow inside forward short link leads, others⟩
  | @enter links left l k name rest node inside forward short there solid onward ih =>
    rcases List.append_eq_cons_iff.mp whole with ⟨rfl, rfl⟩ | ⟨first, rfl, rfl⟩
    · exact ⟨links, l, .here links l, .enter inside forward short there solid onward⟩
    · obtain ⟨between, m, leads, others⟩ := ih rfl
      exact ⟨between, m, .enter inside forward short there solid leads, others⟩

/-- Everything on the way to a location is a directory or a file. -/
def Solid (fs : Files) (l : Location) : Prop :=
  ∀ k, k <+: l → fs.node? k = some .directory ∨ ∃ bytes, fs.node? k = some (.file bytes)

theorem solid_root (fs : Files) : fs.Solid [] := by
  intro k root
  obtain rfl := List.prefix_nil.mp root
  exact .inl rfl

/-- A way that starts at a solid location ends at one. -/
theorem Leads.solid (leads : fs.Leads links l names left k) (solid : fs.Solid l) : fs.Solid k := by
  induction leads with
  | here => exact solid
  | back _ _ ih => exact ih fun k way => solid k (way.trans (List.dropLast_prefix _))
  | @follow links left l k name target rest _ _ _ _ _ ih =>
    refine ih ?_
    split
    · exact fs.solid_root
    · exact solid
  | @enter links left l k name rest node _ _ _ there other _ ih =>
    refine ih fun k way => ?_
    rcases List.prefix_concat_iff.mp way with rfl | before
    · cases node with
      | directory => exact .inl there
      | file bytes => exact .inr ⟨bytes, there⟩
      | link target => exact absurd rfl (other target)
    · exact solid k before

/-! ## Files that have grown -/

/-- Directories and files are still there, if with other bytes, and no link is new or gone. -/
structure Grown (fs fs' : Files) : Prop where
  directory : ∀ {l}, fs.node? l = some .directory → fs'.node? l = some .directory
  file : ∀ {l bytes}, fs.node? l = some (.file bytes) → ∃ bytes', fs'.node? l = some (.file bytes')
  link : ∀ {l target}, fs'.node? l = some (.link target) ↔ fs.node? l = some (.link target)

theorem grown_refl (fs : Files) : fs.Grown fs := ⟨id, fun file => ⟨_, file⟩, Iff.rfl⟩

theorem Grown.trans {fs'' : Files} (first : fs.Grown fs') (second : fs'.Grown fs'') : fs.Grown fs'' where
  directory := second.directory ∘ first.directory
  file there := by
    obtain ⟨bytes, there⟩ := first.file there
    exact second.file there
  link := second.link.trans first.link

theorem grown_makeDirectory (made : fs.makeDirectory l = .ok fs') : fs.Grown fs' := by
  obtain ⟨k, free, nodes⟩ := makeDirectory_spec made
  have elsewhere {p : Location} {node : Node} (there : fs.node? p = some node) : fs'.node? p = some node := by
    rw [nodes, if_neg, there]
    rintro rfl
    cases free.symm.trans there
  refine ⟨elsewhere, fun there => ⟨_, elsewhere there⟩, fun {p target} => ⟨fun there => ?_, elsewhere⟩⟩
  rw [nodes] at there
  split at there
  · cases there
  · exact there

theorem grown_ensureNames (fs : Files) (names : List String) : fs.Grown (fs.ensureNames names).1 :=
  ensureNames_induction grown_refl .trans grown_makeDirectory fs names

/-- A way leads to the same place when the files have grown. -/
theorem Grown.leads (grown : fs.Grown fs') (leads : fs.Leads links l names left k) :
    fs'.Leads links l names left k := by
  induction leads with
  | here links l => exact .here links l
  | back inside _ ih => exact .back (grown.directory inside) ih
  | follow inside forward short link _ ih =>
    exact .follow (grown.directory inside) forward short (grown.link.mpr link) ih
  | @enter links left l k name rest node inside forward short there solid _ ih =>
    cases node with
    | directory => exact .enter (grown.directory inside) forward short (grown.directory there) nofun ih
    | file bytes =>
      obtain ⟨bytes', there'⟩ := grown.file there
      exact .enter (grown.directory inside) forward short there' nofun ih
    | link target => exact absurd rfl (solid target)

/-! ## Paths in files that have grown -/

/-- The links that are not being followed are so few that all of them can be. -/
def Ample (fs : Files) (fuel : Nat) (pending : List Location) : Prop :=
  ∃ ls : List Location, ls.length ≤ fuel ∧ ∀ l target, fs.node? l = some (.link target) → l ∉ pending → l ∈ ls

/-- At the start there are no more links than locations. -/
theorem ample_start (fs : Files) : fs.Ample (fs.nodes.length + 1) [] := by
  refine ⟨fs.nodes.map (·.1), by simp, fun l target link _ => ?_⟩
  unfold node? at link
  split at link
  · cases link
  · obtain ⟨e, found, -⟩ := Option.map_eq_some_iff.mp link
    have same : (e.1 == l) = true := List.find?_some (p := fun e : Location × Node => e.1 == l) found
    exact List.mem_map.mpr ⟨e, List.mem_of_find?_eq_some found, eq_of_beq same⟩

variable {fuel : Nat} {pending : List Location} {target : String}

theorem Ample.exists_succ (ample : fs.Ample fuel pending) (link : fs.node? l = some (.link target))
    (free : l ∉ pending) : ∃ less, fuel = less + 1 := by
  obtain ⟨ls, few, all⟩ := ample
  have some := List.length_pos_of_mem (all l target link free)
  exact ⟨fuel - 1, by omega⟩

/-- One link that is followed takes one away from those that can be. -/
theorem Ample.follow (ample : fs.Ample (fuel + 1) pending) (link : fs.node? l = some (.link target))
    (free : l ∉ pending) : fs.Ample fuel (l :: pending) := by
  obtain ⟨ls, few, all⟩ := ample
  refine ⟨ls.erase l, ?_, fun k target there other => ?_⟩
  · rw [List.length_erase_of_mem (all l target link free)]
    omega
  · rw [List.mem_cons, not_or] at other
    exact (List.mem_erase_of_ne other.1).mpr (all k target there other.2)

theorem settle_back (rest : List String) :
    fs.settle fuel pending l (".." :: rest) = fs.settle fuel pending l.parent rest := by
  rw [settle, if_pos (beq_self_eq_true _)]

theorem settle_enter {name : String} (forward : name ≠ "..")
    (other : ∀ target, fs.node? (l ++ [name]) ≠ some (.link target)) (rest : List String) :
    fs.settle fuel pending l (name :: rest) = fs.settle fuel pending (l ++ [name]) rest := by
  rw [settle.eq_def]
  simp only [beq_iff_eq, forward, if_false]

/-- A way that comes back to a link that is being followed ends there. -/
theorem settle_pending {name : String} (forward : name ≠ "..") (link : fs.node? (l ++ [name]) = some (.link target))
    (loops : l ++ [name] ∈ pending) (rest : List String) :
    fs.settle fuel pending l (name :: rest) = { location := l ++ [name], rest, loops := true } := by
  rw [settle.eq_def]
  simp only [beq_iff_eq, forward, if_false, link]
  cases fuel with
  | zero => rfl
  | succ fuel => simp only [List.contains_iff_mem.mpr loops, if_true]

theorem settle_follow {name : String} (forward : name ≠ "..") (link : fs.node? (l ++ [name]) = some (.link target))
    (free : l ++ [name] ∉ pending) (rest : List String) :
    fs.settle (fuel + 1) pending l (name :: rest) =
      let way := fs.settle fuel ((l ++ [name]) :: pending) (if Location.isAbsolute target then [] else l)
        (Location.namesOf target)
      if way.loops then { way with rest := way.rest ++ rest } else fs.settle (fuel + 1) pending way.location rest := by
  rw [settle, if_neg (by simpa using forward)]
  simp only [link, List.contains_iff_mem, free, if_false]

/-- Where names lead depends on the links alone. -/
theorem settle_congr (same : ∀ {l target}, fs'.node? l = some (.link target) ↔ fs.node? l = some (.link target))
    {fuel' : Nat} (ample : fs.Ample fuel pending) (ample' : fs'.Ample fuel' pending) :
    fs'.settle fuel' pending l names = fs.settle fuel pending l names := by
  induction fuel using Nat.strongRecOn generalizing fuel' pending l names with
  | _ fuel followed =>
    induction names generalizing l with
    | nil => rw [settle, settle]
    | cons name rest ih =>
      by_cases back : name = ".."
      · subst back
        rw [settle_back, settle_back, ih]
      by_cases other : ∀ target, fs.node? (l ++ [name]) ≠ some (.link target)
      · rw [settle_enter back other, settle_enter back fun target link => other target (same.mp link), ih]
      obtain ⟨target, link⟩ : ∃ target, fs.node? (l ++ [name]) = some (.link target) := by simpa using other
      by_cases loops : l ++ [name] ∈ pending
      · rw [settle_pending back link loops, settle_pending back (same.mpr link) loops]
      -- the link takes one from the fuel on both sides, and what is left suffices for those that are not pending
      obtain ⟨less, rfl⟩ := ample.exists_succ link loops
      obtain ⟨less', rfl⟩ := ample'.exists_succ (same.mpr link) loops
      rw [settle_follow back link loops, settle_follow back (same.mpr link) loops,
        followed less (Nat.lt_succ_self less) (ample.follow link loops) (ample'.follow (same.mpr link) loops)]
      simp only [ih]

/-- A path is resolved to the same location when the files have grown, as long as something can be found there. -/
theorem Grown.resolve {start : Location} (grown : fs.Grown fs') (resolved : fs.resolve start path = .ok l)
    (reached : fs'.locate l = .ok k) : fs'.resolve start path = .ok l := by
  unfold Files.resolve at resolved ⊢
  split at resolved
  · cases resolved
  · next clean =>
    rw [if_neg clean]
    simp only at resolved ⊢
    rw [settle_congr grown.link fs.ample_start fs'.ample_start]
    split at resolved
    · cases resolved
    · obtain rfl := Except.ok.inj resolved
      rw [reached]

/-! ## What a write leaves -/

/-- A file takes its place where there was nothing or another file. -/
theorem grown_put (bytes : Bytes) (named : l ≠ [])
    (free : fs.node? l = none ∨ ∃ old, fs.node? l = some (.file old)) :
    fs.Grown (fs.put l (.file bytes)) := by
  have nodes := node?_put fs named (.file bytes)
  refine ⟨fun {p} there => ?_, fun {p old} there => ?_, fun {p target} => ?_⟩
  · rw [nodes, if_neg, there]
    rintro rfl
    rcases free with free | ⟨_, free⟩ <;> cases there.symm.trans free
  · rw [nodes]
    split
    · exact ⟨bytes, rfl⟩
    · exact ⟨old, there⟩
  · rw [nodes]
    split
    · next same =>
      subst same
      rcases free with free | ⟨_, free⟩ <;> simp [free]
    · exact Iff.rfl

/-- A write goes to a file that the location leads to, or makes one under the last name of the location. -/
theorem destination_spec (leads : fs.destination l = .ok k) :
    (∃ left bytes, fs.Leads linkLimit [] l left k ∧ fs.node? k = some (.file bytes)) ∨
      ∃ above name directory left, l = above ++ [name] ∧ k = directory ++ [name] ∧ name ≠ ".." ∧
        fs.Leads linkLimit [] above left directory ∧ fs.node? directory = some .directory ∧
        ¬nameLimit < (Text.encode name).length ∧ fs.node? k = none := by
  unfold destination at leads
  split at leads
  · next there located =>
    split at leads
    · cases leads
    · next other =>
      obtain rfl := Except.ok.inj leads
      obtain ⟨left, way⟩ := leads_of_walk located
      obtain ⟨bytes, file⟩ :=
        (way.solid fs.solid_root there List.prefix_rfl).resolve_left (by simpa using other)
      exact .inl ⟨left, bytes, way, file⟩
  · next located =>
    cases placed : fs.place l with
    | error => simp [placed, bind, Except.bind] at leads
    | ok there =>
      obtain ⟨directory, name⟩ := there
      simp only [placed, bind, Except.bind] at leads
      split at leads
      · cases leads
      · next free =>
        obtain rfl := Except.ok.inj leads
        obtain ⟨whole, reached, inside, short⟩ := place_spec placed
        obtain ⟨left, way⟩ := leads_of_walk reached
        -- two dots at the end would lead to a directory that is there
        have forward : name ≠ ".." := by
          rintro rfl
          rw [locate, whole, (way.append (.back inside (.here left _))).walk] at located
          cases located
        exact .inr ⟨_, name, directory, left, whole, rfl, forward, way, inside, short, by simpa using free⟩
  · cases leads

/-- The file that was written is where its location leads, and the way there is as before. -/
theorem write_leads {bytes : Bytes} (written : fs.write l bytes = .ok fs') :
    ∃ k, fs.Grown fs' ∧ fs'.locate l = .ok k ∧ fs'.node? k = some (.file bytes) := by
  unfold write at written
  cases leads : fs.destination l with
  | error => simp [leads, Except.map] at written
  | ok k =>
    rw [leads] at written
    obtain rfl := Except.ok.inj written
    have named := destination_ne_nil leads
    have holds : (fs.put k (.file bytes)).node? k = some (.file bytes) := by rw [node?_put fs named, if_pos rfl]
    rcases destination_spec leads with ⟨left, old, way, file⟩ | ⟨above, name, directory, left, rfl, rfl, forward, way,
      inside, short, free⟩
    · have grown := fs.grown_put bytes named (.inr ⟨old, file⟩)
      exact ⟨k, grown, (grown.leads way).walk, holds⟩
    · have grown := fs.grown_put bytes named (.inl free)
      have last := Leads.enter (grown.directory inside) forward short holds nofun (.here left _)
      exact ⟨_, grown, ((grown.leads way).append last).walk, holds⟩

/-- A file that was written can be read. -/
theorem read?_of_write {bytes : Bytes} (written : fs.write l bytes = .ok fs') : fs'.read? l = .ok (some bytes) := by
  obtain ⟨k, -, located, holds⟩ := write_leads written
  rw [read?, status, located]
  simp only [holds]
  rfl

end Files

namespace Tool

open Files

/-! ## The tools that write and read -/

/-- The raw result of a call has a value under a name. -/
def Registry.Answer.Tells (answer : Registry.Answer) (name : String) (v : Value) : Prop :=
  ∃ raw, answer.result = .ok raw ∧ Entries.getD raw name = v

/-- The call succeeded, as its raw result tells. -/
def Registry.Answer.Succeeds (answer : Registry.Answer) : Prop := answer.Tells "success" (.bool true)

/-- What the tool that reads files tells. -/
def readReport (path : String) (bytes : Bytes) : Outcome :=
  .succeeded [(.text "path", .text path), (.text "content", .text (Text.readFile bytes)),
    (.text "lines", .int (Text.countLines (Text.readFile bytes).toList))]

/-- A failure tells that there was no success. -/
theorem success_failure (error : String) : (Outcome.failure error).raw.getD "success" = .bool false := rfl

/-- A text is stored by a write, when the directories that it is in are there. -/
theorem store_ok {text : String} (stored : store fs l text = (fs', .ok ())) :
    ∃ within, fs.Grown within ∧ within.write l (Text.encode text) = .ok fs' := by
  unfold store at stored
  have grown : fs.Grown (fs.ensureDirectory l.parent).1 := grown_ensureNames fs _
  cases made : fs.ensureDirectory l.parent with
  | mk within outcome =>
    rw [made] at stored grown
    cases outcome with
    | error => cases stored
    | ok _ =>
      simp only at stored
      cases written : within.write l (Text.encode text) with
      | error =>
        rw [written] at stored
        cases stored
      | ok after =>
        rw [written] at stored
        obtain rfl := (Prod.mk.inj stored).1
        exact ⟨within, grown, written⟩

/-- A write that comes to an outcome has stored the text where the path leads. -/
theorem write_done {place : Workplace} {path content : Value} {o : Outcome}
    (done : (write place path content).outcome = .ok o) :
    ∃ text l, path = .text text ∧ place.files.resolveWithin place.root path = .ok l ∧
      store place.files l content.toText = ((write place path content).files, .ok ()) ∧
      o = writeReport text content.toText := by
  unfold write at done ⊢
  cases resolved : place.files.resolveWithin place.root path with
  | error =>
    rw [resolved] at done
    cases done
  | ok l =>
    obtain ⟨text, rfl⟩ := text_of_resolved resolved
    rw [resolved] at done
    rcases stored : store place.files l content.toText with ⟨after, cause | _⟩ <;> simp only [stored] at done ⊢
    · cases done
    · exact ⟨text, l, rfl, rfl, stored, (Except.ok.inj done).symm⟩

/-- A run of a tool that tells of success is one that came to an outcome. -/
theorem run_succeeds {tool : Tool} {place : Workplace} {entries : Entries}
    (success : (tool.run place (.dict entries)).1.raw.getD "success" = .bool true) :
    ∃ o, (tool.execute place (.dict entries)).outcome = .ok o ∧
      tool.run place (.dict entries) = (o, tool.execute place (.dict entries)) := by
  simp only [run, Value.orElse_dict] at success ⊢
  cases done : (tool.execute place (.dict entries)).outcome with
  | ok o => exact ⟨o, rfl, rfl⟩
  | error cause =>
    rw [done, success_failure] at success
    cases success

/-- The tool that writes files writes, if it tells of success. -/
theorem writeFile_writes {place : Workplace} {entries : Entries} {o : Outcome}
    (done : (writeFile.execute place (.dict entries)).outcome = .ok o)
    (success : o.raw.getD "success" = .bool true) : (entries.getD "path").truthy = true ∧
      writeFile.execute place (.dict entries) = write place (entries.getD "path") (entries.getD "content") := by
  refine (writeFile_execute place entries).resolve_left fun refused => ?_
  rw [refused] at done
  obtain rfl := Except.ok.inj done
  rw [success_failure] at success
  cases success

/-- A call of the tool that writes files that succeeded has stored the text where its path leads. -/
theorem writeFile_succeeds {r : Registry} {entries : Entries} (known : r.find? "write_to_file" = some writeFile)
    (succeeds : (r.call "write_to_file" (.dict entries)).1.Succeeds) :
    ∃ path place l after, entries.getD "path" = .text path ∧ (Value.text path).truthy = true ∧
      r.workplace = .ok place ∧ r.files.resolveWithin place.root (.text path) = .ok l ∧
      store r.files l (entries.getD "content").toText = (after, .ok ()) ∧
      (r.call "write_to_file" (.dict entries)).1.result =
        .ok (writeReport path (entries.getD "content").toText).raw ∧
      (r.call "write_to_file" (.dict entries)).2 = { r with files := after } := by
  obtain ⟨raw, told, success⟩ := succeeds
  cases placed : r.workplace with
  | error =>
    rw [Registry.call, known] at told
    simp [placed] at told
  | ok place =>
    obtain ⟨root, rfl⟩ := workplace_eq placed
    rw [call_eq known placed] at told ⊢
    obtain rfl := Except.ok.inj told
    obtain ⟨o, done, ran⟩ := run_succeeds success
    rw [ran] at success ⊢
    obtain ⟨given, writes⟩ := writeFile_writes done success
    rw [writes] at done ⊢
    obtain ⟨path, l, same, resolved, stored, rfl⟩ := write_done done
    rw [same] at given resolved
    exact ⟨path, _, l, _, same, given, rfl, resolved, stored, rfl, rfl⟩

/-- A call of the tool that reads files tells what a file holds that its path leads to. -/
theorem readFile_call {r : Registry} {place : Workplace} {entries : Entries} {bytes : Bytes}
    (known : r.find? "read_file" = some readFile) (placed : r.workplace = .ok place)
    (named : entries.getD "path" = .text path) (given : (Value.text path).truthy = true)
    (resolved : place.files.resolveWithin place.root (.text path) = .ok l)
    (holds : place.files.read? l = .ok (some bytes)) :
    (r.call "read_file" (.dict entries)).1.result = .ok (readReport path bytes).raw := by
  have reads : readFile.run place (.dict entries) =
      (readReport path bytes, .on place (.ok (readReport path bytes))) := by
    simp [run, Value.orElse_dict, readFile, parametersOf, read, named, given, resolved, holds, bind, Except.bind, pure,
      Except.pure, Work.on, readReport]
  rw [call_eq known placed, reads]

/-- The workspace is where it was, and a path in it leads where it led, when the files have grown and something is
there. -/
theorem workplace_grown {r : Registry} {place : Workplace} {after : Files} (placed : r.workplace = .ok place)
    (resolved : r.files.resolveWithin place.root (.text path) = .ok l) (grown : r.files.Grown after)
    (reached : after.locate l = .ok k) :
    ({ r with files := after } : Registry).workplace = .ok { place with files := after } ∧
      after.resolveWithin place.root (.text path) = .ok l := by
  obtain ⟨found, inside⟩ := resolve_of_resolveWithin resolved
  obtain ⟨rest, rfl⟩ := List.isPrefixOf_iff_prefix.mp inside
  -- what is above a location that is reached is reached as well
  obtain ⟨_, way⟩ := leads_of_walk reached
  obtain ⟨_, above, leads, -⟩ := way.split
  refine ⟨?_, ?_⟩
  · unfold Registry.workplace at placed ⊢
    cases workspace : r.files.resolve r.start r.workspace with
    | error => simp [workspace, bind, Except.bind] at placed
    | ok root =>
      simp only [workspace, bind, Except.bind, pure, Except.pure, Except.ok.injEq] at placed
      subst placed
      simp only [grown.resolve workspace leads.walk, bind, Except.bind, pure, Except.pure]
  · simp [resolveWithin, grown.resolve found reached, bind, Except.bind, inside]

/-- When the tool that writes files has succeeded, its path leads to a file that holds the bytes of the text, and the
tool that reads files succeeds with the same path and tells what these bytes stand for. -/
theorem read_after_write (r : Registry) (given asked : Entries) {content : String}
    (writes : r.find? "write_to_file" = some writeFile) (reads : r.find? "read_file" = some readFile)
    (named : asked.getD "path" = given.getD "path") (holds : given.getD "content" = .text content)
    (succeeds : (r.call "write_to_file" (.dict given)).1.Succeeds) :
    ∃ path l k, given.getD "path" = .text path ∧
      (r.call "write_to_file" (.dict given)).1.result = .ok (writeReport path content).raw ∧
      (r.call "write_to_file" (.dict given)).2.resolvePath (.text path) = .ok l ∧
      (r.call "write_to_file" (.dict given)).2.files.locate l = .ok k ∧
      (r.call "write_to_file" (.dict given)).2.files.node? k = some (.file (Text.encode content)) ∧
      ((r.call "write_to_file" (.dict given)).2.call "read_file" (.dict asked)).1.result =
        .ok (readReport path (Text.encode content)).raw := by
  obtain ⟨path, place, l, after, same, some, placed, resolved, stored, told, left⟩ := writeFile_succeeds writes succeeds
  rw [holds] at stored told
  obtain ⟨within, grown, written⟩ := store_ok stored
  obtain ⟨k, grown', reached, file⟩ := write_leads written
  obtain ⟨placed', resolved'⟩ := workplace_grown placed resolved (grown.trans grown') reached
  rw [left]
  refine ⟨path, l, k, same, told, ?_, reached, file, ?_⟩
  · simp only [Registry.resolvePath, placed', bind, Except.bind, resolved']
  · exact readFile_call reads placed' (named.trans same) some resolved' (read?_of_write written)

/-- A text that is written to a file comes back, when that file is read, with line feeds for all its line ends: so the
same text comes back exactly if it has no carriage return. What is told as the number of bytes is the number of
characters: so it is the size of the file exactly if all characters are among the first 128. -/
theorem written_text_read (r : Registry) (given asked : Entries) {content : String}
    (writes : r.find? "write_to_file" = some writeFile) (reads : r.find? "read_file" = some readFile)
    (named : asked.getD "path" = given.getD "path") (holds : given.getD "content" = .text content)
    (succeeds : (r.call "write_to_file" (.dict given)).1.Succeeds) :
    ∃ path l k, given.getD "path" = .text path ∧
      (r.call "write_to_file" (.dict given)).2.resolvePath (.text path) = .ok l ∧
      (r.call "write_to_file" (.dict given)).2.files.locate l = .ok k ∧
      (r.call "write_to_file" (.dict given)).2.files.node? k = some (.file (Text.encode content)) ∧
      (r.call "write_to_file" (.dict given)).1.Tells "bytes_written" (.int content.length) ∧
      ((r.call "write_to_file" (.dict given)).2.call "read_file" (.dict asked)).1.Succeeds ∧
      ((r.call "write_to_file" (.dict given)).2.call "read_file" (.dict asked)).1.Tells "content"
        (.text (Text.readFile (Text.encode content))) ∧
      (Text.readFile (Text.encode content) = content ↔ '\r' ∉ content.toList) ∧
      ((Text.encode content).length = content.length ↔ ∀ c ∈ content.toList, c.toNat < 0x80) := by
  obtain ⟨path, l, k, same, told, resolved, reached, file, answer⟩ :=
    read_after_write r given asked writes reads named holds succeeds
  refine ⟨path, l, k, same, resolved, reached, file, ⟨_, told, rfl⟩, ⟨_, answer, rfl⟩, ⟨_, answer, rfl⟩, ?_, ?_⟩
  · exact Text.readFile_encode_eq_self_iff content
  · exact Text.length_encode_eq_iff content

/-- The parameters that ask for the file at a path. -/
def reading (path : String) : Entries := [(.text "path", .text path)]

theorem oneFile_succeeds (content : String) :
    ((oneFileRegistry []).call "write_to_file" (.dict (writing "app.py" content))).1.Succeeds := by
  rw [oneFile_call content rfl (oneFile_resolve []).2.1]
  exact ⟨_, rfl, rfl⟩

/-- A text with a letter beyond the first 128 and a line that ends with a carriage return: four bytes are told of where
five are stored, and another text is read. -/
theorem written_text_changed :
    let answer := (oneFileRegistry []).call "write_to_file" (.dict (writing "app.py" "é\r\nb"))
    answer.1.Succeeds ∧ answer.1.Tells "bytes_written" (.int 4) ∧
      answer.2.files.node? ["w", "app.py"] = some (.file [0xc3, 0xa9, 0x0d, 0x0a, 0x62]) ∧
      (answer.2.call "read_file" (.dict (reading "app.py"))).1.Succeeds ∧
      (answer.2.call "read_file" (.dict (reading "app.py"))).1.Tells "content" (.text "é\nb") := by
  intro answer
  have succeeds : answer.1.Succeeds := oneFile_succeeds _
  obtain ⟨path, -, -, -, told, -, -, -, read⟩ := read_after_write (oneFileRegistry [])
    (writing "app.py" "é\r\nb") (reading "app.py") rfl rfl rfl rfl succeeds
  have stored : Text.encode "é\r\nb" = [0xc3, 0xa9, 0x0d, 0x0a, 0x62] := by decide +kernel
  have length : "é\r\nb".length = 4 := by decide +kernel
  have back : Text.readFile [0xc3, 0xa9, 0x0d, 0x0a, 0x62] = "é\nb" := by decide +kernel
  rw [stored] at read
  have counted : (writeReport path "é\r\nb").raw.getD "bytes_written" = .int 4 := by
    rw [writeReport, length]
    rfl
  have changed : (readReport path [0xc3, 0xa9, 0x0d, 0x0a, 0x62]).raw.getD "content" = .text "é\nb" := by
    rw [readReport, back]
    rfl
  refine ⟨succeeds, ⟨_, told, counted⟩, ?_, ⟨_, read, rfl⟩, ⟨_, read, changed⟩⟩
  simp only [answer, oneFile_call _ rfl (oneFile_resolve []).2.1, stored]
  rfl

/-- Three letters in two lines are stored as three bytes, and read as they were written. -/
theorem plain_text_read :
    let answer := (oneFileRegistry []).call "write_to_file" (.dict (writing "app.py" "a\nb"))
    answer.1.Succeeds ∧ answer.1.Tells "bytes_written" (.int [0x61, 0x0a, 0x62].length) ∧
      answer.2.files.node? ["w", "app.py"] = some (.file [0x61, 0x0a, 0x62]) ∧
      (answer.2.call "read_file" (.dict (reading "app.py"))).1.Tells "content" (.text "a\nb") := by
  intro answer
  have succeeds : answer.1.Succeeds := oneFile_succeeds _
  obtain ⟨path, l, k, same, resolved, reached, file, told, -, read, clean, plain⟩ :=
    written_text_read (oneFileRegistry []) (writing "app.py" "a\nb") (reading "app.py") rfl rfl rfl rfl succeeds
  have stored : Text.encode "a\nb" = [0x61, 0x0a, 0x62] := by decide +kernel
  rw [clean.mpr (by simp)] at read
  rw [← plain.mpr (by simp), stored] at told
  refine ⟨succeeds, told, ?_, read⟩
  simp only [answer, oneFile_call _ rfl (oneFile_resolve []).2.1, stored]
  rfl

end Tool

end Runbook
