import Runbook.Proofs.Editing
import Runbook.Proofs.Upshot

/-! # What tools can reach

Where nothing is a link, a path names the location that its names lead to, and it is refused unless that location is
in the workspace. So whatever the tools are asked for, what they read and list is settled by what is stored in the
workspace, commands start in it, and a write makes nothing outside but directories that lead to the workspace and were
missing.
-/

namespace Runbook

variable {fs fs' : Files} {l k root : Location} {names : List String} {links : Nat}

/-! ## Paths without links -/

namespace Location

/-- No name of the location is empty, stays where it is or leads back. -/
def Normal (l : Location) : Prop := ∀ name ∈ l, name ≠ "" ∧ name ≠ "." ∧ name ≠ ".."

theorem Normal.onward (normal : l.Normal) : ".." ∉ l := fun back => (normal _ back).2.2 rfl

theorem follow_cons (l : Location) (name : String) (rest : List String) :
    l.follow (name :: rest) = if name = ".." then l.parent.follow rest else follow (l ++ [name]) rest := by
  by_cases back : name = ".."
  · subst back
    rfl
  · rw [if_neg back, follow]
    exact back

theorem Normal.follow (normal : l.Normal) (proper : ∀ name ∈ names, name ≠ "" ∧ name ≠ ".") :
    (l.follow names).Normal := by
  induction names generalizing l with
  | nil => exact normal
  | cons name rest ih =>
    have later : ∀ name ∈ rest, name ≠ "" ∧ name ≠ "." := fun other member => proper other (.tail _ member)
    rw [follow_cons]
    split
    · exact ih (fun other member => normal other (List.dropLast_subset l member)) later
    · next onward =>
      refine ih (fun other member => ?_) later
      rcases List.mem_append.mp member with before | new
      · exact normal other before
      · obtain rfl := List.mem_singleton.mp new
        exact ⟨(proper other (.head _)).1, (proper other (.head _)).2, onward⟩

/-- What a path names is a normal location, however the path is spelled. -/
theorem Normal.ofPath (normal : l.Normal) (path : String) : (Location.ofPath l path).Normal := by
  refine Normal.follow ?_ ?_
  · split
    · exact fun _ member => nomatch member
    · exact normal
  · intro name member
    simpa [namesOf] using (List.mem_filter.mp member).2

end Location

namespace Files

/-- Nothing that is stored is a link, and all that is stored is at normal locations. -/
structure Linkless (fs : Files) : Prop where
  unlinked : ∀ e ∈ fs.nodes, ∀ target, e.2 ≠ .link target
  normal : ∀ e ∈ fs.nodes, Location.Normal e.1

namespace Linkless

variable (linkless : fs.Linkless)
include linkless

theorem node? (l : Location) (target : String) : fs.node? l ≠ some (.link target) := by
  unfold Files.node?
  split
  · rintro ⟨⟩
  · intro found
    obtain ⟨e, stored, link⟩ := Option.map_eq_some_iff.mp found
    exact linkless.unlinked e (List.mem_of_find?_eq_some stored) target link

theorem straight (onward : ".." ∉ l) : fs.Straight l := ⟨onward, fun k target _ => linkless.node? k target⟩

theorem settle (fuel : Nat) (pending : List Location) (l : Location) (names : List String) :
    fs.settle fuel pending l names = { location := l.follow names } := by
  induction names generalizing l with
  | nil =>
    rw [Files.settle]
    rfl
  | cons name rest ih =>
    rw [Files.settle, Location.follow_cons]
    simp only [beq_iff_eq]
    split
    · exact ih _
    · split
      · next target link => exact absurd link (linkless.node? _ target)
      · exact ih _

theorem walk_ne (links : Nat) (l : Location) (names : List String) :
    fs.walk links l names ≠ .error .tooManyLinks := by
  induction names generalizing l with
  | nil =>
    rw [walk]
    rintro ⟨⟩
  | cons name rest ih =>
    rw [walk]
    split
    · rintro ⟨⟩
    split
    · exact ih _
    split
    · rintro ⟨⟩
    split
    · rintro ⟨⟩
    · next target link => exact absurd link (linkless.node? _ target)
    · exact ih _

theorem resolve (start : Location) (path : String) : fs.resolve start path =
    if path.toList.contains '\x00' then .error .nulByte else .ok (start.ofPath path) := by
  rw [Files.resolve]
  simp only [linkless.settle]
  split
  · rfl
  · split
    · next loops => exact absurd loops (linkless.walk_ne _ _ _)
    · rfl

/-- A path is resolved if it can be spelled and names a location in the workspace, and then to that location. -/
theorem resolveWithin (root : Location) (path : String) : fs.resolveWithin root (.text path) =
    if path.toList.contains '\x00' then .error .nulByte
    else if (root.ofPath path).within root then .ok (root.ofPath path) else .error (.outsideWorkspace path) := by
  rw [Files.resolveWithin, linkless.resolve]
  split <;> rfl

/-- A way goes on where its first part leads. -/
theorem walk_append (links : Nat) (l : Location) (first second : List String) :
    fs.walk links l (first ++ second) = (fs.walk links l first).bind fun k => fs.walk links k second := by
  induction first generalizing l with
  | nil =>
    rw [walk.eq_def _ _ _ []]
    rfl
  | cons name rest ih =>
    rw [List.cons_append, walk, walk.eq_def _ _ _ (name :: rest)]
    simp only
    split
    · rfl
    split
    · exact ih _
    split
    · rfl
    split
    · rfl
    · next target link => exact absurd link (linkless.node? _ target)
    · exact ih _

end Linkless

/-! ## Files that are the same in a workspace -/

/-- The same is stored at a location and beneath it, and it can be reached or not for the same reason. -/
structure Agrees (root : Location) (fs fs' : Files) : Prop where
  stored : fs'.nodes.filter (·.1.within root) = fs.nodes.filter (·.1.within root)
  way : fs'.locate root = fs.locate root

theorem within_append (inside : l.within root = true) (name : String) :
    Location.within (l ++ [name]) root = true := by
  rw [Location.within, List.isPrefixOf_iff_prefix] at inside ⊢
  exact inside.trans (List.prefix_append _ _)

theorem within_of_beneath (inside : l.within root = true) (beneath : (k.within l && k != l) = true) :
    k.within root = true := by
  rw [Bool.and_eq_true, Location.within, List.isPrefixOf_iff_prefix] at beneath
  rw [Location.within, List.isPrefixOf_iff_prefix] at inside ⊢
  exact inside.trans beneath.1

theorem within_of_child (inside : l.within root = true) (child : (k.parent == l && !k.isEmpty) = true) :
    k.within root = true := by
  rw [Bool.and_eq_true, beq_iff_eq] at child
  obtain ⟨rfl, _⟩ := child
  rw [Location.within, List.isPrefixOf_iff_prefix] at inside ⊢
  exact inside.trans (List.dropLast_prefix k)

/-- What is listed of a directory in the workspace is stored in the workspace. -/
theorem mem_entries {recursive : Bool} (inside : l.within root = true) (entry : k ∈ fs.entries l recursive) :
    k.within root = true ∧ k ∈ fs.nodes.map (·.1) := by
  rw [entries, List.mem_mergeSort] at entry
  split at entry
  · obtain ⟨stored, beneath⟩ := List.mem_filter.mp entry
    exact ⟨within_of_beneath inside beneath, stored⟩
  · obtain ⟨stored, child⟩ := List.mem_filter.mp entry
    exact ⟨within_of_child inside child, stored⟩

namespace Agrees

variable (agrees : Agrees root fs fs')
include agrees

theorem node? (inside : l.within root = true) : fs'.node? l = fs.node? l := by
  have found (fs : Files) : (fs.nodes.filter (·.1.within root)).find? (·.1 == l) = fs.nodes.find? (·.1 == l) := by
    rw [List.find?_filter]
    congr 1
    funext e
    by_cases same : e.1 = l
    · simp [same, inside]
    · simp [same]
  rw [Files.node?, Files.node?, ← found fs', ← found fs, agrees.stored]

/-- Among the locations in the workspace those of a sort are the same. -/
theorem filter {p : Location → Bool} (inside : ∀ l, p l = true → l.within root = true) :
    (fs'.nodes.map (·.1)).filter p = (fs.nodes.map (·.1)).filter p := by
  have narrowed (fs : Files) :
      (fs.nodes.map (·.1)).filter p = ((fs.nodes.filter (·.1.within root)).map (·.1)).filter p := by
    rw [List.filter_map, List.filter_map, List.filter_filter]
    congr 2
    funext e
    by_cases sort : p e.1 = true
    · simp [sort, inside _ sort]
    · simp [sort]
  rw [narrowed fs', narrowed fs, agrees.stored]

theorem walk (links : Nat) (inside : l.within root = true) (onward : ".." ∉ names) (linkless : fs.Linkless) :
    fs'.walk links l names = fs.walk links l names := by
  induction names generalizing l with
  | nil => rw [Files.walk, Files.walk]
  | cons name rest ih =>
    have next := within_append inside name
    rw [Files.walk, Files.walk, agrees.node? inside, agrees.node? next]
    split
    · rfl
    split
    · next back => exact absurd (.head _) (eq_of_beq back ▸ onward)
    split
    · rfl
    split
    · rfl
    · next target link => exact absurd link (linkless.node? _ target)
    · exact ih next fun back => onward (.tail _ back)

variable (linkless : fs.Linkless) (linkless' : fs'.Linkless)
include linkless linkless'

theorem locate (inside : l.within root = true) (onward : ".." ∉ l) : fs'.locate l = fs.locate l := by
  obtain ⟨names, rfl⟩ := List.isPrefixOf_iff_prefix.mp inside
  have way := agrees.way
  have above : ".." ∉ root := fun back => onward (List.mem_append_left _ back)
  unfold Files.locate at way ⊢
  rw [linkless.walk_append, linkless'.walk_append, way]
  cases reached : fs.walk linkLimit [] root with
  | error => rfl
  | ok k =>
    obtain rfl : k = root := walk_straight reached (linkless.straight above)
    exact agrees.walk _ (by simp [Location.within]) (fun back => onward (List.mem_append_right _ back)) linkless

theorem status (inside : l.within root = true) (onward : ".." ∉ l) : fs'.status l = fs.status l := by
  rw [Files.status, Files.status, agrees.locate linkless linkless' inside onward]
  split
  · next k located =>
    obtain rfl : k = l := walk_straight located (linkless.straight onward)
    rw [agrees.node? inside]
  · rfl
  · rfl

theorem isDirectory (inside : l.within root = true) (onward : ".." ∉ l) : fs'.isDirectory l = fs.isDirectory l := by
  rw [Files.isDirectory, Files.isDirectory, agrees.status linkless linkless' inside onward]

theorem read? (inside : l.within root = true) (onward : ".." ∉ l) : fs'.read? l = fs.read? l := by
  rw [Files.read?, Files.read?, agrees.status linkless linkless' inside onward]

/-- A directory in the workspace is listed in the same way. -/
theorem listing (inside : l.within root = true) (recursive : Bool) :
    fs'.listing root l recursive = fs.listing root l recursive := by
  have entries : fs'.entries l recursive = fs.entries l recursive := by
    unfold Files.entries
    congr 1
    split
    · exact agrees.filter fun k beneath => within_of_beneath inside beneath
    · exact agrees.filter fun k child => within_of_child inside child
  have named (k : Location) (entry : k ∈ fs.entries l recursive) : fs'.listed root k = fs.listed root k := by
    obtain ⟨within, stored⟩ := mem_entries inside entry
    obtain ⟨e, listed, rfl⟩ := List.mem_map.mp stored
    unfold Files.listed
    rw [agrees.isDirectory linkless linkless' within (linkless.normal e listed).onward]
  unfold Files.listing
  rw [entries]
  exact Prod.ext (List.map_congr_left fun k member => named k (List.mem_of_mem_take member)) rfl

end Agrees

/-! ## What a write makes on its way -/

/-- Nothing changes but that directories that lead to a location are made where there was nothing. -/
def OnlyWay (l : Location) (fs fs' : Files) : Prop :=
  ∀ k, fs'.node? k = fs.node? k ∨ k <+: l ∧ fs.node? k = none ∧ fs'.node? k = some .directory

theorem OnlyWay.trans {fs'' : Files} (first : OnlyWay l fs fs') (second : OnlyWay l fs' fs'') :
    OnlyWay l fs fs'' := by
  intro k
  rcases second k with same | ⟨leads, free, made⟩
  · rcases first k with before | ⟨leads, free, made⟩
    · exact .inl (same.trans before)
    · exact .inr ⟨leads, free, same.trans made⟩
  · rcases first k with before | ⟨_, _, made'⟩
    · exact .inr ⟨leads, before.symm.trans free, made⟩
    · cases free.symm.trans made'

theorem OnlyWay.mono (only : OnlyWay k fs fs') (leads : k <+: l) : OnlyWay l fs fs' :=
  fun j => (only j).imp_right fun ⟨leads', free, made⟩ => ⟨leads'.trans leads, free, made⟩

end Files

namespace Tool

open Files

variable {place : Workplace} {path : Value}

/-! ## Reading and listing -/

section Agrees

variable (linkless : place.files.Linkless) (normal : place.root.Normal) (linkless' : fs.Linkless)
  (agrees : Agrees place.root place.files fs)
include linkless normal linkless' agrees

end Agrees

/-! ## Writing -/

end Tool

open Tool

/-- Two directories of which one has the name of the other at its beginning. -/
def neighbours (secret : Bytes) : Files :=
  { nodes := [(["w"], .directory), (["w", "a.txt"], .file [65]), (["wx"], .directory),
      (["wx", "b.txt"], .file secret)] }

end Runbook
