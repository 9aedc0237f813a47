import Mathlib.Data.List.Induction
import Mathlib.Data.List.Nodup
import Runbook.Proofs.Descent
import Runbook.Proofs.Storing

/-! # What a directory holds

The listing of a directory tells what is stored in it, or of everything beneath it, under the names that lead there
from the root of the workspace. It goes by names and not by characters: what is in a directory comes right after the
directory, even if there is a neighbour whose name goes on with a character before the slash. So the names can be read
off the paths, and a listing that is cut has the first of them.
-/

namespace Runbook

variable {fs : Files} {root l k : Location} {names : List String} {name : String} {node : Node} {recursive : Bool}

namespace Location

/-! ## The order of names -/

/-- Locations are put in order as their names are, from the root on. -/
theorem precedes_iff (a b : Location) : precedes a b = true ↔ ¬b < a := by
  induction a generalizing b with
  | nil => simp [precedes]
  | cons name rest ih =>
    cases b with
    | nil => simp [precedes]
    | cons other others =>
      rw [precedes, List.cons_lt_cons_iff]
      by_cases same : name = other
      · subst same
        simp only [beq_self_eq_true, if_true, ih, String.lt_irrefl, false_or, true_and]
      · have apart : name < other ↔ ¬other < name :=
          ⟨fun less => String.lt_asymm less, fun more => Std.lt_of_le_of_ne more same⟩
        simp [same, Ne.symm same, apart]

theorem append_lt_append_iff (root a b : Location) : root ++ a < root ++ b ↔ a < b := by
  induction root with
  | nil => rfl
  | cons name rest ih => simpa [List.cons_lt_cons_iff, String.lt_irrefl] using ih

/-- What is strictly in order is there once. -/
theorem nodup_of_ordered {all : List Location} (ordered : all.Pairwise (· < ·)) : all.Nodup := by
  apply ordered.imp
  rintro a b less rfl
  exact List.lt_irrefl a less

/-- Something of a list without duplicates is left out, when the list is cut, exactly if it is longer. -/
theorem exists_not_mem_take_iff {all : List Location} (distinct : all.Nodup) (n : Nat) :
    n < all.length ↔ ∃ names ∈ all, names ∉ all.take n := by
  constructor
  · intro more
    refine ⟨all[n], List.getElem_mem more, fun early => ?_⟩
    obtain ⟨i, less, same⟩ := List.mem_take_iff_getElem.mp early
    have := (distinct.getElem_inj_iff).mp same
    omega
  · rintro ⟨names, member, missing⟩
    by_contra few
    exact missing (by rwa [List.take_of_length_le (Nat.not_lt.mp few)])

/-- A name that something in a directory can have. -/
structure Proper (name : String) : Prop where
  some : name ≠ ""
  onward : name ≠ "." ∧ name ≠ ".."
  whole : '/' ∉ name.toList
  short : (Text.encode name).length ≤ Files.nameLimit

end Location

namespace Files

/-! ## Trees of directories -/

/-- The root is a directory that can be reached, and what is stored beneath it is a tree of directories and files
without links. -/
structure Tree (fs : Files) (root : Location) : Prop where
  reached : fs.locate root = .ok root
  directory : fs.node? root = some .directory
  once : (fs.nodes.map (·.1)).Nodup
  held : ∀ {names name node}, fs.node? (root ++ names ++ [name]) = some node →
    fs.node? (root ++ names) = some .directory ∧ Location.Proper name ∧ ∀ target, node ≠ .link target

namespace Tree

variable (tree : fs.Tree root)
include tree

/-- There is a way from the root of all to everything in the tree. -/
theorem leads (there : fs.node? (root ++ names) = some node) :
    ∃ left, fs.Leads linkLimit [] (root ++ names) left (root ++ names) := by
  induction names using List.reverseRecOn generalizing node with
  | nil =>
    rw [List.append_nil]
    exact leads_of_walk tree.reached
  | append_singleton names name ih =>
    rw [← List.append_assoc] at there ⊢
    obtain ⟨above, proper, solid⟩ := tree.held there
    obtain ⟨left, leads⟩ := ih above
    have last : fs.Leads left (root ++ names) [name] left (root ++ names ++ [name]) :=
      .enter above proper.onward.2 (Nat.not_lt.mpr proper.short) there solid (.here left _)
    exact ⟨left, leads.append last⟩

theorem isDirectory (there : fs.node? (root ++ names) = some node) :
    fs.isDirectory (root ++ names) = .ok (node == .directory) := by
  obtain ⟨left, leads⟩ := tree.leads there
  have located : fs.locate (root ++ names) = .ok (root ++ names) := leads.walk
  rw [Files.isDirectory, status, located]
  simp [there, Except.map]

theorem proper (there : fs.node? (root ++ names) = some node) : ∀ name ∈ names, Location.Proper name := by
  induction names using List.reverseRecOn generalizing node with
  | nil => exact fun _ member => nomatch member
  | append_singleton names name ih =>
    rw [← List.append_assoc] at there
    obtain ⟨above, proper, -⟩ := tree.held there
    intro other member
    rcases List.mem_append.mp member with before | last
    · exact ih above other before
    · obtain rfl := List.mem_singleton.mp last
      exact proper

end Tree

/-! ## Paths from the root -/

/-- How what is stored at some names beneath a root is spelled: with slashes between the names, and with one at the end
if it is a directory. -/
def spelled (fs : Files) (root : Location) (names : List String) : String :=
  "/".intercalate names ++ if fs.node? (root ++ names) = some .directory then "/" else ""

theorem Tree.listed_eq_spelled (tree : fs.Tree root) (there : fs.node? (root ++ names) = some node) :
    fs.listed root (root ++ names) = fs.spelled root names := by
  rw [listed, tree.isDirectory there, spelled, there, Location.relativeTo, List.drop_left]
  cases node <;> rfl

theorem split_intercalate_proper (some : names ≠ []) (proper : ∀ name ∈ names, Location.Proper name) :
    Text.split '/' ("/".intercalate names) = names :=
  Text.split_intercalate rfl some fun name member => (proper name member).whole

/-- The names can be read off the path. -/
theorem namesOf_spelled (some : names ≠ []) (proper : ∀ name ∈ names, Location.Proper name) :
    Location.namesOf (fs.spelled root names) = names := by
  have kept : names.filter (fun name => name != "" && name != ".") = names :=
    List.filter_eq_self.mpr fun name member => by simp [(proper name member).some, (proper name member).onward.1]
  rw [spelled, Location.namesOf]
  split
  · have cut : Text.split '/' ("/".intercalate names ++ "/" ++ "") = _ := Text.split_append rfl _ _
    rw [String.append_empty, split_intercalate_proper some proper] at cut
    rw [cut, List.filter_append, kept]
    exact List.append_nil names
  · rw [String.append_empty, split_intercalate_proper some proper, kept]

/-- A path ends with a slash if and only if it is that of a directory. -/
theorem getLast?_spelled (some : names ≠ []) (proper : ∀ name ∈ names, Location.Proper name) :
    (fs.spelled root names).toList.getLast? = .some '/' ↔ fs.node? (root ++ names) = .some .directory := by
  rw [spelled]
  split
  · next directory => simp [directory]
  · next other =>
    refine iff_of_false (fun slash => ?_) other
    -- a slash at the end would have an empty name after it
    rw [String.append_empty] at slash
    obtain ⟨before, chars⟩ := List.getLast?_eq_some_iff.mp slash
    have path : "/".intercalate names = String.ofList before ++ "/" ++ "" := by
      rw [← String.toList_inj, chars]
      simp
    have cut := split_intercalate_proper some proper
    rw [path, Text.split_append rfl] at cut
    have empty : "" ∈ names := cut ▸ List.mem_append_right _ (List.mem_singleton_self "")
    exact (proper "" empty).some rfl

/-! ## What is listed -/

/-- Something is stored in a directory, or anywhere beneath it. -/
def Holds (fs : Files) (l : Location) (recursive : Bool) (k : Location) : Prop :=
  (fs.node? k).isSome ∧ ∃ names, k = l ++ names ∧ if recursive then names ≠ [] else names.length = 1

theorem isSome_node?_iff (named : k ≠ []) : (fs.node? k).isSome ↔ k ∈ fs.nodes.map (·.1) := by
  simp [node?, named, Option.isSome_map, List.find?_isSome]

theorem mem_entries_iff : k ∈ fs.entries l recursive ↔ fs.Holds l recursive k := by
  rw [entries, List.mem_mergeSort, Holds]
  cases recursive with
  | true =>
    have beneath : (k.within l && k != l) = true ↔ ∃ names, k = l ++ names ∧ names ≠ [] := by
      rw [Bool.and_eq_true, Location.within, List.isPrefixOf_iff_prefix, bne_iff_ne]
      constructor
      · rintro ⟨⟨names, rfl⟩, other⟩
        exact ⟨names, rfl, by simpa using other⟩
      · rintro ⟨names, rfl, some⟩
        exact ⟨List.prefix_append l names, by simpa using some⟩
    simp only [if_true, descendants, List.mem_filter, beneath]
    refine and_congr_left ?_
    rintro ⟨names, rfl, some⟩
    exact (isSome_node?_iff (by simp [some])).symm
  | false =>
    have child : (k.parent == l && !k.isEmpty) = true ↔ ∃ names, k = l ++ names ∧ names.length = 1 := by
      simp only [Bool.and_eq_true, beq_iff_eq, Bool.not_eq_true', List.isEmpty_eq_false_iff]
      constructor
      · rintro ⟨rfl, some⟩
        exact ⟨[k.getLast some], (List.dropLast_append_getLast some).symm, rfl⟩
      · rintro ⟨names, rfl, one⟩
        obtain ⟨name, rfl⟩ := List.length_eq_one_iff.mp one
        simp [Location.parent]
    simp only [Bool.false_eq_true, if_false, children, List.mem_filter, child]
    refine and_congr_left ?_
    rintro ⟨names, rfl, one⟩
    exact (isSome_node?_iff (by rintro none; simp_all)).symm

/-- Everything is listed once, and in order. -/
theorem entries_pairwise (once : (fs.nodes.map (·.1)).Nodup) (l : Location) (recursive : Bool) :
    (fs.entries l recursive).Pairwise (· < ·) := by
  have ordered : (fs.entries l recursive).Pairwise fun a b => Location.precedes a b = true := by
    apply List.pairwise_mergeSort
    · intro a b c first second
      rw [Location.precedes_iff, List.not_lt] at first second ⊢
      exact List.le_trans first second
    · intro a b
      rw [Bool.or_eq_true, Location.precedes_iff, Location.precedes_iff, List.not_lt, List.not_lt]
      exact List.le_total a b
  have distinct : (fs.entries l recursive).Nodup := by
    apply (List.mergeSort_perm _ _).nodup_iff.mpr
    split
    · exact once.filter _
    · exact once.filter _
  apply (ordered.and distinct).imp
  rintro a b ⟨less, other⟩
  rw [Location.precedes_iff, List.not_lt] at less
  by_contra more
  exact other (List.le_antisymm less (List.not_lt.mp more))

/-- What is listed of a directory in the workspace is told apart by the names that lead there from the root. -/
theorem exists_names (inside : l.within root = true) (recursive : Bool) :
    ∃ all : List (List String), fs.entries l recursive = all.map (root ++ ·) := by
  refine ⟨(fs.entries l recursive).map (·.drop root.length), ?_⟩
  rw [List.map_map]
  refine ((List.map_congr_left fun k entry => ?_).trans (List.map_id _)).symm
  obtain ⟨rest, rfl⟩ := List.isPrefixOf_iff_prefix.mp inside
  obtain ⟨-, names, rfl, -⟩ := mem_entries_iff.mp entry
  simp [List.append_assoc]

/-- The listing of a directory in a tree goes by the names of what is stored there. -/
theorem Tree.listing_eq (tree : fs.Tree root) (inside : l.within root = true) (recursive : Bool) :
    ∃ all : List (List String), (∀ k, fs.Holds l recursive k ↔ ∃ names ∈ all, k = root ++ names) ∧
      all.Pairwise (· < ·) ∧ (∀ names ∈ all, names ≠ [] ∧ ∀ name ∈ names, Location.Proper name) ∧
      fs.listing root l recursive = ((all.take 500).map (fs.spelled root), decide (500 < all.length)) := by
  obtain ⟨all, listed⟩ := fs.exists_names inside recursive
  have holds (k : Location) : fs.Holds l recursive k ↔ ∃ names ∈ all, k = root ++ names := by
    simp [← mem_entries_iff, listed, eq_comm]
  have stored {names : List String} (member : names ∈ all) : ∃ node, fs.node? (root ++ names) = some node :=
    Option.isSome_iff_exists.mp ((holds _).mpr ⟨names, member, rfl⟩).1
  refine ⟨all, holds, ?_, fun names member => ⟨?_, ?_⟩, ?_⟩
  · have ordered := fs.entries_pairwise tree.once l recursive
    rw [listed, List.pairwise_map] at ordered
    exact ordered.imp fun less => (Location.append_lt_append_iff root _ _).mp less
  · -- nothing is stored in a directory under the location of the root itself
    rintro rfl
    obtain ⟨-, names, same, beneath⟩ := (holds _).mpr ⟨[], member, rfl⟩
    obtain ⟨rest, rfl⟩ := List.isPrefixOf_iff_prefix.mp inside
    obtain ⟨-, rfl⟩ : rest = [] ∧ names = [] := by simpa using same
    simp at beneath
  · obtain ⟨node, there⟩ := stored member
    exact tree.proper there
  · rw [Files.listing, listed, List.length_map, ← List.map_take, List.map_map]
    refine Prod.ext (List.map_congr_left fun names member => ?_) rfl
    obtain ⟨node, there⟩ := stored (List.mem_of_mem_take member)
    exact tree.listed_eq_spelled there

end Files

namespace Tool

open Files

/-! ## The tool that lists directories -/

/-- What the tool that lists directories tells. -/
def listReport (path : Value) (paths : List String) (truncated : Bool) : Outcome :=
  .succeeded [(.text "path", path), (.text "files", .list (paths.map Value.text)), (.text "count", .int paths.length),
    (.text "truncated", .bool truncated)]

/-- A call of the tool that lists directories tells the listing of the directory that its path leads to. -/
theorem listFiles_call {r : Registry} {place : Workplace} {entries : Entries} {path : Value}
    (known : r.find? "list_files" = some listFiles) (placed : r.workplace = .ok place)
    (named : (entries.getD "path").orElse (.text ".") = path)
    (resolved : place.files.resolveWithin place.root path = .ok l) (there : place.files.isDirectory l = .ok true) :
    (r.call "list_files" (.dict entries)).1.result =
      .ok (listReport path (place.files.listing place.root l (entries.getD "recursive").truthy).1
        (place.files.listing place.root l (entries.getD "recursive").truthy).2).raw := by
  rw [call_eq known placed]
  simp [run, Value.orElse_dict, listFiles, parametersOf, list, named, resolved, there, bind, Except.bind, pure,
    Except.pure, Work.on, listReport]

/-- The listing of a directory in a workspace that is a tree has the paths of what is stored in the directory, or of all
that is stored beneath it, each of them once and in the order of their names; a path ends with a slash if it is that of
a directory, and else not. There are all of them if they are 500 or fewer, and else the first 500 of them. What is told
as their number is the number of paths that are told, and the listing is said to be cut if something is missing. -/
theorem directory_listed (r : Registry) (entries : Entries) {place : Workplace}
    (known : r.find? "list_files" = some listFiles) (placed : r.workplace = .ok place)
    (tree : r.files.Tree place.root)
    (resolved : r.files.resolveWithin place.root ((entries.getD "path").orElse (.text ".")) = .ok l)
    (directory : r.files.node? l = some .directory) :
    ∃ all : List (List String),
      (∀ k, r.files.Holds l (entries.getD "recursive").truthy k ↔ ∃ names ∈ all, k = place.root ++ names) ∧
      all.Pairwise (· < ·) ∧
      let answer := (r.call "list_files" (.dict entries)).1
      let paths := (all.take 500).map (r.files.spelled place.root)
      answer.Succeeds ∧ answer.Tells "files" (.list (paths.map .text)) ∧ answer.Tells "count" (.int paths.length) ∧
      answer.Tells "truncated" (.bool (decide (500 < all.length))) ∧
      paths.Nodup ∧ paths.map Location.namesOf = all.take 500 ∧
      (∀ names ∈ all, (r.files.spelled place.root names).toList.getLast? = some '/' ↔
        r.files.node? (place.root ++ names) = some .directory) ∧
      (500 < all.length ↔ ∃ names ∈ all, r.files.spelled place.root names ∉ paths) := by
  obtain ⟨root, rfl⟩ := workplace_eq placed
  dsimp only at tree resolved ⊢
  obtain ⟨text, path⟩ := text_of_resolved resolved
  have inside := (resolve_of_resolveWithin (path ▸ resolved)).2
  obtain ⟨rest, rfl⟩ := List.isPrefixOf_iff_prefix.mp inside
  obtain ⟨all, holds, ordered, named, listing⟩ := tree.listing_eq inside (entries.getD "recursive").truthy
  have call := listFiles_call known placed rfl resolved (tree.isDirectory directory)
  dsimp only at call
  rw [listing] at call
  have read {names : List String} (member : names ∈ all) : Location.namesOf (r.files.spelled root names) = names :=
    namesOf_spelled (named names member).1 (named names member).2
  have first : ((all.take 500).map (r.files.spelled root)).map Location.namesOf = all.take 500 := by
    rw [List.map_map]
    exact (List.map_congr_left fun names member => read (List.mem_of_mem_take member)).trans (List.map_id _)
  have told {names : List String} (member : names ∈ all) :
      r.files.spelled root names ∈ (all.take 500).map (r.files.spelled root) ↔ names ∈ all.take 500 := by
    refine ⟨fun path => ?_, List.mem_map_of_mem⟩
    rw [← read member, ← first]
    exact List.mem_map_of_mem path
  have distinct := Location.nodup_of_ordered ordered
  refine ⟨all, holds, ordered, ⟨_, call, rfl⟩, ⟨_, call, rfl⟩, ⟨_, call, rfl⟩, ⟨_, call, rfl⟩, ?_, first, ?_, ?_⟩
  · apply List.Nodup.of_map Location.namesOf
    rw [first]
    exact distinct.sublist (List.take_sublist 500 all)
  · exact fun names member => getLast?_spelled (named names member).1 (named names member).2
  · rw [Location.exists_not_mem_take_iff distinct]
    exact exists_congr fun names => and_congr_right fun member => not_congr (told member).symm

/-- A directory with a file beside a directory whose name begins alike. -/
def neighbours : Registry where
  workspace := "/w"
  files := { nodes := [(["w"], .directory), (["w", "a-b"], .file []), (["w", "a", "c"], .file []),
    (["w", "a"], .directory)] }

theorem neighbours_node? {names : List String} {node : Node} :
    neighbours.files.node? (["w"] ++ names) = some node ↔ (names = [] ∧ node = .directory) ∨
      (names = ["a-b"] ∧ node = .file []) ∨ (names = ["a", "c"] ∧ node = .file []) ∨
        (names = ["a"] ∧ node = .directory) := by
  simp only [node?, neighbours, List.cons_append, List.nil_append, List.find?]
  grind

theorem neighbours_tree : neighbours.files.Tree ["w"] := by
  have short : (Text.encode "w").length ≤ nameLimit := by decide +kernel
  have proper : Location.Proper "a" ∧ Location.Proper "a-b" ∧ Location.Proper "c" := by
    refine ⟨?_, ?_, ?_⟩
    all_goals exact ⟨by decide, by decide, by decide +kernel, by decide +kernel⟩
  have nodes : neighbours.files.node? [] = some .directory ∧ neighbours.files.node? ["w"] = some .directory :=
    ⟨rfl, rfl⟩
  have solid (target : String) : Node.file [] ≠ .link target ∧ Node.directory ≠ .link target := by simp
  refine ⟨by simp [locate, walk, nodes, Nat.not_lt.mpr short], nodes.2, by decide, ?_⟩
  intro names name node there
  rw [List.append_assoc, neighbours_node?] at there
  rcases there with ⟨none, -⟩ | ⟨file, rfl⟩ | ⟨below, rfl⟩ | ⟨directory, rfl⟩
  · simp at none
  · obtain ⟨rfl, rfl⟩ : names = [] ∧ name = "a-b" := by simpa [List.append_eq_cons_iff] using file
    exact ⟨rfl, proper.2.1, fun target => (solid target).1⟩
  · obtain ⟨rfl, rfl⟩ : names = ["a"] ∧ name = "c" := by
      simpa [List.append_eq_cons_iff, List.cons_eq_append_iff] using below
    exact ⟨rfl, proper.2.2, fun target => (solid target).1⟩
  · obtain ⟨rfl, rfl⟩ : names = [] ∧ name = "a" := by simpa [List.append_eq_cons_iff] using directory
    exact ⟨rfl, proper.1, fun target => (solid target).2⟩

theorem neighbours_resolve :
    neighbours.files.resolve [] "/w" = .ok ["w"] ∧ neighbours.files.resolve ["w"] "." = .ok ["w"] := by
  have names : Location.namesOf "/w" = ["w"] ∧ Location.namesOf "." = [] := by decide +kernel
  have absolute : Location.isAbsolute "/w" = true ∧ Location.isAbsolute "." = false := by decide +kernel
  have node : neighbours.files.node? ["w"] = some .directory := rfl
  simp [Files.resolve, names, absolute, Files.settle, node, Location.follow, neighbours_tree.reached]

theorem neighbours_holds_iff {k : Location} :
    neighbours.files.Holds ["w"] true k ↔ ∃ names ∈ [["a"], ["a", "c"], ["a-b"]], k = ["w"] ++ names := by
  rw [Holds]
  constructor
  · rintro ⟨stored, names, rfl, some⟩
    obtain ⟨node, there⟩ := Option.isSome_iff_exists.mp stored
    rw [neighbours_node?] at there
    refine ⟨names, ?_, rfl⟩
    simp only [if_true] at some
    rcases there with ⟨none, -⟩ | ⟨rfl, -⟩ | ⟨rfl, -⟩ | ⟨rfl, -⟩
    · exact absurd none some
    all_goals simp
  · rintro ⟨names, member, rfl⟩
    simp only [List.mem_cons, List.not_mem_nil, or_false] at member
    rcases member with rfl | rfl | rfl
    all_goals exact ⟨rfl, _, rfl, by simp⟩

/-- What is in the directory comes right after it, and before the file whose name goes on with a hyphen. -/
theorem neighbours_listed :
    let answer := (neighbours.call "list_files" (.dict [(.text "recursive", .bool true)])).1
    answer.Succeeds ∧ answer.Tells "files" (.list [.text "a/", .text "a/c", .text "a-b"]) ∧
      answer.Tells "count" (.int 3) ∧ answer.Tells "truncated" (.bool false) := by
  have placed : neighbours.workplace = .ok { files := neighbours.files, root := ["w"], timeout := .float 300.0 } := by
    have root : neighbours.files.resolve neighbours.start neighbours.workspace = .ok ["w"] := neighbours_resolve.1
    simp [Registry.workplace, root, bind, Except.bind, pure, Except.pure]
    rfl
  have resolved : neighbours.files.resolveWithin ["w"] (.text ".") = .ok ["w"] := by
    simp [Files.resolveWithin, neighbours_resolve.2, bind, Except.bind, Location.within]
  obtain ⟨all, holds, ordered, succeeds, files, count, truncated, -⟩ := directory_listed neighbours
    [(.text "recursive", .bool true)] rfl placed neighbours_tree resolved rfl
  have sorted : [["a"], ["a", "c"], ["a-b"]].Pairwise (· < ·) := by decide
  obtain rfl : all = [["a"], ["a", "c"], ["a-b"]] := by
    refine List.Perm.eq_of_pairwise (fun a b _ _ less more => absurd more (List.lt_asymm less)) ordered sorted ?_
    apply (List.perm_ext_iff_of_nodup (Location.nodup_of_ordered ordered) (Location.nodup_of_ordered sorted)).mpr
    intro names
    have same := (holds (["w"] ++ names)).symm.trans neighbours_holds_iff
    simpa using same
  exact ⟨succeeds, files, count, truncated⟩

end Tool

end Runbook
