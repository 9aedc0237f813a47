import Runbook.Files.Resolution
import Runbook.Files.Change

/-! # Where paths lead

A path that is spelled as it is meant, with no link on its way, leads to the location that its names spell. A
write makes the directories on the way, and then puts one file in place: so nothing changes but the file where
its location leads.
-/

namespace Runbook

variable {fs fs' : Files} {l k : Location} {names : List String} {bytes : Bytes}

/-! ## Paths as texts -/

namespace Text

end Text

namespace Location

/-- A path that is spelled as it is meant: names with a slash between them, none of which leads back or
nowhere. -/
def Plain (path : String) : Prop := ∀ name ∈ Text.split '/' path, name ≠ "" ∧ name ≠ "." ∧ name ≠ ".."

theorem Plain.namesOf {path : String} (plain : Plain path) : Location.namesOf path = Text.split '/' path :=
  List.filter_eq_self.mpr fun name member => by simp [plain name member]

theorem Plain.isAbsolute {path : String} (plain : Plain path) : Location.isAbsolute path = false := by
  cases absolute : Location.isAbsolute path with
  | false => rfl
  | true =>
    unfold Location.isAbsolute at absolute
    obtain ⟨rest, chars⟩ := List.head?_eq_some_iff.mp (eq_of_beq absolute)
    have first : "" ∈ Text.split '/' path := by simp [Text.split, chars, Text.splitAt]
    exact absurd rfl (plain "" first).1

end Location

namespace Files

/-! ## Ways without links -/

/-- Nothing on the way to a location is a link, and no name in it leads back. -/
structure Straight (fs : Files) (l : Location) : Prop where
  onward : ".." ∉ l
  unlinked : ∀ k target, k <+: l → fs.node? k ≠ some (.link target)

theorem Straight.parent (straight : fs.Straight l) : fs.Straight l.parent :=
  ⟨fun back => straight.onward (List.dropLast_subset l back),
    fun k target way => straight.unlinked k target (way.trans (List.dropLast_prefix l))⟩

/-- The way along the names from a location to one that is straight. -/
theorem walk_straight {links : Nat} (walked : fs.walk links l names = .ok k)
    (straight : fs.Straight (l ++ names)) : k = l ++ names := by
  induction names generalizing l with
  | nil =>
    rw [walk] at walked
    rw [List.append_nil, Except.ok.inj walked]
  | cons name rest ih =>
    have onward : name ≠ ".." := by
      rintro rfl
      exact straight.onward (by simp)
    have next : l ++ name :: rest = (l ++ [name]) ++ rest := by simp
    rw [next] at straight ⊢
    rw [walk] at walked
    split at walked
    · cases walked
    rw [if_neg (by simpa using onward)] at walked
    split at walked
    · cases walked
    split at walked
    · cases walked
    · next target link => exact absurd link (straight.unlinked _ target (List.prefix_append _ _))
    · exact ih walked straight

/-- Something new is put under its own name into the directory where the location above it leads. -/
theorem place_spec {directory : Location} {name : String} (placed : fs.place l = .ok (directory, name)) :
    l = l.parent ++ [name] ∧ fs.locate l.parent = .ok directory ∧ fs.node? directory = some .directory ∧
      ¬nameLimit < (Text.encode name).length := by
  unfold place at placed
  split at placed
  · cases placed
  · next last =>
    cases located : fs.locate l.parent with
    | error => simp [located, bind, Except.bind] at placed
    | ok there =>
      simp only [located, bind, Except.bind] at placed
      split at placed
      · cases placed
      · next inside =>
        split at placed
        · cases placed
        · next short =>
          obtain ⟨rfl, rfl⟩ := Prod.mk.inj (Except.ok.inj placed)
          obtain ⟨above, rfl⟩ := List.getLast?_eq_some_iff.mp last
          exact ⟨by rw [Location.parent, List.dropLast_concat], rfl, by simpa using inside, short⟩

/-- A write goes where the location leads, if nothing or a file is there. -/
theorem destination_cases (leads : fs.destination l = .ok k) :
    (fs.locate l = .ok k ∧ fs.node? k ≠ some .directory) ∨
      ∃ directory name, fs.place l = .ok (directory, name) ∧ k = directory ++ [name] := by
  unfold destination at leads
  split at leads
  · next located =>
    split at leads
    · cases leads
    · next other =>
      obtain rfl := Except.ok.inj leads
      exact .inl ⟨located, by simpa using other⟩
  · cases placed : fs.place l with
    | error => simp [placed, bind, Except.bind] at leads
    | ok there =>
      simp only [placed, bind, Except.bind] at leads
      split at leads
      · cases leads
      · exact .inr ⟨there.1, there.2, rfl, (Except.ok.inj leads).symm⟩
  · cases leads

/-- The destination of a write is not the root. -/
theorem destination_ne_nil (leads : fs.destination l = .ok k) : k ≠ [] := by
  obtain ⟨-, other⟩ | ⟨directory, name, -, rfl⟩ := destination_cases leads
  · rintro rfl
    exact other rfl
  · simp

private theorem find?_map_key (nodes : List (Location × Node)) (l k : Location) (node : Node) :
    ((nodes.map fun e => if e.1 == l then (l, node) else e).find? (·.1 == k)).map (·.2) =
      if k = l then (nodes.find? (·.1 == l)).map fun _ => node else (nodes.find? (·.1 == k)).map (·.2) := by
  induction nodes with
  | nil => simp
  | cons e rest ih =>
    by_cases here : e.1 = l <;> by_cases same : k = l <;> by_cases there : e.1 = k <;> grind

/-- What is put at a location other than the root is there, and all else stays. -/
theorem node?_put (fs : Files) (named : l ≠ []) (node : Node) (k : Location) :
    (fs.put l node).node? k = if k = l then some node else fs.node? k := by
  by_cases root : k = []
  · subst root
    rw [if_neg (Ne.symm named)]
    rfl
  have looked (fs : Files) : fs.node? k = (fs.nodes.find? (·.1 == k)).map (·.2) := by
    simp [node?, root]
  rw [looked, looked, put]
  split
  · next listed =>
    rw [find?_map_key]
    split
    · obtain ⟨e, found⟩ := Option.isSome_iff_exists.mp (List.find?_isSome.mpr (List.any_eq_true.mp listed))
      rw [found, Option.map_some]
    · rfl
  · next unlisted =>
    have none : fs.nodes.find? (·.1 == l) = none := by
      rw [List.any_eq_true] at unlisted
      exact List.find?_eq_none.mpr fun e member same => unlisted ⟨e, member, same⟩
    rw [List.find?_append]
    by_cases same : k = l
    · subst same
      simp [none]
    · simp [same, Ne.symm same]

/-- Nothing but directories is new. -/
def OnlyDirectories (fs fs' : Files) : Prop :=
  ∀ k node, fs'.node? k = some node → node = .directory ∨ fs.node? k = some node

theorem OnlyDirectories.trans {fs'' : Files} (first : fs.OnlyDirectories fs')
    (second : fs'.OnlyDirectories fs'') : fs.OnlyDirectories fs'' :=
  fun k node found => (second k node found).elim .inl (first k node)

theorem OnlyDirectories.straight (only : fs.OnlyDirectories fs') (straight : fs.Straight l) : fs'.Straight l :=
  ⟨straight.onward, fun k target way link =>
    (only k _ link).elim Node.noConfusion (straight.unlinked k target way)⟩

/-- A directory that is made is where there was nothing, and nothing else changes. -/
theorem makeDirectory_spec (made : fs.makeDirectory l = .ok fs') :
    ∃ k, fs.node? k = none ∧ ∀ p, fs'.node? p = if p = k then some .directory else fs.node? p := by
  unfold makeDirectory at made
  cases placed : fs.place l with
  | error => simp [placed, bind, Except.bind] at made
  | ok there =>
    simp only [placed, bind, Except.bind] at made
    split at made
    · cases made
    · next free =>
      obtain rfl := Except.ok.inj made
      have named : there.1 ++ [there.2] ≠ [] := List.append_ne_nil_of_right_ne_nil _ (List.cons_ne_nil _ _)
      exact ⟨_, by simpa using free, node?_put fs named _⟩

/-- What holds when one directory is made holds when all the directories on a way are made. -/
theorem ensureNames_induction {R : Files → Files → Prop} (refl : ∀ fs, R fs fs)
    (trans : ∀ {fs fs' fs''}, R fs fs' → R fs' fs'' → R fs fs'')
    (make : ∀ {fs fs' l}, fs.makeDirectory l = .ok fs' → R fs fs') (fs : Files) (names : List String) :
    R fs (fs.ensureNames names).1 := by
  induction names with
  | nil => exact refl fs
  | cons name above ih =>
    unfold ensureNames
    simp only
    split
    · next made => exact make made
    · split
      · next stopped =>
        rw [stopped] at ih
        exact ih
      · next ensured =>
        rw [ensured] at ih
        split
        · next made => exact trans ih (make made)
        · exact ih
    · exact refl fs

end Files

end Runbook
