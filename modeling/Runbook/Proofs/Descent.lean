import Runbook.Proofs.Addresses

/-! # Paths that go on

A path can be cut at each of its points: under the whole of it stands what the rest of it leads to from where its
beginning leads. A lookup can end early, where null is come to, where a list has no item under a segment or where a
value has no attribute of that name. All of these ends are null, and every path leads from null to null. So it does
not matter where the path is cut, nor which attributes values have.
-/

namespace Runbook

namespace Text

theorem split_append {separator : Char} {joint : String} (single : joint.toList = [separator]) (p q : String) :
    split separator (p ++ joint ++ q) = split separator p ++ split separator q := by
  have chars : (p ++ joint ++ q).toList = p.toList ++ separator :: q.toList := by
    rw [String.toList_append, String.toList_append, single, List.append_assoc, List.singleton_append]
  rw [split, chars, splitAt_append, List.map_append, split, split]

end Text

namespace Value

variable {feature : Value → String → Option Value} {v : Value}

/-- One segment followed from a value, where `feature` says which attributes values have; `none` is the end of the
lookup. -/
def step? (feature : Value → String → Option Value) (v : Value) (segment : String) : Option Value :=
  match v with
  | null => none
  | dict entries => some (Entries.getD entries segment)
  | list items | tuple items => (Number.readInt segment).toOption.bind (item? items)
  | v => feature v segment

/-- Segments followed one after the other, up to the first that cannot be followed. -/
def seek (feature : Value → String → Option Value) : Value → List String → Value
  | v, [] => v
  | v, segment :: rest =>
    match step? feature v segment with
    | none => null
    | some part => seek feature part rest

theorem seek_null (segments : List String) : seek feature null segments = null := by
  cases segments <;> rfl

/-- Segments that are followed from where others lead. An end that comes early is null, and there it stays. -/
theorem seek_append (v : Value) (first second : List String) :
    seek feature v (first ++ second) = seek feature (seek feature v first) second := by
  induction first generalizing v with
  | nil => rfl
  | cons segment rest ih =>
    rw [List.cons_append, seek, seek]
    cases step? feature v segment with
    | none => exact (seek_null second).symm
    | some part => exact ih part

theorem follow_eq_step? (v : Value) (segment : String) : v.follow segment = (step? attribute? v segment).getD null := by
  cases v with
  | list items | tuple items =>
    rw [follow, step?]
    cases Number.readInt segment <;> rfl
  | _ => rfl

/-- A lookup need not go on after its end, since nothing but null can come of it. -/
theorem foldl_follow_eq_seek (v : Value) (segments : List String) :
    segments.foldl follow v = seek attribute? v segments := by
  induction segments generalizing v with
  | nil => rfl
  | cons segment rest ih =>
    rw [List.foldl_cons, follow_eq_step?, seek]
    cases step? attribute? v segment with
    | none => exact foldl_follow_null rest
    | some part => exact ih part

/-- What a path leads to in a value, where `feature` says which attributes values have. -/
def nestedBy (feature : Value → String → Option Value) (v : Value) (path : String) : Value :=
  seek feature v (Text.split '.' path)

theorem nested_eq_nestedBy (v : Value) (path : String) : v.nested path = v.nestedBy attribute? path :=
  foldl_follow_eq_seek v _

theorem nestedBy_append (feature : Value → String → Option Value) (v : Value) (p q : String) :
    v.nestedBy feature (p ++ "." ++ q) = (v.nestedBy feature p).nestedBy feature q := by
  rw [nestedBy, Text.split_append rfl, seek_append, ← nestedBy, ← nestedBy]

/-- Paths with points between them lead where they lead one after the other. -/
theorem nested_intercalate (v : Value) {paths : List String} (some : paths ≠ []) :
    v.nested (".".intercalate paths) = paths.foldl nested v := by
  induction paths generalizing v with
  | nil => contradiction
  | cons path rest ih =>
    cases rest with
    | nil => rw [String.intercalate_singleton, List.foldl_cons, List.foldl_nil]
    | cons next rest =>
      rw [String.intercalate_cons_cons, nested_eq_nestedBy, nestedBy_append, ← nested_eq_nestedBy,
        ← nested_eq_nestedBy, ih _ (List.cons_ne_nil next rest)]
      rfl

/-- What a path leads to is what its second part leads to from where its first part leads, at whichever point it is
cut, whether or not the first part can be followed, and whatever the attributes are that values have. -/
theorem path_cut_anywhere (v : Value) (p q : String) :
    v.nested (p ++ "." ++ q) = (v.nested p).nested q ∧
      ∀ feature, v.nestedBy feature (p ++ "." ++ q) = (v.nestedBy feature p).nestedBy feature q := by
  constructor
  · rw [nested_eq_nestedBy, nestedBy_append, ← nested_eq_nestedBy, ← nested_eq_nestedBy]
  · intro feature
    exact nestedBy_append feature v p q

/-- A path that ends early in the middle: the list has no item under the second segment. -/
example : (record [("a", list [int 7])]).nested "a.1" = null ∧
    (record [("a", list [int 7])]).nested "a.1.real" = null ∧
    (record [("a", list [int 7])]).nested "a.0.real" = int 7 := ⟨rfl, rfl, rfl⟩

end Value

end Runbook
