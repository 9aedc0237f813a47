import Mathlib.Data.List.Chain
import Mathlib.Data.List.Forall2
import Mathlib.Data.List.TakeWhile
import Runbook.Template

/-! # Substitution

A text is scanned once, from left to right: where a placeholder begins it is taken whole, and elsewhere a character is
passed over. So a text that is written down from literals and placeholders is taken apart into these again, and what
becomes of it is each literal as it is and each placeholder's value in its place; nothing of a value is scanned.

The scope is asked for the names that the scan finds and for no others, in a text as in a value that holds texts at any
depth. What is no text in such a value stays: kinds, lengths, order and keys.
-/

namespace Runbook

variable {scope scope' : Entries} {cs name tail : List Char} {parts : List Segment}

/-! ## Segments that can be told apart -/

/-- Characters that a placeholder can have between its braces. -/
def Template.IsName (name : List Char) : Prop := name ≠ [] ∧ '}' ∉ name

instance : DecidablePred Template.IsName := fun _ => inferInstanceAs (Decidable (_ ∧ _))

namespace Segment

/-- A literal that is not empty and in which no placeholder can begin, or a placeholder. -/
def Legible : Segment → Prop
  | .literal cs => cs ≠ [] ∧ '{' ∉ cs
  | .hole name => Template.IsName name

instance : DecidablePred Legible
  | .literal _ => inferInstanceAs (Decidable (_ ∧ _))
  | .hole name => inferInstanceAs (Decidable (Template.IsName name))

/-- Two segments that stand side by side are not both literals. -/
def Apart : Segment → Segment → Prop
  | .literal _, .literal _ => False
  | _, _ => True

instance : DecidableRel Apart
  | .literal _, .literal _ => instDecidableFalse
  | .literal _, .hole _ | .hole _, .literal _ | .hole _, .hole _ => instDecidableTrue

end Segment

namespace Template

/-! ## Where placeholders begin -/

/-- A placeholder begins here. -/
def Opens (cs : List Char) : Prop := ∃ name tail, IsName name ∧ cs = writeSegment (.hole name) ++ tail

theorem hole?_eq_some_iff : hole? cs = some (name, tail) ↔ IsName name ∧ cs = writeSegment (.hole name) ++ tail := by
  constructor
  · intro found
    unfold hole? at found
    split at found
    · next rest =>
      split at found
      · next tail' dropped =>
        split at found
        · cases found
        · next nonempty =>
          cases found
          refine ⟨⟨by simpa using nonempty, fun member => ?_⟩, ?_⟩
          · simpa using List.mem_takeWhile_imp member
          · conv_lhs => rw [← List.takeWhile_append_dropWhile (p := (· != '}')) (l := rest), dropped]
            simp [writeSegment]
      · cases found
    · cases found
  · rintro ⟨⟨nonempty, closes⟩, rfl⟩
    have inside : ∀ c ∈ name, (c != '}') = true := by
      intro c member
      simpa using ne_of_mem_of_not_mem member closes
    have taken : (name ++ '}' :: '}' :: tail).takeWhile (· != '}') = name := by
      rw [List.takeWhile_append_of_pos inside]
      simp
    have dropped : (name ++ '}' :: '}' :: tail).dropWhile (· != '}') = '}' :: '}' :: tail := by
      rw [List.dropWhile_append_of_pos inside]
      simp
    simp [hole?, writeSegment, taken, dropped, nonempty]

theorem hole?_eq_none_iff : hole? cs = none ↔ ¬Opens cs := by
  constructor
  · rintro none ⟨name, tail, isName, rfl⟩
    rw [hole?_eq_some_iff.mpr ⟨isName, rfl⟩] at none
    cases none
  · intro closed
    cases found : hole? cs with
    | none => rfl
    | some pair => exact absurd ⟨_, _, hole?_eq_some_iff.mp found⟩ closed

theorem not_opens_of_ne {c : Char} (other : c ≠ '{') : ¬Opens (c :: tail) := by
  rintro ⟨name, rest, -, same⟩
  cases same
  exact other rfl

theorem segments_of_opens (isName : IsName name) :
    segments (writeSegment (.hole name) ++ tail) = .hole name :: segments tail := by
  have found := hole?_eq_some_iff.mpr ⟨isName, rfl (a := writeSegment (.hole name) ++ tail)⟩
  simp only [writeSegment, List.cons_append] at found ⊢
  rw [segments]
  split
  · next name' tail' found' =>
    rw [found] at found'
    cases found'
    rfl
  · next none =>
    rw [found] at none
    cases none

theorem segments_of_not_opens {c : Char} (closed : ¬Opens (c :: tail)) :
    segments (c :: tail) = consChar c (segments tail) := by
  have none := hole?_eq_none_iff.mpr closed
  rw [segments]
  split
  · next found =>
    rw [none] at found
    cases found
  · rfl

@[simp] theorem write_nil : write [] = [] := rfl

@[simp] theorem write_cons (part : Segment) (parts : List Segment) :
    write (part :: parts) = writeSegment part ++ write parts := rfl

theorem write_consChar (c : Char) (parts : List Segment) : write (consChar c parts) = c :: write parts := by
  unfold consChar
  split <;> simp [writeSegment]

/-- Nothing of a text is lost when it is taken apart. -/
theorem write_segments (cs : List Char) : write (segments cs) = cs := by
  induction cs using segments.induct with
  | case1 => simp [segments]
  | case2 c rest name tail found ih =>
    obtain ⟨isName, written⟩ := hole?_eq_some_iff.mp found
    rw [written, segments_of_opens isName, write_cons, ih]
  | case3 c rest none ih =>
    rw [segments_of_not_opens (hole?_eq_none_iff.mp none), write_consChar, ih]

/-- What a literal without an opening brace adds to the segments that follow it, if none of them is a literal. -/
theorem segments_append_literal {literal : List Char} (nonempty : literal ≠ []) (closed : '{' ∉ literal)
    (apart : ∀ other, (segments tail).head? ≠ some (.literal other)) :
    segments (literal ++ tail) = .literal literal :: segments tail := by
  induction literal with
  | nil => exact absurd rfl nonempty
  | cons c rest ih =>
    rw [List.mem_cons, not_or] at closed
    rw [List.cons_append, segments_of_not_opens (not_opens_of_ne (Ne.symm closed.1))]
    cases rest with
    | nil =>
      rw [List.nil_append]
      cases later : segments tail with
      | nil => rfl
      | cons part parts =>
        rw [later] at apart
        cases part with
        | literal other => exact absurd rfl (apart other)
        | hole => rfl
    | cons d rest => rw [ih (List.cons_ne_nil _ _) closed.2]; rfl

/-- Segments that can be told apart are read back from the text that they are written as. -/
theorem segments_write (legible : ∀ part ∈ parts, part.Legible) (apart : parts.IsChain Segment.Apart) :
    segments (write parts) = parts := by
  induction parts with
  | nil => simp [segments]
  | cons part rest ih =>
    obtain ⟨here, later⟩ := List.forall_mem_cons.mp legible
    have read := ih later apart.tail
    cases part with
    | literal literal =>
      obtain ⟨nonempty, closed⟩ := here
      have alone : ∀ other, (segments (write rest)).head? ≠ some (.literal other) := by
        rw [read]
        exact fun other same => (List.isChain_cons.mp apart).1 _ same
      rw [write_cons, writeSegment, segments_append_literal nonempty closed alone, read]
    | hole name => rw [write_cons, segments_of_opens here, read]

/-! ## The placeholders that a scan finds -/

/-- The placeholders that a scan from left to right finds: one that begins where the scan has come to is taken whole,
and elsewhere a character is passed over. -/
inductive Finds : List Char → List (List Char) → Prop
  | done : Finds [] []
  | pass {c : Char} {rest : List Char} {names : List (List Char)} (closed : ¬Opens (c :: rest))
      (later : Finds rest names) : Finds (c :: rest) names
  | take {name tail : List Char} {names : List (List Char)} (isName : IsName name) (later : Finds tail names) :
      Finds (writeSegment (.hole name) ++ tail) (name :: names)

/-- The names of placeholders. -/
def names (parts : List Segment) : List (List Char) :=
  parts.filterMap fun
    | .literal _ => none
    | .hole name => some name

theorem mem_names : name ∈ names parts ↔ .hole name ∈ parts := by
  rw [names, List.mem_filterMap]
  constructor
  · rintro ⟨literal | name', member, ⟨⟩⟩
    exact member
  · exact fun member => ⟨_, member, rfl⟩

theorem names_consChar (c : Char) (parts : List Segment) : names (consChar c parts) = names parts := by
  unfold consChar
  split <;> rfl

/-- A text is taken apart where the scan finds placeholders. -/
theorem finds_iff {found : List (List Char)} : Finds cs found ↔ found = names (segments cs) := by
  constructor
  · intro finds
    induction finds with
    | done => simp [segments, names]
    | pass closed _ ih => rw [segments_of_not_opens closed, names_consChar, ih]
    | take isName _ ih => rw [segments_of_opens isName, ih]; rfl
  · rintro rfl
    induction cs using segments.induct with
    | case1 => simpa [segments, names] using Finds.done
    | case2 c rest name tail found ih =>
      obtain ⟨isName, written⟩ := hole?_eq_some_iff.mp found
      rw [written, segments_of_opens isName]
      exact .take isName ih
    | case3 c rest none ih =>
      have closed := hole?_eq_none_iff.mp none
      rw [segments_of_not_opens closed, names_consChar]
      exact .pass closed ih

/-- The scan of a text finds a placeholder that is looked up by this name. -/
def Mentions (s key : String) : Prop := ∃ found, Finds s.toList found ∧ ∃ name ∈ found, nameOf name = key

theorem mentions_iff {s key : String} :
    Mentions s key ↔ ∃ name, .hole name ∈ segments s.toList ∧ nameOf name = key := by
  simp [Mentions, finds_iff, mem_names]

/-! ## Texts in a scope -/

/-- A text that is not a single placeholder with a value is filled in segment by segment. -/
theorem resolve_of_joined {s : String}
    (joined : ∀ name v, segments s.toList = [.hole name] → scope.get? (nameOf name) ≠ some v) :
    resolve scope s = .text (String.join ((segments s.toList).map (fill scope))) := by
  unfold resolve
  split
  · next name alone =>
    have none : scope.get? (nameOf name) = none := Option.eq_none_iff_forall_ne_some.mpr fun v => joined name v alone
    have written := write_segments s.toList
    rw [alone, write_cons, write_nil, List.append_nil] at written
    simp [alone, fill, none, written]
  · rfl

/-- A text depends on a scope only at the names that it mentions. -/
theorem resolve_congr {s : String} (same : ∀ key, Mentions s key → scope.get? key = scope'.get? key) :
    resolve scope s = resolve scope' s := by
  have asked : ∀ name, .hole name ∈ segments s.toList → scope.get? (nameOf name) = scope'.get? (nameOf name) :=
    fun name member => same _ (mentions_iff.mpr ⟨name, member, rfl⟩)
  have filled : (segments s.toList).map (fill scope) = (segments s.toList).map (fill scope') := by
    refine List.map_congr_left fun part member => ?_
    cases part with
    | literal => rfl
    | hole name => rw [fill, fill, asked name member]
  unfold resolve
  split
  · next name alone => rw [asked name (by rw [alone]; exact List.mem_singleton_self _)]
  · rw [filled]

/-- A text of which no name is bound stays as it is. -/
theorem resolve_of_unbound {s : String} (none : ∀ key, Mentions s key → scope.get? key = none) :
    resolve scope s = .text s := by
  have asked : ∀ name, .hole name ∈ segments s.toList → scope.get? (nameOf name) = Option.none :=
    fun name member => none _ (mentions_iff.mpr ⟨name, member, rfl⟩)
  have kept : (segments s.toList).flatMap (String.toList ∘ fill scope) = write (segments s.toList) := by
    refine List.flatMap_congr fun part member => ?_
    cases part with
    | literal => simp [fill, writeSegment]
    | hole name => simp [fill, asked name member]
  have joined : ∀ name v, segments s.toList = [.hole name] → scope.get? (nameOf name) ≠ some v := by
    intro name v alone
    rw [asked name (by rw [alone]; exact List.mem_singleton_self _)]
    exact Option.some_ne_none v |>.symm
  have text : String.join ((segments s.toList).map (fill scope)) = s := by
    rw [← String.toList_inj, String.toList_join, List.flatMap_map]
    exact kept.trans (write_segments _)
  rw [resolve_of_joined joined, text]

end Template

namespace Value

/-! ## Values in a scope -/

/-- One of the texts in a value mentions a name. -/
inductive Mentions : Value → String → Prop
  | text {s key : String} (found : Template.Mentions s key) : Mentions (.text s) key
  | item {items : List Value} {v : Value} {key : String} (member : v ∈ items) (within : v.Mentions key) :
      Mentions (.list items) key
  | part {items : List Value} {v : Value} {key : String} (member : v ∈ items) (within : v.Mentions key) :
      Mentions (.tuple items) key
  | entry {entries : List (Value × Value)} {entry : Value × Value} {key : String} (member : entry ∈ entries)
      (within : entry.2.Mentions key) : Mentions (.dict entries) key

/-- The second value is of the shape of the first: it has the same containers, with as many parts in the same order
and under the same keys, and the same values elsewhere, except that anything may stand in the place of a text. -/
inductive Shaped : Value → Value → Prop
  | text (s : String) (v : Value) : Shaped (.text s) v
  | list {items items' : List Value} (parts : List.Forall₂ Shaped items items') : Shaped (.list items) (.list items')
  | tuple {items items' : List Value} (parts : List.Forall₂ Shaped items items') :
      Shaped (.tuple items) (.tuple items')
  | dict {entries entries' : List (Value × Value)} (keys : entries'.map (·.1) = entries.map (·.1))
      (parts : List.Forall₂ Shaped (entries.map (·.2)) (entries'.map (·.2))) : Shaped (.dict entries) (.dict entries')
  | same (v : Value) : Shaped v v

theorem resolveItems_eq_map (scope : Entries) (items : List Value) :
    resolveItems scope items = items.map (resolve scope) := by
  induction items with
  | nil => rfl
  | cons v rest ih => rw [resolveItems, ih, List.map_cons]

theorem resolveEntries_eq_map (scope : Entries) (entries : List (Value × Value)) :
    resolveEntries scope entries = entries.map fun e => (e.1, e.2.resolve scope) := by
  induction entries with
  | nil => rfl
  | cons e rest ih => rw [resolveEntries, ih, List.map_cons]

/-- What holds of texts and of what is neither text nor container, and of containers as soon as it holds of their
parts, holds of every value. -/
theorem parts_induction {motive : Value → Prop} (text : ∀ s, motive (.text s))
    (list : ∀ items, (∀ v ∈ items, motive v) → motive (.list items))
    (tuple : ∀ items, (∀ v ∈ items, motive v) → motive (.tuple items))
    (dict : ∀ entries : List (Value × Value), (∀ e ∈ entries, motive e.2) → motive (.dict entries))
    (other : ∀ v, (∀ scope, v.resolve scope = v) → motive v) (v : Value) : motive v := by
  refine resolve.induct motive (fun entries => ∀ e ∈ entries, motive e.2) (fun items => ∀ v ∈ items, motive v)
    text list tuple dict ?rest
    (List.forall_mem_nil _) (fun v items first later => List.forall_mem_cons.mpr ⟨first, later⟩)
    (List.forall_mem_nil _) (fun key v entries first later => List.forall_mem_cons.mpr ⟨first, later⟩) v
  intro v notText notList notTuple notDict
  refine other v fun scope => ?_
  cases v with
  | text s => exact (notText s rfl).elim
  | list items => exact (notList items rfl).elim
  | tuple items => exact (notTuple items rfl).elim
  | dict entries => exact (notDict entries rfl).elim
  | null | bool | int | float | object | status | condition | report => rfl

/-- A value depends on a scope only at the names that its texts mention. -/
theorem resolve_congr (v : Value) (same : ∀ key, v.Mentions key → scope.get? key = scope'.get? key) :
    v.resolve scope = v.resolve scope' := by
  induction v using parts_induction with
  | text s => exact Template.resolve_congr fun key found => same key (.text found)
  | list items ih =>
    rw [resolve, resolve, resolveItems_eq_map, resolveItems_eq_map]
    exact congrArg _ (List.map_congr_left fun v member => ih v member fun key within => same key (.item member within))
  | tuple items ih =>
    rw [resolve, resolve, resolveItems_eq_map, resolveItems_eq_map]
    exact congrArg _ (List.map_congr_left fun v member => ih v member fun key within => same key (.part member within))
  | dict entries ih =>
    rw [resolve, resolve, resolveEntries_eq_map, resolveEntries_eq_map]
    refine congrArg _ (List.map_congr_left fun e member => ?_)
    rw [ih e member fun key within => same key (.entry member within)]
  | other v still => rw [still, still]

/-- Resolving keeps the shape of a value. -/
theorem shaped_resolve (scope : Entries) (v : Value) : v.Shaped (v.resolve scope) := by
  induction v using parts_induction with
  | text s => exact .text s _
  | list items ih =>
    rw [resolve, resolveItems_eq_map]
    exact .list (List.forall₂_map_right_iff.mpr (List.forall₂_same.mpr ih))
  | tuple items ih =>
    rw [resolve, resolveItems_eq_map]
    exact .tuple (List.forall₂_map_right_iff.mpr (List.forall₂_same.mpr ih))
  | dict entries ih =>
    rw [resolve, resolveEntries_eq_map]
    refine .dict (by simp) ?_
    rw [List.map_map, List.forall₂_map_left_iff, List.forall₂_map_right_iff]
    exact List.forall₂_same.mpr ih
  | other v still =>
    rw [still]
    exact .same v

/-- A value of which no name is bound stays as it is. -/
theorem resolve_of_unbound (v : Value) (none : ∀ key, v.Mentions key → scope.get? key = none) :
    v.resolve scope = v := by
  induction v using parts_induction with
  | text s => exact Template.resolve_of_unbound fun key found => none key (.text found)
  | list items ih =>
    have kept : items.map (resolve scope) = items.map id :=
      List.map_congr_left fun v member => ih v member fun key within => none key (.item member within)
    rw [resolve, resolveItems_eq_map, kept, List.map_id]
  | tuple items ih =>
    have kept : items.map (resolve scope) = items.map id :=
      List.map_congr_left fun v member => ih v member fun key within => none key (.part member within)
    rw [resolve, resolveItems_eq_map, kept, List.map_id]
  | dict entries ih =>
    have kept : (entries.map fun e => (e.1, e.2.resolve scope)) = entries.map id := by
      refine List.map_congr_left fun e member => ?_
      rw [ih e member fun key within => none key (.entry member within)]
      rfl
    rw [resolve, resolveEntries_eq_map, kept, List.map_id]
  | other v still => exact still scope

end Value

/-! ## What becomes of a text, and of a value -/

/-- Resolving is local and keeps the shape of a value. Two scopes that agree at each name that a text in the value
mentions make the same of it; whatever the scope, it has the same containers with the same keys afterwards; and if no
such name is bound it is the same value. -/
theorem resolving_local (v : Value) :
    (∀ scope scope' : Entries, (∀ key, v.Mentions key → scope.get? key = scope'.get? key) →
      v.resolve scope = v.resolve scope') ∧
    (∀ scope, v.Shaped (v.resolve scope)) ∧
    ∀ scope : Entries, (∀ key, v.Mentions key → scope.get? key = none) → v.resolve scope = v :=
  ⟨fun _ _ => v.resolve_congr, fun scope => v.shaped_resolve scope, fun _ => v.resolve_of_unbound⟩

/-- A list with a text that mentions one name, and a table with another name in a key. -/
def mentioningOne : Value := .list [.text "-\x7b\x7b a \x7d\x7d\x7d", .dict [(.text "\x7b\x7bb\x7d\x7d", .int 1)]]

theorem mentioningOne_mentions {key : String} (mentions : mentioningOne.Mentions key) : key = "a" := by
  cases mentions with
  | item member within =>
    rcases List.mem_pair.mp member with rfl | rfl
    · cases within with
      | text found =>
        obtain ⟨name, member, rfl⟩ := Template.mentions_iff.mp found
        let parts : List Segment := [.literal ['-'], .hole " a ".toList, .literal ['}']]
        have read : Template.segments (Template.write parts) = parts :=
          Template.segments_write (by decide) (by decide)
        change .hole name ∈ Template.segments (Template.write parts) at member
        rw [read] at member
        obtain rfl : name = " a ".toList := by simpa [parts] using member
        decide +kernel
    · cases within with
      | entry member within =>
        cases List.mem_singleton.mp member
        cases within

/-- Of the names in a list and in a key, only that in the list is looked up. -/
theorem key_not_looked_up :
    mentioningOne.resolve [(.text "a", .int 1), (.text "b", .int 2)] = mentioningOne.resolve [(.text "a", .int 1)] ∧
      mentioningOne.resolve [(.text "b", .int 2)] = mentioningOne := by
  constructor
  · refine (resolving_local mentioningOne).1 _ _ fun key mentions => ?_
    rw [mentioningOne_mentions mentions]
    rfl
  · refine (resolving_local mentioningOne).2.2 _ fun key mentions => ?_
    rw [mentioningOne_mentions mentions]
    rfl

end Runbook
