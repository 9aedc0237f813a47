import Runbook.Fault
import Runbook.Number.Reading
import Runbook.Value.Entries

/-! # Values taken as tables and numbers

A table can be given as a list of pairs, an integer as a text or a number, a floating-point number
as an integer. Each conversion either succeeds or names the cause why it does not.
-/

namespace Runbook.Value

/-- What a value yields when it is gone through: items, keys, or characters. -/
def items? : Value → Option (List Value)
  | list items => some items
  | tuple items => some items
  | dict entries => some (entries.map (·.1))
  | text s => some (s.toList.map fun c => text (String.singleton c))
  | status s => some (s.label.toList.map fun c => text (String.singleton c))
  | _ => none

/-- The pairs that the items of a list are, numbered from `index`, up to the first that is none. -/
def pairs (index : Nat) : List Value → Entries × Option Fault
  | [] => ([], none)
  | v :: rest =>
    match v.items? with
    | none => ([], some (.entryNotSequence index))
    | some [key, value] =>
      match key.unhashable? with
      | some kind => ([], some (.unhashable kind))
      | none =>
        let (others, fault) := pairs (index + 1) rest
        ((key, value) :: others, fault)
    | some items => ([], some (.entryLength index items.length))

/-- The entries that a value lists: those of a table, or the pairs of a list up to the first item
that is no pair, with the fault of that item. -/
def listed : Value → Entries × Option Fault
  | dict entries => (entries, none)
  | v =>
    match v.items? with
    | none => ([], some (.notIterable v.kind))
    | some items => pairs 0 items

/-- A value taken as a table: a table itself, or a list of pairs. -/
def toEntries (v : Value) : Except Fault Entries :=
  match v.listed with
  | (entries, none) => .ok (Entries.ofList entries)
  | (_, some fault) => .error fault

/-- A value taken as a mapping, which only a table is. -/
def mapping : Value → Except Fault Entries
  | dict entries => .ok entries
  | v => .error (.notMapping v.kind)

/-- A value taken as an integer: a number cut toward zero, or a text that writes an integer. -/
def toInteger : Value → Except Fault Int
  | bool b => .ok (if b then 1 else 0)
  | int n => .ok n
  | float x =>
    match Number.truncate x with
    | .ok n => .ok n
    | .error .infinite => .error .infinityAsInteger
    | .error .nan => .error .nanAsInteger
  | text s =>
    match Number.readInt s with
    | .ok n => .ok n
    | .error .malformed => .error (.malformedInteger s)
    | .error (.tooLong n) => .error (.integerTooLong n)
  | v => .error (.notInteger v.kind)

/-- An integer as a floating-point number, if there is one near it. -/
def floatOfInteger (n : Int) : Except Fault Float :=
  match Number.floatOfInt? n with
  | some x => .ok x
  | none => .error .integerTooLarge

/-- A number as a floating-point number; `none` for a value that is no number. -/
def toFloat? : Value → Option (Except Fault Float)
  | bool b => some (.ok (if b then 1.0 else 0.0))
  | int n => some (floatOfInteger n)
  | float x => some (.ok x)
  | _ => none

/-- How two numbers compare, exactly; `none` when one of them is no number, and `some none` when
one of them is not-a-number. -/
def compareNumbers? : Value → Value → Option (Option Ordering)
  | float x, float y =>
    some (if x < y then some .lt else if y < x then some .gt else if x == y then some .eq else none)
  | float x, w => w.integer?.map fun n => Number.compareInt x n
  | v, float y => v.integer?.map fun n => (Number.compareInt y n).map Ordering.swap
  | v, w => do
    let m ← v.integer?
    let n ← w.integer?
    return some (compare m n)

/-- The first number is above the second. -/
def exceeds (v w : Value) : Except Fault Bool :=
  match compareNumbers? v w with
  | some order => .ok (order == some .gt)
  | none => .error (.notComparable ">" v.kind w.kind)

/-- The first number is not below the second. -/
def reaches (v w : Value) : Except Fault Bool :=
  match compareNumbers? v w with
  | some order => .ok (order == some .gt || order == some .eq)
  | none => .error (.notComparable ">=" v.kind w.kind)

/-- The front of a list up to a limit that is an integer, where a negative one counts from the end,
or null for the whole list. -/
def frontOf {α : Type} (xs : List α) (limit : Value) : Except Fault (List α) :=
  match limit with
  | null => .ok xs
  | v =>
    match v.integer? with
    | some n => .ok (if n < 0 then xs.take (xs.length - n.natAbs) else xs.take n.toNat)
    | none => .error .notSlice

end Runbook.Value
