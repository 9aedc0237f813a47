import Runbook.Value.Basic
import Runbook.Number.Binary

/-! # Equality of values

Numbers are equal when they have the same magnitude, whatever their kind: a truth value counts as
zero or one, and an integer is compared with a floating-point number without rounding. Lists and
tuples are compared item by item, tables without regard to order. Two objects are never equal.
-/

namespace Runbook.Value

/-- The integer that a truth value or an integer is. -/
def integer? : Value → Option Int
  | bool b => some (if b then 1 else 0)
  | int n => some n
  | _ => none

/-- Equality of two values that are not both containers. -/
def equalScalar : Value → Value → Bool
  | null, null => true
  | text s, text t => s == t
  | text s, status t => s == t.label
  | status s, text t => s.label == t
  | status s, status t => s == t
  | float x, float y => x == y
  | float x, v => v.integer?.any fun n => Number.compareInt x n == some .eq
  | v, float x => v.integer?.any fun n => Number.compareInt x n == some .eq
  | v, w => match v.integer?, w.integer? with
    | some m, some n => m == n
    | _, _ => false

mutual

/-- Equality of values. -/
def equal : Value → Value → Bool
  | list xs, list ys => equalItems xs ys
  | tuple xs, tuple ys => equalItems xs ys
  | dict es, dict fs => es.length == fs.length && within es fs
  | condition v o c, condition v' o' c' => v == v' && o == o' && equal c c'
  | report i s ok outs err ms ds, report i' s' ok' outs' err' ms' ds' =>
    i == i' && s == s' && ok == ok' && outs.length == outs'.length && within outs outs' &&
      equal err err' && ms == ms' && ds.length == ds'.length && within ds ds'
  | v, w => equalScalar v w

/-- Item by item equality. -/
def equalItems : List Value → List Value → Bool
  | [], [] => true
  | x :: xs, y :: ys => equal x y && equalItems xs ys
  | _, _ => false

/-- Every entry of the first table stands in the second. -/
def within : List (Value × Value) → List (Value × Value) → Bool
  | [], _ => true
  | (k, v) :: rest, fs => (fs.any fun f => equal k f.1 && equal v f.2) && within rest fs

end

mutual

/-- The kind of the part that keeps a value from being a key: lists, tables and records of steps
can change, so neither they nor a tuple that holds one can be looked up. -/
def unhashable? : Value → Option String
  | list _ => some "list"
  | dict _ => some "dict"
  | report .. => some "StepResult"
  | tuple items => unhashableItem? items
  | condition _ _ comparand => unhashable? comparand
  | _ => none

/-- The first part of a tuple that cannot be looked up. -/
def unhashableItem? : List Value → Option String
  | [] => none
  | v :: rest =>
    match unhashable? v with
    | some kind => some kind
    | none => unhashableItem? rest

end

example : equal (int 1) (float 1.0) = true ∧ equal (bool true) (int 1) = true := by decide +kernel

example : equal (dict [(text "a", null), (text "b", int 1)]) (dict [(text "b", int 1), (text "a", null)])
    = true := by decide +kernel

end Runbook.Value
