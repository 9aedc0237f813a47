import Runbook.Value.Equality

/-! # Tables

A table is a list of entries in the order in which their keys were first put in. Putting a value
under a key that is there already changes that entry in place; a new key goes to the end. Keys are
compared as values, so `1` and `1.0` are one key.
-/

namespace Runbook

/-- The entries of a table. -/
abbrev Entries := List (Value × Value)

namespace Entries

/-- The value under a key. -/
def lookup? (es : Entries) (key : Value) : Option Value :=
  (es.find? fun e => e.1.equal key).map (·.2)

/-- The value under a name. -/
def get? (es : Entries) (name : String) : Option Value := es.lookup? (.text name)

/-- The value under a name, or null. -/
def getD (es : Entries) (name : String) : Value := (es.get? name).getD .null

/-- A name is a key of the table. -/
def has (es : Entries) (name : String) : Bool := (es.get? name).isSome

/-- The table with a value under a key. -/
def put : Entries → Value → Value → Entries
  | [], key, v => [(key, v)]
  | (k, old) :: rest, key, v => if k.equal key then (k, v) :: rest else (k, old) :: put rest key v

/-- The first table overlaid with the second. -/
def merge (base later : Entries) : Entries := later.foldl (fun es e => es.put e.1 e.2) base

/-- A table from entries given in order, where a later entry replaces an earlier one. -/
def ofList (es : List (Value × Value)) : Entries := merge [] es

/-- The table without the first entry under a key. -/
def erase (es : Entries) (key : Value) : Entries := es.eraseP fun e => e.1.equal key

/-- The keys that are texts. -/
def names (es : Entries) : List String :=
  es.filterMap fun e => match e.1 with
    | .text s => some s
    | _ => none

end Entries

end Runbook
