import Runbook.Execution

/-! # The ledger of executions

Every execution that was admitted has a record. Those that are running are active; one that is
retired leaves the active ones and goes to the front of the history, which keeps a limited number.
-/

namespace Runbook

/-- The executions of an engine. -/
structure Ledger where
  /-- The record of every admitted execution under its identifier, in order of admission. -/
  records : List (String × Execution) := []
  /-- The active executions, in order of admission. -/
  active : List String := []
  /-- The retired executions that are kept, newest first. -/
  history : List String := []
  /-- How many identifiers have been generated. -/
  generated : Nat := 0

namespace Ledger

/-- The record of an execution. -/
def record? (l : Ledger) (id : String) : Option Execution :=
  (l.records.find? (·.1 == id)).map (·.2)

/-- The ledger with the record of an execution changed. -/
def amend (l : Ledger) (id : String) (f : Execution → Execution) : Ledger :=
  { l with records := l.records.map fun r => if r.1 == id then (r.1, f r.2) else r }

/-- The execution is active. -/
def isActive (l : Ledger) (id : String) : Bool := l.active.contains id

/-- The ledger with one more active execution. -/
def enroll (l : Ledger) (id : String) (e : Execution) : Ledger :=
  { l with records := l.records ++ [(id, e)], active := l.active ++ [id] }

/-- The ledger with an active execution moved to the history, of which the newest `limit` are kept.
One that is not active stays where it is. -/
def retire (l : Ledger) (limit : Option Nat) (id : String) : Ledger :=
  if l.isActive id then
    let history := id :: l.history
    { l with
      active := l.active.erase id
      history := match limit with
        | some n => history.take n
        | none => history }
  else l

/-- The ledger without history. -/
def clear (l : Ledger) : Ledger := { l with history := [] }

/-- The records of the active executions. -/
def running (l : Ledger) : List Execution := l.active.filterMap l.record?

/-- The records of the history, newest first. -/
def finished (l : Ledger) : List Execution := l.history.filterMap l.record?

/-- The execution with an identifier, if it is active or in the history. -/
def find? (l : Ledger) (id : String) : Option Execution :=
  if l.isActive id || l.history.contains id then l.record? id else none

end Ledger

end Runbook
