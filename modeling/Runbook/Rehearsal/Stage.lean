import Runbook.Event
import Runbook.Mode.Permission

/-! # The stage of a rehearsal

A rehearsal runs an engine with tools and observers that follow a script of replies instead of doing
work. The stage is what they remember: how often each was used, and what has come of the acts.
-/

namespace Runbook

/-- A memory in which the outcomes of acts are kept, by the number of the act. -/
class Keeps (σ : Type) where
  keep (act : Nat) (outcome : Except Interrupt Value) (memory : σ) : σ
  kept? (memory : σ) (act : Nat) : Option (Except Interrupt Value)

/-- What the tools and observers of a rehearsal remember. -/
structure Stage where
  /-- How often a tool or observer was used. -/
  uses : List (String × Nat) := []
  /-- What the acts have come to, by number. -/
  replies : List (Nat × Except Interrupt Value) := []
  /-- What callbacks wrote down, the latest first. -/
  seen : List String := []
  /-- The registrations that were made, in order. -/
  handles : List (EventKind × String) := []
  /-- The modes that a permission authority asks. -/
  modes : Option Mode.Table := none

namespace Stage

/-- How often something was used. -/
def usesOf (s : Stage) (name : String) : Nat :=
  ((s.uses.find? (·.1 == name)).map (·.2)).getD 0

/-- The stage with one more use, and how often there was one before. -/
def use (name : String) (s : Stage) : Nat × Stage :=
  let before := s.usesOf name
  (before, { s with uses := (name, before + 1) :: s.uses.filter (·.1 != name) })

/-- The stage with what an act has come to. -/
def reply (act : Nat) (r : Except Interrupt Value) (s : Stage) : Stage :=
  { s with replies := (act, r) :: s.replies }

/-- What an act has come to. -/
def reply? (s : Stage) (act : Nat) : Option (Except Interrupt Value) :=
  (s.replies.find? (·.1 == act)).map (·.2)

instance : Keeps Stage where
  keep := reply
  kept? := reply?

/-- The stage with something written down. -/
def write (line : String) (s : Stage) : Stage := { s with seen := line :: s.seen }

end Stage

end Runbook
