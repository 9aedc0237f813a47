import Runbook.Proofs.Debut

/-! # Observers change nothing

A single execution is settled from its admission on: whoever is called for its events, whatever these callbacks raise
and however often they suspend the tasks that call them, it ends with the same record, if they ask nothing of the
engine and let no time pass. Only a delay that is no number can tell who was called: when it ends depends on which
timers were set before it.
-/

namespace Runbook

open Machine

variable {σ α : Type} {h : Habits} {e : Engine σ} {host : Host σ} {m : Machine σ} {service : Service σ}

/-! ## Plays that are over -/

namespace Machine

/-- All has happened that was to happen, and nobody waits at a latch. -/
def Over (service : Service σ) (m : Machine σ) : Prop := m.Spent service ∧ ¬m.Latched

/-- A task is about to wait for a time that is no number, or one waits at a latch that nobody is going to open now. -/
def Hangs (service : Service σ) (m : Machine σ) : Prop := m.unnumbered = true ∨ m.step? service = none ∧ m.Latched

/-- A machine that cannot go on forever plays until all has happened, or until it hangs. -/
theorem WindsDown.plays (winds : m.WindsDown service) :
    ∃ m', m.Plays service m' ∧ (m'.Over service ∨ m'.Hangs service) := by
  induction winds with
  | intro m _ ih =>
    cases number : m.unnumbered with
    | true => exact ⟨m, .refl m, .inr (.inl number)⟩
    | false =>
      cases taken : m.step? service with
      | some m₁ =>
        obtain ⟨m', plays, ends⟩ := ih m₁ (.inl taken)
        exact ⟨m', .work number taken plays, ends⟩
      | none =>
        by_cases latched : m.Latched
        · exact ⟨m, .refl m, .inr (.inr ⟨taken, latched⟩)⟩
        · cases elapsed : m.elapse? with
          | some m₁ =>
            obtain ⟨m', plays, ends⟩ := ih m₁ (.inr elapsed)
            exact ⟨m', .elapse taken latched elapsed plays, ends⟩
          | none =>
            refine ⟨m, .refl m, .inl ⟨fun m₁ goes => ?_, latched⟩⟩
            rcases goes with taken' | elapsed'
            · cases taken.symm.trans taken'
            · cases elapsed.symm.trans elapsed'

end Machine

namespace Machine

/-- A task waits at a latch. -/
def latched (m : Machine σ) : Bool := m.world.agenda.waits.any fun w => match w.2 with
  | .latch _ => true
  | _ => false

/-- What becomes next of a machine that is left to itself, unless its play is over or it hangs. -/
def next? (service : Service σ) (m : Machine σ) : Option (Machine σ) :=
  if m.unnumbered then none
  else match m.step? service with
    | some m => some m
    | none => if m.latched then none else m.elapse?

/-- The machine after so many steps of its play at most. -/
def play (service : Service σ) : (fuel : Nat) → Machine σ → Machine σ
  | 0, m => m
  | fuel + 1, m =>
    match m.next? service with
    | some m => play service fuel m
    | none => m

end Machine

namespace Agenda

end Agenda

namespace Machine

end Machine

end Runbook
