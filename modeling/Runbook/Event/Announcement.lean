import Runbook.Routine

/-! # Announcements

An event is announced to the callbacks that are registered for its kind at that moment, one after the
other. A callback that fails is noted and does not keep the others from being called; only a
cancellation does.
-/

namespace Runbook

variable {σ : Type}

/-- The callbacks that an event goes to, and the world in which its announcement is noted. -/
def World.announcement (event : Event) (w : World σ) : List String × World σ :=
  (w.bus.callbacks event.kind, w.note (.announced event (w.ledger.record? event.execution)))

/-- Call callbacks with an event, each after the one before has returned. -/
def deliver (event : Event) : List String → Attempt σ Unit
  | [] => pure ()
  | callback :: rest => do
    match ← Attempt.lift (.perform (.observer callback event)) with
    | .ok _ => pure ()
    | .error (.fault fault) =>
      Attempt.lift (.change (·.note (.callbackFailed event.kind fault.message)))
    | .error (.cancelled message) => throw (.cancelled message)
    deliver event rest

/-- Announce an event. -/
def announce (event : Event) : Attempt σ Unit := do
  deliver event (← Attempt.lift (.update (World.announcement event)))

/-- A change of the world that is announced at once if it takes place, and the callbacks that it is
announced to. -/
def World.announced (event : Event) (change : World σ → Except Fault Bool × World σ)
    (w : World σ) : Except Fault (Option (List String)) × World σ :=
  match change w with
  | (.error fault, w) => (.error fault, w)
  | (.ok false, w) => (.ok none, w)
  | (.ok true, w) =>
    let (callbacks, w) := w.announcement event
    (.ok (some callbacks), w)

/-- Change the world and announce it, and tell whether the change took place. Nothing comes between
the change and the beginning of its announcement. -/
def announcing (event : Event) (change : World σ → Except Fault Bool × World σ) :
    Attempt σ Bool := do
  match ← Attempt.ofExcept (← Attempt.lift (.update (World.announced event change))) with
  | none => return false
  | some callbacks =>
    deliver event callbacks
    return true

end Runbook
