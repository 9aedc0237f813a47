import Runbook.Event

/-! # Registrations for events

Callbacks are registered for a kind of event and called in the order of their registration. A
callback can be registered several times; taking one registration back removes the earliest of that
callback.
-/

namespace Runbook

/-- Registered callbacks by name, each with the kind of event it is for, in order. -/
structure Bus where
  registrations : List (EventKind × String) := []

namespace Bus

/-- The callbacks for a kind of event, in the order of registration. -/
def callbacks (b : Bus) (kind : EventKind) : List String :=
  (b.registrations.filter (·.1 == kind)).map (·.2)

/-- The bus with one more registration. -/
def subscribe (b : Bus) (kind : EventKind) (callback : String) : Bus :=
  { b with registrations := b.registrations ++ [(kind, callback)] }

/-- The bus without the earliest registration of a callback for a kind of event, and whether there was
one. -/
def unsubscribe (b : Bus) (kind : EventKind) (callback : String) : Bus × Bool :=
  if b.registrations.contains (kind, callback) then
    ({ b with registrations := b.registrations.erase (kind, callback) }, true)
  else (b, false)

end Bus

end Runbook
