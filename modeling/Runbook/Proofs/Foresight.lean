import Runbook.Proofs.Punctuality

/-! # What interpretations come to is settled

Interpretations are punctual: if no operator is waited for and an authority answers by what it is asked alone, then the
step, its context and the moment at which it is begun settle what it comes to, durations included, and when. Which
callbacks are told of it, and how often they suspend it, makes no difference.
-/

namespace Runbook

open Interpreter

variable {σ : Type} {h : Habits} {i : Interpreter σ} {context : Context} {x y : Moment} {t : TaskId} {b : Post}

/-! ## Announcements -/

namespace Interpreter

/-! ## Calls of tools -/

/-- An interpreter whose work depends on nothing but the work and the clock. -/
structure Settled (i : Interpreter σ) : Prop extends i.Steady where
  goesOn : ∀ w, w.ledger.Calm → i.isCancelled w = false

section

variable [Nonempty σ]

end

/-! ## Steps -/

end Interpreter

end Runbook
