import Runbook.Proofs.Cancellation
import Runbook.Proofs.Presentation
import Runbook.Proofs.Retirement

/-! # Confirmations of cancellations

A cancellation retires its execution at once and then tells the observers, who can take their time. Only when all
of them are through does the interface look the execution up again, to show what has become of it. By then the
history can have been cleared, or can have given up the execution for others; and a history that keeps nothing has
never had it.
-/

namespace Runbook

open Machine Web

variable {σ : Type} {e : Engine σ} {host : Host σ} {m m' : Machine σ} {w : World σ} {task : TaskId} {id : String}
  {x : Execution}

/-! ## What a cancellation comes to -/

namespace Web

variable {i : Interface σ} {r : Request} {number : Nat} {response : Response} {old new : List Happening}

/-! ## Requests to cancel -/

/-- What is answered when the execution was looked up again. -/
def lookedUp : Option Execution → Except Interrupt Response
  | some x => ((view x).map (Response.document 200)).mapError .fault
  | none => .error (.fault (.noAttribute "NoneType" "to_dict"))

/-- What the interface does when the engine is through with a cancellation. -/
def confirm (id : String) : Except Interrupt Bool → Routine σ (Except Interrupt Response)
  | .ok true => (Routine.look fun w => w.ledger.find? id).bind fun found => .done (lookedUp found)
  | .ok false => .done (.error (.fault (.notFound ("No active execution '" ++ id ++ "'"))))
  | .error interrupt => .done (.error interrupt)

theorem run_cancel (i : Interface σ) (id : String) :
    ExceptT.run (i.cancel id) = (ExceptT.run (i.engine.cancel id)).bind (confirm id) := by
  rw [Interface.cancel, Attempt.run_bind]
  congr 1
  funext outcome
  rcases outcome with interrupt | (_ | _)
  · rfl
  · rfl
  · change Routine.act _ _ = Routine.act _ _
    congr 1
    funext found
    cases found with
    | none => rfl
    | some x =>
      change ExceptT.run (Interface.shown 200 x) = .done (lookedUp (some x))
      rw [Interface.shown, lookedUp]
      cases view x <;> rfl

end Web

end Runbook
