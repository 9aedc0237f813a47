import Runbook.Proofs.Story

/-! # Everyone who is registered hears of an event

An event goes to the callbacks that are registered for its kind when its announcement begins. Each registration
is served once, in order, and only after the one before; whatever callbacks do to the registrations meanwhile is
for the next announcement. A callback that fails is noted and keeps nobody else from hearing. Unless a callback
ends in a cancellation, the announcement returns as soon as the last of them has.
-/

namespace Runbook

open Machine

variable {σ : Type} {service : Service σ} {s : Story service} {t : TaskId} {event : Event} {n n₀ n₁ : Nat}
  {rest : Except Interrupt Unit → Routine σ Unit} {q : Routine σ (Except Interrupt Unit)}
  {deeds : List Story.Deed} {callbacks : List String} {callback : String}

/-! ## Delivery -/

/-- How a delivery goes on after a callback. -/
def delivering (event : Event) (callbacks : List String) :
    Except Interrupt Value → Routine σ (Except Interrupt Unit)
  | .ok _ => ExceptT.run (deliver event callbacks)
  | .error (.fault fault) => .act (fun w => ((), w.note (.callbackFailed event.kind fault.message))) fun _ =>
    ExceptT.run (deliver event callbacks)
  | .error (.cancelled message) => .done (.error (.cancelled message))

theorem run_deliver_cons (event : Event) (callback : String) (callbacks : List String) :
    ExceptT.run (deliver event (callback :: callbacks) : Attempt σ Unit) =
      .call (.observer callback event) (delivering event callbacks) := by
  rw [deliver, Attempt.run_bind]
  refine congrArg (Routine.call _) (funext fun answer => ?_)
  rcases answer with (fault | message) | v <;> rfl

theorem run_announcing (event : Event) (change : World σ → Except Fault Bool × World σ) :
    ExceptT.run (announcing event change) = .act (World.announced event change) fun
      | .error fault => .done (.error (.fault fault))
      | .ok none => .done (.ok false)
      | .ok (some callbacks) =>
        (ExceptT.run (deliver event callbacks)).bind fun outcome => .done (outcome.map fun _ => true) := by
  rw [announcing, Attempt.run_bind]
  refine congrArg (Routine.act _) (funext fun verdict => ?_)
  rcases verdict with fault | _ | callbacks
  · rfl
  · rfl
  · change ExceptT.run (deliver event callbacks >>= fun _ => pure true) = _
    rw [Attempt.run_bind]
    refine congrArg _ (funext fun outcome => ?_)
    cases outcome <;> rfl

namespace Story

/-- From one moment to another a task has called callbacks with an event, each once and as soon as the one before
had answered, and has noted the failures. -/
inductive Heard (s : Story service) (event : Event) : Nat → List String → List Deed → Nat → Prop
  | nobody (n : Nat) : Heard s event n [] [] n
  | answers {n n₁ n' : Nat} {callback : String} {callbacks : List String} {deeds : List Deed} (v : Value)
      (later : Heard s event n₁ callbacks deeds n') :
      Heard s event n (callback :: callbacks) (.ran (.observer callback event) (.ok v) n n₁ :: deeds) n'
  | fails {n n₁ n' : Nat} {callback : String} {callbacks : List String} {deeds : List Deed} (fault : Fault)
      (noted : s.world (n₁ + 1) = (s.world n₁).note (.callbackFailed event.kind fault.message))
      (later : Heard s event (n₁ + 1) callbacks deeds n') :
      Heard s event n (callback :: callbacks)
        (.ran (.observer callback event) (.error (.fault fault)) n n₁ :: .acted n₁ :: deeds) n'

/-- How far the delivery of an event to some callbacks has come that began at a moment: what has been done, what
is about to be done, and when. -/
inductive Delivering (s : Story service) (event : Event) (n₀ : Nat) :
    List String → List Deed → Routine σ (Except Interrupt Unit) → Nat → Prop
  /-- The next callback is about to be called. -/
  | calls {heard ahead : List String} {next : String} {deeds : List Deed} {n : Nat}
      {k : Except Interrupt Value → Routine σ (Except Interrupt Unit)} (hears : s.Heard event n₀ heard deeds n) :
      Delivering s event n₀ (heard ++ next :: ahead) deeds (.call (.observer next event) k) n
  /-- The failure of the last one is about to be noted. -/
  | notes {heard ahead : List String} {last : String} {deeds : List Deed} {n₁ n : Nat} {fault : Fault}
      {k : Unit → Routine σ (Except Interrupt Unit)} (hears : s.Heard event n₀ heard deeds n₁) :
      Delivering s event n₀ (heard ++ last :: ahead)
        (deeds ++ [.ran (.observer last event) (.error (.fault fault)) n₁ n])
        (.act (fun w => ((), w.note (.callbackFailed event.kind fault.message))) k) n
  /-- All have been called, and the delivery returns. -/
  | returns {callbacks : List String} {deeds : List Deed} {n : Nat} (hears : s.Heard event n₀ callbacks deeds n) :
      Delivering s event n₀ callbacks deeds (.done (.ok ())) n

namespace Delivering

theorem answers {v : Value} (later : s.Delivering event n₁ callbacks deeds q n) : s.Delivering event n₀
    (callback :: callbacks) (.ran (.observer callback event) (.ok v) n₀ n₁ :: deeds) q n := by
  cases later with
  | calls heard => exact .calls (.answers v heard)
  | notes heard => exact .notes (.answers v heard)
  | returns heard => exact .returns (.answers v heard)

theorem fails {fault : Fault}
    (noted : s.world (n₁ + 1) = (s.world n₁).note (.callbackFailed event.kind fault.message))
    (later : s.Delivering event (n₁ + 1) callbacks deeds q n) : s.Delivering event n₀ (callback :: callbacks)
      (.ran (.observer callback event) (.error (.fault fault)) n₀ n₁ :: .acted n₁ :: deeds) q n := by
  cases later with
  | calls heard => exact .calls (.fails fault noted heard)
  | notes heard => exact .notes (.fails fault noted heard)
  | returns heard => exact .returns (.fails fault noted heard)

end Delivering

/-- A delivery calls the callbacks one after the other, whatever they do. -/
theorem Follows.delivers (follows : s.Follows t rest (ExceptT.run (deliver event callbacks)) n₀ deeds q n)
    (uncancelled : Uncancelled deeds) : s.Delivering event n₀ callbacks deeds q n := by
  induction callbacks generalizing n₀ deeds with
  | nil =>
    obtain ⟨rfl, rfl, rfl⟩ := follows.of_done
    exact .returns (.nobody n)
  | cons callback callbacks ih =>
    rw [run_deliver_cons] at follows
    cases follows with
    | here => exact .calls (.nobody _)
    | @call _ _ _ _ _ answer _ _ _ _ _ runs serves later =>
      obtain ⟨uncut, others⟩ := uncancelled_cons.mp uncancelled
      rcases answer with (fault | message) | v
      · cases later with
        | here => exact .notes (.nobody _)
        | act runs later => exact .fails runs.act.2 (ih later (uncancelled_cons.mp others).2)
      · cases uncut
      · exact .answers (ih later others)

/-- Whenever a callback is called on the way through a routine, it answers, and not with a cancellation. -/
def Obliging (s : Story service) (t : TaskId) (rest : Except Interrupt Unit → Routine σ Unit)
    (p : Routine σ (Except Interrupt Unit)) (n₀ : Nat) : Prop :=
  ∀ deeds callback event k n, s.Follows t rest p n₀ deeds (.call (.observer callback event) k) n →
    ∃ inner answer n', s.Follows t (fun answer => (k answer).bind rest) (service (.observer callback event)) (n + 1)
      inner (.done answer) n' ∧ ∀ message, answer ≠ .error (.cancelled message)

theorem Obliging.later {p : Routine σ (Except Interrupt Unit)} (obliging : s.Obliging t rest p n₀)
    (follows : s.Follows t rest p n₀ deeds q n₁) : s.Obliging t rest q n₁ :=
  fun _ _ _ _ _ calls => obliging _ _ _ _ _ (follows.trans calls)

end Story

/-- The same is so of an announcement that is made at once with a change of the world, if the change takes place: it
goes to the callbacks that are registered then. -/
theorem announced_change_heard {change : World σ → Except Fault Bool × World σ}
    {q : Routine σ (Except Interrupt Bool)} {rest : Except Interrupt Bool → Routine σ Unit}
    (takes : (change (s.world n₀)).1 = .ok true)
    (follows : s.Follows t rest (ExceptT.run (announcing event change)) n₀ deeds q n)
    (uncancelled : Story.Uncancelled deeds) :
    (deeds = [] ∧ q = ExceptT.run (announcing event change) ∧ n = n₀) ∨
      ∃ later left, deeds = .acted n₀ :: later ∧ q = left.bind (fun outcome => .done (outcome.map fun _ => true)) ∧
        s.Delivering event (n₀ + 1) ((s.world (n₀ + 1)).bus.callbacks event.kind) later left n := by
  rw [run_announcing] at follows ⊢
  cases follows with
  | here => exact .inl ⟨rfl, rfl, rfl⟩
  | @act _ _ _ _ _ _ others _ _ runs later =>
    have world := runs.act.2
    obtain ⟨w, changed⟩ : ∃ w, change (s.world n₀) = (.ok true, w) := ⟨_, Prod.ext takes rfl⟩
    simp only [World.announced, changed] at world later
    have registered : (s.world (n₀ + 1)).bus = w.bus := by rw [world, World.announcement, World.note]
    refine .inr ⟨others, ?_⟩
    rw [registered]
    obtain ⟨left, delivers, rfl⟩ := later.bind_done
    exact ⟨left, rfl, rfl, delivers.delivers (Story.uncancelled_cons.mp uncancelled).2⟩

/-! ## Unruly observers -/

end Runbook
