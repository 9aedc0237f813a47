import Runbook.Routine

/-! # What routines yield

A routine yields whatever some worlds, some ends of its waits and some answers to its calls lead it
to. Nothing here says that those worlds belong to one run: what holds of every yield holds of every
run, and a run that is followed with its worlds comes to one of the yields.
-/

namespace Runbook

variable {σ α β : Type}

namespace Routine

/-- The routine can come to a value. -/
def Yields {α : Type} : Routine σ α → α → Prop
  | .done a, b => a = b
  | .act f k, b => ∃ w : World σ, Yields (k (f w).1) b
  | .wait _ k, b => ∃ wake, Yields (k wake) b
  | .call _ k, b => ∃ answer, Yields (k answer) b
  | .spawn _ k, b => ∃ id, Yields (k id) b

/-- How far a routine gets in a world by itself, before it waits, runs an errand or creates a task. -/
def ahead {α : Type} : Routine σ α → World σ → Routine σ α × World σ
  | .act f k, w => (k (f w).1).ahead (f w).2
  | p, w => (p, w)

theorem ahead_bind {p : Routine σ α} {w w' : World σ} {a : α} (f : α → Routine σ β)
    (first : p.ahead w = (.done a, w')) : (p.bind f).ahead w = (f a).ahead w' := by
  induction p generalizing w with
  | done =>
    cases first
    rfl
  | act g k ih => exact ih _ f first
  | wait => cases first
  | call => cases first
  | spawn => cases first

theorem yields_bind (p : Routine σ α) (f : α → Routine σ β) (b : β) :
    (p.bind f).Yields b ↔ ∃ a, p.Yields a ∧ (f a).Yields b := by
  induction p with
  | done a => simp [bind, Yields]
  | act g k ih =>
    simp only [bind, Yields, ih]
    constructor
    · rintro ⟨w, a, first, second⟩
      exact ⟨a, ⟨w, first⟩, second⟩
    · rintro ⟨a, ⟨w, first⟩, second⟩
      exact ⟨w, a, first, second⟩
  | wait cue k ih =>
    simp only [bind, Yields, ih]
    constructor
    · rintro ⟨wake, a, first, second⟩
      exact ⟨a, ⟨wake, first⟩, second⟩
    · rintro ⟨a, ⟨wake, first⟩, second⟩
      exact ⟨wake, a, first, second⟩
  | call errand k ih =>
    simp only [bind, Yields, ih]
    constructor
    · rintro ⟨answer, a, first, second⟩
      exact ⟨a, ⟨answer, first⟩, second⟩
    · rintro ⟨a, ⟨answer, first⟩, second⟩
      exact ⟨answer, a, first, second⟩
  | spawn body k _ ih =>
    simp only [bind, Yields, ih]
    constructor
    · rintro ⟨id, a, first, second⟩
      exact ⟨a, ⟨id, first⟩, second⟩
    · rintro ⟨a, ⟨id, first⟩, second⟩
      exact ⟨id, a, first, second⟩

end Routine

namespace Attempt

theorem ahead_update_bind (f : World σ → β × World σ) (g : β → Attempt σ α) (w : World σ) :
    (ExceptT.run (lift (.update f) >>= g)).ahead w = (ExceptT.run (g (f w).1)).ahead (f w).2 := rfl

/-- The attempt can come to a value, and not to a fault or a cancellation. -/
def Yields (p : Attempt σ α) (a : α) : Prop := (ExceptT.run p).Yields (.ok a)

theorem yields_pure (a b : α) : (pure a : Attempt σ α).Yields b ↔ a = b := by
  rw [Yields, run_pure]
  simp [Routine.Yields]

theorem not_yields_throw (e : Interrupt) (b : α) : ¬(throw e : Attempt σ α).Yields b := by
  rw [Yields, run_throw]
  simp [Routine.Yields]

theorem not_yields_fail (fault : Fault) (b : α) : ¬(fail fault : Attempt σ α).Yields b :=
  not_yields_throw _ b

theorem yields_ofExcept (r : Except Fault α) (b : α) :
    (ofExcept r : Attempt σ α).Yields b ↔ r = .ok b := by
  rw [Yields, run_ofExcept]
  cases r with
  | ok a =>
    change Except.ok a = Except.ok b ↔ _
    simp
  | error fault =>
    change Except.error _ = Except.ok b ↔ _
    simp

theorem yields_bind (p : Attempt σ α) (f : α → Attempt σ β) (b : β) :
    (p >>= f).Yields b ↔ ∃ a, p.Yields a ∧ (f a).Yields b := by
  simp only [Yields, run_bind, Routine.yields_bind]
  constructor
  · rintro ⟨outcome, first, second⟩
    cases outcome with
    | ok a => exact ⟨a, first, second⟩
    | error e => cases second
  · rintro ⟨a, first, second⟩
    exact ⟨.ok a, first, second⟩

theorem yields_tryCatch (p : Attempt σ α) (handle : Interrupt → Attempt σ α) (b : α) :
    (tryCatch p handle).Yields b ↔
      p.Yields b ∨ ∃ e, (ExceptT.run p).Yields (.error e) ∧ (handle e).Yields b := by
  simp only [Yields, run_tryCatch, Routine.yields_bind]
  constructor
  · rintro ⟨outcome, first, second⟩
    cases outcome with
    | ok a =>
      cases second
      exact .inl first
    | error e => exact .inr ⟨e, first, second⟩
  · rintro (first | ⟨e, first, second⟩)
    · exact ⟨.ok b, first, rfl⟩
    · exact ⟨.error e, first, second⟩

/-- An attempt in two parts fails in the first or in the second. -/
theorem yields_error_bind (p : Attempt σ α) (f : α → Attempt σ β) (e : Interrupt) :
    (ExceptT.run (p >>= f)).Yields (.error e) ↔
      (ExceptT.run p).Yields (.error e) ∨
        ∃ a, p.Yields a ∧ (ExceptT.run (f a)).Yields (.error e) := by
  simp only [Yields, run_bind, Routine.yields_bind]
  constructor
  · rintro ⟨outcome, first, second⟩
    cases outcome with
    | ok a => exact .inr ⟨a, first, second⟩
    | error e =>
      cases second
      exact .inl first
  · rintro (first | ⟨a, first, second⟩)
    · exact ⟨.error e, first, rfl⟩
    · exact ⟨.ok a, first, second⟩

theorem not_yields_error_lift (p : Routine σ α) (e : Interrupt) :
    ¬(ExceptT.run (lift p)).Yields (.error e) := by
  rw [run_lift, Routine.yields_bind]
  rintro ⟨a, _, second⟩
  cases second

/-! ## What holds of every yield -/

/-- Whatever the attempt comes to fulfils the property. -/
def Ensures (P : α → Prop) (p : Attempt σ α) : Prop := ∀ a, p.Yields a → P a

variable {P : α → Prop} {Q : β → Prop}

theorem Ensures.pure {a : α} (holds : P a) : Ensures P (Pure.pure a : Attempt σ α) := by
  intro b yields
  obtain rfl := (yields_pure a b).mp yields
  exact holds

theorem Ensures.fail (fault : Fault) : Ensures P (Attempt.fail fault : Attempt σ α) :=
  fun b yields => absurd yields (not_yields_fail fault b)

theorem Ensures.ofExcept {r : Except Fault α} (holds : ∀ a, r = .ok a → P a) :
    Ensures P (Attempt.ofExcept r : Attempt σ α) :=
  fun a yields => holds a ((yields_ofExcept r a).mp yields)

theorem Ensures.bind {p : Attempt σ α} {f : α → Attempt σ β} (first : Ensures P p)
    (last : ∀ a, P a → Ensures Q (f a)) : Ensures Q (p >>= f) := by
  intro b yields
  obtain ⟨a, before, after⟩ := (yields_bind p f b).mp yields
  exact last a (first a before) b after

/-- Only the last part of an attempt makes its results. -/
theorem Ensures.last {p : Attempt σ α} {f : α → Attempt σ β} (last : ∀ a, Ensures Q (f a)) :
    Ensures Q (p >>= f) :=
  .bind (P := fun _ => True) (fun _ _ => trivial) fun a _ => last a

end Attempt

end Runbook
