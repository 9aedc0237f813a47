import Runbook.Proofs.Yield

/-! # Protocols of tasks

Tasks that take turns share the books of an engine: its ledger and its journal. A protocol says what
the books look like between any two acts, what a task may do to them, and what a task can count on
while others have their turns. For some executions a task holds a course, which is what it knows about
them and no other task may change; courses are handed on when a task creates another one.

Clock, queue, gate, latches, registrations and memories are not part of the books. Nothing is assumed
about them, so that a routine that follows a protocol does so under every schedule and with every host.
-/

namespace Runbook

variable {σ α β : Type}

/-- What an engine keeps for good. -/
structure Books where
  ledger : Ledger
  journal : List Happening

/-- The books in a world. -/
def World.books (w : World σ) : Books := { ledger := w.ledger, journal := w.journal }

/-- The courses that a task holds. -/
abbrev Hold (γ : Type) := String → Option γ

namespace Hold

variable {γ : Type}

/-- No course at all. -/
def idle : Hold γ := fun _ => none

/-- The courses with one for an execution. -/
def put (s : Hold γ) (id : String) (course : γ) : Hold γ :=
  fun other => if other = id then some course else s other

/-- The courses without one for an execution. -/
def drop (s : Hold γ) (id : String) : Hold γ := fun other => if other = id then none else s other

/-- No execution has a course in both. -/
def Apart (s t : Hold γ) : Prop := ∀ id, s id = none ∨ t id = none

/-- Courses that are all among others. -/
def Within (s t : Hold γ) : Prop := ∀ id course, s id = some course → t id = some course

theorem Apart.symm {s t : Hold γ} (apart : s.Apart t) : t.Apart s := fun id => (apart id).symm

theorem idle_apart (s : Hold γ) : idle.Apart s := fun _ => .inl rfl

theorem idle_within (s : Hold γ) : idle.Within s := fun _ _ found => nomatch found

theorem Within.refl (s : Hold γ) : s.Within s := fun _ _ found => found

theorem Within.apart {s t u : Hold γ} (within : s.Within t) (apart : t.Apart u) : s.Apart u := by
  intro id
  rcases apart id with none | none
  · left
    cases found : s id with
    | none => rfl
    | some course =>
      have held := within id course found
      rw [none] at held
      cases held
  · exact .inr none

theorem drop_within (s : Hold γ) (id : String) : (s.drop id).Within s := by
  intro other course found
  unfold drop at found
  split at found
  · cases found
  · exact found

@[simp] theorem put_self (s : Hold γ) (id : String) (course : γ) : s.put id course id = some course := by
  simp [put]

theorem put_other (s : Hold γ) {id other : String} (course : γ) (different : other ≠ id) :
    s.put id course other = s other := by
  simp [put, different]

@[simp] theorem drop_self (s : Hold γ) (id : String) : s.drop id id = none := by simp [drop]

theorem drop_other (s : Hold γ) {id other : String} (different : other ≠ id) :
    s.drop id other = s other := by
  simp [drop, different]

theorem drop_put {s : Hold γ} {id : String} (free : s id = none) (course : γ) :
    (s.put id course).drop id = s := by
  funext other
  by_cases same : other = id
  · subst same
    rw [drop_self, free]
  · rw [drop_other _ same, put_other s course same]

theorem within_put {s : Hold γ} {id : String} (free : s id = none) (course : γ) :
    s.Within (s.put id course) := by
  intro other known held
  have different : other ≠ id := by
    rintro rfl
    rw [free] at held
    cases held
  rw [put_other s course different]
  exact held

theorem put_idle_within (s : Hold γ) (id : String) (course : γ) :
    (Hold.put idle id course).Within (s.put id course) := by
  intro other known held
  by_cases same : other = id
  · subst same
    rw [put_self] at held ⊢
    exact held
  · rw [put_other idle course same] at held
    cases held

theorem apart_put {s : Hold γ} {id : String} (free : s id = none) (course : γ) :
    s.Apart (Hold.put idle id course) := by
  intro other
  by_cases same : other = id
  · subst same
    exact .inl free
  · exact .inr (put_other idle course same)

end Hold

section

variable {γ : Type} {id : String} {s s' s₁ s₂ s₃ : Hold γ} {course : γ} {Φ Ψ : γ → Prop}

/-- Nothing but the course for one execution can differ. -/
def SameElsewhere (id : String) (s s' : Hold γ) : Prop := ∀ other, other ≠ id → s' other = s other

/-- A task holds an execution with a course of a sort, and the same as before of all others. -/
def Drives (id : String) (s s' : Hold γ) (Φ : γ → Prop) : Prop :=
  SameElsewhere id s s' ∧ ∃ course, s' id = some course ∧ Φ course

theorem sameElsewhere_drop (s : Hold γ) (id : String) : SameElsewhere id s (s.drop id) :=
  fun _ different => Hold.drop_other s different

theorem sameElsewhere_put (s : Hold γ) (id : String) (course : γ) : SameElsewhere id s (s.put id course) :=
  fun _ different => Hold.put_other s course different

theorem SameElsewhere.trans (first : SameElsewhere id s₁ s₂) (second : SameElsewhere id s₂ s₃) :
    SameElsewhere id s₁ s₃ :=
  fun other different => (second other different).trans (first other different)

theorem SameElsewhere.drop (same : SameElsewhere id s s') : s'.drop id = s.drop id := by
  funext other
  unfold Hold.drop
  split
  · rfl
  · next different => exact same other different

theorem Drives.trans (first : Drives id s₁ s₂ Φ) (second : Drives id s₂ s₃ Ψ) : Drives id s₁ s₃ Ψ :=
  ⟨first.1.trans second.1, second.2⟩

theorem Drives.mono (drives : Drives id s s' Φ) (weaker : ∀ course, Φ course → Ψ course) :
    Drives id s s' Ψ := by
  obtain ⟨others, course, held, known⟩ := drives
  exact ⟨others, course, held, weaker course known⟩

theorem drives_put (s : Hold γ) (known : Φ course) : Drives id s (s.put id course) Φ :=
  ⟨sameElsewhere_put s id course, course, Hold.put_self s id course, known⟩

theorem drives_same (held : s id = some course) (known : Φ course) : Drives id s s Φ :=
  ⟨fun _ _ => rfl, course, held, known⟩

end

/-- What tasks may do to the books and can count on. -/
structure Protocol where
  /-- What is known about an execution by the one task that holds it. -/
  Course : Type
  /-- The books between any two acts. -/
  Valid : Books → Prop
  /-- The books bear a course out. -/
  Bears : String → Course → Books → Prop
  /-- An act of a task: what it holds, the books before and after, and what it holds then. -/
  Deed : Hold Course → Books → Books → Hold Course → Prop
  /-- The books can have come from earlier ones. -/
  Later : Books → Books → Prop
  /-- The books allow an errand. -/
  Allows : Errand → Books → Prop

namespace Protocol

/-- The books bear out all courses that a task holds. -/
def Backs (P : Protocol) (s : Hold P.Course) (b : Books) : Prop :=
  ∀ id course, s id = some course → P.Bears id course b

/-- A task is in a position to act. -/
structure Stands (P : Protocol) (s : Hold P.Course) (b : Books) : Prop where
  valid : P.Valid b
  backs : P.Backs s b

/-- The laws of a protocol: time passes, a deed keeps the books valid and bears out what its task
holds afterwards, and no deed touches the courses of others. -/
structure Lawful (P : Protocol) : Prop where
  later_refl : ∀ b, P.Later b b
  later_trans : ∀ {b₁ b₂ b₃}, P.Later b₁ b₂ → P.Later b₂ b₃ → P.Later b₁ b₃
  rest : ∀ s b, P.Deed s b b s
  stands : ∀ {s b b' s'}, P.Stands s b → P.Deed s b b' s' → P.Stands s' b'
  later : ∀ {s b b' s'}, P.Stands s b → P.Deed s b b' s' → P.Later b b'
  frame : ∀ {s b b' s' t}, P.Stands s b → P.Deed s b b' s' → s.Apart t → P.Backs t b →
    s'.Apart t ∧ P.Backs t b'

variable {P : Protocol}

theorem Backs.within {s t : Hold P.Course} {b : Books} (backs : P.Backs t b) (within : s.Within t) :
    P.Backs s b :=
  fun id course found => backs id course (within id course found)

theorem backs_idle (b : Books) : P.Backs Hold.idle b := fun _ _ found => nomatch found

theorem Stands.within {s t : Hold P.Course} {b : Books} (stands : P.Stands t b)
    (within : s.Within t) : P.Stands s b :=
  ⟨stands.valid, stands.backs.within within⟩

end Protocol

end Runbook
