import Runbook.Proofs.Protocol

/-! # Routines that obey a protocol

A routine obeys a protocol if each of its acts is a deed, if it calls only what it may, and if it hands
on only what it holds. While it waits or a call is under way the books can become any later ones that
are valid and bear out what the routine holds. What is true when it is done is its postcondition.

Most routines hold nothing themselves and run inside one that may hold anything: those are neutral.
-/

namespace Runbook

variable {σ α β : Type} {P : Protocol}

/-- Followed from given courses and books, the routine obeys the protocol and ends as it says. -/
def Routine.Obeys {α : Type} (P : Protocol) : Routine σ α → Hold P.Course → Books →
    (α → Hold P.Course → Books → Prop) → Prop
  | .done a, s, b, Q => Q a s b
  | .act f k, s, b, Q => ∀ w : World σ, w.books = b →
    ∃ s', P.Deed s b (f w).2.books s' ∧ (k (f w).1).Obeys P s' (f w).2.books Q
  | .wait _ k, s, b, Q => ∀ wake b', P.Stands s b' → P.Later b b' → (k wake).Obeys P s b' Q
  | .call errand k, s, b, Q => P.Allows errand b ∧
    ∀ answer b', P.Stands s b' → P.Later b b' → (k answer).Obeys P s b' Q
  | .spawn body k, s, b, Q => ∀ id, ∃ own given : Hold P.Course,
    own.Within s ∧ given.Within s ∧ own.Apart given ∧
    (∀ b', P.Stands given b' → P.Later b b' → (body id).Obeys P given b' fun _ _ _ => True) ∧
    (k id).Obeys P own b Q

namespace Routine

theorem Obeys.mono {p : Routine σ α} {s : Hold P.Course} {b : Books}
    {Q R : α → Hold P.Course → Books → Prop} (obeys : p.Obeys P s b Q)
    (weaker : ∀ a s b, Q a s b → R a s b) : p.Obeys P s b R := by
  induction p generalizing s b with
  | done a => exact weaker a s b obeys
  | act f k ih =>
    intro w books
    obtain ⟨s', deed, rest⟩ := obeys w books
    exact ⟨s', deed, ih _ rest weaker⟩
  | wait cue k ih => exact fun wake b' stands later => ih wake (obeys wake b' stands later) weaker
  | call errand k ih =>
    exact ⟨obeys.1, fun answer b' stands later => ih answer (obeys.2 answer b' stands later) weaker⟩
  | spawn body k _ ih =>
    intro id
    obtain ⟨own, given, ownWithin, givenWithin, apart, child, rest⟩ := obeys id
    exact ⟨own, given, ownWithin, givenWithin, apart, child, ih id rest weaker⟩

/-- What follows a routine starts at later books, from what the routine has left behind. -/
theorem Obeys.bind (lawful : P.Lawful) {p : Routine σ α} {f : α → Routine σ β} {s : Hold P.Course}
    {b : Books} {Q : α → Hold P.Course → Books → Prop} {R : β → Hold P.Course → Books → Prop}
    (stands : P.Stands s b) (first : p.Obeys P s b Q)
    (next : ∀ a s' b', P.Stands s' b' → P.Later b b' → Q a s' b' → (f a).Obeys P s' b' R) :
    (p.bind f).Obeys P s b R := by
  induction p generalizing s b with
  | done a => exact next a s b stands (lawful.later_refl b) first
  | act g k ih =>
    intro w books
    obtain ⟨s', deed, rest⟩ := first w books
    have later := lawful.later stands deed
    refine ⟨s', deed, ih _ (lawful.stands stands deed) rest ?_⟩
    exact fun a s'' b'' stands'' later'' => next a s'' b'' stands'' (lawful.later_trans later later'')
  | wait cue k ih =>
    intro wake b' stands' later
    refine ih wake stands' (first wake b' stands' later) ?_
    exact fun a s'' b'' stands'' later'' => next a s'' b'' stands'' (lawful.later_trans later later'')
  | call errand k ih =>
    refine ⟨first.1, fun answer b' stands' later => ?_⟩
    refine ih answer stands' (first.2 answer b' stands' later) ?_
    exact fun a s'' b'' stands'' later'' => next a s'' b'' stands'' (lawful.later_trans later later'')
  | spawn body k _ ih =>
    intro id
    obtain ⟨own, given, ownWithin, givenWithin, apart, child, rest⟩ := first id
    exact ⟨own, given, ownWithin, givenWithin, apart, child,
      ih id (stands.within ownWithin) rest next⟩

/-- A routine that is followed with its worlds comes to one of its yields. -/
theorem Obeys.yields {p : Routine σ α} {s : Hold P.Course} {b : Books}
    {Q : α → Hold P.Course → Books → Prop} (obeys : p.Obeys P s b Q) :
    p.Obeys P s b fun a s' b' => Q a s' b' ∧ p.Yields a := by
  induction p generalizing s b with
  | done a => exact ⟨obeys, rfl⟩
  | act f k ih =>
    intro w books
    obtain ⟨s', deed, rest⟩ := obeys w books
    exact ⟨s', deed, (ih _ rest).mono fun _ _ _ known => ⟨known.1, w, known.2⟩⟩
  | wait cue k ih =>
    intro wake b' stands later
    exact (ih wake (obeys wake b' stands later)).mono fun _ _ _ known => ⟨known.1, wake, known.2⟩
  | call errand k ih =>
    refine ⟨obeys.1, fun answer b' stands later => ?_⟩
    exact (ih answer (obeys.2 answer b' stands later)).mono fun _ _ _ known =>
      ⟨known.1, answer, known.2⟩
  | spawn body k _ ih =>
    intro id
    obtain ⟨own, given, ownWithin, givenWithin, apart, child, rest⟩ := obeys id
    exact ⟨own, given, ownWithin, givenWithin, apart, child,
      (ih id rest).mono fun _ _ _ known => ⟨known.1, id, known.2⟩⟩

end Routine

/-! ## Neutral routines -/

namespace Protocol

/-- What has once been so in the books stays so. -/
def Lasting (P : Protocol) (A : Books → Prop) : Prop := ∀ b b', P.Later b b' → A b → A b'

/-- From books of a sort on, the routine obeys the protocol whatever it holds, and holds the same when
it is done. -/
def Neutral (P : Protocol) (A : Books → Prop) (p : Routine σ α) : Prop :=
  ∀ s b, P.Stands s b → A b → p.Obeys P s b fun _ s' _ => s' = s

namespace Neutral

variable {A : Books → Prop}

theorem done (a : α) : P.Neutral A (.done a : Routine σ α) := fun _ _ _ _ => rfl

theorem bind (lawful : P.Lawful) (lasting : P.Lasting A) {p : Routine σ α} {f : α → Routine σ β}
    (first : P.Neutral A p) (next : ∀ a, P.Neutral A (f a)) : P.Neutral A (p.bind f) := by
  intro s b stands known
  refine (first s b stands known).bind lawful stands ?_
  rintro a s b' stands' later rfl
  exact next a s b' stands' (lasting b b' later known)

/-- A change of the world that is a deed whatever the task holds. -/
theorem update {f : World σ → α × World σ}
    (deed : ∀ s w, P.Stands s w.books → A w.books → P.Deed s w.books (f w).2.books s) :
    P.Neutral A (.update f) := by
  rintro s _ stands known w rfl
  exact ⟨s, deed s w stands known, rfl⟩

theorem change {f : World σ → World σ}
    (deed : ∀ s w, P.Stands s w.books → A w.books → P.Deed s w.books (f w).books s) :
    P.Neutral A (.change f) := by
  rintro s _ stands known w rfl
  exact ⟨s, deed s w stands known, rfl⟩

theorem look (lawful : P.Lawful) (f : World σ → α) : P.Neutral A (.look f) := by
  rintro s _ _ _ w rfl
  exact ⟨s, lawful.rest s _, rfl⟩

/-- A change of the world that leaves the books alone. -/
theorem update_same (lawful : P.Lawful) {f : World σ → α × World σ}
    (books : ∀ w, (f w).2.books = w.books) : P.Neutral A (.update f) := by
  refine .update fun s w _ _ => ?_
  rw [books w]
  exact lawful.rest s _

theorem change_same (lawful : P.Lawful) {f : World σ → World σ}
    (books : ∀ w, (f w).books = w.books) : P.Neutral A (.change f) := by
  refine .change fun s w _ _ => ?_
  rw [books w]
  exact lawful.rest s _

theorem await (cue : Cue) : P.Neutral A (.await cue : Routine σ Wake) := fun _ _ _ _ _ _ _ _ => rfl

theorem perform {errand : Errand} (allowed : ∀ b, A b → P.Allows errand b) :
    P.Neutral A (.perform errand : Routine σ (Except Interrupt Value)) :=
  fun _ b _ known => ⟨allowed b known, fun _ _ _ _ => rfl⟩

/-- A task that is created by a neutral routine gets nothing to hold. -/
theorem create (lasting : P.Lasting A) {body : TaskId → Routine σ Unit}
    (child : ∀ id, P.Neutral A (body id)) : P.Neutral A (.create body) := by
  intro s b _ known id
  refine ⟨s, Hold.idle, .refl s, Hold.idle_within s, (Hold.idle_apart s).symm, ?_, rfl⟩
  intro b' stands later
  exact (child id _ b' stands (lasting b b' later known)).mono fun _ _ _ _ => trivial

end Neutral

end Protocol

/-! ## Attempts -/

namespace Attempt

/-- The attempt obeys the protocol, with one postcondition for its success and one for its end in a
fault or a cancellation. -/
def Obeys (P : Protocol) (p : Attempt σ α) (s : Hold P.Course) (b : Books)
    (Q : α → Hold P.Course → Books → Prop) (E : Interrupt → Hold P.Course → Books → Prop) : Prop :=
  (ExceptT.run p).Obeys P s b fun outcome s' b' => match outcome with
    | .ok a => Q a s' b'
    | .error e => E e s' b'

/-- The attempt is neutral, however it ends. -/
def Neutral (P : Protocol) (A : Books → Prop) (p : Attempt σ α) : Prop := P.Neutral A (ExceptT.run p)

theorem Obeys.mono {p : Attempt σ α} {s : Hold P.Course} {b : Books}
    {Q R : α → Hold P.Course → Books → Prop} {E F : Interrupt → Hold P.Course → Books → Prop}
    (obeys : p.Obeys P s b Q E) (success : ∀ a s b, Q a s b → R a s b)
    (failure : ∀ e s b, E e s b → F e s b) : p.Obeys P s b R F := by
  refine Routine.Obeys.mono obeys ?_
  rintro (e | a) s b known
  · exact failure e s b known
  · exact success a s b known

theorem Obeys.bind (lawful : P.Lawful) {p : Attempt σ α} {f : α → Attempt σ β} {s : Hold P.Course}
    {b : Books} {Q : α → Hold P.Course → Books → Prop} {R : β → Hold P.Course → Books → Prop}
    {E F : Interrupt → Hold P.Course → Books → Prop}
    (stands : P.Stands s b) (first : p.Obeys P s b Q E)
    (next : ∀ a s' b', P.Stands s' b' → P.Later b b' → Q a s' b' → (f a).Obeys P s' b' R F)
    (failure : ∀ e s' b', P.Stands s' b' → P.Later b b' → E e s' b' → F e s' b') :
    (p >>= f).Obeys P s b R F := by
  rw [Obeys, run_bind]
  refine Routine.Obeys.bind lawful stands first ?_
  rintro (e | a) s' b' stands' later known
  · exact failure e s' b' stands' later known
  · exact next a s' b' stands' later known

/-- A routine that cannot fail, followed by an attempt. -/
theorem Obeys.lift_bind (lawful : P.Lawful) {p : Routine σ α} {f : α → Attempt σ β}
    {s : Hold P.Course} {b : Books} {Q : α → Hold P.Course → Books → Prop}
    {R : β → Hold P.Course → Books → Prop} {E : Interrupt → Hold P.Course → Books → Prop}
    (stands : P.Stands s b) (first : p.Obeys P s b Q)
    (next : ∀ a s' b', P.Stands s' b' → P.Later b b' → Q a s' b' → (f a).Obeys P s' b' R E) :
    (lift p >>= f).Obeys P s b R E := by
  rw [Obeys, run_bind, run_lift, Routine.bind_bind]
  exact first.bind lawful stands next

theorem Obeys.tryCatch (lawful : P.Lawful) {p : Attempt σ α} {handle : Interrupt → Attempt σ α}
    {s : Hold P.Course} {b : Books} {Q R : α → Hold P.Course → Books → Prop}
    {E F : Interrupt → Hold P.Course → Books → Prop}
    (stands : P.Stands s b) (first : p.Obeys P s b Q E)
    (success : ∀ a s' b', P.Stands s' b' → P.Later b b' → Q a s' b' → R a s' b')
    (handled : ∀ e s' b', P.Stands s' b' → P.Later b b' → E e s' b' → (handle e).Obeys P s' b' R F) :
    (tryCatch p handle).Obeys P s b R F := by
  rw [Obeys, run_tryCatch]
  refine Routine.Obeys.bind lawful stands first ?_
  rintro (e | a) s' b' stands' later known
  · exact handled e s' b' stands' later known
  · exact success a s' b' stands' later known

theorem Obeys.ensuring (lawful : P.Lawful) {p : Attempt σ α} {last : Routine σ Unit}
    {s : Hold P.Course} {b : Books} {Q R : α → Hold P.Course → Books → Prop}
    {E F : Interrupt → Hold P.Course → Books → Prop}
    (stands : P.Stands s b) (first : p.Obeys P s b Q E)
    (success : ∀ a s' b', P.Stands s' b' → P.Later b b' → Q a s' b' →
      last.Obeys P s' b' fun _ => R a)
    (failure : ∀ e s' b', P.Stands s' b' → P.Later b b' → E e s' b' →
      last.Obeys P s' b' fun _ => F e) :
    (p.ensuring last).Obeys P s b R F := by
  refine Routine.Obeys.bind lawful stands first ?_
  rintro (e | a) s' b' stands' later known
  · exact (failure e s' b' stands' later known).bind lawful stands' fun _ _ _ _ _ known => known
  · exact (success a s' b' stands' later known).bind lawful stands' fun _ _ _ _ _ known => known

theorem obeys_pure_bind {a : α} {f : α → Attempt σ β} {s : Hold P.Course} {b : Books}
    {Q : β → Hold P.Course → Books → Prop} {E : Interrupt → Hold P.Course → Books → Prop}
    (known : (f a).Obeys P s b Q E) : ((pure a : Attempt σ α) >>= f).Obeys P s b Q E := known

theorem obeys_fail_bind {fault : Fault} {f : α → Attempt σ β} {s : Hold P.Course} {b : Books}
    {Q : β → Hold P.Course → Books → Prop} {E : Interrupt → Hold P.Course → Books → Prop}
    (known : E (.fault fault) s b) : ((fail fault : Attempt σ α) >>= f).Obeys P s b Q E := known

theorem obeys_ofExcept {r : Except Fault α} {s : Hold P.Course} {b : Books}
    {Q : α → Hold P.Course → Books → Prop} {E : Interrupt → Hold P.Course → Books → Prop}
    (success : ∀ a, r = .ok a → Q a s b) (failure : ∀ fault, r = .error fault → E (.fault fault) s b) :
    (ofExcept r : Attempt σ α).Obeys P s b Q E := by
  cases r with
  | ok a => exact success a rfl
  | error fault => exact failure fault rfl

namespace Neutral

variable {A : Books → Prop}

theorem of_obeys {p : Attempt σ α}
    (obeys : ∀ s b, P.Stands s b → A b →
      p.Obeys P s b (fun _ s' _ => s' = s) fun _ s' _ => s' = s) : p.Neutral P A := by
  intro s b stands known
  refine Routine.Obeys.mono (obeys s b stands known) ?_
  rintro (e | a) s' b' same
  · exact same
  · exact same

theorem pure (a : α) : (Pure.pure a : Attempt σ α).Neutral P A := by
  rw [Neutral, run_pure]
  exact Protocol.Neutral.done _

theorem throw (e : Interrupt) : (MonadExcept.throw e : Attempt σ α).Neutral P A := by
  rw [Neutral, run_throw]
  exact Protocol.Neutral.done _

theorem fail (fault : Fault) : (Attempt.fail fault : Attempt σ α).Neutral P A := throw _

theorem ofExcept (r : Except Fault α) : (Attempt.ofExcept r : Attempt σ α).Neutral P A := by
  cases r with
  | ok a => exact pure a
  | error fault => exact throw _

theorem bind (lawful : P.Lawful) (lasting : P.Lasting A) {p : Attempt σ α} {f : α → Attempt σ β}
    (first : p.Neutral P A) (next : ∀ a, (f a).Neutral P A) : (p >>= f).Neutral P A := by
  rw [Neutral, run_bind]
  refine Protocol.Neutral.bind lawful lasting first ?_
  rintro (e | a)
  · exact Protocol.Neutral.done _
  · exact next a

theorem tryCatch (lawful : P.Lawful) (lasting : P.Lasting A) {p : Attempt σ α}
    {handle : Interrupt → Attempt σ α} (first : p.Neutral P A)
    (handled : ∀ e, (handle e).Neutral P A) : (MonadExcept.tryCatch p handle).Neutral P A := by
  rw [Neutral, run_tryCatch]
  refine Protocol.Neutral.bind lawful lasting first ?_
  rintro (e | a)
  · exact handled e
  · exact Protocol.Neutral.done _

theorem lift (lawful : P.Lawful) (lasting : P.Lasting A) {p : Routine σ α} (first : P.Neutral A p) :
    (Attempt.lift p).Neutral P A := by
  rw [Neutral, run_lift]
  exact Protocol.Neutral.bind lawful lasting first fun _ => Protocol.Neutral.done _

theorem await (lawful : P.Lawful) (lasting : P.Lasting A) (cue : Cue) :
    (Attempt.await cue : Attempt σ Unit).Neutral P A := by
  refine bind lawful lasting (lift lawful lasting (Protocol.Neutral.await cue)) ?_
  rintro (_ | _)
  · exact pure ()
  · exact throw _

end Neutral

end Attempt

end Runbook
