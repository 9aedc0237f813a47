import Runbook.Proofs.Governance
import Runbook.Proofs.Itinerary

/-! # The progress of executions

A second protocol of the engine's tasks, about nothing but the order of moves. The driver of an execution
holds the leg that it is on, and nobody else makes a move for it. Between any two acts the moves in the
journal lead somewhere, a cancellation that has found an execution is on its record, and no step has been
announced as started after one.
-/

namespace Runbook

open Books

variable {id : String} {b b' : Books} {s s' : Hold Leg} {l l' : Leg}
  {x y : Execution} {new : List Happening} {h : Happening} {move : Move}

namespace Books

/-- The moves of all executions are in order, between any two acts. -/
structure Tracked (b : Books) : Prop where
  orderly : b.ledger.Orderly
  way : ∀ id, ∃ l, leg id b.journal = some l
  unmoved : ∀ id, b.record? id = none → moves id b.journal = []
  heeded : ∀ id, Heeds id b.journal
  withdrawn : ∀ id, .cancelled id ∈ b.journal → Requested id b
  requested : ∀ id x, b.record? id = some x → x.cancelRequested = true → x.status = .cancelled

/-- The execution is on record, and its moves have led to the leg. -/
def On (id : String) (l : Leg) (b : Books) : Prop :=
  (∃ x, b.record? id = some x) ∧ leg id b.journal = some l

/-- The books can have come from earlier ones. -/
structure Onward (b b' : Books) : Prop where
  journal : ∃ new, b'.journal = new ++ b.journal
  records : ∀ id x, b.record? id = some x → ∃ x', b'.record? id = some x' ∧
    (x.cancelRequested = true → x'.cancelRequested = true)

/-- What an act leaves behind: books in order and from the earlier ones, which bear out what the actor
holds then. Executions that the actor did not hold have not moved, and it takes only new ones. -/
structure Advance (s : Hold Leg) (b b' : Books) (s' : Hold Leg) : Prop where
  tracked : Tracked b'
  onward : Onward b b'
  mine : ∀ id l, s' id = some l → On id l b'
  yours : ∀ id, s id = none → leg id b'.journal = leg id b.journal ∧ (s' id = none ∨ b.record? id = none)

end Books

/-- The protocol of moves. -/
def Engine.progress : Protocol where
  Course := Leg
  Valid := Tracked
  Bears := On
  Deed s b b' s' := Tracked b → (∀ id l, s id = some l → On id l b) → Advance s b b' s'
  Later := Onward
  Allows _ _ := True

namespace Books

theorem Onward.refl (b : Books) : Onward b b :=
  ⟨⟨[], rfl⟩, fun _ x found => ⟨x, found, fun requested => requested⟩⟩

theorem Onward.trans {b₁ b₂ b₃ : Books} (first : Onward b₁ b₂) (second : Onward b₂ b₃) : Onward b₁ b₃ := by
  obtain ⟨new, journal⟩ := first.journal
  obtain ⟨new', journal'⟩ := second.journal
  refine ⟨⟨new' ++ new, by rw [journal', journal, List.append_assoc]⟩, ?_⟩
  intro id x found
  obtain ⟨x', found', keeps⟩ := first.records id x found
  obtain ⟨x'', found'', keeps'⟩ := second.records id x' found'
  exact ⟨x'', found'', fun requested => keeps' (keeps requested)⟩

theorem Onward.requested (onward : Onward b b') (requested : Requested id b) : Requested id b' := by
  obtain ⟨x, found, requested⟩ := requested
  obtain ⟨x', found', keeps⟩ := onward.records id x found
  exact ⟨x', found', keeps requested⟩

/-- The leg of an execution stays as it is while it is on record and makes no move. -/
theorem On.onward (on : On id l b) (onward : Onward b b') (same : leg id b'.journal = leg id b.journal) :
    On id l b' := by
  obtain ⟨⟨x, found⟩, led⟩ := on
  obtain ⟨x', found', _⟩ := onward.records id x found
  exact ⟨⟨x', found'⟩, same.trans led⟩

end Books

theorem Engine.progress_lawful : Engine.progress.Lawful where
  later_refl := Onward.refl
  later_trans := Onward.trans
  rest s b tracked backs := ⟨tracked, .refl b, backs, fun id free => ⟨rfl, .inl free⟩⟩
  stands stands deed := by
    have advance := deed stands.valid stands.backs
    exact ⟨advance.tracked, advance.mine⟩
  later stands deed := (deed stands.valid stands.backs).onward
  frame := by
    intro s b b' s' t stands deed apart backs
    have advance : Advance s b b' s' := deed stands.valid stands.backs
    constructor
    · intro id
      rcases apart id with free | free
      · rcases (advance.yours id free).2 with still | new
        · exact .inl still
        · right
          cases held : t id with
          | none => rfl
          | some l =>
            obtain ⟨⟨x, found⟩, _⟩ : On id l b := backs id l held
            cases new.symm.trans found
      · exact .inr free
    · intro id l held
      rcases apart id with free | free
      · have on : On id l b := backs id l held
        exact on.onward advance.onward (advance.yours id free).1
      · cases free.symm.trans held

/-! ## Acts -/

namespace Books

/-- It tells of no move, and of no cancellation. -/
def Still (h : Happening) : Prop := ∀ id, h.move? id = none ∧ h ≠ .cancelled id

/-- An act that makes no move and changes no record. The actor may let go of executions. -/
theorem still_deed (new : List Happening) (within : s'.Within s) (orderly : b.ledger.Orderly → b'.ledger.Orderly)
    (record : ∀ id, b'.record? id = b.record? id) (journal : b'.journal = new ++ b.journal)
    (still : ∀ h ∈ new, Still h) : Engine.progress.Deed s b b' s' := by
  intro tracked backs
  have onward : Onward b b' :=
    ⟨⟨new, journal⟩, fun id x found => ⟨x, (record id).trans found, fun requested => requested⟩⟩
  have led (id : String) : leg id b'.journal = leg id b.journal := by
    rw [journal]
    exact leg_still fun h member => (still h member id).1
  refine ⟨⟨orderly tracked.orderly, ?_, ?_, ?_, ?_, ?_⟩, onward, ?_, ?_⟩
  · intro id
    rw [led]
    exact tracked.way id
  · intro id absent
    rw [journal, moves_append, moves_eq_nil fun h member => (still h member id).1]
    exact tracked.unmoved id ((record id).symm.trans absent)
  · intro id
    rw [journal]
    apply (tracked.heeded id).append
    intro h member index starts
    cases (still h member id).1.symm.trans starts
  · intro id told
    rw [journal] at told
    rcases List.mem_append.mp told with fresh | old
    · exact absurd rfl (still _ fresh id).2
    · exact onward.requested (tracked.withdrawn id old)
  · intro id x found
    exact tracked.requested id x ((record id).symm.trans found)
  · intro id l held
    exact (backs id l (within id l held)).onward onward (led id)
  · intro id free
    refine ⟨led id, .inl ?_⟩
    cases held : s' id with
    | none => rfl
    | some l => cases (within id l held).symm.trans free

/-- What a change of one record comes to, which can be a new one, if no other execution makes a move. -/
theorem advance_of (new : List Happening) (tracked : Tracked b) (backs : ∀ id l, s id = some l → On id l b)
    (replaces : ∃ active, Replaces b b' id y active)
    (kept : ∀ x, b.record? id = some x → x.cancelRequested = true → y.cancelRequested = true)
    (cancelled : y.cancelRequested = true → y.status = .cancelled) (journal : b'.journal = new ++ b.journal)
    (only : ∀ h ∈ new, ∀ other, other ≠ id → h.move? other = none ∧ h ≠ .cancelled other)
    (withdrawn : .cancelled id ∈ new → y.cancelRequested = true) (heeds : Heeds id b'.journal)
    (way : leg id b'.journal = some l') (same : SameElsewhere id s s')
    (mine : ∀ l, s' id = some l → l = l')
    (yours : s id = none → leg id b'.journal = leg id b.journal ∧ (s' id = none ∨ b.record? id = none)) :
    Advance s b b' s' := by
  obtain ⟨active, replaces⟩ := replaces
  have record {other : String} (different : other ≠ id) : b'.record? other = b.record? other :=
    (replaces.others other different).1
  have onward : Onward b b' := by
    refine ⟨⟨new, journal⟩, fun other z known => ?_⟩
    by_cases named : other = id
    · subst named
      exact ⟨y, replaces.found, kept z known⟩
    · exact ⟨z, (record named).trans known, fun requested => requested⟩
  have led {other : String} (different : other ≠ id) : leg other b'.journal = leg other b.journal := by
    rw [journal]
    exact leg_still fun h member => (only h member other different).1
  refine ⟨⟨replaces.orderly, ?_, ?_, ?_, ?_, ?_⟩, onward, ?_, ?_⟩
  · intro other
    by_cases named : other = id
    · exact named ▸ ⟨l', way⟩
    · rw [led named]
      exact tracked.way other
  · intro other absent
    have named : other ≠ id := by
      rintro rfl
      cases replaces.found.symm.trans absent
    rw [journal, moves_append, moves_eq_nil fun h member => (only h member other named).1]
    exact tracked.unmoved other ((record named).symm.trans absent)
  · intro other
    by_cases named : other = id
    · exact named ▸ heeds
    · rw [journal]
      apply (tracked.heeded other).append
      intro h member index starts
      cases (only h member other named).1.symm.trans starts
  · intro other told
    rw [journal] at told
    rcases List.mem_append.mp told with fresh | old
    · by_cases named : other = id
      · subst named
        exact ⟨y, replaces.found, withdrawn fresh⟩
      · exact absurd rfl (only _ fresh other named).2
    · exact onward.requested (tracked.withdrawn other old)
  · intro other z known
    by_cases named : other = id
    · subst named
      obtain rfl := Option.some.inj (replaces.found.symm.trans known)
      exact cancelled
    · exact tracked.requested other z ((record named).symm.trans known)
  · intro other l held
    by_cases named : other = id
    · subst named
      obtain rfl := mine l held
      exact ⟨⟨y, replaces.found⟩, way⟩
    · exact (backs other l ((same other named).symm.trans held)).onward onward (led named)
  · intro other free
    by_cases named : other = id
    · subst named
      exact yours free
    · exact ⟨led named, .inl ((same other named).trans free)⟩

/-- An act that changes one record and makes no move. -/
theorem quiet_deed (new : List Happening) (found : b.record? id = some x)
    (replaces : b.ledger.Orderly → ∃ active, Replaces b b' id y active)
    (kept : x.cancelRequested = true → y.cancelRequested = true)
    (cancelled : (x.cancelRequested = true → x.status = .cancelled) →
      y.cancelRequested = true → y.status = .cancelled)
    (journal : b'.journal = new ++ b.journal) (unmoved : ∀ h ∈ new, ∀ other, h.move? other = none)
    (withdrawn : ∀ other, .cancelled other ∈ new → other = id ∧ y.cancelRequested = true) :
    Engine.progress.Deed s b b' s := by
  intro tracked backs
  have led : leg id b'.journal = leg id b.journal := by
    rw [journal]
    exact leg_still fun h member => unmoved h member id
  obtain ⟨l', way⟩ := tracked.way id
  refine advance_of new tracked backs (replaces tracked.orderly) ?_ (cancelled (tracked.requested id x found))
    journal ?_ (fun told => (withdrawn id told).2) ?_ (led.trans way) (fun _ _ => rfl) ?_
    fun free => ⟨led, .inl free⟩
  · intro x' found'
    obtain rfl := Option.some.inj (found.symm.trans found')
    exact kept
  · intro h member other different
    refine ⟨unmoved h member other, ?_⟩
    rintro rfl
    exact different (withdrawn other member).1
  · rw [journal]
    apply (tracked.heeded id).append
    intro h member index starts
    cases (unmoved h member id).symm.trans starts
  · intro l held
    obtain ⟨_, on⟩ := backs id l held
    exact Option.some.inj (on.symm.trans way)

/-- The driver of an execution makes a move. It stays on the leg that the move leads to, or lets go of the
execution. -/
theorem move_deed (held : s id = some l) (found : b.record? id = some x)
    (replaces : b.ledger.Orderly → ∃ active, Replaces b b' id y active)
    (requested : y.cancelRequested = x.cancelRequested)
    (status : x.cancelRequested = true → y.status = x.status)
    (journal : b'.journal = h :: b.journal) (moves : h.move? id = some move)
    (only : ∀ other, other ≠ id → h.move? other = none) (leads : l.after move = some l')
    (heeds : ∀ index, move = .starts index → x.cancelRequested = false)
    (same : SameElsewhere id s s') (mine : ∀ l, s' id = some l → l = l') :
    Engine.progress.Deed s b b' s' := by
  intro tracked backs
  obtain ⟨_, on⟩ := backs id l held
  have uncancelled (other : String) : h ≠ .cancelled other := by
    rintro rfl
    cases moves
  have way : leg id b'.journal = some l' := by
    rw [journal, leg_cons_some moves, on]
    exact leads
  refine advance_of [h] tracked backs (replaces tracked.orderly) ?_ ?_ journal ?_ ?_ ?_ way same mine
    fun free => ?_
  · intro x' found' again
    obtain rfl := Option.some.inj (found.symm.trans found')
    exact requested.trans again
  · intro again
    have before := requested.symm.trans again
    exact (status before).trans (tracked.requested id x found before)
  · intro h' member other different
    obtain rfl := List.mem_singleton.mp member
    exact ⟨only other different, uncancelled other⟩
  · intro told
    exact absurd (List.mem_singleton.mp told).symm (uncancelled id)
  · rw [journal]
    refine ⟨fun index starts told => ?_, tracked.heeded id⟩
    obtain ⟨x', found', withdrawn⟩ := tracked.withdrawn id told
    obtain rfl := Option.some.inj (found.symm.trans found')
    cases (heeds index (Option.some.inj (moves.symm.trans starts))).symm.trans withdrawn
  · cases held.symm.trans free

end Books

end Runbook
