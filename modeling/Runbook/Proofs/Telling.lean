import Runbook.Proofs.Headway

/-! # Drivers tell of every result

A third protocol of the engine's tasks, about the results on record and the events that tell of them. The
driver of an execution records the result of a step and announces it directly afterwards, as a failure exactly
if it is in error. Nobody else records results or tells of them, and when an execution ends by itself there is
no result left to tell of.
-/

namespace Runbook

open Books

variable {σ : Type} {e : Engine σ} {host : Host σ} {spared : String → Prop} {id : String} {b b' : Books}
  {x y : Execution} {h : Happening} {new journal : List Happening} {r : StepResult} {index : Nat}

/-! ## The journal -/

/-- The result of an execution's step that an entry tells of. -/
def Happening.result? (id : String) : Happening → Option StepResult
  | .announced (.stepCompleted other _ _ r) _ => if other = id then some r else none
  | .announced (.stepFailed other _ _ r) _ => if other = id then some r else none
  | _ => none

/-- A result is told of as a failure exactly if it is in error. -/
def Happening.Honest : Happening → Prop
  | .announced (.stepCompleted _ _ _ r) _ => r.status ≠ .error
  | .announced (.stepFailed _ _ _ r) _ => r.status = .error
  | _ => True

/-- The results of an execution that the journal tells of, oldest first. -/
def toldResults (id : String) (journal : List Happening) : List StepResult :=
  (journal.filterMap (·.result? id)).reverse

/-- An entry that tells of no result. -/
def Happening.Resultless (h : Happening) : Prop := h.Honest ∧ ∀ id, h.result? id = none

theorem toldResults_append (silent : ∀ h ∈ new, h.result? id = none) :
    toldResults id (new ++ journal) = toldResults id journal := by
  rw [toldResults, List.filterMap_append, List.filterMap_eq_nil_iff.mpr silent]
  rfl

theorem toldResults_cons (told : h.result? id = some r) :
    toldResults id (h :: journal) = toldResults id journal ++ [r] := by
  simp [toldResults, List.filterMap_cons_some told]

/-- The event of a step tells of its result. -/
theorem result?_stepEvent (id : String) (step : Step) (index : Nat) (r : StepResult) (record : Option Execution) :
    (Happening.announced (Engine.stepEvent id step index r) record).result? id = some r ∧
      (∀ other, other ≠ id →
        (Happening.announced (Engine.stepEvent id step index r) record).result? other = none) ∧
      (Happening.announced (Engine.stepEvent id step index r) record).Honest := by
  unfold Engine.stepEvent
  split
  · next failed =>
    exact ⟨if_pos rfl, fun other different => if_neg different.symm, by simpa [Happening.Honest] using failed⟩
  · next failed =>
    exact ⟨if_pos rfl, fun other different => if_neg different.symm, by simpa [Happening.Honest] using failed⟩

/-! ## The protocol -/

/-- How far the driver of an execution has told of its results. -/
inductive Telling
  /-- Of all of them, and the execution has not ended by itself. -/
  | upToDate
  /-- Of all but the last one, which was just recorded. -/
  | owing (r : StepResult)
  /-- The execution has ended, by itself or by a cancellation. -/
  | ended

namespace Books

/-- Whatever ended by itself has been told of. -/
structure Told (b : Books) : Prop where
  orderly : b.ledger.Orderly
  ended : ∀ id x, b.record? id = some x → x.status ≠ .running → x.status ≠ .cancelled →
    x.results = toldResults id b.journal
  unrecorded : ∀ id, b.record? id = none → toldResults id b.journal = []
  honest : ∀ h ∈ b.journal, h.Honest

/-- The record of an execution has the results that were told of, and others besides that its driver holds. -/
def Tells (id : String) (telling : Telling) (b : Books) : Prop :=
  ∃ x, b.record? id = some x ∧ match telling with
    | .upToDate => (x.status = .running ∨ x.status = .cancelled) ∧ x.results = toldResults id b.journal
    | .owing r => (x.status = .running ∨ x.status = .cancelled) ∧ x.results = toldResults id b.journal ++ [r]
    | .ended => x.status ≠ .running

/-- What an act leaves behind: books in which the results are told of, and which bear out what the actor holds
then. What others hold of executions that the actor did not hold is borne out as before. -/
structure Telling.Leaves (s : Hold Telling) (b b' : Books) (s' : Hold Telling) : Prop where
  told : Told b'
  recorded : ∀ id, (∃ x, b.record? id = some x) → ∃ x, b'.record? id = some x
  mine : ∀ id telling, s' id = some telling → Tells id telling b'
  yours : ∀ id, s id = none →
    (∀ telling, Tells id telling b → Tells id telling b') ∧ (s' id = none ∨ b.record? id = none)

end Books

/-- The protocol of results. -/
def Engine.telling : Protocol where
  Course := Telling
  Valid := Told
  Bears := Tells
  Deed s b b' s' := Told b → (∀ id telling, s id = some telling → Tells id telling b) → Telling.Leaves s b b' s'
  Later b b' := ∀ id, (∃ x, b.record? id = some x) → ∃ x, b'.record? id = some x
  Allows _ _ := True

theorem Engine.telling_lawful : Engine.telling.Lawful where
  later_refl _ _ recorded := recorded
  later_trans first second id recorded := second id (first id recorded)
  rest s b told backs := ⟨told, fun _ recorded => recorded, backs, fun _ free => ⟨fun _ tells => tells, .inl free⟩⟩
  stands stands deed := by
    have leaves := deed stands.valid stands.backs
    exact ⟨leaves.told, leaves.mine⟩
  later stands deed := (deed stands.valid stands.backs).recorded
  frame := by
    intro s b b' s' t stands deed apart backs
    have leaves : Telling.Leaves s b b' s' := deed stands.valid stands.backs
    constructor
    · intro id
      rcases apart id with free | free
      · rcases (leaves.yours id free).2 with still | new
        · exact .inl still
        · right
          cases held : t id with
          | none => rfl
          | some telling =>
            obtain ⟨x, found, _⟩ : Tells id telling b := backs id telling held
            cases new.symm.trans found
      · exact .inr free
    · intro id telling held
      rcases apart id with free | free
      · exact (leaves.yours id free).1 telling (backs id telling held)
      · cases free.symm.trans held

/-! ## Acts -/

namespace Books

variable {s s' : Hold Telling} {telling : Telling}

/-- What is held of an execution is borne out as long as its results and what is told of them stay the same, and
it does not end by itself. -/
theorem Tells.keep (tells : Tells id telling b) (told : toldResults id b'.journal = toldResults id b.journal)
    (record : ∀ x, b.record? id = some x → ∃ y, b'.record? id = some y ∧ y.results = x.results ∧
      (y.status = x.status ∨ y.status = .cancelled)) : Tells id telling b' := by
  obtain ⟨x, found, known⟩ := tells
  obtain ⟨y, found', results, status⟩ := record x found
  have open' (live : x.status = .running ∨ x.status = .cancelled) : y.status = .running ∨ y.status = .cancelled := by
    rcases status with same | cancelled
    · rwa [same]
    · exact .inr cancelled
  refine ⟨y, found', ?_⟩
  cases telling with
  | upToDate => exact ⟨open' known.1, results.trans (known.2.trans told.symm)⟩
  | owing r => exact ⟨open' known.1, by rw [results, told, known.2]⟩
  | ended =>
    rcases status with same | cancelled
    · exact same ▸ known
    · exact cancelled.trans_ne (by decide)

/-- An act that changes no record and tells of no result. The actor may let go of executions. -/
theorem still_telling (new : List Happening) (within : s'.Within s) (orderly : b.ledger.Orderly → b'.ledger.Orderly)
    (record : ∀ id, b'.record? id = b.record? id) (journal : b'.journal = new ++ b.journal)
    (silent : ∀ h ∈ new, h.Resultless) : Engine.telling.Deed s b b' s' := by
  intro told backs
  have same (id : String) : toldResults id b'.journal = toldResults id b.journal := by
    rw [journal]
    exact toldResults_append fun h member => (silent h member).2 id
  have keep (id : String) (telling : Telling) (tells : Tells id telling b) : Tells id telling b' :=
    tells.keep (same id) fun x found => ⟨x, (record id).trans found, rfl, .inl rfl⟩
  refine ⟨⟨orderly told.orderly, ?_, ?_, ?_⟩, ?_, ?_, ?_⟩
  · intro id x found
    rw [same]
    exact told.ended id x ((record id).symm.trans found)
  · intro id absent
    rw [same]
    exact told.unrecorded id ((record id).symm.trans absent)
  · intro h member
    rw [journal] at member
    rcases List.mem_append.mp member with fresh | old
    · exact (silent h fresh).1
    · exact told.honest h old
  · intro id ⟨x, found⟩
    exact ⟨x, (record id).trans found⟩
  · intro id telling held
    exact keep id telling (backs id telling (within id telling held))
  · intro id free
    refine ⟨keep id, .inl ?_⟩
    cases held : s' id with
    | none => rfl
    | some telling => cases (within id telling held).symm.trans free

/-- What a change of one record comes to, which can be a new one. -/
theorem leaves_of (new : List Happening) (told : Told b)
    (backs : ∀ id telling, s id = some telling → Tells id telling b)
    (replaces : ∃ active, Replaces b b' id y active) (journal : b'.journal = new ++ b.journal)
    (honest : ∀ h ∈ new, h.Honest) (only : ∀ h ∈ new, ∀ other, other ≠ id → h.result? other = none)
    (ended : y.status ≠ .running → y.status ≠ .cancelled → y.results = toldResults id b'.journal)
    (same : SameElsewhere id s s') (mine : ∀ telling, s' id = some telling → Tells id telling b')
    (yours : s id = none →
      (∀ telling, Tells id telling b → Tells id telling b') ∧ (s' id = none ∨ b.record? id = none)) :
    Telling.Leaves s b b' s' := by
  obtain ⟨active, replaces⟩ := replaces
  have record {other : String} (different : other ≠ id) : b'.record? other = b.record? other :=
    (replaces.others other different).1
  have unchanged {other : String} (different : other ≠ id) :
      toldResults other b'.journal = toldResults other b.journal := by
    rw [journal]
    exact toldResults_append fun h member => only h member other different
  have keep {other : String} (different : other ≠ id) (telling : Telling) (tells : Tells other telling b) :
      Tells other telling b' :=
    tells.keep (unchanged different) fun x found => ⟨x, (record different).trans found, rfl, .inl rfl⟩
  refine ⟨⟨replaces.orderly, ?_, ?_, ?_⟩, ?_, ?_, ?_⟩
  · intro other z found
    by_cases named : other = id
    · subst named
      obtain rfl := Option.some.inj (replaces.found.symm.trans found)
      exact ended
    · rw [unchanged named]
      exact told.ended other z ((record named).symm.trans found)
  · intro other absent
    have named : other ≠ id := by
      rintro rfl
      cases replaces.found.symm.trans absent
    rw [unchanged named]
    exact told.unrecorded other ((record named).symm.trans absent)
  · intro h member
    rw [journal] at member
    rcases List.mem_append.mp member with fresh | old
    · exact honest h fresh
    · exact told.honest h old
  · intro other ⟨x, found⟩
    by_cases named : other = id
    · exact named ▸ ⟨y, replaces.found⟩
    · exact ⟨x, (record named).trans found⟩
  · intro other telling held
    by_cases named : other = id
    · subst named
      exact mine telling held
    · exact keep named telling (backs other telling ((same other named).symm.trans held))
  · intro other free
    by_cases named : other = id
    · subst named
      exact yours free
    · exact ⟨keep named, .inl ((same other named).trans free)⟩

/-- Anyone may change a record in which the results stay the same, and the status if it is not cancelled. -/
theorem quiet_telling (new : List Happening) (found : b.record? id = some x)
    (replaces : b.ledger.Orderly → ∃ active, Replaces b b' id y active) (results : y.results = x.results)
    (status : y.status = x.status ∨ y.status = .cancelled) (journal : b'.journal = new ++ b.journal)
    (silent : ∀ h ∈ new, h.Resultless) : Engine.telling.Deed s b b' s := by
  intro told backs
  have same : toldResults id b'.journal = toldResults id b.journal := by
    rw [journal]
    exact toldResults_append fun h member => (silent h member).2 id
  obtain ⟨active, replaces⟩ := replaces told.orderly
  have keep (telling : Telling) (tells : Tells id telling b) : Tells id telling b' := by
    refine tells.keep same fun x' found' => ?_
    obtain rfl := Option.some.inj (found.symm.trans found')
    exact ⟨y, replaces.found, results, status⟩
  refine leaves_of new told backs ⟨active, replaces⟩ journal (fun h member => (silent h member).1)
    (fun h member other _ => (silent h member).2 other) ?_ (fun _ _ => rfl)
    (fun telling held => keep telling (backs id telling held)) fun free => ⟨keep, .inl free⟩
  intro ended notCancelled
  have still : y.status = x.status := status.resolve_right notCancelled
  rw [results, same]
  exact told.ended id x found (still ▸ ended) (still ▸ notCancelled)

/-- The driver changes its record, or tells of it, and goes on with what it has told of. -/
theorem driver_telling (y : Execution) (new : List Happening) (held : s id = some telling)
    (replaces : b.ledger.Orderly → ∃ active, Replaces b b' id y active) (journal : b'.journal = new ++ b.journal)
    (honest : ∀ h ∈ new, h.Honest) (only : ∀ h ∈ new, ∀ other, other ≠ id → h.result? other = none) {telling' : Telling}
    (tells : Told b → Tells id telling b → Tells id telling' b')
    (ended : Told b → Tells id telling b →
      y.status ≠ .running → y.status ≠ .cancelled → y.results = toldResults id b'.journal) :
    Engine.telling.Deed s b b' (s.put id telling') := by
  intro told backs
  refine leaves_of new told backs (replaces told.orderly) journal honest only (ended told (backs id telling held))
    (sameElsewhere_put s id telling') ?_ fun free => ?_
  · intro telling'' held'
    obtain rfl := Option.some.inj ((Hold.put_self s id telling').symm.trans held')
    exact tells told (backs id telling held)
  · cases free.symm.trans held

end Books

/-! ## What everyone does -/

namespace Engine

variable {s s' : Hold Telling}

/-- An entry that tells of no result. -/
theorem telling_note (s : Hold Telling) {w w' : World σ} (books : w'.books = (w.note h).books)
    (silent : h.Resultless) : telling.Deed s w.books w'.books s := by
  rw [books]
  refine still_telling [h] (.refl s) (fun orderly => orderly) (fun _ => rfl) rfl ?_
  intro other member
  rw [List.mem_singleton.mp member]
  exact silent

/-- A change of the record that leaves its status and its results alone. -/
theorem telling_amend (s : Hold Telling) (w : World σ) (id : String) (f : Execution → Execution)
    (status : ∀ x, (f x).status = x.status) (results : ∀ x, (f x).results = x.results) :
    telling.Deed s w.books (amend id f w).books s := by
  cases found : w.books.record? id with
  | some x =>
    exact quiet_telling [] found (amends f found rfl) (results x) (.inl (status x)) rfl
      (List.forall_mem_nil _)
  | none =>
    refine still_telling [] (.refl s) (fun orderly => orderly.amend id f) (fun other => ?_) rfl
      (List.forall_mem_nil _)
    refine (Ledger.record?_amend w.ledger id other f).trans ?_
    split
    · next same =>
      rw [show w.ledger.record? id = none from found, same]
      exact found.symm
    · rfl

theorem resultless_of_isAside (aside : h.isAside = true) : h.Resultless := by
  unfold Happening.isAside at aside
  split at aside
  · exact ⟨trivial, fun _ => rfl⟩
  · exact ⟨trivial, fun _ => rfl⟩
  · exact ⟨trivial, fun _ => rfl⟩
  · cases aside

/-- What is noted about a call tells of no result. -/
theorem telling_invoke (i : Interpreter σ) (tool : Value) (parameters : Entries) (context : Context) :
    (i.invoke tool parameters context).Neutral telling fun _ => True := by
  have lawful := telling_lawful
  have lasting : telling.Lasting fun _ => True := fun _ _ _ known => known
  unfold Interpreter.invoke
  split
  · next name =>
    refine .bind lawful lasting (.lift lawful lasting (.update fun s w _ _ => ?_)) ?_
    · exact telling_note s rfl ⟨trivial, fun _ => rfl⟩
    intro known
    cases known with
    | false => exact .fail _
    | true =>
      refine .bind lawful lasting (.lift lawful lasting (.update fun s w _ _ => ?_)) ?_
      · unfold Interpreter.judge
        split
        · exact lawful.rest s _
        · exact telling_note s rfl ⟨trivial, fun _ => rfl⟩
      intro verdict
      refine .bind lawful lasting (.ofExcept _) ?_
      intro allowed
      cases allowed with
      | false => exact .fail _
      | true =>
        refine .bind lawful lasting (.lift lawful lasting (.change fun s w _ _ => ?_)) ?_
        · exact telling_note s rfl ⟨trivial, fun _ => rfl⟩
        intro _
        exact .bind lawful lasting (Protocol.Neutral.perform fun _ _ => trivial) fun _ => .pure _
  · exact .fail _

theorem telling_tolerates (authority : Authority σ) : telling.Tolerates authority fun _ _ _ => True where
  lawful := telling_lawful
  lasting _ _ _ _ _ known := known
  aside s _ _ aside _ := telling_note s rfl (resultless_of_isAside aside)
  observes _ _ _ := trivial
  invoke i _ := telling_invoke i

/-! ## One step -/

/-- An event that tells of no result is announced by anyone. -/
theorem announce_resultless (e : Engine σ) {event : Event} {b : Books} (stands : telling.Stands s b)
    (silent : ∀ record, (Happening.announced event record).Resultless) :
    (announce event : Attempt σ Unit).Obeys telling s b (fun _ t _ => t = s)
      fun interrupt t _ => t = s ∧ ∃ message, interrupt = .cancelled message := by
  refine (telling_tolerates e.authority).announce_obeys stands ?_
  rintro w rfl
  exact telling_note s rfl (silent _)

/-- The driver announces the result that it has just recorded. -/
theorem announce_result (e : Engine σ) (step : Step) (stands : telling.Stands s b) (held : s id = some (.owing r)) :
    (announce (stepEvent id step index r) : Attempt σ Unit).Obeys telling s b
      (fun _ t _ => t = s.put id .upToDate)
      fun interrupt t _ => t = s.put id .upToDate ∧ ∃ message, interrupt = .cancelled message := by
  refine (telling_tolerates e.authority).announce_obeys stands ?_
  rintro w rfl
  obtain ⟨x, found, live, results⟩ : Tells id (.owing r) w.books := stands.backs id _ held
  let h : Happening := .announced (stepEvent id step index r) (w.ledger.record? (stepEvent id step index r).execution)
  obtain ⟨told, others, honest⟩ : h.result? id = some r ∧ (∀ other, other ≠ id → h.result? other = none) ∧ h.Honest :=
    result?_stepEvent id step index r _
  have all : x.results = toldResults id (w.note h).books.journal := results.trans (toldResults_cons told).symm
  show telling.Deed s w.books (w.note h).books (s.put id .upToDate)
  refine driver_telling x [h] held (fun orderly => ?_) rfl ?_ ?_ (fun _ _ => ?_) fun _ _ _ _ => all
  · exact amends_nothing found rfl orderly
  · intro other member
    rw [List.mem_singleton.mp member]
    exact honest
  · intro other member
    rw [List.mem_singleton.mp member]
    exact others
  · exact ⟨x, found, live, all⟩

/-- The check before a step records no result. -/
theorem boundary_telling (stands : telling.Stands s b) {telling : Telling} (held : s id = some telling) :
    (Routine.update (boundary id index) : Routine σ (Except Fault Bool)).Obeys Engine.telling s b
      fun _ s' _ => s' = s := by
  have lawful := telling_lawful
  rintro w rfl
  obtain ⟨x, found, _⟩ : Tells id telling w.books := stands.backs id telling held
  refine ⟨s, ?_, rfl⟩
  rw [boundary, record_eq found]
  cases requested : x.cancelRequested with
  | true => exact lawful.rest s _
  | false =>
    simp only [Bool.false_eq_true, if_false]
    split
    · exact lawful.rest s _
    · exact telling_note s rfl ⟨trivial, fun _ => rfl⟩
    · split
      · exact lawful.rest s _
      · next x' moved =>
        obtain ⟨cursor, rfl⟩ := eq_of_advance moved
        exact quiet_telling [] found (amends (fun _ => { x with currentStep := cursor }) found rfl) rfl (.inl rfl)
          rfl (List.forall_mem_nil _)

/-- A step is run without a result of it being recorded. -/
theorem runStep_telling (e : Engine σ) (stands : telling.Stands s b) :
    (e.runStep id step index).Obeys telling s b (fun _ s' _ => s' = s)
      fun interrupt s' _ => s' = s ∧ ∃ message, interrupt = .cancelled message := by
  have lawful := telling_lawful
  unfold runStep
  refine .lift_bind lawful (Q := fun _ s' _ => s' = s) stands ?_ ?_
  · rintro w rfl
    exact ⟨s, lawful.rest s _, rfl⟩
  rintro x s b₀ stands₀ _ rfl
  split
  · rfl
  · rfl
  · refine .lift_bind lawful (Q := fun _ s' _ => s' = s) stands₀ ?_ ?_
    · rintro w rfl
      exact ⟨s, telling_note s rfl ⟨trivial, fun _ => rfl⟩, rfl⟩
    rintro _ s b₁ stands₁ _ rfl
    have interpreted := (telling_tolerates e.authority).interpret_neutral (i := e.interpreter id) rfl step
      (x.context index)
    refine .lift_bind lawful stands₁ (interpreted _ b₁ stands₁ trivial) ?_
    rintro outcome s b₂ stands₂ _ rfl
    refine .lift_bind lawful (Q := fun _ s' _ => s' = s) stands₂ ?_ ?_
    · rintro w rfl
      exact ⟨s, telling_note s rfl ⟨trivial, fun _ => rfl⟩, rfl⟩
    rintro _ s b₃ _ _ rfl
    rcases outcome with (fault | message) | r
    · rfl
    · exact ⟨rfl, message, rfl⟩
    · rfl

/-- A result is recorded, which the driver has to tell of then, or it is not. -/
theorem recordResult_telling (stands : telling.Stands s b) (held : s id = some .upToDate) :
    (Routine.update (recordResult id index r) : Routine σ Bool).Obeys telling s b
      fun recorded s' _ => s' = if recorded then s.put id (.owing r) else s := by
  rintro w rfl
  obtain ⟨x, found, live, results⟩ : Tells id .upToDate w.books := stands.backs id _ held
  rw [recordResult, record_eq found]
  split
  · exact ⟨s, telling_lawful.rest s _, rfl⟩
  · obtain ⟨scope, taken, errors, same⟩ := absorb_same index r x
    have status : (absorb index r x).status = x.status := by rw [same]
    refine ⟨s.put id (.owing r), ?_, rfl⟩
    refine driver_telling (absorb index r x) [] held (fun orderly => ?_) ?_ (List.forall_mem_nil _)
      (List.forall_mem_nil _) (fun _ _ => ?_) fun _ _ ended notCancelled => ?_
    · exact amends (absorb index r) found rfl orderly
    · rfl
    · refine ⟨absorb index r x, ?_, status ▸ live, ?_⟩
      · refine (Ledger.record?_amend_self w.ledger id _).trans ?_
        rw [show w.ledger.record? id = some x from found]
        rfl
      · rw [absorb_results, results]
        rfl
    · rw [status] at ended notCancelled
      rcases live with running | cancelled
      · exact absurd running ended
      · exact absurd cancelled notCancelled

/-! ## All steps -/

/-- A driver that has told of one more result holds what it held before. -/
theorem put_back (held : s id = some .upToDate) (r : StepResult) : (s.put id (.owing r)).put id .upToDate = s := by
  funext other
  by_cases same : other = id
  · subst same
    rw [Hold.put_self, held]
  · rw [Hold.put_other _ _ same, Hold.put_other s _ same]

/-- The driver goes through the steps and tells of each result. A fault leaves nothing that is still to be told. -/
theorem runSteps_telling (e : Engine σ) (id : String) (steps : List Step) (index : Nat)
    (stands : telling.Stands s b) (held : s id = some .upToDate) :
    (e.runSteps id index steps).Obeys telling s b (fun _ s' _ => s' = s) fun _ s' _ => s' = s := by
  have lawful := telling_lawful
  induction steps generalizing index s b with
  | nil => rfl
  | cons step rest ih =>
    rw [runSteps]
    refine .lift_bind lawful stands (boundary_telling stands held) ?_
    rintro (fault | goes) s b₁ stands₁ _ rfl
    · exact Attempt.obeys_fail_bind rfl
    refine Attempt.obeys_pure_bind ?_
    cases goes with
    | false => rfl
    | true =>
      rw [if_pos rfl]
      refine .bind lawful stands₁ (announce_resultless e stands₁ fun _ => ⟨trivial, fun _ => rfl⟩) ?_ ?_
      · rintro _ s b₂ stands₂ _ rfl
        refine .bind lawful stands₂ (runStep_telling e stands₂) ?_ ?_
        · rintro r s b₃ stands₃ _ rfl
          refine .lift_bind lawful stands₃ (recordResult_telling stands₃ held) ?_
          rintro recorded s' b₄ stands₄ _ now
          cases recorded with
          | false => exact now
          | true =>
            obtain rfl : s' = s.put id (.owing r) := now
            refine .bind lawful stands₄ (announce_result e step stands₄ (Hold.put_self ..)) ?_ ?_
            · rintro _ t b₅ stands₅ _ told
              obtain rfl : t = s := told.trans (put_back held r)
              cases goesOn step r with
              | true => exact ih (index + 1) stands₅ held
              | false => rfl
            · rintro interrupt t b₅ _ _ ⟨told, _⟩
              exact told.trans (put_back held r)
        · rintro interrupt s b₃ _ _ ⟨rfl, _⟩
          rfl
      · rintro interrupt s b₂ _ _ ⟨rfl, _⟩
        rfl

/-! ## The end -/

/-- The driver of an execution holds it, and has nothing to tell of. -/
def Settled (id : String) (s : Hold Telling) : Prop := s id = some .upToDate ∨ s id = some .ended

/-- The change at the end of an execution, with the beginning of its announcement. -/
theorem announced_telling {event : Event} (silent : ∀ record, (Happening.announced event record).Resultless)
    {change : World σ → Except Fault Bool × World σ} (ends : Ends id change) (stands : telling.Stands s b)
    (settled : Settled id s) :
    (Routine.update (World.announced event change)).Obeys telling s b fun _ s' _ => s' = s.put id .ended := by
  rintro w rfl
  have honest {new : List Happening} (silent : ∀ h ∈ new, h.Resultless) : ∀ h ∈ new, h.Honest :=
    fun h member => (silent h member).1
  have only {new : List Happening} (silent : ∀ h ∈ new, h.Resultless) :
      ∀ h ∈ new, ∀ other, other ≠ id → h.result? other = none := fun h member other _ => (silent h member).2 other
  obtain ⟨telling, held⟩ : ∃ telling, s id = some telling := by
    rcases settled with held | held
    · exact ⟨_, held⟩
    · exact ⟨_, held⟩
  have tells : Tells id telling w.books := stands.backs id telling held
  obtain ⟨x, found, known⟩ := tells
  refine ⟨s.put id .ended, ?_, rfl⟩
  by_cases cancelled : x.status = .cancelled
  · rw [World.announced, ends.cancelled found cancelled]
    refine driver_telling x [] held (amends_nothing found rfl) rfl (List.forall_mem_nil _)
      (List.forall_mem_nil _) (fun _ _ => ⟨x, found, ?_⟩) fun _ _ _ notCancelled =>
        absurd cancelled notCancelled
    exact cancelled.trans_ne (by decide)
  · have all : x.results = toldResults id w.journal := by
      rcases settled with upToDate | ended
      · obtain rfl := Option.some.inj (held.symm.trans upToDate)
        exact known.2
      · obtain rfl := Option.some.inj (held.symm.trans ended)
        exact stands.valid.ended id x found known cancelled
    obtain ⟨y, w', closes, notRunning, notCancelled, _, ledger, rest⟩ := ends.ends found cancelled
    have replaces (orderly : w.ledger.Orderly) {b' : Books} (same : b'.ledger = w'.ledger) :
        ∃ active, Replaces w.books b' id y active := amends (fun _ => y) found (same.trans ledger) orderly
    have finished (new : List Happening) {b' : Books} (same : b'.ledger = w'.ledger)
        (journal : b'.journal = new ++ w.journal) (silent : ∀ h ∈ new, h.Resultless) :
        Engine.telling.Deed s w.books b' (s.put id .ended) := by
      refine driver_telling y new held (fun orderly => replaces orderly same) journal (honest silent) (only silent)
        (fun told _ => ?_) fun _ _ _ _ => ?_
      · obtain ⟨active, replaces⟩ := replaces told.orderly same
        exact ⟨y, replaces.found, notRunning⟩
      · rw [closes.results, all, journal, toldResults_append fun h member => (silent h member).2 id]
    rcases rest with ⟨done, journal⟩ | ⟨⟨fault, done⟩, journal⟩
    · rw [World.announced, done]
      refine finished [.announced event (w'.ledger.record? event.execution)] rfl (congrArg _ journal) fun h member => ?_
      rw [List.mem_singleton.mp member]
      exact silent _
    · rw [World.announced, done]
      refine finished [.untimed id] rfl journal fun h member => ?_
      rw [List.mem_singleton.mp member]
      exact ⟨trivial, fun _ => rfl⟩

theorem announcing_telling (e : Engine σ) {event : Event}
    (silent : ∀ record, (Happening.announced event record).Resultless)
    {change : World σ → Except Fault Bool × World σ} (ends : Ends id change) (stands : telling.Stands s b)
    (settled : Settled id s) :
    (announcing event change).Obeys telling s b (fun _ s' _ => s' = s.put id .ended)
      fun _ s' _ => s' = s.put id .ended := by
  have lawful := telling_lawful
  refine .lift_bind lawful stands (announced_telling silent ends stands settled) ?_
  rintro (fault | _ | callbacks) _ b₁ stands₁ _ rfl
  · exact Attempt.obeys_fail_bind rfl
  · exact Attempt.obeys_pure_bind rfl
  · refine Attempt.obeys_pure_bind
      (.bind lawful stands₁ ((telling_tolerates e.authority).deliver_obeys event callbacks stands₁) ?_ ?_)
    · rintro _ _ b₂ _ _ rfl
      rfl
    · rintro _ _ b₂ _ _ ⟨rfl, _⟩
      rfl

/-- A driver that was cancelled tells of nothing any more. -/
theorem interrupt_telling (s : Hold Telling) {w : World σ} (recorded : ∃ x, w.books.record? id = some x) :
    telling.Deed s w.books (interrupt id w).2.books s := by
  obtain ⟨x, found⟩ := recorded
  unfold interrupt
  split
  · obtain ⟨y, closes, status, _, done | ⟨fault, done⟩⟩ := finish_spec found
      (fun x => { x with error := .text "Execution task was cancelled" })
      ⟨rfl, rfl, rfl, rfl, rfl, rfl, rfl, rfl⟩ .cancelled
    · rw [done]
      exact quiet_telling [] found (amends (fun _ => y) found rfl) closes.results (.inr status) rfl
        (List.forall_mem_nil _)
    · rw [done]
      refine quiet_telling [.untimed id] found (amends (fun _ => y) found rfl) closes.results (.inr status) rfl ?_
      intro h member
      rw [List.mem_singleton.mp member]
      exact ⟨trivial, fun _ => rfl⟩
  · exact telling_lawful.rest s _

theorem retire_telling (e : Engine σ) (s : Hold Telling) (w : World σ) (id : String) :
    telling.Deed s w.books (e.retire id w).books (s.drop id) := by
  unfold retire
  split
  · next active =>
    refine still_telling [.retired id] (Hold.drop_within s id) (fun orderly => orderly.retire _ active)
      (fun other => Ledger.record?_retire ..) rfl ?_
    intro h member
    rw [List.mem_singleton.mp member]
    exact ⟨trivial, fun _ => rfl⟩
  · exact still_telling [] (Hold.drop_within s id) (fun orderly => orderly) (fun _ => rfl) rfl
      (List.forall_mem_nil _)

/-- The driver of an execution tells of its results, and lets go of it. -/
theorem drive_telling (e : Engine σ) (workflow : Workflow) (stands : telling.Stands s b)
    (held : s id = some .upToDate) :
    (e.drive workflow id).Obeys telling s b (fun _ s' _ => s' = s.drop id) fun _ s' _ => s' = s.drop id := by
  have lawful := telling_lawful
  have retired (s' : Hold Telling) (b' : Books) (same : SameElsewhere id s s') :
      (Routine.change (e.retire id)).Obeys telling s' b' fun _ s'' _ => s'' = s.drop id := by
    rintro w rfl
    exact ⟨s'.drop id, retire_telling e s' w id, same.drop⟩
  have recorded : ∃ x, b.record? id = some x := by
    obtain ⟨x, found, _⟩ : Tells id .upToDate b := stands.backs id _ held
    exact ⟨x, found⟩
  have ended (s' : Hold Telling) (now : s' = s.put id .ended) : SameElsewhere id s s' ∧ Settled id s' :=
    now ▸ ⟨sameElsewhere_put s id _, .inr (Hold.put_self ..)⟩
  have completed (record : Option Execution) : (Happening.announced (.completed id) record).Resultless :=
    ⟨trivial, fun _ => rfl⟩
  have failed (record : Option Execution) : (Happening.announced (.failed id) record).Resultless :=
    ⟨trivial, fun _ => rfl⟩
  unfold drive
  refine .ensuring lawful stands (Q := fun _ s' _ => SameElsewhere id s s') (E := fun _ s' _ => SameElsewhere id s s')
    (.tryCatch lawful stands (Q := fun _ s' _ => SameElsewhere id s s')
      (E := fun _ s' _ => SameElsewhere id s s' ∧ Settled id s') ?_ (fun _ _ _ _ _ same => same) ?_)
    (fun _ s' b' _ _ same => retired s' b' same) fun _ s' b' _ _ same => retired s' b' same
  · have still : SameElsewhere id s s ∧ Settled id s := ⟨fun _ _ => rfl, .inl held⟩
    refine .bind lawful stands (announce_resultless e stands fun _ => ⟨trivial, fun _ => rfl⟩) ?_ ?_
    · rintro _ s b₁ stands₁ _ rfl
      refine .bind lawful stands₁ (runSteps_telling e id workflow.steps 0 stands₁ held) ?_ ?_
      · rintro _ s b₂ stands₂ _ rfl
        refine .bind lawful stands₂ (announcing_telling e completed (conclude_ends id)
          stands₂ (.inl held)) ?_ ?_
        · exact fun _ s₃ b₃ _ _ now => (ended s₃ now).1
        · exact fun _ s₃ b₃ _ _ now => ended s₃ now
      · rintro _ s b₂ _ _ rfl
        exact still
    · rintro _ s b₁ _ _ ⟨rfl, _⟩
      exact still
  · rintro (fault | message) s₁ b₁ stands₁ later ⟨same, settled⟩
    · refine .bind lawful stands₁ (announcing_telling e failed (abort_ends id fault) stands₁
        settled) ?_ ?_
      · rintro _ _ b₂ _ _ rfl
        exact same.trans (sameElsewhere_put s₁ id _)
      · rintro _ _ b₂ _ _ rfl
        exact same.trans (sameElsewhere_put s₁ id _)
    · refine .lift_bind lawful (Q := fun _ s' _ => s' = s₁) stands₁ ?_ ?_
      · rintro w rfl
        exact ⟨s₁, interrupt_telling s₁ (later id recorded), rfl⟩
      · rintro (fault | _) _ b₂ _ _ rfl
        · exact Attempt.obeys_fail_bind same
        · exact Attempt.obeys_pure_bind same

/-! ## What others do -/

/-- Whoever admits an execution holds it, and has told of all of its results, which are none. -/
theorem enroll_telling (e : Engine σ) (workflow : Workflow) (options : Options) (stands : telling.Stands s b) :
    (Routine.update (e.enroll workflow options)).Obeys telling s b fun r s' b' => match r with
      | .ok id => Begins telling e workflow id s s' b'
      | .error _ => s' = s := by
  have lawful := telling_lawful
  rintro w rfl
  unfold enroll
  split
  · exact ⟨s, lawful.rest s _, rfl⟩
  · exact ⟨s, lawful.rest s _, rfl⟩
  split
  · exact ⟨s, lawful.rest s _, rfl⟩
  simp only
  split
  · refine ⟨s, still_telling [] (.refl s) (fun orderly => orderly.generate) (fun _ => rfl) rfl ?_, rfl⟩
    exact List.forall_mem_nil _
  · next mode _ _ _ scope given =>
    have fresh : w.books.record? (executionId (w.ledger.generated + 1)) = none := stands.valid.orderly.fresh
    have free : s (executionId (w.ledger.generated + 1)) = none := by
      cases held : s (executionId (w.ledger.generated + 1)) with
      | none => rfl
      | some telling =>
        obtain ⟨x, found, _⟩ : Tells _ telling w.books := stands.backs _ telling held
        cases fresh.symm.trans found
    refine ⟨s.put _ .upToDate, fun told backs => ?_, free, .upToDate, rfl, fun t b' stands' _ held =>
      drive_telling e workflow stands' held⟩
    have none : toldResults (executionId (w.ledger.generated + 1)) w.journal = [] := told.unrecorded _ fresh
    let y := e.newExecution (executionId (w.ledger.generated + 1)) workflow scope options mode w.agenda.now
    refine leaves_of (y := y) [.admitted (executionId (w.ledger.generated + 1)) workflow options] told backs
      ⟨true, told.orderly.enroll _, Ledger.record?_enroll_self fresh _, Ledger.isActive_enroll_self _ _ _, ?_⟩
      rfl ?_ ?_ (fun ended => absurd rfl ended) (sameElsewhere_put s _ _) ?_ ?_
    · exact fun other different =>
        ⟨Ledger.record?_enroll_other _ _ different, Ledger.isActive_enroll_other _ _ different⟩
    · intro h member
      rw [List.mem_singleton.mp member]
      trivial
    · intro h member other _
      rw [List.mem_singleton.mp member]
      rfl
    · intro telling held
      obtain rfl := Option.some.inj ((Hold.put_self ..).symm.trans held)
      exact ⟨y, Ledger.record?_enroll_self fresh _, .inl rfl, none.symm⟩
    · intro _
      refine ⟨fun telling tells => ?_, .inr fresh⟩
      obtain ⟨x, found, _⟩ := tells
      cases fresh.symm.trans found

/-- A cancellation records no result. -/
theorem withdraw_telling (e : Engine σ) (id : String) (s : Hold Telling) (w : World σ)
    (stands : telling.Stands s w.books) :
    telling.Deed s w.books (w.announced (.cancelled id) (e.withdraw id)).2.books s := by
  cases active : w.ledger.isActive id with
  | false =>
    rw [World.announced, withdraw_inactive e active]
    exact telling_lawful.rest s _
  | true =>
    obtain ⟨x, found⟩ := stands.valid.orderly.recorded id active
    obtain ⟨y, w', closes, status, _, ⟨done, ledger, journal⟩ | ⟨⟨fault, done⟩, ledger, journal⟩⟩ :=
      withdraw_active e found active
    · rw [World.announced, done]
      let middle : Books := { ledger := w.ledger.amend id fun _ => y, journal := [] }
      refine quiet_telling [.announced (.cancelled id) (w'.ledger.record? id), .cancelled id, .retired id] found
        (fun orderly => ⟨false, ?_⟩) closes.results (.inr status) (congrArg _ journal) ?_
      · have amended : Replaces w.books middle id y (w.books.isActive id) :=
          replaces_amend (fun _ => y) orderly found rfl
        exact amended.trans (replaces_retire amended.orderly amended.found active ledger)
      · intro h member
        simp only [List.mem_cons, List.not_mem_nil, or_false] at member
        rcases member with rfl | rfl | rfl
        · exact ⟨trivial, fun _ => rfl⟩
        · exact ⟨trivial, fun _ => rfl⟩
        · exact ⟨trivial, fun _ => rfl⟩
    · rw [World.announced, done]
      refine quiet_telling [.untimed id] found (amends (fun _ => y) found ledger) closes.results (.inr status)
        journal ?_
      intro h member
      rw [List.mem_singleton.mp member]
      exact ⟨trivial, fun _ => rfl⟩

theorem told_of_fresh {m : Machine σ} (fresh : m.Fresh) : Told m.world.books := by
  have journal : m.world.books.journal = [] := fresh.journal
  refine ⟨fresh.orderly, fun id x found => ?_, fun id _ => ?_, fun h member => ?_⟩
  · cases (fresh.absent id).symm.trans found
  · rw [journal]
    rfl
  · rw [journal] at member
    cases member

/-- The protocol of results covers what an engine does. -/
theorem telling_covers (e : Engine σ) (spared : String → Prop) : telling.Covers e spared fun _ _ _ => True where
  toTolerates := telling_tolerates e.authority
  fresh _ fresh := told_of_fresh fresh
  enroll workflow options _ _ := enroll_telling e workflow options
  withdraw id s w := withdraw_telling e id s w
  assign id _ s w _ _ := telling_amend s w id _ (fun _ => rfl) fun _ => rfl
  clear s w _ := by
    refine still_telling [.cleared] (.refl s) (fun orderly => orderly.clear) (fun _ => rfl) rfl ?_
    intro h member
    rw [List.mem_singleton.mp member]
    exact ⟨trivial, fun _ => rfl⟩

end Engine

/-- Whatever ended by itself has been told of, in every machine that a run leads to. -/
theorem Machine.Reachable.told {m : Machine σ} (reachable : Machine.Reachable e host spared m)
    (spares : host.Spares spared) : Told m.world.books :=
  ((Engine.telling_covers e spared).governs spares).valid reachable

end Runbook
