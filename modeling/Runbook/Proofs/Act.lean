import Runbook.Proofs.Turn

/-! # Acts of an engine

Each change that the engine makes to its books is a deed of its protocol. For the driver's changes this
takes that it holds the execution; what it holds afterwards is the record as the change left it, or
nothing once the execution has ended.
-/

namespace Runbook

open Books

variable {σ : Type} {e : Engine σ} {spared : String → Prop} {id : String} {w : World σ}
  {s : Hold Execution} {x left : Execution}

/-! ## Entries in the journal -/

/-- A world whose books only gain a plain entry. -/
theorem World.note_deed (s : Hold Execution) {w w' : World σ} {h : Happening}
    (books : w'.books = (w.note h).books) (plain : h.Plain) :
    Deed e spared s w.books w'.books s := by
  rw [books]
  exact .quiet (.refl s) (.note rfl rfl plain)

theorem World.rest_deed (s : Hold Execution) {w w' : World σ} (books : w'.books = w.books) :
    Deed e spared s w.books w'.books s := by
  rw [books]
  exact .quiet (.refl s) (.refl _)

theorem World.releaseGate_books (w : World σ) (id : String) (note : Value) :
    (w.releaseGate id note).1.books = w.books := by
  have settled (requests : List Gate.Request) (w : World σ) :
      (requests.foldl (fun w r => w.settle r.token (.decided (Gate.released note))) w).books =
        w.books := by
    induction requests generalizing w with
    | nil => rfl
    | cons r rest ih => exact ih (w.settle r.token _)
  exact settled _ w

namespace Engine

/-! ## The end of a record -/

theorem record_eq (found : w.books.record? id = some x) : record w id = x := by
  rw [record, show w.ledger.record? id = some x from found]
  rfl

private theorem finish_record (x : Execution) (status : ExecutionStatus) (now : Float) :
    ∃ durationMs fault, x.finish status now = ({ x with status, ended := true, durationMs }, fault) := by
  unfold Execution.finish
  simp only
  split
  · next ms _ => exact ⟨some ms, none, rfl⟩
  · next fault _ => exact ⟨x.durationMs, some fault, rfl⟩

/-- A record at its end: as it was before but for the end, under a status, and entered in the books.
That its duration cannot be told is noted. -/
theorem finish_spec (found : w.books.record? id = some x) (f : Execution → Execution)
    (closes : Closes x (f x)) (status : ExecutionStatus) :
    ∃ y, Closes x y ∧ y.status = status ∧ y.cancelRequested = (f x).cancelRequested ∧
      (finish id status (amend id f w) = (.ok (), amend id (fun _ => y) w) ∨
        ∃ fault, finish id status (amend id f w) =
          (.error fault, (amend id (fun _ => y) w).note (.untimed id))) := by
  have record : record (amend id f w) id = f x := by
    refine record_eq ?_
    rw [Books.record?, show (amend id f w).books.ledger = w.ledger.amend id f from rfl,
      Ledger.record?_amend_self, show w.ledger.record? id = some x from found]
    rfl
  have again (y : Execution) : amend id (fun _ => y) (amend id f w) = amend id (fun _ => y) w := by
    simp only [amend, Ledger.amend_amend]
  obtain ⟨durationMs, fault, ended⟩ := finish_record (f x) status (amend id f w).agenda.now
  obtain ⟨y, same⟩ : ∃ y, y = { f x with status, ended := true, durationMs } := ⟨_, rfl⟩
  refine ⟨y, ?_, by rw [same], by rw [same], ?_⟩
  · rw [same]
    exact ⟨closes.id, closes.metadata, closes.totalSteps, closes.started, closes.scope,
      closes.results, closes.errors, closes.currentStep⟩
  · rw [finish, record, ended, ← same, ← again y]
    cases fault with
    | none => exact .inl rfl
    | some fault => exact .inr ⟨fault, rfl⟩

/-! ## What anyone can do -/

theorem withdraw_inactive (e : Engine σ) (inactive : w.ledger.isActive id = false) :
    e.withdraw id w = (.ok false, w) := by
  simp [withdraw, inactive]

/-- A cancellation that finds an active execution ends it and retires it, unless its duration cannot
be told. -/
theorem withdraw_active (e : Engine σ) (found : w.books.record? id = some x)
    (active : w.ledger.isActive id = true) :
    ∃ y w', Closes x y ∧ y.status = .cancelled ∧ y.cancelRequested = true ∧
      ((e.withdraw id w = (.ok true, w') ∧
          w'.ledger = (w.ledger.amend id fun _ => y).retire e.config.historyLimit id ∧
          w'.journal = .cancelled id :: .retired id :: w.journal) ∨
        (∃ fault, e.withdraw id w = (.error fault, w')) ∧
          w'.ledger = w.ledger.amend id (fun _ => y) ∧ w'.journal = .untimed id :: w.journal) := by
  obtain ⟨y, closes, status, requested, done | ⟨fault, done⟩⟩ := finish_spec found
    (fun x => { x with cancelRequested := true }) ⟨rfl, rfl, rfl, rfl, rfl, rfl, rfl, rfl⟩ .cancelled
  · have listed : (amend id (fun _ => y) w).ledger.isActive id = true := active
    let released := (e.retire id (amend id (fun _ => y) w)).releaseGate id (.text "Execution cancelled")
    have books : released.1.books = (e.retire id (amend id (fun _ => y) w)).books :=
      World.releaseGate_books _ _ _
    rw [retire, if_pos listed] at books
    refine ⟨y, released.1.note (.cancelled id), closes, status, requested, .inl ⟨?_, ?_, ?_⟩⟩
    · simp [withdraw, active, done, released]
    · exact congrArg Books.ledger books
    · exact congrArg (fun b => .cancelled id :: b.journal) books
  · refine ⟨y, (amend id (fun _ => y) w).note (.untimed id), closes, status, requested,
      .inr ⟨⟨fault, ?_⟩, rfl, rfl⟩⟩
    simp [withdraw, active, done]

/-- A cancellation, with the beginning of its announcement, is a deed of anyone. -/
theorem withdraw_deed (e : Engine σ) (valid : Valid e spared w.books) (s : Hold Execution) :
    Deed e spared s w.books (w.announced (.cancelled id) (e.withdraw id)).2.books s := by
  cases active : w.ledger.isActive id with
  | false =>
    rw [World.announced, withdraw_inactive e active]
    exact World.rest_deed s rfl
  | true =>
    obtain ⟨x, found⟩ := valid.orderly.recorded id active
    have sound := valid.sound id x found
    obtain ⟨y, w', closes, status, requested, ⟨done, ledger, journal⟩ | ⟨⟨fault, done⟩, ledger, journal⟩⟩ :=
      withdraw_active e found active
    · rw [World.announced, done]
      let middle : Books := { ledger := w.ledger.amend id fun _ => y, journal := [] }
      have amended : Replaces w.books middle id y (w.books.isActive id) :=
        replaces_amend (fun _ => y) valid.orderly found rfl
      have retired : Replaces middle (w'.announcement (.cancelled id)).2.books id y false :=
        replaces_retire amended.orderly amended.found active ledger
      refine .turn id y ((amends_withdrawn sound closes active status requested
        (w'.ledger.record? id)).turn found (amended.trans retired) ?_)
      change _ :: w'.journal = _
      rw [journal]
      rfl
    · rw [World.announced, done]
      exact .turn id y ((amends_withdrawUntimed sound closes active status requested).turn found
        (replaces_amend (fun _ => y) valid.orderly found ledger) journal)

/-- An execution that has ended leaves the active ones, and its driver lets go of it. -/
theorem retire_deed (e : Engine σ) (valid : Valid e spared w.books) (s : Hold Execution)
    (found : w.books.record? id = some x) (notRunning : x.status ≠ .running) :
    Deed e spared s w.books (e.retire id w).books (s.drop id) := by
  unfold retire
  split
  · next active =>
    exact .turn id x ((amends_retire (valid.sound id x found) notRunning found).turn found
      (replaces_retire valid.orderly found active rfl) rfl)
  · exact .quiet (Hold.drop_within s id) (.refl _)

/-- Variables can be assigned to any execution that is not spared. -/
theorem assign_deed (e : Engine σ) (stands : (e.conduct spared).Stands s w.books)
    (free : ¬spared id) (bindings : Entries) :
    Deed e spared s w.books (amend id (·.mergeOutputs bindings) w).books s := by
  cases found : w.books.record? id with
  | none =>
    refine .quiet (.refl s) ⟨fun orderly => ?_, fun other => ?_, fun _ => rfl, [], rfl, ?_⟩
    · exact orderly.amend id (·.mergeOutputs bindings)
    · by_cases same : other = id
      · subst same
        rw [found]
        refine (Ledger.record?_amend_self _ _ _).trans ?_
        rw [show w.ledger.record? other = none from found]
        rfl
      · exact Ledger.record?_amend_other _ _ same
    · exact fun _ member => nomatch member
  | some x =>
    exact .turn id _ ((amends_assign (stands.valid.sound id x found) free bindings
      (fun left held => stands.backs id left held) found).turn found
        (replaces_amend (·.mergeOutputs bindings) stands.valid.orderly found rfl) rfl)

/-! ## The driver's steps -/

/-- The driver changes the record of a running execution to one that accounts for its results. -/
theorem proceed_deed (valid : Valid e spared w.books) (held : s id = some left)
    (found : w.books.record? id = some x) (notRequested : x.cancelRequested = false)
    (running : x.status = .running) (f : Execution → Execution) (status : (f x).status = x.status)
    (requested : (f x).cancelRequested = x.cancelRequested) (self : (f x).id = x.id)
    (metadata : (f x).metadata = x.metadata) (keys : x.scope.keys <+: (f x).scope.keys)
    (tally : ∀ workflow options, .admitted id workflow options ∈ w.journal →
      Tally e workflow options x → Tally e workflow options (f x))
    (replays : spared id → ∀ workflow options, .admitted id workflow options ∈ w.journal →
      Replays e id workflow options x w.journal → Replays e id workflow options (f x) w.journal) :
    Deed e spared s w.books (amend id f w).books (s.put id (f x)) := by
  have sound := valid.sound id x found
  have notCancelled : x.status ≠ .cancelled := by
    rw [running]
    decide
  refine .turn id (f x) ((amends_proceed sound held running (status.trans running)
    (requested.trans notRequested) self metadata keys (fun workflow options admitted => ?_)
    fun spares workflow options admitted => ?_).turn found (replaces_amend f valid.orderly found rfl) rfl)
  · exact tally workflow options admitted (sound.tally notCancelled workflow options admitted).1
  · exact replays spares workflow options admitted
      (sound.replays spares workflow options admitted)

/-! ## The driver's endings -/

/-- A change that ends an execution by itself, unless it has been cancelled. -/
structure Ends (id : String) (change : World σ → Except Fault Bool × World σ) : Prop where
  cancelled : ∀ {w x}, w.books.record? id = some x → x.status = .cancelled →
    change w = (.ok false, w)
  ends : ∀ {w x}, w.books.record? id = some x → x.status ≠ .cancelled →
    ∃ y w', Closes x y ∧ y.status ≠ .running ∧ y.status ≠ .cancelled ∧
      y.cancelRequested = x.cancelRequested ∧ w'.ledger = w.ledger.amend id (fun _ => y) ∧
      ((change w = (.ok true, w') ∧ w'.journal = w.journal) ∨
        (∃ fault, change w = (.error fault, w')) ∧ w'.journal = .untimed id :: w.journal)

/-- A change that finishes whatever has not been cancelled, under a status of its own end. -/
private theorem ends_of_finish {change : World σ → Except Fault Bool × World σ}
    (f : World σ → Execution → Execution) (status : World σ → ExecutionStatus)
    (shape : ∀ w, change w = if (record w id).status == .cancelled then (.ok false, w)
      else ((finish id (status w) (amend id (f w) w)).1.map fun _ => true,
        (finish id (status w) (amend id (f w) w)).2))
    (closes : ∀ w x, Closes x (f w x))
    (requested : ∀ w x, (f w x).cancelRequested = x.cancelRequested)
    (notRunning : ∀ w, status w ≠ .running) (notCancelled : ∀ w, status w ≠ .cancelled) :
    Ends id change where
  cancelled := by
    intro w x found cancelled
    rw [shape, record_eq found, cancelled]
    rfl
  ends := by
    intro w x found still
    have unequal : ¬((record w id).status == .cancelled) = true := by simpa [record_eq found] using still
    rw [shape, if_neg unequal]
    obtain ⟨y, closes, ended, requested', done | ⟨fault, done⟩⟩ :=
      finish_spec found (f w) (closes w x) (status w)
    · refine ⟨y, amend id (fun _ => y) w, closes, ended ▸ notRunning w, ended ▸ notCancelled w,
        requested'.trans (requested w x), rfl, .inl ⟨?_, rfl⟩⟩
      rw [done]
      rfl
    · refine ⟨y, (amend id (fun _ => y) w).note (.untimed id), closes, ended ▸ notRunning w,
        ended ▸ notCancelled w, requested'.trans (requested w x), rfl, .inr ⟨⟨fault, ?_⟩, rfl⟩⟩
      rw [done]
      rfl

theorem conclude_ends (id : String) : Ends id (conclude id : World σ → Except Fault Bool × World σ) := by
  refine ends_of_finish
    (fun w x => { x with summary := summary (record w id).totalSteps (record w id).results })
    (fun w => if (record w id).results.all (·.countsAsSuccess) then .completed else .failed)
    (fun w => rfl) (fun w x => ⟨rfl, rfl, rfl, rfl, rfl, rfl, rfl, rfl⟩) (fun _ _ => rfl) ?_ ?_
  · intro w
    split <;> decide
  · intro w
    split <;> decide

theorem abort_ends (id : String) (fault : Fault) :
    Ends id (abort id fault : World σ → Except Fault Bool × World σ) :=
  ends_of_finish (fun _ x => { x with error := .text fault.message, traced := true })
    (fun _ => .error) (fun _ => rfl) (fun _ _ => ⟨rfl, rfl, rfl, rfl, rfl, rfl, rfl, rfl⟩)
    (fun _ _ => rfl) (fun _ => by decide) fun _ => by decide

/-- What a change leaves in the record of an execution that has not been cancelled. -/
def Leaves (id : String) (change : World σ → Except Fault Bool × World σ)
    (mark : Execution → Execution → Prop) : Prop :=
  ∀ {w x y}, w.books.record? id = some x → x.status ≠ .cancelled →
    (change w).2.books.record? id = some y → mark x y

/-- The status and the summary after a record was changed and finished. -/
private theorem finish_leaves {y : Execution} (found : w.books.record? id = some x) (f : Execution → Execution)
    (status : ExecutionStatus) (left : (finish id status (amend id f w)).2.books.record? id = some y) :
    y.status = status ∧ y.summary = (f x).summary := by
  have changed : (amend id f w).books.record? id = some (f x) :=
    (Ledger.record?_amend_self ..).trans (congrArg (Option.map f) found)
  obtain ⟨durationMs, fault, ended⟩ := finish_record (f x) status (amend id f w).agenda.now
  have entered : (finish id status (amend id f w)).2.ledger =
      (amend id f w).ledger.amend id fun _ => { f x with status, ended := true, durationMs } := by
    rw [finish, record_eq changed, ended]
    cases fault <;> rfl
  rw [Books.record?, show (finish id status (amend id f w)).2.books.ledger = _ from entered,
    Ledger.record?_amend_self, show (amend id f w).ledger.record? id = some (f x) from changed] at left
  obtain rfl := Option.some.inj left
  exact ⟨rfl, rfl⟩

/-- After its steps an execution is completed or failed, as its results have it, and they are summed up. -/
theorem conclude_leaves (id : String) :
    Leaves id (conclude id : World σ → Except Fault Bool × World σ) fun x y =>
      y.status = (if x.results.all (·.countsAsSuccess) then .completed else .failed) ∧
        y.summary = summary x.totalSteps x.results := by
  intro w x y found notCancelled left
  have unequal : ¬((record w id).status == .cancelled) = true := by simpa [record_eq found] using notCancelled
  rw [conclude, if_neg unequal, record_eq found] at left
  exact finish_leaves found ({ · with summary := summary x.totalSteps x.results }) _ left

/-- After a fault an execution is an error, and its summary is as it was. -/
theorem abort_leaves (id : String) (fault : Fault) :
    Leaves id (abort id fault : World σ → Except Fault Bool × World σ) fun x y =>
      y.status = .error ∧ y.summary = x.summary := by
  intro w x y found notCancelled left
  have unequal : ¬((record w id).status == .cancelled) = true := by simpa [record_eq found] using notCancelled
  rw [abort, if_neg unequal] at left
  exact finish_leaves found ({ · with error := .text fault.message, traced := true }) _ left

/-- The task of a running execution has been cancelled. -/
theorem interrupt_deed (valid : Valid e spared w.books) (held : s id = some left)
    (found : w.books.record? id = some x) (running : x.status = .running) :
    Deed e spared s w.books (interrupt id w).2.books (s.drop id) ∧
      ∃ y, (interrupt id w).2.books.record? id = some y ∧ y.status ≠ .running := by
  have sound := valid.sound id x found
  have active : (record w id).isActive = true := by
    rw [record_eq found, Execution.isActive, running]
    rfl
  obtain ⟨y, closes, status, _, done | ⟨fault, done⟩⟩ := finish_spec found
    (fun x => { x with error := .text "Execution task was cancelled" })
    ⟨rfl, rfl, rfl, rfl, rfl, rfl, rfl, rfl⟩ .cancelled
  · rw [interrupt, if_pos active, done]
    have replaced : Replaces w.books (amend id (fun _ => y) w).books id y (w.books.isActive id) :=
      replaces_amend (fun _ => y) valid.orderly found rfl
    refine ⟨.turn id y ((amends_cut sound held closes running status (.inl rfl)).turn found
      replaced rfl), y, replaced.found, ?_⟩
    rw [status]
    decide
  · rw [interrupt, if_pos active, done]
    have replaced : Replaces w.books ((amend id (fun _ => y) w).note (.untimed id)).books id y
        (w.books.isActive id) :=
      replaces_amend (fun _ => y) valid.orderly found rfl
    refine ⟨.turn id y ((amends_cut sound held closes running status (.inr rfl)).turn found
      replaced rfl), y, replaced.found, ?_⟩
    rw [status]
    decide

end Engine

end Runbook
