import Runbook.Proofs.Manning

/-! # What an act is to one execution

An act that is about one execution leaves all others as they are: on record and active or not as before, with
the same status. What it can be to the execution itself is one of a few things.
-/

namespace Runbook

open Machine

variable {σ : Type} {e : Engine σ} {roster roster' : Roster} {w w' : World σ} {d d' : Duty} {t : TaskId}
  {id : String}

/-- The execution is on record and active or not as before, with the same status. -/
structure World.SameFate (w w' : World σ) (id : String) : Prop where
  recorded : w'.Recorded id ↔ w.Recorded id
  active : w'.ledger.isActive id = w.ledger.isActive id
  status : w'.ledger.status? id = w.ledger.status? id

/-- What an act of a task is to an execution. -/
inductive Engine.Fate (d : Duty) (w : World σ) (d' : Duty) (w' : World σ) (id : String) : Prop
  | same (same : w.SameFate w' id)
  | admitted (active : w'.ledger.isActive id = true) (running : w'.ledger.status? id = some .running)
  /-- Its driver has ended it. -/
  | ended (drives : d.drives = some id) (status : w'.ledger.status? id ≠ some .cancelled)
  /-- Its driver was cancelled, and has only to retire it. -/
  | cut (drives : d.drives = some id) (drives' : d'.drives = some id) (closing : d'.phase = .closing)
  | untimed (told : .untimed id ∈ w'.journal)
  | retired (drives : d.drives = some id) (inactive : w'.ledger.isActive id = false)
  | withdrawn (told : .cancelled id ∈ w'.journal) (inactive : w'.ledger.isActive id = false)

namespace World

theorem sameFate_of_ledger (ledger : w'.ledger = w.ledger) : w.SameFate w' id :=
  ⟨by rw [Recorded, ledger]; rfl, by rw [ledger], by rw [ledger]⟩

/-- To change the record of another execution is nothing to this one. -/
theorem sameFate_amend {other : String} {f : Execution → Execution} (different : id ≠ other)
    (ledger : w'.ledger = w.ledger.amend other f) : w.SameFate w' id where
  recorded := by rw [Recorded, ledger, Ledger.admitted_amend]; rfl
  active := by rw [ledger]; rfl
  status := by rw [ledger, Ledger.status?_amend, if_neg different]

/-- To retire another execution is nothing to this one. -/
theorem sameFate_retire {other : String} {limit : Option Nat} {l : Ledger} (different : id ≠ other)
    (active : l.isActive other = true) (before : l.SameLists w.ledger) (status : w.ledger.status? id = l.status? id)
    (ledger : w'.ledger = l.retire limit other) : w.SameFate w' id where
  recorded := by rw [Recorded, ledger, Ledger.admitted_retire, Recorded, before.admitted]
  active := by
    rw [ledger, Ledger.isActive_retire_other limit active different, Ledger.isActive, Ledger.isActive, before.active]
  status := by rw [ledger, Ledger.status?_retire, status]

end World

namespace Engine.Affair

theorem fate (affair : e.Affair d w d' w') (orderly : w.ledger.Orderly) (id : String) : Fate d w d' w' id := by
  cases affair with
  | plain alike ledger journal =>
    exact .same ⟨by rw [World.Recorded, ledger.admitted]; rfl, by rw [Ledger.isActive, ledger.active]; rfl,
      ledger.status id⟩
  | admits steady other workflow options x fresh running ledger journal =>
    by_cases same : id = other
    · subst same
      have found := Ledger.record?_enroll_self (l := { w.ledger with generated := w.ledger.generated + 1 }) fresh x
      refine .admitted (by rw [ledger, Ledger.isActive_enroll_self]) ?_
      rw [ledger, Ledger.status?, found, Option.map_some, running]
    · refine .same ⟨?_, by rw [ledger, Ledger.isActive_enroll_other _ _ same]; rfl, ?_⟩
      · simp [World.Recorded, ledger, Ledger.admitted, Ledger.enroll, same]
      · rw [ledger, Ledger.status?, Ledger.record?_enroll_other _ _ same]
        rfl
  | begins _ _ _ ledger => exact .same (World.sameFate_of_ledger ledger)
  | ends steady other drives y status ledger =>
    by_cases same : id = other
    · subst same
      refine .ended drives ?_
      rw [ledger, Ledger.status?_amend, if_pos rfl]
      cases w.ledger.record? id with
      | none => simp
      | some x => exact fun same => status.2 (Option.some.inj same)
    · exact .same (World.sameFate_amend same ledger)
  | cuts owes other drives y status ledger =>
    by_cases same : id = other
    · subst same
      exact .cut drives drives rfl
    · exact .same (World.sameFate_amend same ledger)
  | untimes alike other y status ledger journal =>
    by_cases same : id = other
    · subst same
      exact .untimed (journal ▸ List.mem_cons_self)
    · exact .same (World.sameFate_amend same ledger)
  | retires other drives owes world =>
    rcases world with ⟨active, ledger, _⟩ | ⟨inactive, ledger, _⟩
    · by_cases same : id = other
      · subst same
        exact .retired drives (by rw [ledger, Ledger.isActive_retire_self orderly.nodup _ active])
      · exact .same (World.sameFate_retire same active (.refl _) rfl ledger)
    · exact .same (World.sameFate_of_ledger ledger)
  | withdraws other active settled y status ledger record journal =>
    by_cases same : id = other
    · subst same
      refine .withdrawn (by rw [journal]; simp) ?_
      rw [ledger, Ledger.isActive_retire_self (l := w.ledger.amend id fun _ => y) orderly.nodup _ active]
    · refine .same (World.sameFate_retire (l := w.ledger.amend other fun _ => y) same active ?_ ?_ ledger)
      · exact ⟨(Ledger.admitted_amend ..).symm, rfl⟩
      · rw [Ledger.status?_amend, if_neg same]
  | clears ledger => exact .same ⟨by rw [World.Recorded, ledger]; rfl, by rw [ledger]; rfl, by rw [ledger]; rfl⟩

/-- What the journal has told it goes on to tell. -/
theorem journal (affair : e.Affair d w d' w') : ∃ new, w'.journal = new ++ w.journal := by
  cases affair with
  | plain _ _ journal =>
    obtain ⟨new, journal, _⟩ := journal
    exact ⟨new, journal⟩
  | admits _ _ _ _ _ _ _ _ journal | begins _ _ _ _ _ journal | ends _ _ _ _ _ _ _ _ _ journal
  | untimes _ _ _ _ _ journal | clears _ journal => exact ⟨[_], journal⟩
  | cuts _ _ _ _ _ _ journal => exact ⟨[], journal⟩
  | retires _ _ _ world =>
    rcases world with ⟨_, _, journal⟩ | ⟨_, _, journal⟩
    · exact ⟨[_], journal⟩
    · exact ⟨[], journal⟩
  | withdraws _ _ _ _ _ _ _ journal => exact ⟨[_, _, _], journal⟩

/-- Only whoever answers for an execution can begin it. -/
theorem begun (affair : e.Affair d w d' w') (begun : w'.HasBegun id) : w.HasBegun id ∨ d.Answers id := by
  rw [World.HasBegun] at begun ⊢
  cases affair with
  | plain _ _ journal =>
    obtain ⟨new, journal, mere⟩ := journal
    obtain ⟨record, told⟩ := begun
    rw [journal, List.mem_append] at told
    refine .inl ⟨record, told.resolve_left fun member => ?_⟩
    exact mere _ member
  | begins other phase _ _ _ journal =>
    obtain ⟨record, told⟩ := begun
    rw [journal, List.mem_cons] at told
    rcases told with same | told
    · cases same
      exact .inr (.inr phase)
    · exact .inl ⟨record, told⟩
  | ends _ _ _ _ _ _ event kind _ journal =>
    rcases kind with rfl | rfl <;> exact .inl (by simpa [journal] using begun)
  | admits _ _ _ _ _ _ _ _ journal | untimes _ _ _ _ _ journal | clears _ journal | cuts _ _ _ _ _ _ journal
  | withdraws _ _ _ _ _ _ _ journal => exact .inl (by simpa [journal] using begun)
  | retires _ _ _ world =>
    rcases world with ⟨_, _, journal⟩ | ⟨_, _, journal⟩ <;> exact .inl (by simpa [journal] using begun)

end Engine.Affair

/-- What a move is to an execution: nothing, or what an act of a task is. -/
theorem Engine.Shift.fate (shift : e.Shift roster w roster' w') (staffed : Staffed roster w)
    (orderly : w.ledger.Orderly) (id : String) : ∃ new, w'.journal = new ++ w.journal ∧
      (w.SameFate w' id ∨ ∃ t d d', roster t = some d ∧ roster' t = some d' ∧ Fate d w d' w' id) := by
  rcases shift.books fun t d id found => staffed.recorded found with
    ⟨t, d, d', found, rfl, affair⟩ | ⟨ledger, journal⟩
  · obtain ⟨new, journal⟩ := affair.journal
    exact ⟨new, journal, .inr ⟨t, d, d', found, Roster.put_self .., affair.fate orderly id⟩⟩
  · exact ⟨[], journal, .inl (World.sameFate_of_ledger ledger)⟩

end Runbook
