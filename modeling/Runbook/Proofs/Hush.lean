import Runbook.Proofs.Notices

/-! # Tasks that have nothing to tell

Between two steps of an execution nobody but its driver could tell of it, and while the driver follows the
callbacks of a move it does what those do, who answer for other executions only. Neither does it tell of the
execution after a cancellation has come between it and the callbacks: then it has only to retire the execution.
-/

namespace Runbook

open Machine

variable {σ α β : Type} {e : Engine σ} {host : Host σ} {roster roster' : Roster} {w w' : World σ}
  {t : TaskId} {d d' : Duty} {id : String} {h : Happening} {journal journal' journal'' : List Happening}

/-! ## Silence -/

/-- It tells of no move of the execution, and of no manual step in it. -/
def Happening.Beside (id : String) (h : Happening) : Prop := h.move? id = none ∧ ∀ index, h.notice? ≠ some (id, index)

/-- The journal goes on, and nothing is told of the execution. -/
def Silence (id : String) (journal journal' : List Happening) : Prop :=
  ∃ new, journal' = new ++ journal ∧ ∀ h ∈ new, h.Beside id

namespace Silence

theorem of_eq (same : journal' = journal) : Silence id journal journal' := ⟨[], same, fun _ member => nomatch member⟩

theorem refl (id : String) (journal : List Happening) : Silence id journal journal := of_eq rfl

theorem trans (first : Silence id journal journal') (second : Silence id journal' journal'') :
    Silence id journal journal'' := by
  obtain ⟨new, same, beside⟩ := first
  obtain ⟨new', same', beside'⟩ := second
  refine ⟨new' ++ new, by rw [same', same, List.append_assoc], ?_⟩
  intro h member
  rcases List.mem_append.mp member with later | earlier
  · exact beside' h later
  · exact beside h earlier

theorem note (beside : h.Beside id) : Silence id journal (h :: journal) := by
  refine ⟨[h], rfl, ?_⟩
  intro other member
  rwa [List.mem_singleton.mp member]

/-- Whatever entry was added is beside the execution. -/
theorem head (silence : Silence id journal journal') (added : journal' = h :: journal) : h.Beside id := by
  obtain ⟨new, same, beside⟩ := silence
  have single : new ++ journal = [h] ++ journal := same.symm.trans added
  obtain rfl := List.append_cancel_right single
  exact beside h (List.mem_singleton_self h)

end Silence

/-! ## Duties of those who tell nothing -/

/-- Whoever has the duty has nothing to tell of the execution: it was cut off from it, or has nothing to do with it. -/
structure Duty.Mute (d : Duty) (id : String) (w : World σ) : Prop where
  recorded : ∀ other, d.Answers other → w.Recorded other
  apart : (d.phase = .severed ∨ d.phase = .closing) ∨ ¬d.Answers id ∧ ¬d.Serves id

namespace Engine

/-- Executions that somebody answers for are on record. -/
theorem Affair.answered (affair : e.Affair d w d' w') (recorded : ∀ other, d.Answers other → w.Recorded other)
    {other : String} (answers : d'.Answers other) : w'.Recorded other := by
  by_cases known : w.Recorded other
  · exact affair.recorded known
  have fresh (answers : d.Answers other) : w'.Recorded other := absurd (recorded other answers) known
  cases affair with
  | plain alike => exact fresh (alike.answers answers)
  | admits _ id _ _ x _ _ ledger =>
    rcases answers with drives | phase | phase
    · exact fresh (.inl drives)
    · obtain rfl := Phase.admitted.inj phase
      rw [World.Recorded, ledger, Ledger.admitted, Ledger.enroll, List.map_append]
      exact List.mem_append_right _ (List.mem_singleton_self _)
    · cases phase
  | begins id phase =>
    rw [Duty.answers_drives answers] at fresh ⊢
    exact fresh (.inr phase)
  | ends | withdraws | clears => exact fresh answers
  | cuts => exact fresh (d.alike_closing.answers answers)
  | untimes alike => exact fresh (alike.answers answers)
  | retires => exact absurd answers Duty.not_answers_free

/-- Whoever comes to serve an execution by an act answered for it. -/
theorem Affair.serves (affair : e.Affair d w d' w') (serves : d'.Serves id) : d.Serves id ∨ d.Answers id := by
  have alike (alike : d.Alike d') : d.Serves id := by
    rwa [Duty.Serves, alike.drives, alike.works] at serves
  cases affair with
  | plain like | untimes like => exact .inl (alike like)
  | begins other phase =>
    rcases serves with drives | works
    · obtain rfl := Option.some.inj drives
      exact .inr (.inr phase)
    · cases works
  | retires => rcases serves with same | same <;> cases same
  | admits | ends | withdraws | clears | cuts => exact .inl serves

/-- A driver that goes on having to do with an execution goes on driving it. -/
theorem Affair.drives (affair : e.Affair d w d' w') (drives : d.drives = some id)
    (still : d'.Answers id ∨ d'.Serves id) : d'.drives = some id := by
  cases affair with
  | plain alike | untimes alike => exact alike.drives.trans drives
  | begins _ _ free => cases free.1.symm.trans drives
  | retires =>
    rcases still with answers | serves
    · exact absurd answers Duty.not_answers_free
    · rcases serves with same | same <;> cases same
  | admits | ends | withdraws | clears | cuts => exact drives

end Engine

namespace Duty.Mute

theorem fits (mute : d.Mute id w) {other : String} (drives : d.drives = some other) :
    ∃ x, w.ledger.record? other = some x :=
  Ledger.mem_admitted.mp (mute.recorded other (.inl drives))

/-- Executions stay on record. -/
theorem later (mute : d.Mute id w) (stays : ∀ other, w.Recorded other → w'.Recorded other) : d.Mute id w' :=
  ⟨fun other answers => stays other (mute.recorded other answers), mute.apart⟩

theorem free (id : String) (w : World σ) : Mute {} id w := by
  refine ⟨fun other answers => absurd answers not_answers_free, .inr ⟨not_answers_free, ?_⟩⟩
  exact not_serves_of_free ⟨rfl, rfl⟩

/-- A task may be made to wait, or made to wait no longer. -/
theorem rested (mute : d.Mute id w) : d.rested.Mute id w := ⟨mute.recorded, mute.apart⟩

theorem hires (mute : d.Mute id w) {child : TaskId} {given : Duty} (hires : d.Hires child given d') :
    d'.Mute id w := by
  cases hires with
  | aide | branch => exact ⟨mute.recorded, mute.apart⟩
  | driver other phase =>
    have fewer {id : String} (answers : Duty.Answers { d with phase := .handed other child } id) : d.Answers id := by
      rcases answers with drives | same | same
      · exact .inl drives
      · cases same
      · cases same
    refine ⟨fun id answers => mute.recorded id (fewer answers), .inr ?_⟩
    rcases mute.apart with (cut | cut) | ⟨answers, serves⟩
    · cases phase.symm.trans cut
    · cases phase.symm.trans cut
    · exact ⟨fun answers' => answers (fewer answers'), serves⟩

end Duty.Mute

namespace Engine

/-- A task that has nothing to do with an execution does not tell of it. -/
theorem Tale.silence (tale : Tale d w d' w') (answers : ¬d.Answers id) (serves : ¬d.Serves id) :
    Silence id w.journal w'.journal := by
  cases tale with
  | still new journal quiet =>
    refine ⟨new, journal, fun h member => ⟨(quiet h member).1 id, fun index told => ?_⟩⟩
    cases (quiet h member).2.symm.trans told
  | notice journal notice still mine =>
    rw [journal]
    refine .note ⟨still id, fun index told => ?_⟩
    obtain ⟨rfl, _⟩ := Prod.mk.inj (Option.some.inj (notice.symm.trans told))
    exact serves mine
  | move journal moves only quiet whose =>
    rw [journal]
    refine .note ⟨only id ?_, fun index told => nomatch quiet.symm.trans told⟩
    rintro rfl
    rcases whose with ⟨drives, _⟩ | pending
    · exact answers (.inl drives)
    · exact answers (.inr pending)

/-- Who was cut off from the callbacks can only end the execution as cancelled and retire it, and tells nothing. -/
theorem Act.of_cut (act : e.Act d w d' w') (cut : d.phase = .severed ∨ d.phase = .closing)
    (recorded : ∀ id, d.drives = some id → ∃ x, w.ledger.record? id = some x) :
    (d'.phase = .closing ∨ d' = {}) ∧ Silence id w.journal w'.journal := by
  have unsteady (steady : d.Steady) : False := by
    rcases cut with severed | closing
    · cases steady.phase.symm.trans severed
    · cases steady.phase.symm.trans closing
  -- Interrupting and retiring tell the same whoever does it, and so what a task tells that has no duty at all.
  have nothing {d' : Duty} {w' : World σ} (tale : Tale {} w d' w') : Silence id w.journal w'.journal :=
    tale.silence Duty.not_answers_free (Duty.not_serves_of_free ⟨rfl, rfl⟩)
  cases act with
  | keep _ _ phase => rcases cut with cut | cut <;> cases phase.symm.trans cut
  | begin _ phase => rcases cut with cut | cut <;> rcases phase with phase | phase <;> cases phase.symm.trans cut
  | interrupt other drives =>
    obtain ⟨x, found⟩ := recorded other drives
    exact ⟨.inl rfl, nothing (interrupt_tale found)⟩
  | retire other => exact ⟨.inr rfl, nothing (retire_tale e other)⟩
  | stir steady | note steady | amend steady | enroll steady | finish steady | withdraw steady | opens steady
  | takes steady | gather steady | clear steady => exact (unsteady steady).elim

end Engine

/-- Whoever has nothing to tell does not tell it, and has nothing to tell afterwards. -/
theorem Duty.Mute.act (mute : d.Mute id w) (act : e.Act d w d' w') (orderly : w.ledger.Orderly)
    (known : w.Recorded id) : d'.Mute id w' ∧ Silence id w.journal w'.journal := by
  have recorded (other : String) (drives : d.drives = some other) : ∃ x, w.ledger.record? other = some x :=
    mute.fits drives
  have affair := act.affair orderly recorded
  have answered : ∀ other, d'.Answers other → w'.Recorded other := fun _ => affair.answered mute.recorded
  rcases mute.apart with cut | ⟨answers, serves⟩
  · obtain ⟨closing | done, silence⟩ := act.of_cut cut recorded
    · exact ⟨⟨answered, .inl (.inr closing)⟩, silence⟩
    · exact ⟨done ▸ .free id w', silence⟩
  · have apart : ¬d'.Answers id ∧ ¬d'.Serves id := by
      constructor
      · intro answers'
        exact answers (affair.answers known answers').1
      · intro serves'
        rcases affair.serves serves' with still | still
        · exact serves still
        · exact answers still
    exact ⟨⟨answered, .inr apart⟩, (act.tale orderly recorded).silence answers serves⟩

/-! ## Routines that tell nothing -/

/-- Followed from a duty with nothing to tell of an execution, the routine tells nothing of it, and ends as it
says. It may call tools and observers, whoever they are to be called by. -/
def Routine.Hushed {α : Type} (id : String) : Routine σ α → Duty → (α → Prop) → Prop
  | .done a, _, Q => Q a
  | .act f k, d, Q => ∀ w : World σ, d.Fit w → w.ledger.Orderly → w.Recorded id → d.Mute id w →
    ∃ d', d'.Mute id (f w).2 ∧ Silence id w.journal (f w).2.journal ∧ (k (f w).1).Hushed id d' Q
  | .wait _ k, d, Q => ∀ wake, (k wake).Hushed id d.rested Q
  | .call _ k, d, Q => d.Steady ∧ ∀ answer, (k answer).Hushed id d Q
  | .spawn _ k, d, Q => ∀ child, ∃ d', (∀ w : World σ, d.Mute id w → d'.Mute id w) ∧ (k child).Hushed id d' Q

namespace Routine

variable {p : Routine σ α} {Q : α → Prop} {R : β → Prop}

/-- What is to be done next tells nothing whatever the first routine leaves of the duty. -/
theorem Minds.hushed_bind {P : α → Duty → Prop} {f : α → Routine σ β} (minds : p.Minds e d P)
    (next : ∀ a d, P a d → (f a).Hushed id d R) : (p.bind f).Hushed id d R := by
  induction p generalizing d with
  | done a => exact next a d minds
  | act g k ih =>
    intro w fit orderly known mute
    obtain ⟨d', act, rest⟩ := minds w fit
    obtain ⟨mute', silence⟩ := mute.act act orderly known
    exact ⟨d', mute', silence, ih _ rest next⟩
  | wait cue k ih => exact fun wake => ih wake (minds.2 wake) next
  | call errand k ih => exact ⟨minds.1, fun answer => ih answer (minds.2.1 answer) next⟩
  | spawn body k _ ih =>
    intro child
    obtain ⟨given, d', hires, _, rest⟩ := minds child
    exact ⟨d', fun w mute => mute.hires hires, ih child rest next⟩

theorem Minds.hushed {P : α → Duty → Prop} (minds : p.Minds e d P) (weaker : ∀ a d, P a d → Q a) :
    p.Hushed id d Q := by
  rw [← bind_done p]
  exact minds.hushed_bind weaker

end Routine

/-- Callbacks are followed without anything being told. The delivery ends with all of them having returned, or
with a cancellation. -/
theorem deliver_hushed (event : Event) (callbacks : List String) :
    (ExceptT.run (deliver event callbacks : Attempt σ Unit)).Hushed id {}
      fun r => r = .ok () ∨ ∃ message, r = .error (.cancelled message) := by
  induction callbacks with
  | nil => exact .inl rfl
  | cons callback rest ih =>
    rw [deliver]
    refine ⟨Duty.steady_free, ?_⟩
    rintro ((fault | message) | v)
    · intro w fit orderly known mute
      exact ⟨{}, .free id _, .note ⟨rfl, by rintro _ ⟨⟩⟩, ih⟩
    · exact .inr ⟨message, rfl⟩
    · exact ih

/-! ## Executions between two steps -/

/-- Nobody has to do with the execution but one task, which drives it and is in no step of it. -/
def LeftAlone (roster : Roster) (t : TaskId) (id : String) : Prop :=
  ∀ s d, roster s = some d → d.Answers id ∨ d.Serves id → s = t ∧ d.drives = some id ∧ d.step = none

namespace LeftAlone

theorem of_driver (staffed : Staffed roster w) (found : roster t = some d) (drives : d.drives = some id)
    (owes : d.owes = []) (free : d.step = none) : LeftAlone roster t id := by
  intro s d₁ found₁ mine
  obtain rfl : s = t := by
    rcases mine with answers | serves
    · exact staffed.sole s t d₁ d id found₁ found answers (.inl drives)
    · exact staffed.alone found drives owes s d₁ found₁ serves
  obtain rfl := Option.some.inj (found.symm.trans found₁)
  exact ⟨rfl, drives, free⟩

/-- The other tasks tell nothing of the execution. -/
theorem silence (left : LeftAlone roster t id) {s : TaskId} (found : roster s = some d) (other : s ≠ t)
    (act : e.Act d w d' w') (orderly : w.ledger.Orderly)
    (recorded : ∀ id, d.drives = some id → ∃ x, w.ledger.record? id = some x) : Silence id w.journal w'.journal := by
  apply (act.tale orderly recorded).silence
  · intro answers
    exact other (left s d found (.inl answers)).1
  · intro serves
    exact other (left s d found (.inr serves)).1

/-- Nobody else comes to have to do with the execution as long as nothing is told of it. -/
theorem shift (left : LeftAlone roster t id) (staffed : Staffed roster w) (shift : e.Shift roster w roster' w')
    (silence : Silence id w.journal w'.journal) (known : w.Recorded id) : LeftAlone roster' t id := by
  intro s d' found' mine
  cases shift.origin found' with
  | same found => exact left s d' found mine
  | act d found ledger fit act =>
    have recorded (other : String) (drives : d.drives = some other) : ∃ x, w.ledger.record? other = some x :=
      staffed.recorded found drives
    have affair := act.affair ledger recorded
    obtain ⟨same, drives, free⟩ : s = t ∧ d.drives = some id ∧ d.step = none := by
      apply left s d found
      rcases mine with answers | serves
      · exact .inl (affair.answers known answers).1
      · exact (affair.serves serves).symm
    have drives' := affair.drives drives mine
    refine ⟨same, drives', ?_⟩
    cases act.tale ledger recorded with
    | still _ _ _ step => exact step.elim (fun none => none) fun kept => kept.1.trans free
    | notice => exact free
    | move journal moves _ _ _ step =>
      rcases step with none | ⟨index, _, _, only⟩
      · exact none
      · obtain rfl := only id (.inl drives')
        cases (silence.head journal).1.symm.trans moves
  | rested d found rested =>
    subst rested
    exact left s d found mine
  | hires d given found hires =>
    cases hires with
    | aide => exact left s d' found mine
    | driver other phase =>
      refine left s d found ?_
      rcases mine with (drives | same | same) | serves
      · exact .inl (.inl drives)
      · cases same
      · cases same
      · exact .inr serves
    | branch => exact left s d found mine
  | hired leader d given found hires =>
    cases hires with
    | aide => exact absurd mine (by simp [Duty.Answers, Duty.Serves])
    | driver other phase =>
      obtain rfl : other = id := by
        rcases mine with answers | serves
        · exact (Duty.answers_appointed answers).symm
        · rcases serves with same | same <;> cases same
      obtain ⟨_, drives, _⟩ := left leader d found (.inl (.inr (.inl phase)))
      have begun := (staffed.serving leader d other found (.inl drives)).2.1
      exact absurd begun (staffed.pending leader d other found (.inl phase)).2.1
    | branch other index phase serves step =>
      obtain rfl : other = id := by
        rcases mine with (same | same | same) | (same | same)
        · cases same
        · cases same
        · cases same
        · cases same
        · exact Option.some.inj same
      obtain ⟨_, _, free⟩ := left leader d found (.inr serves)
      cases free.symm.trans step
  | visitor free =>
    subst free
    exact absurd mine (by simp [Duty.Answers, Duty.Serves])

end LeftAlone

end Runbook
