import Runbook.Proofs.Duty
import Runbook.Proofs.Governance

/-! # What acts mean for executions

Of all acts only a few matter for the fate of executions: one is admitted, begins, ends, is retired or
withdrawn, or cannot be timed at its end, and the history is cleared. Every act is one of these or leaves
the status of all executions, the active ones and the history as they are.
-/

namespace Runbook

variable {σ : Type}

/-! ## Ledgers -/

namespace Ledger

variable {l l' : Ledger} {id : String} {x y : Execution}

/-- The executions on record, in order of admission. -/
def admitted (l : Ledger) : List String := l.records.map (·.1)

/-- The status of an execution. -/
def status? (l : Ledger) (id : String) : Option ExecutionStatus := (l.record? id).map (·.status)

/-- The ledgers have the same executions on record and active. -/
structure SameLists (l l' : Ledger) : Prop where
  admitted : l'.admitted = l.admitted
  active : l'.active = l.active

/-- Besides, the executions have the same status, and the history is the same. -/
structure Alike (l l' : Ledger) : Prop extends l.SameLists l' where
  status : ∀ id, l'.status? id = l.status? id
  history : l'.history = l.history

theorem SameLists.refl (l : Ledger) : l.SameLists l := ⟨rfl, rfl⟩

theorem Alike.refl (l : Ledger) : l.Alike l := ⟨.refl l, fun _ => rfl, rfl⟩

theorem admitted_amend (l : Ledger) (id : String) (f : Execution → Execution) :
    (l.amend id f).admitted = l.admitted := by
  simp only [admitted, amend, List.map_map]
  refine List.map_congr_left fun r _ => ?_
  simp only [Function.comp_apply]
  split <;> rfl

theorem sameLists_amend (l : Ledger) (id : String) (f : Execution → Execution) : l.SameLists (l.amend id f) :=
  ⟨admitted_amend l id f, rfl⟩

theorem admitted_retire (l : Ledger) (limit : Option Nat) (id : String) :
    (l.retire limit id).admitted = l.admitted := by
  unfold retire
  split <;> rfl

theorem status?_retire (l : Ledger) (limit : Option Nat) (id other : String) :
    (l.retire limit id).status? other = l.status? other := by
  rw [status?, record?_retire, status?]

theorem status?_amend (l : Ledger) (id other : String) (f : Execution → Execution) :
    (l.amend id f).status? other =
      if other = id then (l.record? id).map fun x => (f x).status else l.status? other := by
  rw [status?, record?_amend]
  split
  · rw [Option.map_map]
    rfl
  · rfl

/-- A change of a record that is not of its status. -/
theorem alike_amend {f : Execution → Execution} (status : ∀ x, l.record? id = some x → (f x).status = x.status) :
    l.Alike (l.amend id f) := by
  refine ⟨sameLists_amend l id f, fun other => ?_, rfl⟩
  rw [status?_amend]
  split
  · next same =>
    subst same
    rw [status?]
    cases found : l.record? other with
    | none => rfl
    | some x => exact congrArg some (status x found)
  · rfl

theorem mem_admitted : id ∈ l.admitted ↔ ∃ x, l.record? id = some x := by
  simp only [admitted, record?, List.mem_map, Option.map_eq_some_iff]
  constructor
  · rintro ⟨r, member, rfl⟩
    obtain ⟨found, chosen⟩ : ∃ found, l.records.find? (·.1 == r.1) = some found :=
      Option.isSome_iff_exists.mp (List.find?_isSome.mpr ⟨r, member, by simp⟩)
    exact ⟨found.2, found, chosen, rfl⟩
  · rintro ⟨_, r, found, _⟩
    exact ⟨r, List.mem_of_find?_eq_some found, by simpa using List.find?_some found⟩

end Ledger

/-! ## Affairs -/

/-- The duties agree in the executions that they are for, except that one may be about to retire its
execution, and in the tasks that are to be waited for there may be more. -/
structure Duty.Alike (d d' : Duty) : Prop where
  drives : d'.drives = d.drives
  works : d'.works = d.works
  owes : ∀ child ∈ d.owes, child ∈ d'.owes
  phase : d'.phase = d.phase ∨ ∀ id, d'.phase ≠ .admitted id ∧ d'.phase ≠ .appointed id

/-- What an act is to the executions: the duty of its task and the world before, and both afterwards. -/
inductive Engine.Affair (e : Engine σ) : Duty → World σ → Duty → World σ → Prop
  | plain {d d' : Duty} {w w' : World σ} (alike : d.Alike d') (ledger : w.ledger.Alike w'.ledger)
      (journal : ∃ new, w'.journal = new ++ w.journal ∧ ∀ h ∈ new, h.Mere) : e.Affair d w d' w'
  | admits {d : Duty} {w w' : World σ} (steady : d.Steady) (id : String) (workflow : Workflow)
      (options : Options) (x : Execution) (fresh : w.ledger.record? id = none) (running : x.status = .running)
      (ledger : w'.ledger = ({ w.ledger with generated := w.ledger.generated + 1 } : Ledger).enroll id x)
      (journal : w'.journal = .admitted id workflow options :: w.journal)
      (room : (Value.int w.ledger.active.length).reaches e.config.maxConcurrent = .ok false) :
      e.Affair d w { d with phase := .admitted id } w'
  | begins {d : Duty} {w w' : World σ} (id : String)
      (phase : d.phase = .admitted id ∨ d.phase = .appointed id) (free : d.drives = none ∧ d.works = none)
      (ledger : w'.ledger = w.ledger) (record : Option Execution)
      (journal : w'.journal = .announced (.started id) record :: w.journal) :
      e.Affair d w { drives := some id } w'
  /-- An execution has ended by itself, and its end is announced. -/
  | ends {d : Duty} {w w' : World σ} (steady : d.Steady) (id : String) (drives : d.drives = some id)
      (y : Execution) (status : y.status ≠ .running ∧ y.status ≠ .cancelled)
      (ledger : w'.ledger = w.ledger.amend id fun _ => y) (event : Event)
      (kind : event = .completed id ∨ event = .failed id) (record : Option Execution)
      (journal : w'.journal = .announced event record :: w.journal) : e.Affair d w d w'
  /-- The driver of an execution was cancelled, and has only to retire it. -/
  | cuts {d : Duty} {w w' : World σ} (owes : d.owes = []) (id : String) (drives : d.drives = some id)
      (y : Execution) (status : y.status = .cancelled) (ledger : w'.ledger = w.ledger.amend id fun _ => y)
      (journal : w'.journal = w.journal) : e.Affair d w { d with phase := .closing } w'
  /-- An execution has ended in one way or another, and nobody can tell how long it took. -/
  | untimes {d d' : Duty} {w w' : World σ} (alike : d.Alike d') (id : String) (y : Execution)
      (status : y.status ≠ .running) (ledger : w'.ledger = w.ledger.amend id fun _ => y)
      (journal : w'.journal = .untimed id :: w.journal) : e.Affair d w d' w'
  /-- The driver has nothing to drive any more. -/
  | retires {d : Duty} {w w' : World σ} (id : String) (drives : d.drives = some id) (owes : d.owes = [])
      (world : w.ledger.isActive id = true ∧ w'.ledger = w.ledger.retire e.config.historyLimit id ∧
          w'.journal = .retired id :: w.journal ∨
        w.ledger.isActive id = false ∧ w'.ledger = w.ledger ∧ w'.journal = w.journal) :
      e.Affair d w {} w'
  /-- A cancellation has found an active execution, and all its pending requests are settled. -/
  | withdraws {d : Duty} {w w' : World σ} (id : String) (active : w.ledger.isActive id = true)
      (settled : ∀ r ∈ w'.gate.requests, r.listed = true → r.execution = id → r.isOpen = false)
      (y : Execution) (status : y.status = .cancelled)
      (ledger : w'.ledger = (w.ledger.amend id fun _ => y).retire e.config.historyLimit id)
      (record : Option Execution)
      (journal : w'.journal =
        .announced (.cancelled id) record :: .cancelled id :: .retired id :: w.journal) : e.Affair d w d w'
  | clears {d : Duty} {w w' : World σ} (ledger : w'.ledger = w.ledger.clear)
      (journal : w'.journal = .cleared :: w.journal) : e.Affair d w d w'

variable {e : Engine σ} {d d' : Duty} {w w' : World σ} {id : String}

namespace Duty

theorem Alike.refl (d : Duty) : d.Alike d := ⟨rfl, rfl, fun _ member => member, .inl rfl⟩

theorem alike_closing (d : Duty) : d.Alike { d with phase := .closing } :=
  ⟨rfl, rfl, fun _ member => member, .inr fun _ => ⟨fun same => (nomatch same), fun same => nomatch same⟩⟩

end Duty

namespace Engine

/-- What is left of an admission: a new execution, or nothing but a number that was used up. -/
theorem enroll_cases (e : Engine σ) (orderly : w.ledger.Orderly) (workflow : Workflow) (options : Options) :
    (∃ fault, (e.enroll workflow options w).1 = .error fault ∧
      w.ledger.Alike (e.enroll workflow options w).2.ledger ∧
      (e.enroll workflow options w).2.journal = w.journal) ∨
    ∃ id x, (e.enroll workflow options w).1 = .ok id ∧ w.ledger.record? id = none ∧ x.status = .running ∧
      (e.enroll workflow options w).2.ledger =
        ({ w.ledger with generated := w.ledger.generated + 1 } : Ledger).enroll id x ∧
      (e.enroll workflow options w).2.journal = .admitted id workflow options :: w.journal ∧
      (Value.int w.ledger.active.length).reaches e.config.maxConcurrent = .ok false := by
  unfold enroll
  split
  · exact .inl ⟨_, rfl, .refl _, rfl⟩
  · exact .inl ⟨_, rfl, .refl _, rfl⟩
  next room =>
  split
  · exact .inl ⟨_, rfl, .refl _, rfl⟩
  simp only
  split
  · exact .inl ⟨_, rfl, ⟨⟨rfl, rfl⟩, fun _ => rfl, rfl⟩, rfl⟩
  · exact .inr ⟨_, _, rfl, orderly.fresh, rfl, rfl, rfl, room⟩

theorem Affair.refl (d : Duty) (w : World σ) : e.Affair d w d w :=
  .plain (.refl d) (.refl _) ⟨[], rfl, List.forall_mem_nil _⟩

/-- A driver ends its execution by itself, unless it was cancelled before. -/
theorem Ends.affair (steady : d.Steady) (drives : d.drives = some id) {event : Event}
    (kind : event = .completed id ∨ event = .failed id) {change : World σ → Except Fault Bool × World σ}
    (ends : Ends id change) {x : Execution} (found : w.ledger.record? id = some x) :
    e.Affair d w d (w.announced event change).2 := by
  by_cases cancelled : x.status = .cancelled
  · rw [World.announced, ends.cancelled found cancelled]
    exact .refl d w
  · obtain ⟨y, w', _, notRunning, notCancelled, _, ledger, ⟨done, journal⟩ | ⟨⟨fault, done⟩, journal⟩⟩ :=
      ends.ends found cancelled
    · rw [World.announced, done]
      exact .ends steady id drives y ⟨notRunning, notCancelled⟩ ledger event kind _
        (congrArg (_ :: ·) journal)
    · rw [World.announced, done]
      exact .untimes (.refl d) id y notRunning ledger journal

/-- A driver that was cancelled marks its execution as cancelled, if it was active. -/
theorem interrupt_affair (owes : d.owes = []) (drives : d.drives = some id) {x : Execution}
    (found : w.ledger.record? id = some x) : e.Affair d w { d with phase := .closing } (interrupt id w).2 := by
  unfold interrupt
  split
  · obtain ⟨y, _, status, _, done | ⟨fault, done⟩⟩ := finish_spec found
      (fun x => { x with error := .text "Execution task was cancelled" })
      ⟨rfl, rfl, rfl, rfl, rfl, rfl, rfl, rfl⟩ .cancelled
    · rw [done]
      exact .cuts owes id drives y status rfl rfl
    · rw [done]
      refine .untimes d.alike_closing id y ?_ rfl rfl
      rw [status]
      decide
  · exact .plain d.alike_closing (.refl _) ⟨[], rfl, List.forall_mem_nil _⟩

theorem retire_affair (drives : d.drives = some id) (owes : d.owes = []) :
    e.Affair d w {} (e.retire id w) := by
  refine .retires id drives owes ?_
  unfold retire
  split
  · next active => exact .inl ⟨active, rfl, rfl⟩
  · next inactive => exact .inr ⟨Bool.eq_false_iff.mpr inactive, rfl, rfl⟩

/-- A cancellation withdraws an active execution, and does nothing about any other. -/
theorem withdraw_affair (orderly : w.ledger.Orderly) (id : String) :
    e.Affair d w d (w.announced (.cancelled id) (e.withdraw id)).2 := by
  cases active : w.ledger.isActive id with
  | false =>
    rw [World.announced, withdraw_inactive e active]
    exact .refl d w
  | true =>
    obtain ⟨x, found⟩ := orderly.recorded id active
    obtain ⟨y, w', _, status, _, ⟨done, ledger, journal⟩ | ⟨⟨fault, done⟩, ledger, journal⟩⟩ :=
      withdraw_active e found active
    · rw [World.announced, done]
      refine .withdraws id active ?_ y status ledger _ (congrArg (_ :: ·) journal)
      rcases e.withdraw_cases id w with ⟨refused, _⟩ | ⟨w₁, _, granted⟩
      · rw [done] at refused
        exact absurd rfl refused
      · obtain rfl : w' = _ := (Prod.mk.inj (done.symm.trans granted)).2
        exact w₁.releaseGate_settles id (.text "Execution cancelled")
    · rw [World.announced, done]
      refine .untimes (.refl d) id y ?_ ledger journal
      rw [status]
      decide

/-- Every act is one of these affairs. -/
theorem Act.affair (act : e.Act d w d' w') (orderly : w.ledger.Orderly)
    (recorded : ∀ id, d.drives = some id → ∃ x, w.ledger.record? id = some x) : e.Affair d w d' w' := by
  have same {w' : World σ} (ledger : w'.ledger = w.ledger) : w.ledger.Alike w'.ledger := ledger ▸ .refl _
  have silent {w' : World σ} (journal : w'.journal = w.journal) :
      ∃ new, w'.journal = new ++ w.journal ∧ ∀ h ∈ new, h.Mere :=
    ⟨[], journal, fun _ member => nomatch member⟩
  cases act with
  | stir steady stirs => exact .plain (.refl d) (same stirs.ledger) (silent stirs.journal)
  | note steady stirs h tells =>
    obtain ⟨step, rfl⟩ := tells.eq
    refine .plain ⟨rfl, rfl, fun _ member => member, .inl rfl⟩ (same stirs.ledger) ⟨[h], ?_, fun h' member => ?_⟩
    · exact congrArg (h :: ·) stirs.journal
    · rw [List.mem_singleton.mp member]
      exact tells.mere
  | amend steady id f status => exact .plain (.refl d) (Ledger.alike_amend status) (silent rfl)
  | enroll steady workflow options =>
    obtain ⟨fault, refused, ledger, journal⟩ | ⟨id, x, granted, fresh, running, ledger, journal, room⟩ :=
      e.enroll_cases orderly workflow options
    · rw [refused]
      exact .plain (.refl d) ledger (silent journal)
    · rw [granted]
      exact .admits steady id workflow options x fresh running ledger journal room
  | keep id driver phase =>
    exact .plain ⟨rfl, rfl, fun _ member => member, .inr fun _ =>
      ⟨fun same => (nomatch same), fun same => nomatch same⟩⟩ (same rfl) (silent rfl)
  | begin id phase free => exact .begins id phase free rfl _ rfl
  | finish steady id drives _ event kind change ends _ =>
    obtain ⟨x, found⟩ := recorded id drives
    exact ends.affair steady drives kind found
  | interrupt id drives owes =>
    obtain ⟨x, found⟩ := recorded id drives
    exact interrupt_affair owes drives found
  | retire id drives owes => exact retire_affair drives owes
  | withdraw steady id => exact withdraw_affair orderly id
  | opens steady context serves =>
    exact .plain ⟨rfl, rfl, fun _ member => member, .inl rfl⟩ (same rfl) (silent rfl)
  | takes steady token tends =>
    exact .plain ⟨rfl, rfl, fun _ member => member, .inl rfl⟩ (same rfl) (silent rfl)
  | gather steady =>
    have books := cancelBackground_books w
    refine .plain ⟨rfl, rfl, fun child member => ?_, .inl rfl⟩ (same (congrArg Books.ledger books))
      (silent (congrArg Books.journal books))
    rw [steady.owes] at member
    cases member
  | clear steady => exact .clears rfl rfl

end Engine

end Runbook
