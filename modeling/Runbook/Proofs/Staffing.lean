import Runbook.Proofs.Affair

/-! # Who an execution is in the hands of

Every task has a duty, and only the task itself changes it. Whatever happens to the tasks and to their
world is one of a few moves: a task acts, creates another one, goes on after a wait or ends, a visitor
comes, waits begin and end, and the table of background tasks forgets one.

At any time an execution is in the hands of one task at most: that task had it admitted, is to drive it or
drives it. Once it has begun it is driven until it is retired. Whoever works for an execution as a branch
was created by a task that serves the same execution and waits for the branch; following these tasks back
leads to the driver, so that a driver that waits for nobody has nobody left who works for its execution.
-/

namespace Runbook

variable {σ : Type}

/-! ## The roster of tasks -/

/-- The duties of the tasks that have not ended. -/
abbrev Roster := TaskId → Option Duty

namespace Roster

/-- The roster with a duty for a task. -/
def put (roster : Roster) (task : TaskId) (d : Duty) : Roster :=
  fun other => if other = task then some d else roster other

/-- The roster without a task. -/
def drop (roster : Roster) (task : TaskId) : Roster :=
  fun other => if other = task then none else roster other

variable {roster : Roster} {task other : TaskId} {d d' : Duty}

@[simp] theorem put_self (roster : Roster) (task : TaskId) (d : Duty) : roster.put task d task = some d := by
  simp [put]

theorem put_other (roster : Roster) (d : Duty) (different : other ≠ task) :
    roster.put task d other = roster other := by
  simp [put, different]

theorem put_some (found : roster.put task d other = some d') :
    other = task ∧ d' = d ∨ other ≠ task ∧ roster other = some d' := by
  unfold put at found
  split at found
  · next same => exact .inl ⟨same, (Option.some.inj found).symm⟩
  · next different => exact .inr ⟨different, found⟩

theorem drop_some (found : roster.drop task other = some d') : other ≠ task ∧ roster other = some d' := by
  unfold drop at found
  split at found
  · cases found
  · next different => exact ⟨different, found⟩

theorem drop_other (roster : Roster) (different : other ≠ task) : roster.drop task other = roster other := by
  simp [drop, different]

end Roster

/-! ## Shifts -/

/-- Waits begin or end and requests are settled, and nothing else happens. -/
structure World.Passes (w w' : World σ) : Prop where
  ledger : w'.ledger = w.ledger
  journal : w'.journal = w.journal
  background : w'.background = w.background
  gate : w.gate.Settles w'.gate
  orderly : w.agenda.Orderly
  agenda : w.agenda.Passes w'.agenda

theorem World.Stirs.passes {w w' : World σ} (stirs : w.Stirs w') (orderly : w.agenda.Orderly) : w.Passes w' :=
  ⟨stirs.ledger, stirs.journal, stirs.background, stirs.gate, orderly, stirs.agenda.passes⟩

theorem World.Passes.trans {w w' w'' : World σ} (first : w.Passes w') (second : w'.Passes w'') : w.Passes w'' :=
  ⟨second.ledger.trans first.ledger, second.journal.trans first.journal,
    second.background.trans first.background, first.gate.trans second.gate, first.orderly,
    first.agenda.trans first.orderly second.agenda⟩

/-- What can happen to the roster and to the world of its tasks. -/
inductive Engine.Shift (e : Engine σ) : Roster → World σ → Roster → World σ → Prop
  | act {roster : Roster} {w w' : World σ} (task : TaskId) (d d' : Duty) (found : roster task = some d)
      (ledger : w.ledger.Orderly) (fit : d.Fit w) (act : e.Act d w d' w') :
      e.Shift roster w (roster.put task d') w'
  /-- A task creates another one, with a duty of its own. -/
  | hire {roster : Roster} {w : World σ} (task : TaskId) (d given d' : Duty) (found : roster task = some d)
      (old : task < w.agenda.created) (new : roster w.agenda.created = none)
      (hires : d.Hires w.agenda.created given d') (orderly : w.agenda.Orderly) :
      e.Shift roster w ((roster.put task d').put w.agenda.created given)
        { w with agenda := w.agenda.create.1 }
  | visit {roster : Roster} {w : World σ} (new : roster w.agenda.created = none) (orderly : w.agenda.Orderly) :
      e.Shift roster w (roster.put w.agenda.created {}) { w with agenda := w.agenda.create.1 }
  /-- A task goes on after a wait; if it waited for others, they have ended. -/
  | rest {roster : Roster} {w w' : World σ} (task : TaskId) (d : Duty) (found : roster task = some d)
      (ended : ∀ child ∈ d.owes, roster child = none) (passes : w.Passes w') :
      e.Shift roster w (roster.put task d.rested) w'
  | quit {roster : Roster} {w : World σ} (task : TaskId) (d : Duty) (found : roster task = some d)
      (spent : d.Over) (orderly : w.agenda.Orderly) :
      e.Shift roster w (roster.drop task) { w with agenda := w.agenda.finish task }
  | pass {roster : Roster} {w w' : World σ} (passes : w.Passes w') : e.Shift roster w roster w'
  /-- The table of background tasks is told to forget an execution. -/
  | forget {roster : Roster} {w : World σ} (execution : String) (ready : List Job)
      (queue : w.agenda.ready = .forget execution :: ready) (orderly : w.agenda.Orderly) :
      e.Shift roster w roster { w with
        agenda := { w.agenda with ready }
        background := w.background.filter (·.1 != execution) }

/-- Where the duty of a task comes from. -/
inductive Engine.Origin (e : Engine σ) (roster : Roster) (w : World σ) (roster' : Roster) (w' : World σ)
    (t : TaskId) (d' : Duty) : Prop
  | same (found : roster t = some d')
  | act (d : Duty) (found : roster t = some d) (ledger : w.ledger.Orderly) (fit : d.Fit w)
      (act : e.Act d w d' w')
  | rested (d : Duty) (found : roster t = some d) (rested : d' = d.rested)
  /-- The task has created another one. -/
  | hires (d given : Duty) (found : roster t = some d) (hires : d.Hires w.agenda.created given d')
      (staff : roster' = (roster.put t d').put w.agenda.created given)
      (world : w' = { w with agenda := w.agenda.create.1 })
  /-- The task was created by another one. -/
  | hired (s : TaskId) (d given : Duty) (found : roster s = some d) (hires : d.Hires t d' given)
  | visitor (free : d' = {})

theorem Engine.Shift.origin {e : Engine σ} {roster roster' : Roster} {w w' : World σ} {t : TaskId} {d' : Duty}
    (shift : e.Shift roster w roster' w') (found' : roster' t = some d') : e.Origin roster w roster' w' t d' := by
  cases shift with
  | act task d _ found ledger fit act =>
    rcases Roster.put_some found' with ⟨rfl, rfl⟩ | ⟨_, found'⟩
    · exact .act d found ledger fit act
    · exact .same found'
  | hire task d given _ found old new hires =>
    rcases Roster.put_some found' with ⟨rfl, rfl⟩ | ⟨_, found'⟩
    · exact .hired task d _ found hires
    rcases Roster.put_some found' with ⟨rfl, rfl⟩ | ⟨_, found'⟩
    · exact .hires d given found hires rfl rfl
    · exact .same found'
  | visit =>
    rcases Roster.put_some found' with ⟨rfl, rfl⟩ | ⟨_, found'⟩
    · exact .visitor rfl
    · exact .same found'
  | rest task d found =>
    rcases Roster.put_some found' with ⟨rfl, rfl⟩ | ⟨_, found'⟩
    · exact .rested d found rfl
    · exact .same found'
  | quit => exact .same (Roster.drop_some found').2
  | pass => exact .same found'
  | forget => exact .same found'

/-- In one move there is one act at most, and the books are left alone by everything else. -/
theorem Engine.Shift.books {e : Engine σ} {roster roster' : Roster} {w w' : World σ}
    (shift : e.Shift roster w roster' w') (recorded : ∀ task d id, roster task = some d →
      d.drives = some id → ∃ x, w.ledger.record? id = some x) :
    (∃ task d d', roster task = some d ∧ roster' = roster.put task d' ∧ e.Affair d w d' w') ∨
      w'.ledger = w.ledger ∧ w'.journal = w.journal := by
  cases shift with
  | act task d d' found ledger _ act =>
    exact .inl ⟨task, d, d', found, rfl, act.affair ledger fun id => recorded task d id found⟩
  | hire | visit | quit | forget => exact .inr ⟨rfl, rfl⟩
  | rest _ _ _ _ passes => exact .inr ⟨passes.ledger, passes.journal⟩
  | pass passes => exact .inr ⟨passes.ledger, passes.journal⟩

/-! ## What is known about an execution -/

namespace World

variable {w w' : World σ} {id : String}

/-- The execution is on record. -/
def Recorded (w : World σ) (id : String) : Prop := id ∈ w.ledger.admitted

instance : Decidable (w.Recorded id) := inferInstanceAs (Decidable (id ∈ w.ledger.admitted))

/-- The first event of the execution has been announced. -/
def HasBegun (w : World σ) (id : String) : Prop := ∃ record, .announced (.started id) record ∈ w.journal

/-- The execution is active, or a cancellation has found it. -/
def Standing (w : World σ) (id : String) : Prop := w.ledger.isActive id = true ∨ .cancelled id ∈ w.journal

/-- No execution has become active or begun, and what became inactive was found by a cancellation. -/
structure Keeps (w w' : World σ) : Prop where
  recorded : ∀ id, w.Recorded id → w'.Recorded id
  begun : ∀ id, w'.HasBegun id ↔ w.HasBegun id
  active : ∀ id, w'.ledger.isActive id = true → w.ledger.isActive id = true
  standing : ∀ id, w.Standing id → w'.Standing id

/-- The journal tells of no beginning, and the same executions are on record and active. -/
theorem keeps_of (new : List Happening) (lists : w.ledger.SameLists w'.ledger)
    (journal : w'.journal = new ++ w.journal)
    (begun : ∀ id record, .announced (.started id) record ∉ new) : w.Keeps w' where
  recorded id recorded := by rwa [Recorded, lists.admitted]
  begun id := by simp [HasBegun, journal, begun]
  active id listed := by rwa [Ledger.isActive, lists.active] at listed
  standing id := by
    rw [Standing, Standing, Ledger.isActive, Ledger.isActive, lists.active, journal]
    exact Or.imp_right (List.mem_append_right new)

theorem keeps_of_books (ledger : w'.ledger = w.ledger) (journal : w'.journal = w.journal) : w.Keeps w' :=
  keeps_of [] (ledger ▸ .refl _) journal fun _ _ member => nomatch member

end World

/-! ## The invariant -/

/-- Executions are in the hands of tasks as they should be. -/
structure Staffed (roster : Roster) (w : World σ) : Prop where
  /-- An execution is in the hands of one task at most. -/
  sole : ∀ s t d d' id, roster s = some d → roster t = some d' → d.Answers id → d'.Answers id → s = t
  pending : ∀ t d id, roster t = some d → d.phase = .admitted id ∨ d.phase = .appointed id →
    w.Recorded id ∧ ¬w.HasBegun id ∧ w.Standing id
  serving : ∀ t d id, roster t = some d → d.Serves id → w.Recorded id ∧ w.HasBegun id ∧ w.Standing id
  /-- Once an execution has begun it is driven until it is retired. -/
  driven : ∀ id, w.ledger.isActive id = true → w.HasBegun id →
    ∃ t d, roster t = some d ∧ d.drives = some id
  begun : ∀ id, w.HasBegun id → w.Recorded id
  /-- A branch was created by a task that serves the same execution and has to wait for it. -/
  led : ∀ child d id, roster child = some d → d.works = some id →
    ∃ leader d', roster leader = some d' ∧ leader < child ∧ d'.Serves id ∧ child ∈ d'.owes

/-- Nobody answers for the execution. -/
def Unanswered (roster : Roster) (id : String) : Prop := ∀ t d, roster t = some d → ¬d.Answers id

/-- Nobody answers for the execution yet, which has not begun and stands. -/
structure Vacant (roster : Roster) (w : World σ) (id : String) : Prop where
  recorded : w.Recorded id
  unbegun : ¬w.HasBegun id
  standing : w.Standing id
  unanswered : Unanswered roster id

namespace Duty

variable {d d' : Duty} {id : String}

theorem Alike.pending (alike : d.Alike d') (pending : d'.phase = .admitted id ∨ d'.phase = .appointed id) :
    d.phase = .admitted id ∨ d.phase = .appointed id := by
  rcases alike.phase with same | free
  · exact same ▸ pending
  · rcases pending with admitted | appointed
    · exact absurd admitted (free id).1
    · exact absurd appointed (free id).2

theorem Alike.answers (alike : d.Alike d') (answers : d'.Answers id) : d.Answers id :=
  answers.imp (fun drives => alike.drives ▸ drives) alike.pending

theorem not_answers_free : ¬Answers {} id := by
  rintro (same | same | same) <;> cases same

/-- A driver answers for the one execution that it drives. -/
theorem answers_drives {other : String} (answers : Answers { drives := some id } other) : other = id := by
  rcases answers with same | same | same <;> cases same
  rfl

/-- A task that is to drive an execution answers for that one. -/
theorem answers_appointed {other : String} (answers : Answers { phase := .appointed id } other) :
    other = id := by
  rcases answers with same | same | same <;> cases same
  rfl

theorem not_serves_of_free (free : d.drives = none ∧ d.works = none) : ¬d.Serves id := by
  rintro (drives | works)
  · cases free.1.symm.trans drives
  · cases free.2.symm.trans works

end Duty

theorem Vacant.awaits {roster : Roster} {w : World σ} {id : String} (vacant : Vacant roster w id) :
    w.Recorded id ∧ ¬w.HasBegun id ∧ w.Standing id :=
  ⟨vacant.recorded, vacant.unbegun, vacant.standing⟩

namespace Staffed

variable {e : Engine σ} {roster roster' : Roster} {w w' : World σ} {t : TaskId} {d d' given : Duty}
  {id : String}

theorem recorded (staffed : Staffed roster w) (found : roster t = some d) (drives : d.drives = some id) :
    ∃ x, w.ledger.record? id = some x :=
  Ledger.mem_admitted.mp (staffed.serving t d id found (.inl drives)).1

/-- Whoever answers for an execution does so for one on record. -/
theorem answered (staffed : Staffed roster w) (found : roster t = some d) (answers : d.Answers id) :
    w.Recorded id := by
  rcases answers with drives | pending
  · exact (staffed.serving t d id found (.inl drives)).1
  · exact (staffed.pending t d id found pending).1

/-- A driver that waits for nobody is the only one who serves its execution. -/
theorem alone (staffed : Staffed roster w) (found : roster t = some d) (drives : d.drives = some id)
    (owes : d.owes = []) : ∀ s d', roster s = some d' → d'.Serves id → s = t := by
  -- The branch with the least number would have been created by the driver, which waits for no branch.
  have idle : ∀ s d', roster s = some d' → d'.works ≠ some id := by
    intro s
    induction s using Nat.strongRecOn with
    | _ s ih =>
      intro d' found' works
      obtain ⟨leader, d'', found'', older, serves, waits⟩ := staffed.led s d' id found' works
      rcases serves with drives' | works'
      · obtain rfl := staffed.sole leader t d'' d id found'' found (.inl drives') (.inl drives)
        obtain rfl := Option.some.inj (found''.symm.trans found)
        rw [owes] at waits
        cases waits
      · exact ih leader older d'' found'' works'
  intro s d' found' serves
  rcases serves with drives' | works
  · exact staffed.sole s t d' d id found' found (.inl drives') (.inl drives)
  · exact absurd works (idle s d' found')

/-! ### Frames -/

theorem keeps (staffed : Staffed roster w) (kept : w.Keeps w') : Staffed roster w' where
  sole := staffed.sole
  pending t d id found pending :=
    have ⟨recorded, fresh, standing⟩ := staffed.pending t d id found pending
    ⟨kept.recorded id recorded, fun begun => fresh ((kept.begun id).mp begun), kept.standing id standing⟩
  serving t d id found serves :=
    have ⟨recorded, begun, standing⟩ := staffed.serving t d id found serves
    ⟨kept.recorded id recorded, (kept.begun id).mpr begun, kept.standing id standing⟩
  driven id active begun := staffed.driven id (kept.active id active) ((kept.begun id).mp begun)
  begun id begun := kept.recorded id (staffed.begun id ((kept.begun id).mp begun))
  led := staffed.led

/-- A duty gives way to one for the same executions, besides one that nobody answered for, and tasks that are
no longer waited for have ended. -/
theorem replace (staffed : Staffed roster w) (found : roster t = some d) (d' : Duty) (drives : d'.drives = d.drives)
    (works : d'.works = d.works)
    (pending : ∀ id, d'.phase = .admitted id ∨ d'.phase = .appointed id →
      (d.phase = .admitted id ∨ d.phase = .appointed id) ∨ Vacant roster w id)
    (owes : ∀ child ∈ d.owes, child ∈ d'.owes ∨ roster child = none) : Staffed (roster.put t d') w := by
  have serves {id : String} : d'.Serves id ↔ d.Serves id := by
    rw [Duty.Serves, Duty.Serves, drives, works]
  have answers {id : String} (answers : d'.Answers id) : d.Answers id ∨ Vacant roster w id := by
    rcases answers with same | due
    · exact .inl (.inl (drives ▸ same))
    · exact (pending id due).imp_left .inr
  -- What the roster says now it said before, of the same task.
  have origin {s : TaskId} {d₁ : Duty} (found₁ : roster.put t d' s = some d₁) :
      ∃ d₀, roster s = some d₀ ∧ (∀ id, d₁.Serves id → d₀.Serves id) ∧ d₁.works = d₀.works := by
    rcases Roster.put_some found₁ with ⟨rfl, rfl⟩ | ⟨_, found₁⟩
    · exact ⟨d, found, fun _ => serves.mp, works⟩
    · exact ⟨d₁, found₁, fun _ known => known, rfl⟩
  exact {
    sole := fun s s' d₁ d₂ id found₁ found₂ answers₁ answers₂ => by
      rcases Roster.put_some found₁ with ⟨rfl, rfl⟩ | ⟨_, old₁⟩ <;>
        rcases Roster.put_some found₂ with ⟨rfl, rfl⟩ | ⟨_, old₂⟩
      · rfl
      · rcases answers answers₁ with answers₁ | vacant
        · exact staffed.sole s s' d d₂ id found old₂ answers₁ answers₂
        · exact absurd answers₂ (vacant.unanswered s' d₂ old₂)
      · rcases answers answers₂ with answers₂ | vacant
        · exact staffed.sole s s' d₁ d id old₁ found answers₁ answers₂
        · exact absurd answers₁ (vacant.unanswered s d₁ old₁)
      · exact staffed.sole s s' d₁ d₂ id old₁ old₂ answers₁ answers₂
    pending := fun s d₁ id found₁ pending₁ => by
      rcases Roster.put_some found₁ with ⟨rfl, rfl⟩ | ⟨_, old₁⟩
      · rcases pending id pending₁ with before | vacant
        · exact staffed.pending s d id found before
        · exact vacant.awaits
      · exact staffed.pending s d₁ id old₁ pending₁
    serving := fun s d₁ id found₁ serves₁ => by
      obtain ⟨d₀, found₀, serves₀, _⟩ := origin found₁
      exact staffed.serving s d₀ id found₀ (serves₀ id serves₁)
    driven := fun id active begun => by
      obtain ⟨s, d₁, found₁, drives₁⟩ := staffed.driven id active begun
      by_cases same : s = t
      · subst same
        obtain rfl := Option.some.inj (found.symm.trans found₁)
        exact ⟨s, d', Roster.put_self .., drives.trans drives₁⟩
      · exact ⟨s, d₁, (Roster.put_other roster d' same).trans found₁, drives₁⟩
    begun := staffed.begun
    led := fun child d₁ id found₁ works₁ => by
      obtain ⟨d₀, found₀, _, same⟩ := origin found₁
      obtain ⟨leader, d₂, found₂, older, serves₂, waits⟩ :=
        staffed.led child d₀ id found₀ (same.symm.trans works₁)
      by_cases led : leader = t
      · subst led
        obtain rfl := Option.some.inj (found.symm.trans found₂)
        refine ⟨leader, d', Roster.put_self .., older, serves.mpr serves₂, ?_⟩
        exact (owes child waits).resolve_right fun ended => nomatch found₀.symm.trans ended
      · exact ⟨leader, d₂, (Roster.put_other roster d' led).trans found₂, older, serves₂, waits⟩ }

theorem alike (staffed : Staffed roster w) (found : roster t = some d) (alike : d.Alike d') :
    Staffed (roster.put t d') w :=
  staffed.replace found d' alike.drives alike.works (fun _ pending => .inl (alike.pending pending))
    fun child waits => .inl (alike.owes child waits)

/-- A new task that drives nothing yet. -/
theorem join (staffed : Staffed roster w) (new : roster t = none) (drives : given.drives = none)
    (pending : ∀ id, given.phase = .admitted id ∨ given.phase = .appointed id → Vacant roster w id)
    (works : ∀ id, given.works = some id → ∃ leader d', roster leader = some d' ∧ leader < t ∧
      d'.Serves id ∧ t ∈ d'.owes) : Staffed (roster.put t given) w := by
  have known {s : TaskId} {d₁ : Duty} (found₁ : roster s = some d₁) : s ≠ t := by
    rintro rfl
    cases new.symm.trans found₁
  have kept {s : TaskId} {d₁ : Duty} (found₁ : roster s = some d₁) : roster.put t given s = some d₁ :=
    (Roster.put_other roster given (known found₁)).trans found₁
  have due {id : String} (answers : given.Answers id) :
      given.phase = .admitted id ∨ given.phase = .appointed id :=
    answers.resolve_left fun same => nomatch drives.symm.trans same
  exact {
    sole := fun s s' d₁ d₂ id found₁ found₂ answers₁ answers₂ => by
      rcases Roster.put_some found₁ with ⟨rfl, rfl⟩ | ⟨_, old₁⟩ <;>
        rcases Roster.put_some found₂ with ⟨rfl, rfl⟩ | ⟨_, old₂⟩
      · rfl
      · exact absurd answers₂ ((pending id (due answers₁)).unanswered s' d₂ old₂)
      · exact absurd answers₁ ((pending id (due answers₂)).unanswered s d₁ old₁)
      · exact staffed.sole s s' d₁ d₂ id old₁ old₂ answers₁ answers₂
    pending := fun s d₁ id found₁ pending₁ => by
      rcases Roster.put_some found₁ with ⟨rfl, rfl⟩ | ⟨_, found₁⟩
      · exact (pending id pending₁).awaits
      · exact staffed.pending s d₁ id found₁ pending₁
    serving := fun s d₁ id found₁ serves₁ => by
      rcases Roster.put_some found₁ with ⟨rfl, rfl⟩ | ⟨_, found₁⟩
      · rcases serves₁ with drives₁ | works₁
        · cases drives.symm.trans drives₁
        · obtain ⟨leader, d', found', _, serves', _⟩ := works id works₁
          exact staffed.serving leader d' id found' serves'
      · exact staffed.serving s d₁ id found₁ serves₁
    driven := fun id active begun => by
      obtain ⟨s, d₁, found₁, drives₁⟩ := staffed.driven id active begun
      exact ⟨s, d₁, kept found₁, drives₁⟩
    begun := staffed.begun
    led := fun child d₁ id found₁ works₁ => by
      rcases Roster.put_some found₁ with ⟨rfl, rfl⟩ | ⟨_, found₁⟩
      · obtain ⟨leader, d', found', rest⟩ := works id works₁
        exact ⟨leader, d', kept found', rest⟩
      · obtain ⟨leader, d', found', rest⟩ := staffed.led child d₁ id found₁ works₁
        exact ⟨leader, d', kept found', rest⟩ }

/-- A task ends that drives nothing and waits for nobody. -/
theorem leave (staffed : Staffed roster w) (found : roster t = some d) (drives : d.drives = none)
    (owes : d.owes = []) : Staffed (roster.drop t) w where
  sole s s' d₁ d₂ id found₁ found₂ :=
    staffed.sole s s' d₁ d₂ id (Roster.drop_some found₁).2 (Roster.drop_some found₂).2
  pending s d₁ id found₁ := staffed.pending s d₁ id (Roster.drop_some found₁).2
  serving s d₁ id found₁ := staffed.serving s d₁ id (Roster.drop_some found₁).2
  driven id active begun := by
    obtain ⟨s, d₁, found₁, drives₁⟩ := staffed.driven id active begun
    refine ⟨s, d₁, (Roster.drop_other roster ?_).trans found₁, drives₁⟩
    rintro rfl
    obtain rfl := Option.some.inj (found.symm.trans found₁)
    cases drives.symm.trans drives₁
  begun := staffed.begun
  led child d₁ id found₁ works₁ := by
    obtain ⟨leader, d', found', older, serves, waits⟩ := staffed.led child d₁ id (Roster.drop_some found₁).2 works₁
    refine ⟨leader, d', (Roster.drop_other roster ?_).trans found', older, serves, waits⟩
    rintro rfl
    obtain rfl := Option.some.inj (found.symm.trans found')
    rw [owes] at waits
    cases waits

/-! ### Affairs of executions -/

/-- There is one more execution, which has not begun. -/
theorem extend (staffed : Staffed roster w) (new : ¬w.Recorded id)
    (recorded : ∀ other, w'.Recorded other ↔ w.Recorded other ∨ other = id)
    (begun : ∀ other, w'.HasBegun other ↔ w.HasBegun other)
    (active : ∀ other, w'.ledger.isActive other = true ↔ w.ledger.isActive other = true ∨ other = id)
    (cancelled : ∀ other, .cancelled other ∈ w.journal → .cancelled other ∈ w'.journal) :
    Staffed roster w' ∧ Vacant roster w' id := by
  have unbegun : ¬w'.HasBegun id := fun some => new (staffed.begun id ((begun id).mp some))
  have standing (other : String) (stands : w.Standing other) : w'.Standing other :=
    stands.imp (fun listed => (active other).mpr (.inl listed)) (cancelled other)
  constructor
  · exact {
      sole := staffed.sole
      pending := fun s d other found pending => by
        obtain ⟨known, unbegun, stands⟩ := staffed.pending s d other found pending
        exact ⟨(recorded other).mpr (.inl known), fun some => unbegun ((begun other).mp some),
          standing other stands⟩
      serving := fun s d other found serves => by
        obtain ⟨known, some, stands⟩ := staffed.serving s d other found serves
        exact ⟨(recorded other).mpr (.inl known), (begun other).mpr some, standing other stands⟩
      driven := fun other listed some => by
        rcases (active other).mp listed with listed | rfl
        · exact staffed.driven other listed ((begun other).mp some)
        · exact absurd some unbegun
      begun := fun other some => (recorded other).mpr (.inl (staffed.begun other ((begun other).mp some)))
      led := staffed.led }
  · exact {
      recorded := (recorded id).mpr (.inr rfl)
      unbegun
      standing := .inl ((active id).mpr (.inr rfl))
      unanswered := fun s d found answers => new (staffed.answered found answers) }

/-- A new execution is in the hands of the task that had it admitted. -/
theorem admits (staffed : Staffed roster w) (found : roster t = some d) {x : Execution}
    {workflow : Workflow} {options : Options} (fresh : w.ledger.record? id = none)
    (ledger : w'.ledger = ({ w.ledger with generated := w.ledger.generated + 1 } : Ledger).enroll id x)
    (journal : w'.journal = .admitted id workflow options :: w.journal) :
    Staffed (roster.put t { d with phase := .admitted id }) w' := by
  have new : ¬w.Recorded id := fun member => by
    obtain ⟨y, known⟩ := Ledger.mem_admitted.mp member
    cases fresh.symm.trans known
  obtain ⟨staffed, vacant⟩ : Staffed roster w' ∧ Vacant roster w' id := staffed.extend new
    (fun other => by simp [World.Recorded, ledger, Ledger.admitted, Ledger.enroll])
    (fun other => by simp [World.HasBegun, journal])
    (fun other => by simp [Ledger.isActive, ledger, Ledger.enroll])
    fun other member => by simp [journal, member]
  refine staffed.replace found _ rfl rfl (fun other pending => ?_) fun child waits => .inl waits
  rcases pending with same | same
  · exact .inr (Phase.admitted.inj same ▸ vacant)
  · cases same

/-- The driver of an execution announces that it has begun. -/
theorem begins (staffed : Staffed roster w) (found : roster t = some d)
    (phase : d.phase = .admitted id ∨ d.phase = .appointed id) (free : d.drives = none ∧ d.works = none)
    {record : Option Execution} (ledger : w'.ledger = w.ledger)
    (journal : w'.journal = .announced (.started id) record :: w.journal) :
    Staffed (roster.put t { drives := some id }) w' := by
  have recorded (other : String) : w'.Recorded other ↔ w.Recorded other := by
    rw [World.Recorded, ledger, World.Recorded]
  have begun (other : String) : w'.HasBegun other ↔ w.HasBegun other ∨ other = id := by
    simp only [World.HasBegun, journal, List.mem_cons, Happening.announced.injEq, Event.started.injEq]
    constructor
    · rintro ⟨r, ⟨rfl, _⟩ | member⟩
      · exact .inr rfl
      · exact .inl ⟨r, member⟩
    · rintro (⟨r, member⟩ | rfl)
      · exact ⟨r, .inr member⟩
      · exact ⟨record, .inl ⟨rfl, rfl⟩⟩
  have active (other : String) : w'.ledger.isActive other = w.ledger.isActive other := by rw [ledger]
  have standing (other : String) (stands : w.Standing other) : w'.Standing other := by
    rw [World.Standing, active, journal]
    exact stands.imp_right (List.mem_cons_of_mem _)
  obtain ⟨known, _, stands⟩ := staffed.pending t d id found phase
  -- Nobody but this task answered for the execution before.
  have others {s : TaskId} {d₁ : Duty} (different : s ≠ t) (found₁ : roster s = some d₁) :
      ¬d₁.Answers id :=
    fun answers => different (staffed.sole s t d₁ d id found₁ found answers (.inr phase))
  exact {
    sole := fun s s' d₁ d₂ other found₁ found₂ answers₁ answers₂ => by
      rcases Roster.put_some found₁ with ⟨rfl, rfl⟩ | ⟨different₁, old₁⟩ <;>
        rcases Roster.put_some found₂ with ⟨rfl, rfl⟩ | ⟨different₂, old₂⟩
      · rfl
      · obtain rfl := Duty.answers_drives answers₁
        exact absurd answers₂ (others different₂ old₂)
      · obtain rfl := Duty.answers_drives answers₂
        exact absurd answers₁ (others different₁ old₁)
      · exact staffed.sole s s' d₁ d₂ other old₁ old₂ answers₁ answers₂
    pending := fun s d₁ other found₁ pending₁ => by
      rcases Roster.put_some found₁ with ⟨rfl, rfl⟩ | ⟨different, old₁⟩
      · rcases pending₁ with same | same <;> cases same
      · obtain ⟨known, unbegun, stands⟩ := staffed.pending s d₁ other old₁ pending₁
        refine ⟨(recorded other).mpr known, fun some => ?_, standing other stands⟩
        rcases (begun other).mp some with some | rfl
        · exact unbegun some
        · exact others different old₁ (.inr pending₁)
    serving := fun s d₁ other found₁ serves₁ => by
      rcases Roster.put_some found₁ with ⟨rfl, rfl⟩ | ⟨_, old₁⟩
      · obtain rfl : id = other := by
          rcases serves₁ with same | same <;> cases same
          rfl
        exact ⟨(recorded id).mpr known, (begun id).mpr (.inr rfl), standing id stands⟩
      · obtain ⟨known, some, stands⟩ := staffed.serving s d₁ other old₁ serves₁
        exact ⟨(recorded other).mpr known, (begun other).mpr (.inl some), standing other stands⟩
    driven := fun other listed some => by
      rcases (begun other).mp some with some | rfl
      · obtain ⟨s, d₁, found₁, drives₁⟩ := staffed.driven other (active other ▸ listed) some
        refine ⟨s, d₁, (Roster.put_other roster _ ?_).trans found₁, drives₁⟩
        rintro rfl
        obtain rfl := Option.some.inj (found.symm.trans found₁)
        cases free.1.symm.trans drives₁
      · exact ⟨t, _, Roster.put_self .., rfl⟩
    begun := fun other some => by
      rcases (begun other).mp some with some | rfl
      · exact (recorded other).mpr (staffed.begun other some)
      · exact (recorded other).mpr known
    led := fun child d₁ other found₁ works₁ => by
      rcases Roster.put_some found₁ with ⟨rfl, rfl⟩ | ⟨_, old₁⟩
      · cases works₁
      · obtain ⟨leader, d₂, found₂, older, serves₂, waits⟩ := staffed.led child d₁ other old₁ works₁
        refine ⟨leader, d₂, (Roster.put_other roster _ ?_).trans found₂, older, serves₂, waits⟩
        rintro rfl
        obtain rfl := Option.some.inj (found.symm.trans found₂)
        exact Duty.not_serves_of_free free serves₂ }

/-- A driver lets go of its execution, which is not active any more. -/
theorem retires (staffed : Staffed roster w) (found : roster t = some d) (drives : d.drives = some id)
    (owes : d.owes = []) (recorded : ∀ other, w.Recorded other → w'.Recorded other)
    (begun : ∀ other, w'.HasBegun other ↔ w.HasBegun other) (inactive : w'.ledger.isActive id = false)
    (active : ∀ other, other ≠ id → w'.ledger.isActive other = w.ledger.isActive other)
    (cancelled : ∀ other, .cancelled other ∈ w.journal → .cancelled other ∈ w'.journal) :
    Staffed (roster.put t {}) w' := by
  have standing (other : String) (different : other ≠ id) (stands : w.Standing other) : w'.Standing other :=
    stands.imp (fun listed => (active other different).trans listed) (cancelled other)
  have elsewhere {s : TaskId} {d₁ : Duty} {other : String} (different : s ≠ t) (found₁ : roster s = some d₁)
      (answers : d₁.Answers other) : other ≠ id := by
    rintro rfl
    exact different (staffed.sole s t d₁ d other found₁ found answers (.inl drives))
  exact {
    sole := fun s s' d₁ d₂ other found₁ found₂ answers₁ answers₂ => by
      rcases Roster.put_some found₁ with ⟨rfl, rfl⟩ | ⟨_, old₁⟩
      · exact absurd answers₁ Duty.not_answers_free
      rcases Roster.put_some found₂ with ⟨rfl, rfl⟩ | ⟨_, old₂⟩
      · exact absurd answers₂ Duty.not_answers_free
      · exact staffed.sole s s' d₁ d₂ other old₁ old₂ answers₁ answers₂
    pending := fun s d₁ other found₁ pending₁ => by
      rcases Roster.put_some found₁ with ⟨rfl, rfl⟩ | ⟨different, old₁⟩
      · exact absurd (.inr pending₁) Duty.not_answers_free
      · obtain ⟨known, unbegun, stands⟩ := staffed.pending s d₁ other old₁ pending₁
        exact ⟨recorded other known, fun some => unbegun ((begun other).mp some),
          standing other (elsewhere different old₁ (.inr pending₁)) stands⟩
    serving := fun s d₁ other found₁ serves₁ => by
      rcases Roster.put_some found₁ with ⟨rfl, rfl⟩ | ⟨different, old₁⟩
      · exact absurd serves₁ (Duty.not_serves_of_free ⟨rfl, rfl⟩)
      · obtain ⟨known, some, stands⟩ := staffed.serving s d₁ other old₁ serves₁
        refine ⟨recorded other known, (begun other).mpr some, standing other ?_ stands⟩
        rintro rfl
        exact different (staffed.alone found drives owes s d₁ old₁ serves₁)
    driven := fun other listed some => by
      have apart : other ≠ id := by
        rintro rfl
        cases inactive.symm.trans listed
      obtain ⟨s, d₁, found₁, drives₁⟩ :=
        staffed.driven other ((active other apart).symm.trans listed) ((begun other).mp some)
      refine ⟨s, d₁, (Roster.put_other roster _ ?_).trans found₁, drives₁⟩
      rintro rfl
      obtain rfl := Option.some.inj (found.symm.trans found₁)
      exact apart (Option.some.inj (drives₁.symm.trans drives))
    begun := fun other some => recorded other (staffed.begun other ((begun other).mp some))
    led := fun child d₁ other found₁ works₁ => by
      rcases Roster.put_some found₁ with ⟨rfl, rfl⟩ | ⟨_, old₁⟩
      · cases works₁
      · obtain ⟨leader, d₂, found₂, older, serves₂, waits⟩ := staffed.led child d₁ other old₁ works₁
        refine ⟨leader, d₂, (Roster.put_other roster _ ?_).trans found₂, older, serves₂, waits⟩
        rintro rfl
        obtain rfl := Option.some.inj (found.symm.trans found₂)
        rw [owes] at waits
        cases waits }

/-- Whatever an affair is, executions stay in the hands of tasks as they should be. -/
theorem affair (staffed : Staffed roster w) (orderly : w.ledger.Orderly) (found : roster t = some d)
    (affair : e.Affair d w d' w') : Staffed (roster.put t d') w' := by
  cases affair with
  | plain alike ledger journal =>
    obtain ⟨new, journal, mere⟩ := journal
    refine (staffed.alike found alike).keeps (World.keeps_of new ledger.toSameLists journal ?_)
    exact fun id record member => mere _ member
  | admits steady id workflow options x fresh running ledger journal =>
    exact staffed.admits found fresh ledger journal
  | begins id phase free ledger record journal => exact staffed.begins found phase free ledger journal
  | ends steady id drives y status ledger event kind record journal =>
    refine (staffed.alike found (.refl d)).keeps
      (World.keeps_of [_] (ledger ▸ Ledger.sameLists_amend ..) journal ?_)
    rcases kind with rfl | rfl <;> simp
  | cuts owes id drives y status ledger journal =>
    exact (staffed.alike found d.alike_closing).keeps
      (World.keeps_of [] (ledger ▸ Ledger.sameLists_amend ..) journal fun _ _ member => nomatch member)
  | untimes alike id y status ledger journal =>
    exact (staffed.alike found alike).keeps
      (World.keeps_of [_] (ledger ▸ Ledger.sameLists_amend ..) journal (by simp))
  | retires id drives owes world =>
    rcases world with ⟨active, ledger, journal⟩ | ⟨inactive, ledger, journal⟩
    · refine staffed.retires found drives owes (fun other known => ?_) (fun other => ?_) ?_ (fun other apart => ?_)
        fun other member => ?_
      · rwa [World.Recorded, ledger, Ledger.admitted_retire]
      · simp [World.HasBegun, journal]
      · rw [ledger, Ledger.isActive_retire_self orderly.nodup _ active]
      · rw [ledger, Ledger.isActive_retire_other _ active apart]
      · rw [journal]
        exact List.mem_cons_of_mem _ member
    · refine staffed.retires found drives owes (fun other known => ?_) (fun other => ?_) ?_ (fun other apart => ?_)
        fun other member => ?_
      · rwa [World.Recorded, ledger]
      · rw [World.HasBegun, journal, World.HasBegun]
      · rw [ledger, inactive]
      · rw [ledger]
      · rwa [journal]
  | withdraws id active settled y status ledger record journal =>
    have listed : (w.ledger.amend id fun _ => y).isActive id = true := active
    refine (staffed.alike found (.refl d)).keeps ⟨fun other known => ?_, fun other => ?_, fun other => ?_, ?_⟩
    · rwa [World.Recorded, ledger, Ledger.admitted_retire, Ledger.admitted_amend]
    · simp [World.HasBegun, journal]
    · rw [ledger]
      by_cases same : other = id
      · rw [same, Ledger.isActive_retire_self (l := w.ledger.amend id fun _ => y) orderly.nodup _ listed]
        exact fun impossible => nomatch impossible
      · rw [Ledger.isActive_retire_other _ listed same]
        exact fun listed => listed
    · intro other stands
      by_cases same : other = id
      · exact .inr (by simp [journal, same])
      · refine stands.imp (fun active' => ?_) fun member => by simp [journal, member]
        rw [ledger, Ledger.isActive_retire_other _ listed same]
        exact active'
  | clears ledger journal =>
    exact (staffed.alike found (.refl d)).keeps (World.keeps_of [_] (ledger ▸ ⟨rfl, rfl⟩) journal (by simp))

/-- A task hands over what it creates another one for. -/
theorem hires (staffed : Staffed roster w) (found : roster t = some d) {child : TaskId} (old : t < child)
    (new : roster child = none) (hires : d.Hires child given d') :
    Staffed ((roster.put t d').put child given) w := by
  have absent : roster.put t d' child = none :=
    (Roster.put_other roster d' (Nat.ne_of_gt old)).trans new
  cases hires with
  | aide steady =>
    exact (staffed.alike found (.refl d)).join absent rfl
      (fun id pending => absurd (.inr pending) Duty.not_answers_free) fun id same => nomatch same
  | driver id phase =>
    have handed : d.Alike { d with phase := .handed id child } :=
      ⟨rfl, rfl, fun _ member => member, .inr fun _ => ⟨fun same => (nomatch same), fun same => nomatch same⟩⟩
    refine (staffed.alike found handed).join absent rfl (fun other pending => ?_) fun other same => nomatch same
    obtain rfl := Duty.answers_appointed (.inr pending)
    obtain ⟨recorded, unbegun, standing⟩ := staffed.pending t d other found (.inl phase)
    refine ⟨recorded, unbegun, standing, fun s d₁ found₁ answers => ?_⟩
    rcases Roster.put_some found₁ with ⟨rfl, rfl⟩ | ⟨different, old₁⟩
    · -- The one who hands an execution over can only drive another one.
      rcases answers with drives | same | same
      · exact unbegun (staffed.serving s d other found (.inl drives)).2.1
      · cases same
      · cases same
    · exact different (staffed.sole s t d₁ d other old₁ found answers (.inr (.inl phase)))
  | branch id _ phase serves =>
    have owing : d.Alike { d with owes := d.owes ++ [child] } :=
      ⟨rfl, rfl, fun _ member => List.mem_append_left _ member, .inl rfl⟩
    refine (staffed.alike found owing).join absent rfl
      (fun other pending => by rcases pending with same | same <;> cases same) fun other works => ?_
    obtain rfl := Option.some.inj works
    exact ⟨t, _, Roster.put_self .., old, serves, List.mem_append_right _ List.mem_cons_self⟩

/-- Executions stay in the hands of tasks as they should be, whatever happens. -/
theorem shift (staffed : Staffed roster w) (shift : e.Shift roster w roster' w') : Staffed roster' w' := by
  cases shift with
  | act task d d' found ledger _ act =>
    exact staffed.affair ledger found (act.affair ledger fun id => staffed.recorded found)
  | hire task d given d' found old new hires _ =>
    exact (staffed.hires found old new hires).keeps (World.keeps_of_books rfl rfl)
  | visit new _ =>
    have visited : Staffed (roster.put w.agenda.created {}) w :=
      staffed.join new rfl (fun id pending => absurd (.inr pending) Duty.not_answers_free)
        fun id same => nomatch same
    exact visited.keeps (World.keeps_of_books rfl rfl)
  | rest task d found ended passes =>
    exact (staffed.replace found d.rested rfl rfl (fun _ pending => .inl pending) fun child waits =>
      .inr (ended child waits)).keeps (World.keeps_of_books passes.ledger passes.journal)
  | quit task d found spent _ =>
    exact (staffed.leave found spent.drives spent.owes).keeps (World.keeps_of_books rfl rfl)
  | pass passes => exact staffed.keeps (World.keeps_of_books passes.ledger passes.journal)
  | forget => exact staffed.keeps (World.keeps_of_books rfl rfl)

end Staffed

end Runbook
