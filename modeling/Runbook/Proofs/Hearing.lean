import Runbook.Proofs.Calls
import Runbook.Proofs.Delivery
import Runbook.Proofs.Emissions
import Runbook.Proofs.Hush

/-! # Callbacks are heard before anything else is emitted

What the driver of an execution announces is delivered before the execution goes on. As long as callbacks are
out nothing is emitted for the execution, whatever happens: nobody but the driver has to do with it, and the
driver follows the callbacks. If a cancellation keeps them from being heard, nothing is ever emitted again.
-/

namespace Runbook

open Machine

variable {σ α : Type} {e : Engine σ} {host : Host σ} {m m' m₁ m₂ : Machine σ} {roster roster' : Roster}
  {t : TaskId} {d : Duty} {id : String} {p q : Routine σ α} {rest : α → Routine σ Unit} {Q : α → Prop}
  {left : Routine σ α ⊕ (Wake → Routine σ α)}

/-! ## Routines that are under way -/

/-- What a task has left of a routine, before something else: what it goes on with, or does when it is resumed. -/
def Machine.Has (m : Machine σ) (t : TaskId) (rest : α → Routine σ Unit) :
    Routine σ α ⊕ (Wake → Routine σ α) → Prop
  | .inl q => m.running = some (t, q.bind rest)
  | .inr k => (t, fun wake => (k wake).bind rest) ∈ m.parked

/-- A task that has a routine to run from a machine on, and something else after it, has come to where that much
of the routine is left. Between any two of its steps, and while it waits, anything can happen. -/
inductive Machine.Proceeds (e : Engine σ) (host : Host σ) (t : TaskId) (rest : α → Routine σ Unit)
    (m : Machine σ) (p : Routine σ α) : Machine σ → Routine σ α ⊕ (Wake → Routine σ α) → Prop
  | start (runs : m.running = some (t, p.bind rest)) : Proceeds e host t rest m p m (.inl p)
  | act {m₁ : Machine σ} {β : Type} {f : World σ → β × World σ} {k : β → Routine σ α}
      (before : Proceeds e host t rest m p m₁ (.inl (.act f k))) :
      Proceeds e host t rest m p (m₁.advance (host.service e) t ((Routine.act f k).bind rest))
        (.inl (k (f m₁.world).1))
  | call {m₁ : Machine σ} {errand : Errand} {k : Except Interrupt Value → Routine σ α}
      (before : Proceeds e host t rest m p m₁ (.inl (.call errand k))) :
      Proceeds e host t rest m p (m₁.advance (host.service e) t ((Routine.call errand k).bind rest))
        (.inl ((host.service e errand).bind k))
  | spawn {m₁ : Machine σ} {body : TaskId → Routine σ Unit} {k : TaskId → Routine σ α}
      (before : Proceeds e host t rest m p m₁ (.inl (.spawn body k))) :
      Proceeds e host t rest m p (m₁.advance (host.service e) t ((Routine.spawn body k).bind rest))
        (.inl (k m₁.world.agenda.created))
  /-- There is nothing to wait for. -/
  | goesOn {m₁ : Machine σ} {cue : Cue} {k : Wake → Routine σ α} {wake : Wake}
      (before : Proceeds e host t rest m p m₁ (.inl (.wait cue k))) (immediate : immediate? m₁.world cue = some wake) :
      Proceeds e host t rest m p (m₁.advance (host.service e) t ((Routine.wait cue k).bind rest)) (.inl (k wake))
  | parks {m₁ : Machine σ} {cue : Cue} {k : Wake → Routine σ α}
      (before : Proceeds e host t rest m p m₁ (.inl (.wait cue k))) (suspends : immediate? m₁.world cue = none) :
      Proceeds e host t rest m p (m₁.advance (host.service e) t ((Routine.wait cue k).bind rest)) (.inr k)
  | resumes {m₁ m₂ : Machine σ} {k : Wake → Routine σ α} {wake : Wake}
      (before : Proceeds e host t rest m p m₁ (.inr k)) (idle : m₁.running = none)
      (taken : m₁.step? (host.service e) = some m₂) (going : m₂.running = some (t, (k wake).bind rest)) :
      Proceeds e host t rest m p m₂ (.inl (k wake))
  /-- Something else happens. -/
  | meanwhile {m₁ m₂ : Machine σ} {left : Routine σ α ⊕ (Wake → Routine σ α)}
      (before : Proceeds e host t rest m p m₁ left) (step : Machine.Step e host (fun _ => False) m₁ m₂)
      (still : m₂.Has t rest left) : Proceeds e host t rest m p m₂ left

/-- What is left of the routine is what the task has to do. -/
theorem Machine.Proceeds.has (proceeds : Proceeds e host t rest m p m₁ left) : m₁.Has t rest left := by
  induction proceeds with
  | start runs => exact runs
  | act | spawn => rfl
  | call =>
    change some (t, _) = some (t, _)
    rw [Routine.bind_bind]
  | goesOn _ immediate =>
    change (advance _ _ t (.wait _ _)).running = _
    rw [advance, immediate]
  | parks _ suspends =>
    change _ ∈ (advance _ _ t (.wait _ _)).parked
    rw [advance, suspends, park_parked]
    exact List.mem_append_right _ (List.mem_singleton_self _)
  | resumes _ _ _ going => exact going
  | meanwhile _ _ still => exact still

/-- A routine that is under way is a run of the machine. -/
theorem Machine.Proceeds.run (proceeds : Proceeds e host t rest m p m₁ left) : Run e host (fun _ => False) m m₁ := by
  induction proceeds with
  | start => exact .refl m
  | act before ih | call before ih | spawn before ih | goesOn before _ ih | parks before _ ih =>
    exact ih.next (.work (step?_of_running before.has))
  | resumes _ _ taken _ ih => exact ih.next (.work taken)
  | meanwhile _ step _ ih => exact ih.next step

/-! ## Steps of the machine -/

namespace Machine.Step

variable {task : Routine σ Unit}

/-- While a task is running only its own steps write into the journal or change what is running. -/
theorem of_running (step : Machine.Step e host (fun _ => False) m m') (runs : m.running = some (t, task)) :
    m' = m.advance (host.service e) t task ∨
      m'.running = some (t, task) ∧ m'.world.journal = m.world.journal := by
  cases step with
  | work taken => exact .inl (Option.some.inj (taken.symm.trans (step?_of_running runs)))
  | visit => exact .inr ⟨runs, rfl⟩
  | elapse elapsed =>
    obtain ⟨agenda, _, rfl⟩ := Option.map_eq_some_iff.mp elapsed
    exact .inr ⟨runs, rfl⟩
  | wind => exact .inr ⟨runs, rfl⟩
  | cancel other => exact .inr ⟨runs, congrArg Books.journal (m.world.cancel_books other)⟩

/-- While no task is running nothing is written into the journal. -/
theorem of_idle (step : Machine.Step e host (fun _ => False) m m') (idle : m.running = none) :
    m'.world.journal = m.world.journal := by
  cases step with
  | work taken =>
    rcases step?_cases taken with ⟨_, _, runs, _⟩ | ⟨job, ready, _, _, rfl⟩
    · cases idle.symm.trans runs
    · cases job with
      | resume other wake =>
        change (Machine.resume _ other wake).world.journal = _
        unfold Machine.resume
        split <;> rfl
      | ring | report | forget => rfl
  | visit => rfl
  | elapse elapsed =>
    obtain ⟨agenda, _, rfl⟩ := Option.map_eq_some_iff.mp elapsed
    rfl
  | wind => rfl
  | cancel other => exact congrArg Books.journal (m.world.cancel_books other)

/-- A parked task stays parked or is resumed. -/
theorem of_parked {k : Wake → Routine σ Unit} (step : Machine.Step e host (fun _ => False) m m')
    (apart : (m.parked.map (·.1)).Nodup) (listed : (t, k) ∈ m.parked) :
    (t, k) ∈ m'.parked ∨ m.running = none ∧ m.step? (host.service e) = some m' ∧
      ∃ wake, m'.running = some (t, k wake) := by
  cases step with
  | work taken =>
    obtain ⟨resumes, stays⟩ := parked_step apart listed taken
    cases moved : m.resumption? t with
    | some wake => exact .inr ⟨idle_of_resumption moved, taken, wake, resumes wake moved⟩
    | none => exact .inl (stays moved)
  | visit => exact .inl (List.mem_append_left _ listed)
  | elapse elapsed =>
    obtain ⟨agenda, _, rfl⟩ := Option.map_eq_some_iff.mp elapsed
    exact .inl listed
  | wind | cancel => exact .inl listed

end Machine.Step

/-- Only an act of a task writes into the journal. -/
theorem Machine.advance_journal (service : Service σ) (m : Machine σ) (t : TaskId) (task : Routine σ Unit) :
    (m.advance service t task).world.journal = m.world.journal ∨
      ∃ (β : Type) (f : World σ → β × World σ) (k : β → Routine σ Unit), task = .act f k ∧
        (m.advance service t task).world = (f m.world).2 := by
  cases task with
  | done | call | spawn => exact .inl rfl
  | act f k => exact .inr ⟨_, f, k, rfl, rfl⟩
  | wait cue k =>
    left
    rw [advance]
    split
    · rfl
    · exact congrArg Books.journal (m.park_books t cue k)

/-- The tasks that have nothing to do with the execution do not tell of it. -/
theorem LeftAlone.step_silence (alone : LeftAlone roster t id) (manned : m.Manned e roster)
    (valid : Books.Valid e (fun _ => False) m.world.books) (away : ∀ task, m.running ≠ some (t, task))
    (step : Machine.Step e host (fun _ => False) m m') : Silence id m.world.journal m'.world.journal := by
  cases runs : m.running with
  | none => exact .of_eq (step.of_idle runs)
  | some turn =>
    obtain ⟨s, task⟩ := turn
    have different : s ≠ t := by
      rintro rfl
      exact away task runs
    rcases step.of_running runs with rfl | ⟨_, same⟩
    · rcases advance_journal (host.service e) m s task with same | ⟨β, f, k, rfl, world⟩
      · exact .of_eq same
      · obtain ⟨_, _, d, found, minds⟩ := manned.running s _ runs
        have recorded (other : String) (drives : d.drives = some other) :
            ∃ x, m.world.ledger.record? other = some x := manned.staffed.recorded found drives
        have named (id : String) (x : Execution) (found : m.world.ledger.record? id = some x) : x.id = .text id :=
          (valid.sound id x found).self
        obtain ⟨d', act, _⟩ := minds m.world ⟨manned.orderly, named, recorded⟩
        rw [world]
        exact alone.silence found different act valid.orderly recorded
    · exact .of_eq same

/-! ## Followed routines -/

/-- What is left of a routine tells nothing of the execution from a duty on, and ends as it says. -/
def Duty.Leaves (d : Duty) (id : String) (Q : α → Prop) : Routine σ α ⊕ (Wake → Routine σ α) → Prop
  | .inl q => q.Hushed id d Q
  | .inr k => ∀ wake, (k wake).Hushed id d.rested Q

/-- A task that nobody else has to do with its execution has followed a routine so far, and nothing has been told
of the execution. -/
def Machine.Underway (e : Engine σ) (host : Host σ) (t : TaskId) (rest : α → Routine σ Unit) (id : String)
    (Q : α → Prop) (m : Machine σ) (p : Routine σ α) (roster : Roster) (m' : Machine σ) : Prop :=
  ∃ left, ∃ d : Duty, Proceeds e host t rest m p m' left ∧ Silence id m.world.journal m'.world.journal ∧
    LeftAlone roster t id ∧ d.Mute id m'.world ∧ d.Leaves id Q left

/-- The task has come to the end of the routine, and nothing was told of the execution until then. -/
def Machine.Followed (e : Engine σ) (host : Host σ) (t : TaskId) (rest : α → Routine σ Unit) (id : String)
    (Q : α → Prop) (m : Machine σ) (p : Routine σ α) (m' : Machine σ) : Prop :=
  ∃ m₁ a roster, Proceeds e host t rest m p m₁ (.inl (.done a)) ∧ Q a ∧
    Silence id m.world.journal m₁.world.journal ∧ m₁.Manned e roster ∧ LeftAlone roster t id ∧
    Run e host (fun _ => False) m₁ m'

namespace Machine

/-- Whatever happens next, the task is still under way unless it has come to the end. -/
theorem Underway.step (underway : Underway e host t rest id Q m p roster m₁) (arises : Arises e host m₁)
    (manned : m₁.Manned e roster) (known : m₁.world.Recorded id)
    (step : Machine.Step e host (fun _ => False) m₁ m₂) (shift : e.Shift roster m₁.world roster' m₂.world) :
    Underway e host t rest id Q m p roster' m₂ ∨ Followed e host t rest id Q m p m₂ := by
  obtain ⟨left, d, proceeds, silence, alone, mute, leaves⟩ := underway
  have recorded (other : String) (recorded : m₁.world.Recorded other) : m₂.world.Recorded other :=
    arises.recorded (.next (.refl m₁) step) recorded
  have goes {left : Routine σ α ⊕ (Wake → Routine σ α)} {d' : Duty}
      (quiet : Silence id m₁.world.journal m₂.world.journal) (mute : d'.Mute id m₂.world)
      (proceeds : Proceeds e host t rest m p m₂ left) (leaves : d'.Leaves id Q left) :
      Underway e host t rest id Q m p roster' m₂ ∨ Followed e host t rest id Q m p m₂ :=
    .inl ⟨left, d', proceeds, silence.trans quiet, alone.shift manned.staffed shift quiet known, mute, leaves⟩
  cases left with
  | inr k =>
    have listed : (t, fun wake => (k wake).bind rest) ∈ m₁.parked := proceeds.has
    have quiet : Silence id m₁.world.journal m₂.world.journal := by
      refine alone.step_silence manned arises.valid (fun task runs => ?_) step
      exact (manned.running t task runs).2.1 (List.mem_map_of_mem listed)
    rcases step.of_parked manned.apart listed with still | ⟨idle, taken, wake, going⟩
    · exact goes quiet (mute.later recorded) (.meanwhile proceeds step still) leaves
    · exact goes quiet (mute.later recorded).rested (.resumes proceeds idle taken going) (leaves wake)
  | inl q =>
    have runs : m₁.running = some (t, q.bind rest) := proceeds.has
    rcases step.of_running runs with rfl | ⟨still, same⟩
    · cases q with
      | done a => exact .inr ⟨m₁, a, roster, proceeds, leaves, silence, manned, alone, .next (.refl m₁) step⟩
      | act f k =>
        have named (id : String) (x : Execution) (found : m₁.world.ledger.record? id = some x) : x.id = .text id :=
          (arises.valid.sound id x found).self
        obtain ⟨d', mute', quiet, later⟩ := leaves m₁.world ⟨manned.orderly, named, fun _ => mute.fits⟩
          arises.valid.orderly known mute
        exact goes quiet mute' (.act proceeds) later
      | call errand k =>
        refine goes (.refl id _) (mute.later recorded) (.call proceeds) ?_
        refine (Host.service_minds host errand leaves.1).hushed_bind ?_
        rintro answer _ rfl
        exact leaves.2 answer
      | spawn body k =>
        obtain ⟨d', stays, later⟩ := leaves m₁.world.agenda.created
        exact goes (.refl id _) (stays _ (mute.later recorded)) (.spawn proceeds) later
      | wait cue k =>
        have quiet : Silence id m₁.world.journal
            (m₁.advance (host.service e) t ((Routine.wait cue k).bind rest)).world.journal := by
          rcases advance_journal (host.service e) m₁ t ((Routine.wait cue k).bind rest) with
            same | ⟨_, _, _, act, _⟩
          · exact .of_eq same
          · cases act
        cases immediate : immediate? m₁.world cue with
        | some wake => exact goes quiet (mute.later recorded).rested (.goesOn proceeds immediate) (leaves wake)
        | none => exact goes quiet (mute.later recorded) (.parks proceeds immediate) leaves
    · exact goes (.of_eq same) (mute.later recorded) (.meanwhile proceeds step still) leaves

/-- Along every run the task is under way until it has come to the end. -/
theorem Arises.follow (arises : Arises e host m) (manned : m.Manned e roster) (alone : LeftAlone roster t id)
    (known : m.world.Recorded id) (runs : m.running = some (t, p.bind rest)) (mute : d.Mute id m.world)
    (hushed : p.Hushed id d Q) (run : Run e host (fun _ => False) m m') :
    (∃ roster, m'.Manned e roster ∧ Underway e host t rest id Q m p roster m') ∨
      Followed e host t rest id Q m p m' := by
  have start : Underway e host t rest id Q m p roster m := ⟨_, d, .start runs, .refl id _, alone, mute, hushed⟩
  induction run with
  | refl => exact .inl ⟨roster, manned, start⟩
  | next before step ih =>
    rcases ih with ⟨roster₁, manned₁, underway⟩ | ⟨m₁, a, roster₁, followed⟩
    · have arises₁ := arises.run before
      obtain ⟨roster₂, shift, manned₂⟩ := manned₁.step arises₁.valid step
      rcases underway.step arises₁ manned₁ (arises.recorded before known) step shift with underway | followed
      · exact .inl ⟨roster₂, manned₂, underway⟩
      · exact .inr followed
    · obtain ⟨proceeds, ends, silence, manned₁, alone₁, later⟩ := followed
      exact .inr ⟨m₁, a, roster₁, proceeds, ends, silence, manned₁, alone₁, later.next step⟩

/-- What nobody has to do with any more nobody tells of. -/
theorem Manned.forsaken (manned : m.Manned e roster) (arises : Arises e host m) (alone : ∀ t, LeftAlone roster t id)
    (known : m.world.Recorded id) (run : Run e host (fun _ => False) m m') :
    Silence id m.world.journal m'.world.journal := by
  have holds : ∃ roster, m'.Manned e roster ∧ (∀ t, LeftAlone roster t id) ∧ m'.world.Recorded id ∧
      Silence id m.world.journal m'.world.journal := by
    refine manned.run (I := fun roster m' => (∀ t, LeftAlone roster t id) ∧ m'.world.Recorded id ∧
      Silence id m.world.journal m'.world.journal) arises ⟨alone, known, .refl id _⟩ ?_ run
    rintro roster m₁ roster' m₂ arises₁ manned₁ ⟨alone, known, silence⟩ step shift _
    have quiet : Silence id m₁.world.journal m₂.world.journal := by
      cases runs : m₁.running with
      | none => exact .of_eq (step.of_idle runs)
      | some turn =>
        refine (alone (turn.1 + 1)).step_silence manned₁ arises₁.valid (fun task going => ?_) step
        have same := congrArg Prod.fst (Option.some.inj (runs.symm.trans going))
        exact Nat.succ_ne_self _ same.symm
    exact ⟨fun t => (alone t).shift manned₁.staffed shift quiet known,
      arises₁.recorded (.next (.refl m₁) step) known, silence.trans quiet⟩
  obtain ⟨_, _, _, _, silence⟩ := holds
  exact silence

/-- A task that was cut off from the callbacks tells nothing more of its execution, and leaves it to nobody. -/
theorem Arises.silent (arises : Arises e host m) (manned : m.Manned e roster) (alone : LeftAlone roster t id)
    (known : m.world.Recorded id) {task : Routine σ Unit} (runs : m.running = some (t, task))
    (mute : d.Mute id m.world) (fulfills : task.Fulfills e d) (run : Run e host (fun _ => False) m m') :
    Silence id m.world.journal m'.world.journal := by
  have hushed : task.Hushed id d fun _ => True := fulfills.hushed fun _ _ _ => trivial
  rw [← Routine.bind_done task] at runs
  rcases arises.follow manned alone known runs mute hushed run with
    ⟨_, _, _, _, _, silence, _⟩ | ⟨m₁, a, roster₁, proceeds, _, silence, manned₁, alone₁, later⟩
  · exact silence
  · -- At its end the task drives nothing, and so the execution is left to nobody.
    obtain ⟨_, _, d₁, found, spent⟩ := manned₁.running t _ proceeds.has
    have forsaken : ∀ s, LeftAlone roster₁ s id := by
      intro s s₁ d₂ found₂ mine
      obtain ⟨rfl, drives, _⟩ := alone₁ s₁ d₂ found₂ mine
      obtain rfl := Option.some.inj (found.symm.trans found₂)
      cases drives.symm.trans (Duty.Over.drives spent)
    have arises₁ := arises.run proceeds.run
    exact silence.trans (manned₁.forsaken arises₁ forsaken (arises.recorded proceeds.run known) later)

/-- A move that is delivered has been heard by all its callbacks before anything else is told of the execution. -/
theorem Arises.hears (arises : Arises e host m) {event : Event} {callbacks : List String}
    {rest : Except Interrupt Unit → Routine σ Unit}
    (runs : m.running = some (t, (ExceptT.run (deliver event callbacks)).bind rest)) {move : Move}
    (moves : event.move? = some move)
    (run : Run e host (fun _ => False) m m') :
    Silence event.execution m.world.journal m'.world.journal ∨
      ∃ m₁, Proceeds e host t rest m (ExceptT.run (deliver event callbacks)) m₁ (.inl (.done (.ok ()))) ∧
        Silence event.execution m.world.journal m₁.world.journal ∧ Run e host (fun _ => False) m₁ m' := by
  cases callbacks with
  | nil => exact .inr ⟨m, .start runs, .refl _ _, run⟩
  | cons callback others =>
    obtain ⟨_, manned⟩ := arises.manned
    obtain ⟨_, _, d, found, minds⟩ := manned.running t _ runs
    obtain ⟨steady, _, teller⟩ : (Routine.call (.observer callback event) _).Minds e d _ := minds
    obtain ⟨drives, free, severed⟩ := teller event.execution (congrArg (Option.map _) moves)
    have known : m.world.Recorded event.execution := Ledger.mem_admitted.mpr (manned.staffed.recorded found drives)
    have alone : LeftAlone _ t event.execution := .of_driver manned.staffed found drives steady.owes free
    rcases arises.follow manned alone known runs (.free _ _) (deliver_hushed event (callback :: others)) run with
      ⟨_, _, _, _, _, silence, _⟩ | ⟨m₁, _, roster₁, proceeds, rfl | ⟨message, rfl⟩, silence, manned₁, alone₁, later⟩
    · exact .inl silence
    · exact .inr ⟨m₁, proceeds, silence, later⟩
    · have known₁ := arises.recorded proceeds.run known
      have mute : Duty.Mute { d with phase := .severed } event.execution m₁.world := by
        refine ⟨fun other answers => ?_, .inl (.inl rfl)⟩
        rcases answers with drives' | same | same
        · exact Option.some.inj (drives.symm.trans drives') ▸ known₁
        · cases same
        · cases same
      exact .inl (silence.trans
        ((arises.run proceeds.run).silent manned₁ alone₁ known₁ proceeds.has mute (severed message) later))

end Machine

end Runbook
