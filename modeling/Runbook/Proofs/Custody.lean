import Runbook.Proofs.Staffing

/-! # The table of background tasks

Whoever has an execution run in the background hands it to a task of its own and enters that task in the
table. From then on nobody but that task can answer for the execution, and the table is told to forget it
only after the task has ended, when nobody answers for it any more.
-/

namespace Runbook

variable {σ : Type} {e : Engine σ} {roster roster' : Roster} {w w' : World σ} {t : TaskId} {d d' : Duty}
  {id : String}

/-! ## What happens to the setting -/

/-- The table of background tasks gains nothing, and loses nothing but what it is told to forget. -/
structure World.Retains (w w' : World σ) : Prop where
  fewer : ∀ entry ∈ w'.background, entry ∈ w.background
  kept : ∀ entry ∈ w.background, entry ∈ w'.background ∨ .forget entry.1 ∈ w.agenda.ready
  agenda : w.agenda.Passes w'.agenda

namespace Engine

theorem Affair.recorded (affair : e.Affair d w d' w') (recorded : w.Recorded id) : w'.Recorded id := by
  rw [World.Recorded] at recorded ⊢
  cases affair with
  | plain _ ledger => rwa [ledger.admitted]
  | admits _ _ _ _ _ _ _ ledger =>
    rw [ledger, Ledger.admitted, Ledger.enroll, List.map_append]
    exact List.mem_append_left _ recorded
  | begins _ _ _ ledger => rwa [ledger]
  | ends _ _ _ _ _ ledger | cuts _ _ _ _ _ ledger | untimes _ _ _ _ ledger =>
    rwa [ledger, Ledger.admitted_amend]
  | retires _ _ _ world =>
    rcases world with ⟨_, ledger, _⟩ | ⟨_, ledger, _⟩
    · rwa [ledger, Ledger.admitted_retire]
    · rwa [ledger]
  | withdraws _ _ _ _ _ ledger => rwa [ledger, Ledger.admitted_retire, Ledger.admitted_amend]
  | clears ledger => rwa [ledger]

/-- Nobody comes to answer for an execution on record by an act of their own. -/
theorem Affair.answers (affair : e.Affair d w d' w') (recorded : w.Recorded id) (answers : d'.Answers id) :
    d.Answers id ∧ (d'.phase = .admitted id → d.phase = .admitted id) := by
  have same : d.Answers id → d.Answers id ∧ (d.phase = .admitted id → d.phase = .admitted id) :=
    fun answers => ⟨answers, fun phase => phase⟩
  have alike (alike : d.Alike d') : d.Answers id ∧ (d'.phase = .admitted id → d.phase = .admitted id) :=
    ⟨alike.answers answers, fun phase => alike.phase.elim (· ▸ phase) fun free => absurd phase (free id).1⟩
  cases affair with
  | plain like _ _ => exact alike like
  | admits steady other workflow options x fresh running ledger journal =>
    have different : other ≠ id := by
      rintro rfl
      obtain ⟨y, found⟩ := Ledger.mem_admitted.mp recorded
      cases fresh.symm.trans found
    rcases answers with drives | phase | phase
    · exact ⟨.inl drives, fun phase => absurd (Phase.admitted.inj phase) different⟩
    · exact absurd (Phase.admitted.inj phase) different
    · cases phase
  | begins other phase free ledger record journal =>
    rw [Duty.answers_drives answers]
    exact ⟨.inr phase, fun same => nomatch same⟩
  | ends | withdraws | clears => exact same answers
  | cuts => exact alike d.alike_closing
  | untimes like => exact alike like
  | retires => exact absurd answers Duty.not_answers_free

/-- What an act can do besides bookkeeping: it ends waits and settles requests, enters a task in the table of
background tasks, opens a request or takes one off the gate. -/
theorem Act.setting (act : e.Act d w d' w') (orderly : w.agenda.Orderly) :
    (w.Wakes w' ∧ ∀ token, d'.tends = some token → d.tends = some token ∧ ∀ id, d.Serves id → d'.Serves id) ∨
    (∃ id driver, d.phase = .handed id driver ∧ d' = { d with phase := .steady } ∧
      w' = Engine.keep id driver w) ∨
    (∃ context, d.Serves context.execution ∧
      d' = { d with tends := some (Interpreter.openRequest context w).1 } ∧
      w' = (Interpreter.openRequest context w).2) ∨
    ∃ token, d.tends = some token ∧ d' = { d with tends := none } ∧ w' = (Interpreter.takeAnswer token w).2 := by
  have still (token : String) (tends : d.tends = some token) :
      d.tends = some token ∧ ∀ id, d.Serves id → d.Serves id := ⟨tends, fun _ serves => serves⟩
  have same (same : w.SameSetting w') : w.Wakes w' := same.wakes orderly
  cases act with
  | keep id driver phase => exact .inr (.inl ⟨id, driver, phase, rfl, rfl⟩)
  | opens steady context serves => exact .inr (.inr (.inl ⟨context, serves, rfl, rfl⟩))
  | takes steady token tends => exact .inr (.inr (.inr ⟨token, tends, rfl, rfl⟩))
  | stir steady stirs => exact .inl ⟨stirs.wakes, still⟩
  | note steady stirs h tells =>
    obtain ⟨step, rfl⟩ := tells.eq
    exact .inl ⟨⟨stirs.background, stirs.gate, stirs.agenda⟩, still⟩
  | amend steady id f => exact .inl ⟨same (amend_setting id f w), still⟩
  | enroll steady workflow options =>
    refine .inl ⟨same (enroll_setting e workflow options w), ?_⟩
    cases (e.enroll workflow options w).1 <;> exact still
  | begin => exact .inl ⟨same ⟨rfl, rfl, rfl⟩, fun _ tends => nomatch tends⟩
  | finish steady id drives free event kind change ends setting =>
    exact .inl ⟨same (setting.trans (World.announced_setting event change w)), still⟩
  | interrupt id => exact .inl ⟨same (interrupt_setting id w), still⟩
  | retire id => exact .inl ⟨same (retire_setting e id w), fun _ tends => nomatch tends⟩
  | withdraw steady id =>
    exact .inl ⟨(e.withdraw_wakes id orderly).setting (World.announced_setting _ _ w), still⟩
  | gather => exact .inl ⟨(cancelBackground_stirs orderly).wakes, still⟩
  | clear => exact .inl ⟨same ⟨rfl, rfl, rfl⟩, still⟩

/-- Nobody has handed an execution to another task, and not entered that task in the table yet, after an act. -/
theorem Act.not_handed (act : e.Act d w d' w') (id : String) (driver : TaskId) :
    d'.phase ≠ .handed id driver := by
  have steady (steady : d.Steady) : d.phase ≠ .handed id driver := by
    rw [steady.phase]
    exact fun same => nomatch same
  cases act with
  | note known stirs h tells =>
    obtain ⟨step, rfl⟩ := tells.eq
    exact steady known
  | stir known | amend known | finish known | withdraw known | opens known | takes known
  | gather known | clear known => exact steady known
  | enroll known workflow options =>
    cases (e.enroll workflow options w).1 with
    | ok => exact fun same => nomatch same
    | error => exact steady known
  | keep | begin | interrupt | retire => exact fun same => nomatch same

namespace Shift

theorem recorded (shift : e.Shift roster w roster' w') (staffed : Staffed roster w) (recorded : w.Recorded id) :
    w'.Recorded id := by
  rcases shift.books fun t d id found => staffed.recorded found with ⟨t, d, d', _, _, affair⟩ | ⟨ledger, _⟩
  · exact affair.recorded recorded
  · rwa [World.Recorded, ledger]

/-- A task is entered in the table of background tasks, or the table loses nothing but what it is told to
forget. -/
theorem setting (shift : e.Shift roster w roster' w') : w.Retains w' ∨
    ∃ t d id driver, roster t = some d ∧ d.phase = .handed id driver ∧ w.agenda.Orderly ∧
      w' = Engine.keep id driver w := by
  have same (background : w'.background = w.background) (passes : w.agenda.Passes w'.agenda) : w.Retains w' :=
    ⟨fun _ member => background ▸ member, fun _ member => .inl (background ▸ member), passes⟩
  cases shift with
  | act t d d' found ledger fit act =>
    rcases act.setting fit.orderly with
      ⟨wakes, _⟩ | ⟨id, driver, phase, _, kept⟩ | ⟨_, _, _, opened⟩ | ⟨_, _, _, taken⟩
    · exact .inl (same wakes.background wakes.agenda.passes)
    · exact .inr ⟨t, d, id, driver, found, phase, fit.orderly, kept⟩
    · exact .inl (same (by rw [opened]; rfl) (by rw [opened]; exact .refl _))
    · exact .inl (same (by rw [taken]; rfl) (by rw [taken]; exact .refl _))
  | hire _ _ _ _ _ _ _ _ orderly => exact .inl (same rfl orderly.create.passes)
  | visit _ orderly => exact .inl (same rfl orderly.create.passes)
  | rest _ _ _ _ passes => exact .inl (same passes.background passes.agenda)
  | quit t _ _ _ orderly => exact .inl (same rfl (orderly.finish t).passes)
  | pass passes => exact .inl (same passes.background passes.agenda)
  | forget execution ready queue orderly =>
    refine .inl ⟨fun _ member => (List.mem_filter.mp member).1, fun entry member => ?_,
      (orderly.dequeue queue rfl).passes⟩
    by_cases named : entry.1 = execution
    · right
      rw [queue, named]
      exact List.mem_cons_self
    · exact .inl (List.mem_filter.mpr ⟨member, by simpa using named⟩)

/-- No task lives again, and whoever waits for others goes on waiting. -/
theorem continues (shift : e.Shift roster w roster' w') : w.agenda.Continues w'.agenda := by
  rcases shift.setting with retains | ⟨_, _, id, driver, _, _, orderly, rfl⟩
  · exact retains.agenda.continues
  · exact (orderly.notifies driver id).continues

/-- Whoever answers for an execution on record did so before, or was created for that by the one who had it
admitted. -/
theorem answers (shift : e.Shift roster w roster' w') (staffed : Staffed roster w) (recorded : w.Recorded id) (found' : roster' t = some d')
    (answers : d'.Answers id) : ∃ s d, roster s = some d ∧ d.Answers id ∧
      (d.phase = .admitted id ∨ s = t ∧ d'.phase ≠ .admitted id) := by
  have still {t : TaskId} {d : Duty} (found : roster t = some d) (answers : d.Answers id) : ∃ s d₀,
      roster s = some d₀ ∧ d₀.Answers id ∧ (d₀.phase = .admitted id ∨ s = t ∧ d.phase ≠ .admitted id) :=
    ⟨t, d, found, answers, (em _).imp_right fun other => ⟨rfl, other⟩⟩
  cases shift.origin found' with
  | same found => exact still found answers
  | act d found ledger fit act =>
    obtain ⟨answers, phase⟩ :=
      (act.affair ledger fun id => staffed.recorded found).answers recorded answers
    exact ⟨t, d, found, answers, (em _).imp_right fun other => ⟨rfl, fun same => other (phase same)⟩⟩
  | rested d found rested =>
    subst rested
    exact still (d := d) found answers
  | hires d given found hires =>
    cases hires with
    | aide => exact still found answers
    | driver other phase =>
      rcases answers with drives | same | same
      · exact ⟨t, d, found, .inl drives, .inr ⟨rfl, fun same => nomatch same⟩⟩
      · cases same
      · cases same
    | branch => exact still (d := d) found answers
  | hired s d given found hires =>
    cases hires with
    | aide => exact absurd answers Duty.not_answers_free
    | driver other phase =>
      obtain rfl := Duty.answers_appointed answers
      exact ⟨s, d, found, .inr (.inl phase), .inl phase⟩
    | branch => rcases answers with same | same | same <;> cases same
  | visitor free =>
    subst free
    exact absurd answers Duty.not_answers_free

end Shift

end Engine

/-! ## Whom an execution is entrusted to -/

/-- Nobody but one task can answer for the execution from now on. -/
structure Entrusted (roster : Roster) (w : World σ) (id : String) (holder : TaskId) : Prop where
  recorded : w.Recorded id
  old : holder < w.agenda.created
  held : ∀ t d, roster t = some d → d.Answers id → t = holder ∧ d.phase ≠ .admitted id

theorem Entrusted.shift {holder : TaskId} (entrusted : Entrusted roster w id holder) (staffed : Staffed roster w)
    (shift : e.Shift roster w roster' w') : Entrusted roster' w' id holder where
  recorded := shift.recorded staffed entrusted.recorded
  old := Nat.lt_of_lt_of_le entrusted.old shift.continues.created
  held t d' found' answers' := by
    obtain ⟨s, d, found, answers, mine⟩ := shift.answers staffed entrusted.recorded found' answers'
    obtain ⟨rfl, settled⟩ := entrusted.held s d found answers
    obtain ⟨rfl, settled'⟩ := mine.resolve_left settled
    exact ⟨rfl, settled'⟩

/-- Nobody answers for an execution that is entrusted to a task that has ended. -/
theorem Entrusted.unanswered {holder : TaskId} (entrusted : Entrusted roster w id holder)
    (ended : roster holder = none) : Unanswered roster id := by
  intro t d found answers
  obtain ⟨rfl, _⟩ := entrusted.held t d found answers
  cases ended.symm.trans found

theorem Unanswered.shift (unanswered : Unanswered roster id) (recorded : w.Recorded id)
    (staffed : Staffed roster w) (shift : e.Shift roster w roster' w') : Unanswered roster' id := by
  intro t d' found' answers'
  obtain ⟨s, d, found, answers, _⟩ := shift.answers staffed recorded found' answers'
  exact unanswered s d found answers

/-- Nobody answers for an execution that has begun unless it is active. -/
theorem Staffed.inactive (staffed : Staffed roster w) (unanswered : Unanswered roster id)
    (begun : w.HasBegun id) : w.ledger.isActive id = false := by
  cases active : w.ledger.isActive id with
  | false => rfl
  | true =>
    obtain ⟨t, d, found, drives⟩ := staffed.driven id active begun
    exact absurd (.inl drives) (unanswered t d found)

/-! ## The invariant -/

/-- The table of background tasks and those who are to tell it of an end are right about who answers for an
execution. -/
structure Kept (roster : Roster) (w : World σ) : Prop where
  handed : ∀ t d id driver, roster t = some d → d.phase = .handed id driver → Entrusted roster w id driver
  entries : ∀ id t, (id, t) ∈ w.background → Entrusted roster w id t
  watched : ∀ task ∈ w.agenda.tasks, ∀ id, .background id ∈ task.watchers → Entrusted roster w id task.id
  forgets : ∀ id, .forget id ∈ w.agenda.ready → ∃ t, Entrusted roster w id t ∧ t ∉ w.agenda.alive
  /-- Tasks are waited for that exist. -/
  owes : ∀ t d, roster t = some d → ∀ child ∈ d.owes, child < w.agenda.created

/-- Who creates a driver for an execution entrusts it with the execution. -/
theorem Staffed.entrusts (staffed : Staffed roster w) (found : roster t = some d)
    (phase : d.phase = .admitted id) :
    Entrusted ((roster.put t { d with phase := .handed id w.agenda.created }).put w.agenda.created
      { phase := .appointed id }) { w with agenda := w.agenda.create.1 } id w.agenda.created where
  recorded := (staffed.pending t d id found (.inl phase)).1
  old := Nat.lt_succ_self _
  held s d₁ found₁ answers := by
    rcases Roster.put_some found₁ with ⟨rfl, rfl⟩ | ⟨_, found₁⟩
    · exact ⟨rfl, fun same => nomatch same⟩
    rcases Roster.put_some found₁ with ⟨rfl, rfl⟩ | ⟨different, found₁⟩
    · rcases answers with drives | same | same
      · have begun := (staffed.serving s d id found (.inl drives)).2.1
        exact absurd begun (staffed.pending s d id found (.inl phase)).2.1
      · cases same
      · cases same
    · exact absurd (staffed.sole s t d₁ d id found₁ found answers (.inr (.inl phase))) different

namespace Kept

variable {child : TaskId}

theorem handed_shift (kept : Kept roster w) (staffed : Staffed roster w) (shift : e.Shift roster w roster' w')
    {driver : TaskId} (found' : roster' t = some d') (phase : d'.phase = .handed id driver) :
    Entrusted roster' w' id driver := by
  have old {d : Duty} (found : roster t = some d) (phase : d.phase = .handed id driver) :
      Entrusted roster' w' id driver :=
    (kept.handed t d id driver found phase).shift staffed shift
  cases shift.origin found' with
  | same found => exact old found phase
  | act d found ledger fit act => exact absurd phase (act.not_handed id driver)
  | rested d found rested =>
    subst rested
    exact old (d := d) found phase
  | hires d given found hires staff world =>
    cases hires with
    | aide => exact old found phase
    | driver other admitted =>
      cases phase
      rw [staff, world]
      exact staffed.entrusts found admitted
    | branch => exact old (d := d) found phase
  | hired s d given found hires => cases hires <;> cases phase
  | visitor free =>
    subst free
    cases phase

/-- Whom somebody has to wait for after an act: those from before, or the background tasks. -/
theorem owes_act (act : e.Act d w d' w') (member : child ∈ d'.owes) :
    child ∈ d.owes ∨ ∃ id, (id, child) ∈ w.background := by
  cases act with
  | gather steady =>
    obtain ⟨entry, listed, rfl⟩ := List.mem_map.mp member
    exact .inr ⟨entry.1, listed⟩
  | note steady stirs h tells =>
    obtain ⟨step, rfl⟩ := tells.eq
    exact .inl member
  | begin | retire => cases member
  | enroll steady workflow options =>
    cases verdict : (e.enroll workflow options w).1 with
    | ok | error =>
      rw [verdict] at member
      exact .inl member
  | _ => exact .inl member

theorem owes_shift (kept : Kept roster w) (shift : e.Shift roster w roster' w')
    (found' : roster' t = some d') (member : child ∈ d'.owes) : child < w'.agenda.created := by
  have old {d : Duty} (found : roster t = some d) (member : child ∈ d.owes) : child < w'.agenda.created :=
    Nat.lt_of_lt_of_le (kept.owes t d found child member) shift.continues.created
  cases shift.origin found' with
  | same found => exact old found member
  | act d found ledger fit act =>
    rcases owes_act act member with member | ⟨id, listed⟩
    · exact old found member
    · exact Nat.lt_of_lt_of_le (kept.entries id child listed).old shift.continues.created
  | rested d found rested =>
    subst rested
    cases member
  | hires d given found hires staff world =>
    cases hires with
    | aide => exact old found member
    | driver => exact old (d := d) found member
    | branch =>
      rcases List.mem_append.mp member with member | new
      · exact old found member
      · rw [List.mem_singleton.mp new, world]
        exact Nat.lt_succ_self _
  | hired s d given found hires => cases hires <;> cases member
  | visitor free =>
    subst free
    cases member

/-- The table stays right, whatever happens. -/
theorem shift (kept : Kept roster w) (staffed : Staffed roster w) (shift : e.Shift roster w roster' w') :
    Kept roster' w' where
  handed _ _ _ _ found' phase := kept.handed_shift staffed shift found' phase
  entries id t member := by
    rcases shift.setting with retains | ⟨s, d, other, driver, found, phase, orderly, rfl⟩
    · exact (kept.entries id t (retains.fewer _ member)).shift staffed shift
    · rcases List.mem_append.mp member with member | new
      · exact (kept.entries id t member).shift staffed shift
      · cases List.mem_singleton.mp new
        exact (kept.handed s d id t found phase).shift staffed shift
  watched task' member' id watched := by
    rcases shift.setting with retains | ⟨s, d, other, driver, found, phase, orderly, rfl⟩
    · obtain ⟨task, member, same, watched⟩ := retains.agenda.watched task' member' id watched
      exact same ▸ (kept.watched task member id watched).shift staffed shift
    · rcases (orderly.notifies driver other).watched task' member' id watched with
        ⟨rfl, same⟩ | ⟨task, member, same, watched⟩
      · exact same ▸ (kept.handed s d id driver found phase).shift staffed shift
      · exact same ▸ (kept.watched task member id watched).shift staffed shift
  forgets id queued := by
    have ended {t : TaskId} (entrusted : Entrusted roster w id t) (ended : t ∉ w.agenda.alive) :
        ∃ t, Entrusted roster' w' id t ∧ t ∉ w'.agenda.alive :=
      ⟨t, entrusted.shift staffed shift, fun alive => ended (shift.continues.ended t entrusted.old alive)⟩
    have before (queued : .forget id ∈ w.agenda.ready) : ∃ t, Entrusted roster' w' id t ∧ t ∉ w'.agenda.alive := by
      obtain ⟨t, entrusted, gone⟩ := kept.forgets id queued
      exact ended entrusted gone
    rcases shift.setting with retains | ⟨s, d, other, driver, found, phase, orderly, rfl⟩
    · rcases retains.agenda.forgets id queued with queued | ⟨task, member, watched, gone⟩
      · exact before queued
      · exact ⟨task.id, (kept.watched task member id watched).shift staffed shift, gone⟩
    · rcases (orderly.notifies driver other).forgets id queued with queued | ⟨rfl, gone⟩
      · exact before queued
      · exact ended (kept.handed s d id driver found phase) gone
  owes _ _ found' _ member := kept.owes_shift shift found' member

end Kept

/-! ## Executions that run in the background -/

/-- The execution runs in the background, or nobody answers for it any more. -/
structure Placed (roster : Roster) (w : World σ) (id : String) : Prop where
  recorded : w.Recorded id
  task : (∃ t, (id, t) ∈ w.background) ∨ Unanswered roster id

theorem Placed.shift (placed : Placed roster w id) (kept : Kept roster w) (staffed : Staffed roster w)
    (enlisted : ∀ t d, roster t = some d → t ∈ w.agenda.alive) (shift : e.Shift roster w roster' w') :
    Placed roster' w' id where
  recorded := shift.recorded staffed placed.recorded
  task := by
    rcases placed.task with ⟨t, member⟩ | unanswered
    · rcases shift.setting with retains | ⟨_, _, _, _, _, _, _, rfl⟩
      · refine (retains.kept (id, t) member).imp (fun member => ⟨t, member⟩) fun queued => ?_
        obtain ⟨holder, entrusted, gone⟩ := kept.forgets id queued
        have ended : roster holder = none := by
          cases found : roster holder with
          | none => rfl
          | some d => exact absurd (enlisted holder d found) gone
        exact (entrusted.unanswered ended).shift placed.recorded staffed shift
      · exact .inl ⟨t, List.mem_append_left _ member⟩
    · exact .inr (unanswered.shift placed.recorded staffed shift)

end Runbook
