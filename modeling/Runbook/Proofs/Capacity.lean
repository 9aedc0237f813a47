import Runbook.Proofs.Calls
import Runbook.Proofs.Fate
import Runbook.Proofs.Retirement

/-! # What counts against the capacity

The active executions are those that run, and those that have ended and are not retired yet: a driver
announces the end first, and observers may take their time. Both sorts count when it is decided whether
there is room for another execution, and so there are never more of them than the cap.
-/

namespace Runbook

open Machine

variable {σ : Type} {e : Engine σ} {host : Host σ} {m m' : Machine σ} {roster roster' : Roster}
  {w w' : World σ} {d d' : Duty} {t : TaskId} {id : String}

namespace World

/-- The execution is active, but does not run any more. -/
def Lingers (w : World σ) (id : String) : Prop :=
  w.ledger.isActive id = true ∧ w.ledger.status? id ≠ some .running

instance : Decidable (w.Lingers id) := inferInstanceAs (Decidable (_ ∧ _))

/-- How many executions run. -/
def running (w : World σ) : Nat := w.ledger.admitted.countP fun id => w.ledger.status? id = some .running

/-- How many executions have ended and are active all the same. -/
def lingering (w : World σ) : Nat := w.ledger.admitted.countP fun id => w.Lingers id

end World

/-! ## Counting executions -/

/-- At most one execution is admitted in an act, under a name of its own. -/
theorem Engine.Affair.admitted_nodup (affair : e.Affair d w d' w') (nodup : w.ledger.admitted.Nodup) :
    w'.ledger.admitted.Nodup := by
  cases affair with
  | plain _ ledger => rwa [ledger.admitted]
  | admits _ id _ _ x fresh _ ledger =>
    have new : id ∉ w.ledger.admitted := by
      intro member
      obtain ⟨y, found⟩ := Ledger.mem_admitted.mp member
      cases fresh.symm.trans found
    rw [ledger, Ledger.admitted, Ledger.enroll, List.map_append]
    exact List.concat_eq_append ▸ nodup.concat new
  | begins _ _ _ ledger => rwa [ledger]
  | ends _ _ _ _ _ ledger | cuts _ _ _ _ _ ledger | untimes _ _ _ _ ledger => rwa [ledger, Ledger.admitted_amend]
  | retires _ _ _ world =>
    rcases world with ⟨_, ledger, _⟩ | ⟨_, ledger, _⟩
    · rwa [ledger, Ledger.admitted_retire]
    · rwa [ledger]
  | withdraws _ _ _ _ _ ledger => rwa [ledger, Ledger.admitted_retire, Ledger.admitted_amend]
  | clears ledger => rwa [ledger]

namespace Machine.Arises

theorem admitted_nodup (arises : Arises e host m) : m.world.ledger.admitted.Nodup := by
  refine arises.affairs (I := fun w => w.ledger.admitted.Nodup) (fun m pristine => ?_)
    (fun _ nodup affair => affair.admitted_nodup nodup) fun nodup ledger _ => ledger ▸ nodup
  rw [Ledger.admitted, pristine.records]
  exact .nil

/-- Whatever runs is active. -/
theorem active_of_running (arises : Arises e host m) (running : m.world.ledger.status? id = some .running) :
    m.world.ledger.isActive id = true := by
  obtain ⟨x, found, status⟩ := Option.map_eq_some_iff.mp running
  exact (arises.valid.sound id x found).enlisted status

/-- The active executions run or linger. -/
theorem active_length (arises : Arises e host m) :
    m.world.ledger.active.length = m.world.running + m.world.lingering := by
  have orderly := arises.valid.orderly
  have listed : m.world.ledger.active.Perm (m.world.ledger.admitted.filter m.world.ledger.isActive) := by
    refine (List.perm_ext_iff_of_nodup orderly.nodup (arises.admitted_nodup.filter _)).mpr fun id => ?_
    rw [List.mem_filter, Ledger.mem_admitted, ← Ledger.isActive_iff]
    exact ⟨fun active => ⟨orderly.recorded id active, active⟩, And.right⟩
  have counted (p : String → Bool) : m.world.ledger.active.countP p =
      m.world.ledger.admitted.countP fun id => p id && m.world.ledger.isActive id := by
    rw [listed.countP_eq, List.countP_filter]
  rw [List.length_eq_countP_add_countP fun id => m.world.ledger.status? id = some .running, counted, counted]
  refine congrArg₂ _ (List.countP_congr fun id _ => ?_) (List.countP_congr fun id _ => ?_)
  · simpa using arises.active_of_running
  · rw [Bool.and_eq_true, decide_eq_true_iff, decide_eq_true_iff, decide_eq_true_iff]
    exact and_comm

end Machine.Arises

/-! ## Executions that are about to be retired -/

/-- Who has only to retire an execution does just that. -/
theorem Engine.Act.of_closing (act : e.Act d w d' w') (drives : d.drives = some id) (closing : d.phase = .closing) :
    w' = e.retire id w := by
  have unsteady (steady : d.Steady) : False := by cases steady.phase.symm.trans closing
  cases act with
  | retire other drives' =>
    obtain rfl : id = other := Option.some.inj (drives.symm.trans drives')
    rfl
  | keep _ _ phase => cases phase.symm.trans closing
  | begin _ phase => rcases phase with phase | phase <;> cases phase.symm.trans closing
  | interrupt _ _ _ phase => rcases phase with phase | phase <;> cases phase.symm.trans closing
  | stir steady | note steady | amend steady | enroll steady | finish steady | withdraw steady | opens steady
  | takes steady | gather steady | clear steady => exact (unsteady steady).elim

theorem Duty.Hires.not_closing {child : TaskId} {given : Duty} (hires : d.Hires child given d') :
    d.phase ≠ .closing := by
  intro closing
  cases hires with
  | aide steady => cases steady.phase.symm.trans closing
  | driver _ phase | branch _ _ phase => cases phase.symm.trans closing

/-- A retired execution is not active. -/
theorem Engine.isActive_retire (e : Engine σ) (orderly : w.ledger.Orderly) (id : String) :
    (e.retire id w).ledger.isActive id = false := by
  unfold retire
  split
  · next active => exact Ledger.isActive_retire_self orderly.nodup _ active
  · next inactive => exact Bool.eq_false_iff.mpr inactive

/-- A task has only to retire the execution. -/
def Closing (roster : Roster) (id : String) : Prop :=
  ∃ t d, roster t = some d ∧ d.drives = some id ∧ d.phase = .closing

/-- A task that has only to retire an execution does it, before anything else becomes of its duty. -/
theorem Engine.Shift.closing (shift : e.Shift roster w roster' w') (closing : Closing roster id) :
    w'.ledger.isActive id = false ∨ Closing roster' id := by
  obtain ⟨s, d, found, drives, phase⟩ := closing
  have stays (same : roster' s = roster s) : Closing roster' id := ⟨s, d, same.trans found, drives, phase⟩
  cases shift with
  | act task d₁ d' found₁ ledger _ act =>
    by_cases same : s = task
    · subst same
      obtain rfl : d₁ = d := Option.some.inj (found₁.symm.trans found)
      rw [act.of_closing drives phase]
      exact .inl (e.isActive_retire ledger id)
    · exact .inr (stays (Roster.put_other _ _ same))
  | hire task d₁ given d' found₁ _ new hires =>
    have old : s ≠ w.agenda.created := by
      rintro rfl
      cases new.symm.trans found
    have different : s ≠ task := by
      rintro rfl
      obtain rfl : d₁ = d := Option.some.inj (found₁.symm.trans found)
      exact hires.not_closing phase
    exact .inr (stays ((Roster.put_other _ _ old).trans (Roster.put_other _ _ different)))
  | visit new =>
    refine .inr (stays (Roster.put_other _ _ ?_))
    rintro rfl
    cases new.symm.trans found
  | rest task d₁ found₁ =>
    by_cases same : s = task
    · subst same
      obtain rfl : d₁ = d := Option.some.inj (found₁.symm.trans found)
      exact .inr ⟨s, d₁.rested, Roster.put_self .., drives, phase⟩
    · exact .inr (stays (Roster.put_other _ _ same))
  | quit task d₁ found₁ spent =>
    refine .inr (stays (Roster.drop_other _ ?_))
    rintro rfl
    obtain rfl : d₁ = d := Option.some.inj (found₁.symm.trans found)
    exact spent.not_closing phase
  | pass | forget => exact .inr (stays rfl)

/-- Whoever was cancelled and is active all the same is about to be retired, unless the time of its end could
not be told. -/
def Cut (roster : Roster) (w : World σ) (id : String) : Prop :=
  w.ledger.isActive id = true → w.ledger.status? id = some .cancelled → .untimed id ∈ w.journal ∨ Closing roster id

theorem Engine.Shift.cut (shift : e.Shift roster w roster' w') (staffed : Staffed roster w)
    (ledger : w.ledger.Orderly) (cut : Cut roster w id) : Cut roster' w' id := by
  intro active cancelled
  have stays {new : List Happening} (journal : w'.journal = new ++ w.journal) (same : w.SameFate w' id) :
      .untimed id ∈ w'.journal ∨ Closing roster' id := by
    rcases cut (same.active.symm.trans active) (same.status.symm.trans cancelled) with untimed | closing
    · exact .inl (journal ▸ List.mem_append_right new untimed)
    · rcases shift.closing closing with inactive | closing
      · cases inactive.symm.trans active
      · exact .inr closing
  obtain ⟨new, journal, same | ⟨t, d, d', _, found', fate⟩⟩ := shift.fate staffed ledger id
  · exact stays journal same
  cases fate with
  | same same => exact stays journal same
  | admitted _ running => cases running.symm.trans cancelled
  | ended _ status => exact absurd cancelled status
  | cut _ drives closing => exact .inr ⟨t, d', found', drives, closing⟩
  | untimed told => exact .inl told
  | retired _ inactive | withdrawn _ inactive => cases inactive.symm.trans active

namespace Machine

/-- The next step of the machine is that the execution is retired. -/
def Retires (e : Engine σ) (host : Host σ) (m : Machine σ) (id : String) : Prop :=
  ∃ m', m.step? (host.service e) = some m' ∧ m'.world = e.retire id m.world

theorem Manned.retires (manned : m.Manned e roster) (arises : Arises e host m) (closing : Closing roster id) :
    m.Retires e host id := by
  obtain ⟨t, d, found, drives, phase⟩ := closing
  obtain ⟨p, runs⟩ := manned.closing t d found phase
  obtain ⟨_, _, d₁, found₁, minds⟩ := manned.running t p runs
  obtain rfl : d₁ = d := Option.some.inj (found₁.symm.trans found)
  refine ⟨_, step?_of_running runs, ?_⟩
  cases p with
  | done => exact absurd phase minds.not_closing
  | act f k =>
    have fit : d₁.Fit m.world := ⟨manned.orderly, fun id x known => (arises.valid.sound id x known).self,
      fun id => manned.staffed.recorded found⟩
    obtain ⟨d', act, _⟩ := minds m.world fit
    exact act.of_closing drives phase
  | call => cases minds.1.phase.symm.trans phase
  | spawn body k =>
    obtain ⟨_, _, hires, _⟩ := minds 0
    exact absurd phase hires.not_closing
  | wait => cases minds.1.phase.symm.trans phase

/-- What lingers has ended and its end was told, or nobody could tell how long it took, or else it is retired
at once. -/
theorem Arises.lingers (arises : Arises e host m) (lingers : m.world.Lingers id) :
    0 < endings id m.world.journal ∨ .untimed id ∈ m.world.journal ∨ m.Retires e host id := by
  obtain ⟨active, notRunning⟩ := lingers
  have holds : ∃ roster, m.Manned e roster ∧ Cut roster m.world id := by
    refine arises.holds (I := fun roster m => Cut roster m.world id) (fun m pristine active => ?_)
      fun roster m roster' m' arises manned cut _ shift _ => shift.cut manned.staffed arises.valid.orderly cut
    rw [Ledger.isActive, pristine.active] at active
    cases active
  obtain ⟨roster, manned, cut⟩ := holds
  obtain ⟨x, found⟩ : ∃ x, m.world.ledger.record? id = some x := arises.valid.orderly.recorded id active
  have status : m.world.ledger.status? id = some x.status := by rw [Ledger.status?, found, Option.map_some]
  by_cases cancelled : x.status = .cancelled
  · exact .inr ((cut active (cancelled ▸ status)).imp_right (manned.retires arises))
  · rcases (arises.valid.sound id x found).told (fun running => notRunning (running ▸ status)) cancelled with
      told | untimed
    · exact .inl told
    · exact .inr (.inl untimed)

/-- An execution whose end was told and that is not retired lingers. -/
theorem Arises.lingers_of_told (arises : Arises e host m) (told : 0 < endings id m.world.journal)
    (kept : retirements id m.world.journal = 0) : m.world.Lingers id := by
  cases found : m.world.ledger.record? id with
  | none =>
    obtain ⟨h, member, ending⟩ := List.countP_pos_iff.mp told
    have quiet := arises.valid.silent id found h member
    rw [Happening.concerns_of_isEnding ending] at quiet
    cases quiet
  | some x =>
    refine ⟨?_, fun running => ?_⟩
    · by_contra inactive
      have once := arises.retired.once id (Ledger.mem_admitted.mpr ⟨x, found⟩) (Bool.eq_false_iff.mpr inactive)
      cases kept.symm.trans once
    · rw [Ledger.status?, found] at running
      have untold := (arises.valid.sound id x found).running (Option.some.inj running)
      exact Nat.lt_irrefl 0 (Nat.lt_of_lt_of_eq told untold)

end Machine

/-! ## Submissions -/

namespace Engine

/-- What a submission comes to when its admission does. -/
def submitted (workflow : Workflow) : Except Fault String → Except Interrupt (Workflow × String)
  | .ok id => .ok (workflow, id)
  | .error fault => .error (.fault fault)

variable {workflow options : Value} {definition : Workflow} {settings : Options} {limit : Value}

theorem submitted_fault_iff (definition : Workflow) {r : Except Fault String} {fault : Fault} :
    submitted definition r = .error (.fault fault) ↔ r = .error fault := by
  cases r <;> simp [submitted]

/-- A submission that can be read is decided by its admission, before anybody else has a turn. -/
theorem submit_ahead (e : Engine σ) (reads : (readWorkflow workflow w).1 = .ok definition)
    (chooses : Options.read options = .ok settings) : (ExceptT.run (e.submit workflow options)).ahead w =
      let r := e.enroll definition settings (readWorkflow workflow w).2
      (.done (submitted definition r.1), r.2) := by
  rw [submit, Attempt.ahead_update_bind, reads, chooses]
  change Routine.ahead (Routine.act _ _) _ = _
  rw [Routine.ahead]
  obtain ⟨outcome, w'⟩ := e.enroll definition settings (readWorkflow workflow w).2
  cases outcome <;> rfl

/-- The only fault of a comparison is that there is nothing to compare. -/
theorem reaches_ne_atCapacity (v v' : Value) : v.reaches v' ≠ .error (.atCapacity limit) := by
  unfold Value.reaches
  split <;> simp

/-- An admission is refused for want of room if and only if as many executions are active as may. -/
theorem enroll_refuses_iff (mode : ∀ limit, (e.currentMode w.memory).1 ≠ .error (.atCapacity limit)) :
    (e.enroll definition settings w).1 = .error (.atCapacity e.config.maxConcurrent) ↔
      (Value.int w.ledger.active.length).reaches e.config.maxConcurrent = .ok true := by
  unfold enroll
  split
  · next fault failed =>
    rw [failed]
    refine iff_of_false (fun same => ?_) (by simp)
    cases same
    exact absurd failed (reaches_ne_atCapacity _ _)
  · next full => simp [full]
  · next room =>
    rw [room]
    refine iff_of_false ?_ (by simp)
    split
    · next fault memory unknown =>
      intro same
      cases same
      exact mode _ (congrArg Prod.fst unknown)
    · simp only
      split
      · next fault failed =>
        intro same
        cases same
        unfold Value.mapping at failed
        split at failed <;> cases failed
      · simp

/-- The same for a submission. -/
theorem submit_refused_iff (reads : (readWorkflow workflow w).1 = .ok definition)
    (chooses : Options.read options = .ok settings)
    (mode : ∀ limit, (e.currentMode w.memory).1 ≠ .error (.atCapacity limit)) :
    ((ExceptT.run (e.submit workflow options)).ahead w).1 =
        .done (.error (.fault (.atCapacity e.config.maxConcurrent))) ↔
      (Value.int w.ledger.active.length).reaches e.config.maxConcurrent = .ok true := by
  have admission : (e.enroll definition settings (readWorkflow workflow w).2).1 =
      .error (.atCapacity e.config.maxConcurrent) ↔
        (Value.int w.ledger.active.length).reaches e.config.maxConcurrent = .ok true := enroll_refuses_iff mode
  rw [← admission, ← submitted_fault_iff definition, e.submit_ahead reads chooses]
  exact ⟨Routine.done.inj, congrArg Routine.done⟩

end Engine

/-! ## What is active -/

/-- At any time the active executions are those that run and those that linger. An execution lingers from
the telling of its end until it is retired; nothing else lingers but one that is retired by the very next
step, or whose duration could not be told when it ended. A submission that can be read is refused for want
of room if and only if the executions that run and those that linger together are as many as may be active. -/
theorem active_runs_or_lingers (arises : Arises e host m) :
    (∀ id, m.world.ledger.status? id = some .running → m.world.ledger.isActive id = true) ∧
    (∀ id, m.world.Lingers id →
      0 < endings id m.world.journal ∨ .untimed id ∈ m.world.journal ∨ m.Retires e host id) ∧
    (∀ id, 0 < endings id m.world.journal → retirements id m.world.journal = 0 → m.world.Lingers id) ∧
    ∀ (workflow options : Value) (definition : Workflow) (settings : Options),
      (Engine.readWorkflow workflow m.world).1 = .ok definition → Options.read options = .ok settings →
      (∀ limit, (e.currentMode m.world.memory).1 ≠ .error (.atCapacity limit)) →
      (((ExceptT.run (e.submit workflow options)).ahead m.world).1 =
          .done (.error (.fault (.atCapacity e.config.maxConcurrent))) ↔
        (Value.int ↑(m.world.running + m.world.lingering)).reaches e.config.maxConcurrent = .ok true) := by
  refine ⟨fun id => arises.active_of_running, fun id => arises.lingers, fun id => arises.lingers_of_told,
    fun workflow options definition settings reads chooses mode => ?_⟩
  rw [← arises.active_length]
  exact Engine.submit_refused_iff reads chooses mode

/-- An engine with room for one execution. -/
def narrowEngine : Engine Unit := { openEngine with config := { maxConcurrent := .int 1 } }

/-- Observers that start another execution. -/
def startingHost : Host Unit where
  tool _ _ := .done (.ok .null)
  observer _ _ := .ask (.start emptyWorkflow .null) fun _ => .done (.ok ())

/-- The narrow engine when the observer of the completion of its execution is about to be called, and steps
after that. -/
def narrowCompletion (steps : Nat) : Machine Unit :=
  ((Machine.blank () (({} : Bus).subscribe .executionCompleted "watch")).executing narrowEngine startingHost
    emptyWorkflow .null 5).settle (startingHost.service narrowEngine) steps

theorem narrowCompletion_arises (steps : Nat) : Arises narrowEngine startingHost (narrowCompletion steps) :=
  (arises_executing ..).run (run_settle steps _)

/-- The first task is about to call an observer since the execution has completed. -/
def Machine.tellsCompletion (m : Machine Unit) (id : String) : Bool :=
  match m.running with
  | some (task, .call (.observer _ (.completed other)) _) => task == 0 && other == id
  | _ => false

/-- The call was refused for want of room for more executions than that. -/
def refusedAt (limit : Int) : Except Interrupt String → Bool
  | .error (.fault (.atCapacity (.int n))) => n == limit
  | _ => false

/-- The observer of the completion of the only execution asks for another one. No execution runs, and there is
room for one, but it is refused. -/
theorem completion_leaves_no_room : ∃ callback k m', Arises narrowEngine startingHost (narrowCompletion 0) ∧
    (narrowCompletion 0).running =
      some (0, .call (.observer callback (.completed (Engine.executionId 1))) k) ∧
    (narrowCompletion 0).step? (startingHost.service narrowEngine) = some (narrowCompletion 1) ∧
    (narrowCompletion 1).Returns narrowEngine startingHost 0
      (ExceptT.run (narrowEngine.start emptyWorkflow .null)) m' (.error (.fault (.atCapacity (.int 1)))) ∧
    (narrowCompletion 1).world.running = 0 ∧
    (narrowCompletion 1).world.ledger.active = [Engine.executionId 1] := by
  have telling : (narrowCompletion 0).tellsCompletion (Engine.executionId 1) = true := by decide +kernel
  unfold tellsCompletion at telling
  split at telling
  · next task callback other k runs =>
    obtain ⟨first, same⟩ := Bool.and_eq_true_iff.mp telling
    obtain rfl := beq_iff_eq.mp first
    obtain rfl := beq_iff_eq.mp same
    have taken : (narrowCompletion 0).step? (startingHost.service narrowEngine) = some (narrowCompletion 1) := by
      change _ = some ((narrowCompletion 0).settle (startingHost.service narrowEngine) 1)
      rw [settle, step?_of_running runs]
      rfl
    have begins : (narrowCompletion 1).running = some (0, (ExceptT.run (narrowEngine.start emptyWorkflow .null)).bind
        fun _ => k (.ok .null)) := by
      rw [step?_of_running runs] at taken
      rw [← Option.some.inj taken, advance, Host.service, Routine.bind_bind]
      change some (_, Routine.bind (Routine.bind _ _) _) = _
      rw [Routine.bind_bind]
      rfl
    obtain ⟨m', outcome, returns, _, _, refused⟩ := exists_returns 20 (fun _ => refusedAt 1)
      (narrowCompletion_arises 1) begins (by decide +kernel)
    unfold refusedAt at refused
    split at refused
    · next limit =>
      obtain rfl := beq_iff_eq.mp refused
      exact ⟨callback, k, m', narrowCompletion_arises 0, runs, taken, returns, by decide +kernel, by decide +kernel⟩
    · cases refused
  · cases telling

/-- The execution whose completion was told lingers, and leaves no room for another one. -/
theorem narrowCompletion_lingers : (narrowCompletion 0).world.Lingers (Engine.executionId 1) ∧
    ((ExceptT.run (narrowEngine.submit emptyWorkflow .null)).ahead (narrowCompletion 0).world).1 =
      .done (.error (.fault (.atCapacity (.int 1)))) := by
  obtain ⟨_, _, lingers, refuses⟩ := active_runs_or_lingers (narrowCompletion_arises 0)
  have readable : (Engine.readWorkflow emptyWorkflow (narrowCompletion 0).world).1.isOk = true := by decide +kernel
  obtain ⟨definition, reads⟩ : ∃ definition,
      (Engine.readWorkflow emptyWorkflow (narrowCompletion 0).world).1 = .ok definition := by
    cases outcome : (Engine.readWorkflow emptyWorkflow (narrowCompletion 0).world).1 with
    | error fault =>
      rw [outcome] at readable
      cases readable
    | ok definition => exact ⟨definition, rfl⟩
  have counted : (narrowCompletion 0).world.running + (narrowCompletion 0).world.lingering = 1 := by
    decide +kernel
  refine ⟨lingers _ (by decide +kernel) (by decide +kernel), ?_⟩
  refine (refuses _ _ definition {} reads rfl (fun _ => by simp [narrowEngine, openEngine, Engine.currentMode])).mpr ?_
  rw [counted]
  rfl

/-! ## The cap -/

/-- An integer below another one does not reach it. -/
theorem Value.lt_of_not_reaches {v : Value} {n limit : Int} (integer : v.integer? = some limit)
    (room : (Value.int n).reaches v = .ok false) : n < limit := by
  have compared : (Value.int n).compareNumbers? v = some (some (compare n limit)) := by
    cases v with
    | bool | int => exact Option.some.inj integer ▸ rfl
    | _ => cases integer
  rw [Value.reaches, compared] at room
  by_contra above
  rcases Int.lt_or_eq_of_le (Int.not_lt.mp above) with above | rfl
  · simp [Int.compare_eq_gt.mpr above] at room
  · simp at room

/-- The active executions are as many as may be, at most. -/
def WithinCap (e : Engine σ) (w : World σ) : Prop :=
  ∀ limit, e.config.maxConcurrent.integer? = some limit → (w.ledger.active.length : Int) ≤ max 0 limit

theorem WithinCap.of_le (within : WithinCap e w) (fewer : w'.ledger.active.length ≤ w.ledger.active.length) :
    WithinCap e w' := by
  intro limit integer
  have bound := within limit integer
  omega

theorem Ledger.length_retire_le (l : Ledger) (limit : Option Nat) (id : String) :
    (l.retire limit id).active.length ≤ l.active.length := by
  unfold retire
  split
  · exact List.length_erase_le
  · exact Nat.le_refl _

/-- Only an admission makes more executions active, and it finds room for one more. -/
theorem Engine.Affair.withinCap (affair : e.Affair d w d' w') (within : WithinCap e w) : WithinCap e w' := by
  cases affair with
  | admits _ id _ _ x _ _ ledger _ room =>
    intro limit integer
    have below := Value.lt_of_not_reaches integer room
    have longer : w'.ledger.active.length = w.ledger.active.length + 1 := by
      rw [ledger]
      exact List.length_append
    omega
  | plain _ ledger => exact within.of_le (Nat.le_of_eq (congrArg _ ledger.active))
  | begins _ _ _ ledger => exact within.of_le (Nat.le_of_eq (congrArg _ (congrArg _ ledger)))
  | ends _ _ _ _ _ ledger | cuts _ _ _ _ _ ledger | untimes _ _ _ _ ledger | clears ledger =>
    exact within.of_le (Nat.le_of_eq (congrArg (·.active.length) ledger))
  | retires _ _ _ world =>
    rcases world with ⟨_, ledger, _⟩ | ⟨_, ledger, _⟩
    · exact within.of_le (ledger ▸ Ledger.length_retire_le _ _ _)
    · exact within.of_le (Nat.le_of_eq (congrArg (·.active.length) ledger))
  | withdraws _ _ _ _ _ ledger => exact within.of_le (ledger ▸ Ledger.length_retire_le _ _ _)

/-- Whatever is asked of an engine and in whatever order its tasks take their turns, all that run are active,
and never more than the cap are active at a time. -/
theorem active_within_cap (arises : Arises e host m) :
    (∀ id, m.world.ledger.status? id = some .running → m.world.ledger.isActive id = true) ∧
    ∀ limit, e.config.maxConcurrent.integer? = some limit →
      (m.world.ledger.active.length : Int) ≤ max 0 limit := by
  refine ⟨fun id => arises.active_of_running, ?_⟩
  refine arises.affairs (I := WithinCap e) (fun m pristine limit _ => ?_)
    (fun _ within affair => affair.withinCap within) fun within ledger _ =>
      within.of_le (Nat.le_of_eq (congrArg (·.active.length) ledger))
  rw [pristine.active]
  exact Int.le_max_left 0 limit

/-- The narrow engine while its only execution pauses. -/
def narrowPause : Machine Unit :=
  (Machine.blank () {}).executing narrowEngine idleHost pausingWorkflow .null 20

/-- The execution that pauses runs and is the only active one. -/
theorem narrowPause_within_cap :
    narrowPause.world.ledger.status? (Engine.executionId 1) = some .running ∧
    narrowPause.world.ledger.isActive (Engine.executionId 1) = true ∧
    (narrowPause.world.ledger.active.length : Int) ≤ max 0 1 := by
  obtain ⟨active, cap⟩ := active_within_cap (arises_executing () {} pausingWorkflow .null 20 :
    Arises narrowEngine idleHost narrowPause)
  have running : narrowPause.world.ledger.status? (Engine.executionId 1) = some .running := by decide +kernel
  exact ⟨running, active _ running, cap 1 rfl⟩

end Runbook
