import Runbook.Proofs.Hearing

/-! # The lifecycle of an execution, as observers are told of it

The events of an execution follow one grammar, and observers hear them one after the other: an event that tells
how far the execution has come has been heard by all its callbacks before the emission of the next one begins.
-/

namespace Runbook

open Machine

variable {σ : Type} {e : Engine σ} {host : Host σ} {m m' m₁ m₂ : Machine σ} {id : String} {event next : Event}
  {h : Happening} {journal journal' new : List Happening} {before more : List Event}

/-! ## Emissions and silence -/

theorem farewells_of_append (none : farewells id (new ++ journal) = 0) :
    farewells id journal = 0 ∧ ∀ h ∈ new, h.isFarewell id = false := by
  rw [farewells, List.countP_append] at none
  refine ⟨Nat.eq_zero_of_add_eq_zero_left none, fun h member => ?_⟩
  simpa using List.countP_eq_zero.mp (Nat.eq_zero_of_add_eq_zero_right none) h member

theorem emissions_append (quiet : ∀ h ∈ new, h.emission? id = none) :
    emissions id (new ++ journal) = emissions id journal := by
  induction new with
  | nil => rfl
  | cons h rest ih =>
    rw [List.cons_append, emissions_cons_none (quiet h List.mem_cons_self)]
    exact ih fun other member => quiet other (List.mem_cons_of_mem h member)

/-- What is beside an execution that is not cancelled emits nothing for it. -/
theorem Happening.Beside.emission? (beside : h.Beside id) (uncancelled : h.isFarewell id = false) :
    h.emission? id = none := by
  obtain ⟨_, ⟨aside, _⟩ | ⟨index, _, told, _⟩⟩ := emission?_of_still beside.1 uncancelled
  · exact aside
  · exact absurd told (beside.2 index)

/-- In silence nothing is emitted. -/
theorem Silence.emissions (silence : Silence id journal journal') (uncancelled : farewells id journal' = 0) :
    emissions id journal' = emissions id journal := by
  obtain ⟨new, rfl, beside⟩ := silence
  exact emissions_append fun h member => (beside h member).emission? ((farewells_of_append uncancelled).2 h member)

theorem Happening.announced_of_emission (emits : h.emission? id = some event) :
    ∃ record, h = .announced event record ∧ event.execution = id := by
  cases h with
  | announced other record =>
    by_cases about : other.execution = id
    · obtain rfl := Option.some.inj ((if_pos about).symm.trans emits)
      exact ⟨record, rfl, about⟩
    · cases (if_neg about).symm.trans emits
  | _ => cases emits

/-! ## Where events are emitted -/

/-- An act emits at most one event of an execution that is not cancelled. -/
theorem Engine.Tale.emission {d d' : Duty} {w w' : World σ} (tale : Engine.Tale d w d' w')
    (uncancelled : farewells id w'.journal = 0) : emissions id w'.journal = emissions id w.journal ∨
      ∃ event record, w'.journal = .announced event record :: w.journal ∧ event.execution = id ∧
        emissions id w'.journal = emissions id w.journal ++ [event] := by
  have one {h : Happening} (journal : w'.journal = h :: w.journal) : emissions id w'.journal = emissions id w.journal ∨
      ∃ event record, w'.journal = .announced event record :: w.journal ∧ event.execution = id ∧
        emissions id w'.journal = emissions id w.journal ++ [event] := by
    rw [journal]
    cases emits : h.emission? id with
    | none => exact .inl (emissions_cons_none emits)
    | some event =>
      obtain ⟨record, rfl, about⟩ := Happening.announced_of_emission emits
      exact .inr ⟨event, record, rfl, about, emissions_cons_some emits⟩
  cases tale with
  | still new journal quiet =>
    left
    rw [journal] at uncancelled ⊢
    refine emissions_append fun h member => ?_
    have beside : h.Beside id := by
      refine ⟨(quiet h member).1 id, fun index told => ?_⟩
      cases (quiet h member).2.symm.trans told
    exact beside.emission? ((farewells_of_append uncancelled).2 h member)
  | notice journal | move journal => exact one journal

namespace Machine

/-- In the step from one machine to the other a task begins to emit an event of an execution. -/
def Emits (e : Engine σ) (host : Host σ) (id : String) (event : Event) (m m' : Machine σ) : Prop :=
  ∃ (t : TaskId) (β : Type) (f : World σ → β × World σ) (k : β → Routine σ Unit) (record : Option Execution),
    m.running = some (t, .act f k) ∧ m' = m.advance (host.service e) t (.act f k) ∧
    m'.world.journal = .announced event record :: m.world.journal ∧ event.execution = id ∧
    emissions id m'.world.journal = emissions id m.world.journal ++ [event]

theorem Emits.step (emits : Emits e host id event m m') : Machine.Step e host (fun _ => False) m m' := by
  obtain ⟨t, β, f, k, record, runs, rfl, _⟩ := emits
  exact .work (step?_of_running runs)

theorem Emits.told (emits : Emits e host id event m m') :
    event.execution = id ∧ ∃ record, .announced event record ∈ m'.world.journal := by
  obtain ⟨_, _, _, _, record, _, _, journal, about, _⟩ := emits
  exact ⟨about, record, journal ▸ List.mem_cons_self⟩

theorem Emits.emissions (emits : Emits e host id event m m') :
    emissions id m'.world.journal = emissions id m.world.journal ++ [event] := by
  obtain ⟨_, _, _, _, _, _, _, _, _, emitted⟩ := emits
  exact emitted

/-- A step emits at most one event of an execution that is not cancelled. -/
theorem Arises.emits (arises : Arises e host m) (step : Machine.Step e host (fun _ => False) m m')
    (uncancelled : farewells id m'.world.journal = 0) :
    emissions id m'.world.journal = emissions id m.world.journal ∨ ∃ event, Emits e host id event m m' := by
  cases runs : m.running with
  | none => exact .inl (congrArg (emissions id) (step.of_idle runs))
  | some turn =>
    obtain ⟨t, task⟩ := turn
    rcases step.of_running runs with rfl | ⟨_, same⟩
    · rcases advance_journal (host.service e) m t task with same | ⟨β, f, k, rfl, _⟩
      · exact .inl (congrArg (emissions id) same)
      · obtain ⟨_, manned⟩ := arises.manned
        obtain ⟨_, _, d, found, minds⟩ := manned.running t _ runs
        have recorded (other : String) (drives : d.drives = some other) :
            ∃ x, m.world.ledger.record? other = some x := manned.staffed.recorded found drives
        have named (id : String) (x : Execution) (found : m.world.ledger.record? id = some x) : x.id = .text id :=
          (arises.valid.sound id x found).self
        obtain ⟨d', act, _⟩ := minds m.world ⟨manned.orderly, named, recorded⟩
        rcases (act.tale arises.valid.orderly recorded).emission uncancelled with same | ⟨event, record, emitted⟩
        · exact .inl same
        · exact .inr ⟨event, t, β, f, k, record, runs, rfl, emitted⟩
    · exact .inl (congrArg (emissions id) same)

/-- Every event of an execution that is not cancelled was emitted in some step. -/
theorem Arises.emitted (arises : Arises e host m) (uncancelled : farewells id m.world.journal = 0)
    (split : emissions id m.world.journal = before ++ event :: more) :
    ∃ m₀ m₁, Arises e host m₀ ∧ Emits e host id event m₀ m₁ ∧ emissions id m₀.world.journal = before ∧
      Run e host (fun _ => False) m₁ m := by
  obtain ⟨start, pristine, run⟩ := arises
  induction run generalizing more with
  | refl =>
    rw [pristine.journal] at split
    simp [emissions] at split
  | next run step ih =>
    have arises : Arises e host _ := ⟨start, pristine, run⟩
    obtain ⟨new, grown⟩ := arises.reachable.grows host.spares_nothing (.next (.refl _) step)
    have earlier := (farewells_of_append (grown ▸ uncancelled)).1
    rcases arises.emits step uncancelled with same | ⟨last, emits⟩
    · obtain ⟨m₀, m₁, arises₀, emits, first, later⟩ := ih earlier (same ▸ split)
      exact ⟨m₀, m₁, arises₀, emits, first, later.next step⟩
    · rw [emits.emissions] at split
      rcases more.eq_nil_or_concat with rfl | ⟨front, final, rfl⟩
      · obtain ⟨first, single⟩ := List.append_inj' split rfl
        obtain rfl := List.singleton_inj.mp single
        exact ⟨_, _, arises, emits, first, .refl _⟩
      · have split' : _ ++ [last] = (before ++ event :: front) ++ [final] := split.trans (by simp)
        obtain ⟨m₀, m₁, arises₀, emits, first, later⟩ := ih earlier (List.append_inj' split' rfl).1
        exact ⟨m₀, m₁, arises₀, emits, first, later.next step⟩

/-! ## Callbacks -/

/-- The emission of the event began in a machine, after those before it, and since then all callbacks that were
registered for it have returned, before the emission of any other event of the execution began. -/
def Heard (e : Engine σ) (host : Host σ) (id : String) (before : List Event) (event : Event) (m : Machine σ) : Prop :=
  ∃ (m₀ m₁ : Machine σ) (t : TaskId) (rest : Except Interrupt Unit → Routine σ Unit),
    Arises e host m₀ ∧ emissions id m₀.world.journal = before ++ [event] ∧
    Proceeds e host t rest m₀ (ExceptT.run (deliver event (m₀.world.bus.callbacks event.kind))) m₁
      (.inl (.done (.ok ()))) ∧
    emissions id m₁.world.journal = before ++ [event] ∧ Run e host (fun _ => False) m₁ m

/-- After the step that emits an event of an execution that is to go on, the task delivers it. -/
theorem Emits.delivers (emits : Emits e host id event m m') (arises : Arises e host m)
    (leads : ∀ record, (Happening.announced event record).Leads) :
    ∃ (t : TaskId) (rest : Except Interrupt Unit → Routine σ Unit), m'.running =
      some (t, (ExceptT.run (deliver event (m'.world.bus.callbacks event.kind))).bind rest) := by
  obtain ⟨t, β, f, k, record, runs, rfl, journal, _, _⟩ := emits
  rcases (arises.delivers.running t _ runs).1 m.world with ⟨new, journal', known⟩ | ⟨other, rest, world, follows⟩
  · have single : new ++ m.world.journal = [.announced event record] ++ m.world.journal := journal'.symm.trans journal
    obtain rfl := List.append_cancel_right single
    exact absurd (leads record) (known _ (List.mem_singleton_self _))
  · have same : Happening.announced other _ :: m.world.journal = .announced event record :: m.world.journal :=
      (congrArg World.journal world).symm.trans journal
    obtain ⟨⟨rfl, _⟩, _⟩ := same
    refine ⟨t, rest, ?_⟩
    change some (t, k (f m.world).1) = some (t, (ExceptT.run (deliver event ((f m.world).2.bus.callbacks _))).bind rest)
    rw [follows, world]
    rfl

variable {x : Execution}

/-- The end of an execution is followed by nothing. -/
theorem Arises.no_end (arises : Arises e host m) (found : m.world.ledger.record? id = some x)
    (notCancelled : x.status ≠ .cancelled) (split : emissions id m.world.journal = before ++ event :: next :: more) :
    ¬event.IsEnd id := by
  intro ends
  obtain ⟨l, _, fits⟩ := arises.fits found notCancelled
  obtain ⟨blocks, events, known⟩ := fits.of_end ends (by simp [split])
  have same : before ++ event :: next :: more = .started id :: blocks ++ [event] := split.symm.trans events
  have earlier : event ∈ .started id :: blocks := by
    have front := congrArg List.dropLast same
    rw [List.dropLast_concat] at front
    simp [← front, List.dropLast_append_of_ne_nil]
  rcases List.mem_cons.mp earlier with rfl | member
  · simp [Event.IsEnd] at ends
  · exact known.no_end member ends

/-- An event that is followed by another one, and is no notice of a manual step, tells how far the execution has
come. -/
theorem Arises.leads (arises : Arises e host m) (found : m.world.ledger.record? id = some x)
    (notCancelled : x.status ≠ .cancelled) (split : emissions id m.world.journal = before ++ event :: next :: more)
    (about : event.execution = id) {record : Option Execution} (told : .announced event record ∈ m.world.journal)
    (own : ∀ index, ¬event.IsNotice id index) :
    (∀ record, (Happening.announced event record).Leads) ∧ ∃ move, event.move? = some move := by
  have final := arises.no_end found notCancelled split
  subst about
  cases event with
  | started | stepStarted | stepCompleted | stepFailed => exact ⟨fun _ => trivial, _, rfl⟩
  | manual execution body index instructions token => exact absurd ⟨body, instructions, token, rfl⟩ (own index)
  | completed => exact absurd (.inl rfl) final
  | failed => exact absurd (.inr rfl) final
  | cancelled execution =>
    have sound := arises.valid.sound _ x found
    have none := (sound.untold (sound.notRequested notCancelled)).2
    have aside := List.countP_eq_zero.mp none _ told
    simp [Happening.isFarewell, Event.execution] at aside

/-- Whatever an execution emits that is not cancelled, the events that tell how far it has come are heard before the
next one is emitted. -/
theorem Arises.heard (arises : Arises e host m) (found : m.world.ledger.record? id = some x)
    (notCancelled : x.status ≠ .cancelled) (split : emissions id m.world.journal = before ++ event :: next :: more)
    (own : ∀ index, ¬event.IsNotice id index) : Heard e host id before event m := by
  have sound := arises.valid.sound id x found
  have uncancelled : farewells id m.world.journal = 0 := (sound.untold (sound.notRequested notCancelled)).2
  obtain ⟨m₀, m₁, arises₀, emits, first, later⟩ := arises.emitted uncancelled split
  obtain ⟨about, record, told⟩ := emits.told
  have arises₁ := arises₀.run (.next (.refl m₀) emits.step)
  obtain ⟨new, grown⟩ := arises₁.reachable.grows host.spares_nothing later
  obtain ⟨leads, move, moves⟩ := arises.leads found notCancelled split about (grown ▸ List.mem_append_right _ told) own
  obtain ⟨t, rest, runs⟩ := emits.delivers arises₀ leads
  have emitted : emissions id m₁.world.journal = before ++ [event] := emits.emissions.trans (congrArg (· ++ _) first)
  subst about
  rcases arises₁.hears runs moves later with silence | ⟨m₂, proceeds, silence, last⟩
  · -- If nothing were told any more, there would be no next event.
    have same := (silence.emissions uncancelled).symm.trans split
    rw [emitted] at same
    simp at same
  · have arises₂ := arises₁.run proceeds.run
    obtain ⟨new, grown⟩ := arises₂.reachable.grows host.spares_nothing last
    have earlier := (farewells_of_append (grown ▸ uncancelled)).1
    exact ⟨m₁, m₂, t, rest, arises₁, emitted, proceeds, (silence.emissions earlier).trans emitted, last⟩

variable {workflow : Workflow} {options : Options}

/-- The lifecycle of an execution that is not cancelled: when it has ended, its events are exactly those that the
grammar allows for its results and its status, and at any time an event that tells how far it has come has been
heard by all its callbacks before the emission of the next event begins. -/
theorem events_ordered (arises : Arises e host m) (admitted : .admitted id workflow options ∈ m.world.journal)
    (found : m.world.ledger.record? id = some x) (notCancelled : x.status ≠ .cancelled) :
    (x.status ≠ .running → .untimed id ∉ m.world.journal →
      IsLifecycle id x.results x.status (emissions id m.world.journal)) ∧
    ∀ before event next more, emissions id m.world.journal = before ++ event :: next :: more →
      (∀ index, ¬event.IsNotice id index) → Heard e host id before event m :=
  ⟨fun ended timed => arises.lifecycle admitted found ended notCancelled timed,
    fun _ _ _ _ split own => arises.heard found notCancelled split own⟩

end Machine

/-- One observer takes its time, and all others fail. -/
def slowObservers : Host Unit where
  tool _ _ := .done (.ok .null)
  observer callback _ :=
    if callback = "slow" then .ask (.pause 0) fun _ => .done (.ok ())
    else .done (.error (.fault (.invalid "not heard")))

/-- The machine after an execution whose first step is two manual steps side by side and whose second step failed,
with observers for everything. -/
def observed : Machine Unit :=
  let manual := Value.record [("type", .text "manual"), ("instructions", .text "look")]
  let workflow := Value.record [("id", .text "o"), ("steps", .list [
    Value.record [("type", .text "parallel"), ("steps", .list [manual, manual])],
    Value.record [("type", .text "loop"), ("items", .null), ("step", manual)]])]
  let kinds : List EventKind := [.executionStarted, .stepStarted, .manualStepRequired, .stepCompleted, .stepFailed]
  let bus : Bus := { registrations := kinds.flatMap fun kind => [(kind, "slow"), (kind, "deaf")] }
  (Machine.blank () bus).executing openEngine slowObservers workflow .null 200

/-- All observers of the beginning of the first step had heard of it before they were told of its manual steps. -/
theorem observed_ordered : ∃ workflow options x started first more,
    .admitted (Engine.executionId 1) workflow options ∈ observed.world.journal ∧
    observed.world.ledger.record? (Engine.executionId 1) = some x ∧ x.status = .failed ∧
    emissions (Engine.executionId 1) observed.world.journal = started :: first :: more ∧
    first.kind = .stepStarted ∧ more.map Event.kind = [.manualStepRequired, .manualStepRequired, .stepCompleted,
      .stepStarted, .stepFailed, .executionCompleted] ∧
    IsLifecycle (Engine.executionId 1) x.results x.status (started :: first :: more) ∧
    Heard openEngine slowObservers (Engine.executionId 1) [started] first observed := by
  have admission : observed.world.journal.findSome? (Happening.admission? fun id _ _ => id) =
      some (Engine.executionId 1) := by decide +kernel
  obtain ⟨_, workflow, options, told, rfl⟩ := Happening.exists_admitted _ admission
  have record : (observed.world.ledger.record? (Engine.executionId 1)).map (·.status) = some .failed := by
    decide +kernel
  obtain ⟨x, found, failed⟩ := Option.map_eq_some_iff.mp record
  have timed : .untimed (Engine.executionId 1) ∉ observed.world.journal := by
    have none : observed.world.journal.any (· matches .untimed _) = false := by decide +kernel
    exact fun member => Bool.noConfusion ((List.any_eq_true.mpr ⟨_, member, rfl⟩).symm.trans none)
  have kinds : (emissions (Engine.executionId 1) observed.world.journal).map Event.kind = [.executionStarted,
      .stepStarted, .manualStepRequired, .manualStepRequired, .stepCompleted, .stepStarted, .stepFailed,
      .executionCompleted] := by decide +kernel
  obtain ⟨started, rest, split, _, others⟩ := List.map_eq_cons_iff.mp kinds
  obtain ⟨first, more, rfl, kind, others⟩ := List.map_eq_cons_iff.mp others
  obtain ⟨next, last, rfl, _, _⟩ := List.map_eq_cons_iff.mp others
  have arises : Arises openEngine slowObservers observed := arises_executing ..
  obtain ⟨lifecycle, heard⟩ := events_ordered arises told found (by simp [failed])
  have own : ∀ index, ¬first.IsNotice (Engine.executionId 1) index := by
    rintro index ⟨body, instructions, token, rfl⟩
    cases kind
  exact ⟨workflow, options, x, started, first, next :: last, told, found, failed, split, kind, others,
    split ▸ lifecycle (by simp [failed]) timed, heard [started] first next last split own⟩

end Runbook
