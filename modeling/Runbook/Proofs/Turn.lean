import Runbook.Proofs.Conduct

/-! # Turns of an execution

The ways in which the record of one execution can change, each of which leaves the execution sound: it
proceeds, it ends by itself, is cut short or cancelled, it is retired or admitted, or variables are
assigned to it. The driver lets go of an execution when it has ended; whoever else changes it holds on
to whatever it held before.
-/

namespace Runbook

open Happening

variable {σ : Type}

/-- The second record is the first at an end: what it accounts for is the same. -/
structure Closes (x y : Execution) : Prop where
  id : y.id = x.id
  metadata : y.metadata = x.metadata
  totalSteps : y.totalSteps = x.totalSteps
  started : y.started = x.started
  scope : y.scope = x.scope
  results : y.results = x.results
  errors : y.errors = x.errors
  currentStep : y.currentStep = x.currentStep

namespace Closes

variable {e : Engine σ} {id : String} {workflow : Workflow} {options : Options}
  {x y : Execution} {journal : List Happening}

theorem keys (closes : Closes x y) : x.scope.keys <+: y.scope.keys := closes.scope ▸ List.prefix_rfl

theorem replays (closes : Closes x y) (replays : Replays e id workflow options x journal) :
    Replays e id workflow options y journal := by
  constructor
  · rw [closes.errors, closes.results]
    exact replays.errors
  · rw [Execution.mode, closes.metadata, closes.results, closes.scope]
    exact replays.fold

theorem tally (closes : Closes x y) (tally : Tally e workflow options x)
    (summary : y.summary = .null ∨ y.status ≠ .running ∧ y.summary = Engine.summary y.totalSteps y.results) :
    Tally e workflow options y := by
  have timeout : y.timeout = x.timeout := by
    rw [Execution.timeout, Execution.timeout, closes.metadata]
  refine ⟨closes.totalSteps.trans tally.totalSteps, timeout.trans tally.timeout, ?_, ?_, ?_, summary⟩
  · rw [closes.results]
    exact tally.bound
  · rw [closes.results]
    exact tally.sensible
  · rw [closes.results, timeout]
    exact tally.comparable

theorem exhausted (closes : Closes x y) (exhausted : Exhausted workflow x) : Exhausted workflow y := by
  rw [Exhausted, closes.results]
  exact exhausted

theorem overdue (closes : Closes x y) (overdue : Overdue id workflow x journal) :
    Overdue id workflow y journal := by
  simp only [Overdue, Execution.elapsed, Execution.timeout, closes.metadata, closes.results, closes.started]
  exact overdue

theorem stopped (closes : Closes x y) (stopped : Stopped id workflow x journal) :
    Stopped id workflow y journal := by
  refine ⟨?_, stopped.reason.imp closes.exhausted closes.overdue⟩
  rw [closes.currentStep, closes.results]
  exact stopped.cursor

end Closes

namespace Books

variable {e : Engine σ} {spared : String → Prop} {id : String} {b b' : Books}
  {s s' : Hold Execution} {left x y : Execution} {new : List Happening}

/-- Entries that bear on the fate of no execution but one, and tell of no call. -/
def OnlyOf (id : String) (new : List Happening) : Prop :=
  ∀ h ∈ new, h.isCall = false ∧ ∀ other, other ≠ id → h.concerns other = false

/-- What it takes for a changed record to be a turn, beyond what every change of one record fulfils. -/
structure Amends (e : Engine σ) (spared : String → Prop) (id : String) (x y : Execution)
    (active' : Bool) (s : Hold Execution) (b : Books) (new : List Happening) (s' : Hold Execution) :
    Prop where
  only : OnlyOf id new
  sound : Sound e spared id y active' (new ++ b.journal)
  evolves : Evolves spared id x (b.isActive id) y active' (new ++ b.journal)
  others : ∀ other, other ≠ id → s' other = s other
  mine : ∀ left, s' id = some left →
    y.cancelRequested = true ∨ Agree spared id left y ∧ endings id (new ++ b.journal) = 0
  yours : s id = none → s' id = none ∧ ∀ left, x.cancelRequested = true ∨
    Agree spared id left x ∧ endings id b.journal = 0 →
      y.cancelRequested = true ∨ Agree spared id left y ∧ endings id (new ++ b.journal) = 0

/-- What a change of one record makes of the books. -/
structure Replaces (b b' : Books) (id : String) (y : Execution) (active' : Bool) : Prop where
  orderly : b'.ledger.Orderly
  found : b'.record? id = some y
  active : b'.isActive id = active'
  others : ∀ other, other ≠ id → b'.record? other = b.record? other ∧
    b'.isActive other = b.isActive other

theorem Amends.turn {active' : Bool} (amends : Amends e spared id x y active' s b new s')
    (found : b.record? id = some x) (replaces : Replaces b b' id y active')
    (journal : b'.journal = new ++ b.journal) : Turn e spared id y s b b' s' where
  orderly := replaces.orderly
  others other different :=
    ⟨(replaces.others other different).1, (replaces.others other different).2,
      amends.others other different⟩
  journal := ⟨new, journal, amends.only⟩
  found := replaces.found
  sound := by
    rw [replaces.active, journal]
    exact amends.sound
  evolves x' known := by
    rw [found] at known
    obtain rfl := Option.some.inj known
    rw [replaces.active, journal]
    exact amends.evolves
  mine left held := ⟨y, replaces.found, by rw [journal]; exact amends.mine left held⟩
  yours free := by
    obtain ⟨still, keep⟩ := amends.yours free
    refine ⟨?_, .inl still⟩
    rintro left ⟨x', known, borne⟩
    rw [found] at known
    obtain rfl := Option.some.inj known
    exact ⟨y, replaces.found, by rw [journal]; exact keep left borne⟩

/-- A record is amended, and the execution stays active or not, as it was. -/
theorem replaces_amend (f : Execution → Execution) (orderly : b.ledger.Orderly)
    (found : b.record? id = some x) (ledger : b'.ledger = b.ledger.amend id f) :
    Replaces b b' id (f x) (b.isActive id) where
  orderly := ledger ▸ orderly.amend id _
  found := by
    rw [Books.record?, ledger, Ledger.record?_amend_self, show b.ledger.record? id = some x from found]
    rfl
  active := by
    rw [Books.isActive, ledger]
    rfl
  others other different := by
    rw [Books.record?, Books.isActive, ledger]
    exact ⟨Ledger.record?_amend_other _ _ different, rfl⟩

/-- An active execution is retired. -/
theorem replaces_retire (orderly : b.ledger.Orderly) (found : b.record? id = some x)
    (active : b.isActive id = true) {limit : Option Nat} (ledger : b'.ledger = b.ledger.retire limit id) :
    Replaces b b' id x false where
  orderly := ledger ▸ orderly.retire limit active
  found := by
    rw [Books.record?, ledger, Ledger.record?_retire]
    exact found
  active := by
    rw [Books.isActive, ledger]
    exact Ledger.isActive_retire_self orderly.nodup limit active
  others other different := by
    rw [Books.record?, Books.isActive, ledger, Ledger.record?_retire]
    exact ⟨rfl, Ledger.isActive_retire_other limit active different⟩

theorem Replaces.trans {b'' : Books} {active' active'' : Bool} (first : Replaces b b' id x active')
    (second : Replaces b' b'' id y active'') : Replaces b b'' id y active'' where
  orderly := second.orderly
  found := second.found
  active := second.active
  others other different :=
    ⟨(second.others other different).1.trans (first.others other different).1,
      (second.others other different).2.trans (first.others other different).2⟩

/-! ## What ends have in common -/

theorem onlyOf_nil (id : String) : OnlyOf id [] := fun _ member => nomatch member

theorem onlyOf_singleton {h : Happening} (noCall : h.isCall = false)
    (mine : ∀ other, other ≠ id → h.concerns other = false) : OnlyOf id [h] := by
  intro h' member
  obtain rfl := List.mem_singleton.mp member
  exact ⟨noCall, mine⟩

theorem onlyOf_untimed (id : String) : OnlyOf id [.untimed id] :=
  onlyOf_singleton rfl fun other different => by simpa [concerns] using different.symm

section

variable {active active' : Bool} {journal journal' : List Happening} {h : Happening}

/-- A cancelled record fits whatever is told of the cancellation. -/
theorem sound_cancelled (old : Sound e spared id x active journal) (closes : Closes x y)
    (cancelled : y.status = .cancelled) (chronicle : Chronicle id (new ++ journal))
    (noAdmission : ∀ workflow options, .admitted id workflow options ∉ new)
    (withdrawn : .cancelled id ∈ new ++ journal ∨ 0 < farewells id (new ++ journal) →
      active' = false ∧ y.cancelRequested = true) : Sound e spared id y active' (new ++ journal) where
  chronicle := chronicle
  self := closes.id.trans old.self
  enlisted runs := by
    rw [cancelled] at runs
    cases runs
  requested _ := cancelled
  running runs := by
    rw [cancelled] at runs
    cases runs
  told _ again := absurd cancelled again
  withdrawn := withdrawn
  tally again := absurd cancelled again
  replays spares workflow options admitted := by
    replace admitted := (List.mem_append.mp admitted).resolve_left (noAdmission workflow options)
    exact (closes.replays (old.replays spares workflow options admitted)).append new

/-- If no withdrawal has been told of an execution, another entry that is none changes nothing. -/
theorem untold_cons (noWithdrawal : .cancelled id ∉ journal) (noFarewell : farewells id journal = 0)
    (harmless : h ≠ .cancelled id) (noFarewell' : h.isFarewell id = false) :
    ¬(.cancelled id ∈ h :: journal ∨ 0 < farewells id (h :: journal)) := by
  rintro (withdrawal | farewell)
  · rcases List.mem_cons.mp withdrawal with same | old
    · exact harmless same.symm
    · exact noWithdrawal old
  · rw [farewells_cons, noFarewell', noFarewell] at farewell
    cases farewell

/-- A record at its end, which has come to it by itself, fits one more entry that tells of the end. -/
theorem sound_finished (old : Sound e spared id x active journal) (closes : Closes x y)
    (notCancelled : x.status ≠ .cancelled) (notRunning : y.status ≠ .running)
    (requested : y.cancelRequested = x.cancelRequested)
    (summary : y.summary = x.summary ∨ y.summary = Engine.summary y.totalSteps y.results)
    (stopped : ∀ workflow options, .admitted id workflow options ∈ journal → Stopped id workflow x journal ∧
      (.untimed id ∈ h :: journal ∨ Judged id workflow y (h :: journal)))
    (chronicle : Chronicle id (h :: journal))
    (noAdmission : ∀ workflow options, h ≠ .admitted id workflow options)
    (harmless : h ≠ .cancelled id) (noFarewell : h.isFarewell id = false)
    (told : 0 < endings id (h :: journal) ∨ .untimed id ∈ h :: journal) :
    Sound e spared id y active (h :: journal) := by
  have notRequested : x.cancelRequested = false := old.notRequested notCancelled
  obtain ⟨noWithdrawal, noFarewells⟩ := old.untold notRequested
  refine {
    chronicle := chronicle
    self := closes.id.trans old.self
    enlisted := fun runs => absurd runs notRunning
    requested := fun again => by
      rw [requested, notRequested] at again
      cases again
    running := fun runs => absurd runs notRunning
    told := fun _ _ => told
    withdrawn := fun withdrawn =>
      absurd withdrawn (untold_cons noWithdrawal noFarewells harmless noFarewell)
    tally := fun _ workflow options admitted => ?_
    replays := fun spares workflow options admitted => ?_ }
  · replace admitted := (List.mem_cons.mp admitted).resolve_left (noAdmission workflow options).symm
    obtain ⟨tally, _⟩ := old.tally notCancelled workflow options admitted
    obtain ⟨stopped, judged⟩ := stopped workflow options admitted
    refine ⟨closes.tally tally ?_, fun _ => ⟨(closes.stopped stopped).append [h], judged⟩⟩
    rcases summary with same | sums
    · rw [same, closes.totalSteps, closes.results]
      exact tally.summary.imp_right fun ended => ⟨notRunning, ended.2⟩
    · exact .inr ⟨notRunning, sums⟩
  · replace admitted := (List.mem_cons.mp admitted).resolve_left (noAdmission workflow options).symm
    exact (closes.replays (old.replays spares workflow options admitted)).append [h]

/-- What becomes of a record whose cancellation has not been requested. -/
theorem evolves_unrequested (notRequested : x.cancelRequested = false)
    (metadata : y.metadata = x.metadata) (keys : x.scope.keys <+: y.scope.keys)
    (ended : x.status ≠ .running → y.status ≠ .running ∧
      (y.status = x.status ∨ .untimed id ∈ journal' ∨ Belated id journal')) :
    Evolves spared id x active y active' journal' where
  metadata := metadata
  keys := keys
  requested again := by
    rw [notRequested] at again
    cases again
  ended := ended
  frozen again := by
    rw [notRequested] at again
    cases again

end

/-! ## The driver's turns -/

section

variable (old : Sound e spared id x (b.isActive id) b.journal) (held : s id = some left)
include old held

/-- The driver moves a running execution on. -/
theorem amends_proceed (running : x.status = .running) (status : y.status = .running)
    (notRequested : y.cancelRequested = false) (self : y.id = x.id)
    (metadata : y.metadata = x.metadata) (keys : x.scope.keys <+: y.scope.keys)
    (tally : ∀ workflow options, .admitted id workflow options ∈ b.journal → Tally e workflow options y)
    (replays : spared id → ∀ workflow options, .admitted id workflow options ∈ b.journal →
      Replays e id workflow options y b.journal) :
    Amends e spared id x y (b.isActive id) s b [] (s.put id y) where
  only := onlyOf_nil id
  sound := {
    chronicle := old.chronicle
    self := self.trans old.self
    enlisted := fun _ => old.enlisted running
    requested := fun requested => by
      rw [notRequested] at requested
      cases requested
    running := fun _ => old.running running
    told := fun notRunning => absurd status notRunning
    withdrawn := fun cancelled => by
      have requested := old.requested (old.withdrawn cancelled).2
      rw [running] at requested
      cases requested
    tally := fun _ workflow options admitted =>
      ⟨tally workflow options admitted, fun notRunning => absurd status notRunning⟩
    replays := replays }
  evolves := evolves_unrequested (old.notRequested (by rw [running]; decide)) metadata keys
    fun notRunning => absurd running notRunning
  others other different := Hold.put_other s y different
  mine left' held' := by
    rw [Hold.put_self] at held'
    obtain rfl := Option.some.inj held'
    exact .inr ⟨.refl spared id y, old.running running⟩
  yours free := by
    rw [held] at free
    cases free

/-- The driver ends an execution and tells so. -/
theorem amends_told (closes : Closes x y) (notCancelled : x.status ≠ .cancelled)
    (before : x.status = .running ∨ .untimed id ∈ b.journal) (noEnding : endings id b.journal = 0)
    (notRunning : y.status ≠ .running) (notCancelled' : y.status ≠ .cancelled)
    (requested : y.cancelRequested = x.cancelRequested) {event : Event}
    (kind : event = .completed id ∨ event = .failed id)
    (summary : y.summary = x.summary ∨ y.summary = Engine.summary y.totalSteps y.results)
    (stopped : ∀ workflow options, .admitted id workflow options ∈ b.journal → Stopped id workflow x b.journal ∧
      (.untimed id ∈ b.journal ∨ Judged id workflow y (.announced event (some y) :: b.journal))) :
    Amends e spared id x y (b.isActive id) s b [.announced event (some y)] (s.drop id) := by
  have notRequested : x.cancelRequested = false := old.notRequested notCancelled
  obtain ⟨_, noFarewell⟩ := old.untold notRequested
  have ended : 0 < endings id (.announced event (some y) :: b.journal) := by
    rw [endings_cons]
    rcases kind with rfl | rfl <;> simp [isEnding]
  refine {
    only := onlyOf_singleton rfl fun other different => ?_
    sound := sound_finished old closes notCancelled notRunning requested summary (fun workflow options admitted => ?_)
      (old.chronicle.ending kind noEnding noFarewell notRunning notCancelled')
      (by simp) (by simp) ?_ (.inl ended)
    evolves := evolves_unrequested notRequested closes.metadata closes.keys fun was =>
      ⟨notRunning, .inr (.inl (List.mem_cons_of_mem _ (before.resolve_left was)))⟩
    others := fun other different => Hold.drop_other s different
    mine := fun left' held' => by
      rw [Hold.drop_self] at held'
      cases held'
    yours := fun free => by
      rw [held] at free
      cases free }
  · rcases kind with rfl | rfl <;> simpa [concerns] using different.symm
  · exact (stopped workflow options admitted).imp_right fun judged => judged.imp_left (List.mem_cons_of_mem _)
  · rcases kind with rfl | rfl <;> rfl

/-- The driver ends an execution, and cannot tell its duration. -/
theorem amends_untimed (closes : Closes x y) (notCancelled : x.status ≠ .cancelled)
    (noEnding : endings id b.journal = 0) (notRunning : y.status ≠ .running)
    (requested : y.cancelRequested = x.cancelRequested)
    (summary : y.summary = x.summary ∨ y.summary = Engine.summary y.totalSteps y.results)
    (stopped : ∀ workflow options, .admitted id workflow options ∈ b.journal → Stopped id workflow x b.journal) :
    Amends e spared id x y (b.isActive id) s b [.untimed id] (s.put id y) where
  only := onlyOf_untimed id
  sound := sound_finished old closes notCancelled notRunning requested summary
    (fun workflow options admitted => ⟨stopped workflow options admitted, .inl List.mem_cons_self⟩)
    (old.chronicle.cons rfl rfl fun _ _ same => nomatch same) (fun _ _ same => nomatch same)
    (fun same => nomatch same) rfl (.inr List.mem_cons_self)
  evolves := evolves_unrequested (old.notRequested notCancelled) closes.metadata closes.keys fun _ =>
    ⟨notRunning, .inr (.inl List.mem_cons_self)⟩
  others other different := Hold.put_other s y different
  mine left' held' := by
    rw [Hold.put_self] at held'
    obtain rfl := Option.some.inj held'
    refine .inr ⟨.refl spared id y, ?_⟩
    rw [List.singleton_append, endings_cons, noEnding]
    rfl
  yours free := by
    rw [held] at free
    cases free

/-- The driver's task is cancelled while the execution is running. -/
theorem amends_cut (closes : Closes x y) (running : x.status = .running)
    (cancelled : y.status = .cancelled) (fits : new = [] ∨ new = [.untimed id]) :
    Amends e spared id x y (b.isActive id) s b new (s.drop id) := by
  have notRequested : x.cancelRequested = false := old.notRequested (by rw [running]; decide)
  obtain ⟨noWithdrawal, noFarewell⟩ := old.untold notRequested
  refine {
    only := ?_
    sound := sound_cancelled old closes cancelled ?_ ?_ ?_
    evolves := evolves_unrequested notRequested closes.metadata closes.keys fun was => absurd running was
    others := fun other different => Hold.drop_other s different
    mine := fun left' held' => by
      rw [Hold.drop_self] at held'
      cases held'
    yours := fun free => by
      rw [held] at free
      cases free }
  · rcases fits with rfl | rfl
    · exact onlyOf_nil id
    · exact onlyOf_untimed id
  · rcases fits with rfl | rfl
    · exact old.chronicle
    · exact old.chronicle.cons rfl rfl fun _ _ same => nomatch same
  · rcases fits with rfl | rfl <;> simp
  · intro withdrawn
    rcases fits with rfl | rfl
    · rw [List.nil_append, noFarewell] at withdrawn
      exact absurd withdrawn (by simp [noWithdrawal])
    · exact absurd withdrawn (untold_cons noWithdrawal noFarewell (fun same => nomatch same) rfl)

end

/-! ## Anyone's turns -/

section

variable (old : Sound e spared id x (b.isActive id) b.journal)
include old

/-- An active execution is cancelled: it is retired, and all of this is told. If it had ended before,
its farewell is belated. -/
theorem amends_withdrawn (closes : Closes x y) (active : b.isActive id = true)
    (cancelled : y.status = .cancelled) (requested : y.cancelRequested = true)
    (record : Option Execution) :
    Amends e spared id x y false s b
      [.announced (.cancelled id) record, .cancelled id, .retired id] s := by
  have noFarewell : farewells id b.journal = 0 := by
    have none : ¬0 < farewells id b.journal := by
      intro farewell
      have inactive := (old.withdrawn (.inr farewell)).1
      rw [active] at inactive
      cases inactive
    omega
  have chronicle := (old.chronicle.cons (h := .retired id) rfl rfl fun _ _ same => nomatch same).cons
    (h := .cancelled id) rfl rfl fun _ _ same => nomatch same
  refine {
    only := ?_
    sound := sound_cancelled old closes cancelled (chronicle.farewell ?_) (by simp) fun _ => ⟨rfl, requested⟩
    evolves := {
      metadata := closes.metadata
      keys := closes.keys
      requested := fun _ => requested
      ended := fun was => ⟨by rw [cancelled]; decide, ?_⟩
      frozen := fun _ inactive => by
        rw [active] at inactive
        cases inactive }
    others := fun _ _ => rfl
    mine := fun _ _ => .inl requested
    yours := fun free => ⟨free, fun _ _ => .inl requested⟩ }
  · intro h member
    simp only [List.mem_cons, List.not_mem_nil, or_false] at member
    rcases member with rfl | rfl | rfl
    · exact ⟨rfl, fun other different => by simpa [concerns] using different.symm⟩
    · exact ⟨rfl, fun other different => by simpa [concerns] using different.symm⟩
    · exact ⟨rfl, fun other different => rfl⟩
  · rw [farewells_cons, farewells_cons, noFarewell]
    rfl
  · by_cases already : x.status = .cancelled
    · exact .inl (cancelled.trans already.symm)
    · rcases old.told was already with ended | untimed
      · refine .inr (.inr ⟨[], record, .cancelled id :: .retired id :: b.journal, rfl, ?_⟩)
        rw [endings_cons, endings_cons]
        exact ended
      · exact .inr (.inl (List.mem_append_right _ untimed))

/-- An active execution is cancelled, and its duration cannot be told: it stays active. -/
theorem amends_withdrawUntimed (closes : Closes x y) (active : b.isActive id = true)
    (cancelled : y.status = .cancelled) (requested : y.cancelRequested = true) :
    Amends e spared id x y (b.isActive id) s b [.untimed id] s := by
  refine {
    only := onlyOf_untimed id
    sound := sound_cancelled old closes cancelled
      (old.chronicle.cons rfl rfl fun _ _ same => nomatch same) (by simp) fun told => ?_
    evolves := {
      metadata := closes.metadata
      keys := closes.keys
      requested := fun _ => requested
      ended := fun _ => ⟨by rw [cancelled]; decide, .inr (.inl List.mem_cons_self)⟩
      frozen := fun _ inactive => by
        rw [active] at inactive
        cases inactive }
    others := fun _ _ => rfl
    mine := fun _ _ => .inl requested
    yours := fun free => ⟨free, fun _ _ => .inl requested⟩ }
  rw [List.singleton_append, farewells_cons] at told
  have told' : .cancelled id ∈ b.journal ∨ 0 < farewells id b.journal := by
    simpa [isFarewell] using told
  exact ⟨(old.withdrawn told').1, requested⟩

/-- An execution that has ended is retired, and whoever held it lets go of it. -/
theorem amends_retire (notRunning : x.status ≠ .running) (found : b.record? id = some x) :
    Amends e spared id x x false s b [.retired id] (s.drop id) := by
  have only : OnlyOf id [.retired id] := onlyOf_singleton rfl fun _ _ => rfl
  have silent : Silent id [.retired id] := by
    intro h member
    obtain rfl := List.mem_singleton.mp member
    rfl
  have sound := old.append silent
  have borne (left : Execution) (bears : Bears spared id left b) : x.cancelRequested = true ∨
      Agree spared id left x ∧ endings id ([.retired id] ++ b.journal) = 0 := by
    obtain ⟨x', known, borne⟩ := bears
    rw [found] at known
    obtain rfl := Option.some.inj known
    rw [silent.endings]
    exact borne
  exact {
    only := only
    sound := {
      chronicle := sound.chronicle
      self := sound.self
      enlisted := fun runs => absurd runs notRunning
      requested := sound.requested
      running := sound.running
      told := sound.told
      withdrawn := fun told => ⟨rfl, (sound.withdrawn told).2⟩
      tally := sound.tally
      replays := sound.replays }
    evolves := {
      metadata := rfl
      keys := List.prefix_rfl
      requested := fun requested => requested
      ended := fun _ => ⟨notRunning, .inl rfl⟩
      frozen := fun _ _ => ⟨rfl, .refl spared id x⟩ }
    others := fun other different => Hold.drop_other s different
    mine := fun left held => by
      rw [Hold.drop_self] at held
      cases held
    yours := fun _ => ⟨Hold.drop_self s id, fun left known => borne left ⟨x, found, known⟩⟩ }

/-- Variables are assigned to an execution that is not spared. -/
theorem amends_assign (free : ¬spared id) (bindings : Entries)
    (mine : ∀ left, s id = some left → Bears spared id left b) (found : b.record? id = some x) :
    Amends e spared id x (x.mergeOutputs bindings) (b.isActive id) s b [] s := by
  have agree (left : Execution) (agree : Agree spared id left x) :
      Agree spared id left (x.mergeOutputs bindings) :=
    agree.trans ⟨_, rfl, fun spares => absurd spares free⟩
  have borne (left : Execution) (borne : x.cancelRequested = true ∨
      Agree spared id left x ∧ endings id b.journal = 0) :
      (x.mergeOutputs bindings).cancelRequested = true ∨
        Agree spared id left (x.mergeOutputs bindings) ∧ endings id ([] ++ b.journal) = 0 := by
    rcases borne with requested | ⟨known, noEnding⟩
    · exact .inl requested
    · exact .inr ⟨agree left known, noEnding⟩
  exact {
    only := onlyOf_nil id
    sound := {
      chronicle := old.chronicle
      self := old.self
      enlisted := old.enlisted
      requested := old.requested
      running := old.running
      told := old.told
      withdrawn := old.withdrawn
      tally := fun notCancelled workflow options admitted => by
        obtain ⟨tally, ended⟩ := old.tally notCancelled workflow options admitted
        refine ⟨tally.assign _, fun notRunning => ?_⟩
        obtain ⟨stopped, judged⟩ := ended notRunning
        exact ⟨stopped.assign _, judged.imp_right fun judged => judged.assign _⟩
      replays := fun spares => absurd spares free }
    evolves := {
      metadata := rfl
      keys := Entries.keys_prefix_merge x.scope bindings
      requested := fun requested => requested
      ended := fun notRunning => ⟨notRunning, .inl rfl⟩
      frozen := fun _ inactive => ⟨inactive, _, rfl, fun spares => absurd spares free⟩ }
    others := fun _ _ => rfl
    mine := by
      intro left held
      obtain ⟨x', known, known'⟩ := mine left held
      rw [found] at known
      obtain rfl := Option.some.inj known
      exact borne left known'
    yours := fun free => ⟨free, borne⟩ }

end

end Books

end Runbook
