import Runbook.Proofs.Notices
import Runbook.Proofs.Telling
import Runbook.Proofs.Verdict

/-! # The grammar of events

The events of an execution, in the order in which their emission begins: it has started; then there is a block
for each step with a result, from the beginning of the step over any number of manual steps in it to its result;
and at last it is completed or has failed. How far the events have come is known from the leg that the driver
of the execution is on, and what the blocks are about from the results that were told of.
-/

namespace Runbook

variable {σ : Type} {e : Engine σ} {host : Host σ} {m : Machine σ} {id : String} {event : Event} {h : Happening}
  {journal : List Happening} {results : List StepResult} {r : StepResult} {events block : List Event} {l : Leg}

/-! ## Emissions -/

/-- The event of an execution whose emission an entry tells of. -/
def Happening.emission? (id : String) : Happening → Option Event
  | .announced event _ => if event.execution = id then some event else none
  | _ => none

/-- The events of an execution whose emission has begun, oldest first. -/
def emissions (id : String) (journal : List Happening) : List Event :=
  (journal.filterMap (·.emission? id)).reverse

theorem emissions_cons_none (aside : h.emission? id = none) : emissions id (h :: journal) = emissions id journal := by
  rw [emissions, List.filterMap_cons_none aside, emissions]

theorem emissions_cons_some (emits : h.emission? id = some event) :
    emissions id (h :: journal) = emissions id journal ++ [event] := by
  simp [emissions, List.filterMap_cons_some emits]

theorem mem_emissions {record : Option Execution} (told : .announced event record ∈ journal) :
    event ∈ emissions event.execution journal := by
  rw [emissions, List.mem_reverse, List.mem_filterMap]
  exact ⟨_, told, if_pos rfl⟩

/-! ## The grammar -/

/-- An operator is told of a manual step in a step of an execution. -/
def Event.IsNotice (id : String) (index : Int) (event : Event) : Prop :=
  ∃ body instructions token, event = .manual id body index instructions token

/-- The event that tells of the result of a step: that it failed exactly if the result is in error. -/
def Event.IsResult (id : String) (index : Int) (r : StepResult) (event : Event) : Prop :=
  ∃ step, event = if r.status = .error then .stepFailed id step index r else .stepCompleted id step index r

/-- The events of a step that has begun. -/
def IsOpening (id : String) (index : Int) (events : List Event) : Prop :=
  ∃ step notices, events = .stepStarted id step index :: notices ∧ ∀ event ∈ notices, event.IsNotice id index

/-- The events of a step with a result. -/
def IsBlock (id : String) (index : Int) (r : StepResult) (events : List Event) : Prop :=
  ∃ opening last, events = opening ++ [last] ∧ IsOpening id index opening ∧ last.IsResult id index r

/-- The events of the first steps of an execution: one block after the other, each for the next result. -/
inductive AreBlocks (id : String) : List StepResult → List Event → Prop
  | nil : AreBlocks id [] []
  | snoc {results : List StepResult} {events : List Event} {r : StepResult} {block : List Event}
      (blocks : AreBlocks id results events) (next : IsBlock id results.length r block) :
      AreBlocks id (results ++ [r]) (events ++ block)

/-- An execution has ended by itself. -/
def Event.IsEnd (id : String) (event : Event) : Prop := event = .completed id ∨ event = .failed id

/-- The events of an execution with results that ended under a status by itself. -/
def IsLifecycle (id : String) (results : List StepResult) (status : ExecutionStatus) (events : List Event) : Prop :=
  ∃ blocks last, events = .started id :: (blocks ++ [last]) ∧ AreBlocks id results blocks ∧
    ((status = .completed ∨ status = .failed) ∧ last = .completed id ∨ status = .error ∧ last = .failed id)

/-- What the events of an execution have come to, by the leg that its driver is on. -/
def Leg.Fits (id : String) (results : List StepResult) : Leg → List Event → Prop
  | waiting, events => results = [] ∧ events = []
  | between next, events => next = results.length ∧
      ∃ blocks, events = .started id :: blocks ∧ AreBlocks id results blocks
  | announced current, events | within current, events => current = results.length ∧
      ∃ blocks opening, events = .started id :: (blocks ++ opening) ∧ AreBlocks id results blocks ∧
        IsOpening id current opening
  | spent, events => ∃ blocks, events = .started id :: blocks ∧ AreBlocks id results blocks
  | closed, events => ∃ blocks last, events = .started id :: (blocks ++ [last]) ∧ AreBlocks id results blocks ∧
      last.IsEnd id

theorem IsOpening.notice {index : Int} (opening : IsOpening id index events) (notice : event.IsNotice id index) :
    IsOpening id index (events ++ [event]) := by
  obtain ⟨step, notices, rfl, known⟩ := opening
  refine ⟨step, notices ++ [event], rfl, ?_⟩
  intro other member
  rcases List.mem_append.mp member with old | new
  · exact known other old
  · rwa [List.mem_singleton.mp new]

theorem IsOpening.no_end {index : Int} (opening : IsOpening id index events) (member : event ∈ events) :
    ¬event.IsEnd id := by
  obtain ⟨step, notices, rfl, known⟩ := opening
  rcases List.mem_cons.mp member with rfl | notice
  · simp [Event.IsEnd]
  · obtain ⟨body, instructions, token, rfl⟩ := known event notice
    simp [Event.IsEnd]

/-- The blocks tell of no end. -/
theorem AreBlocks.no_end (blocks : AreBlocks id results events) (member : event ∈ events) : ¬event.IsEnd id := by
  induction blocks with
  | nil => cases member
  | snoc _ next ih =>
    obtain ⟨opening, last, rfl, opens, step, result⟩ := next
    simp only [List.mem_append, List.mem_singleton] at member
    rcases member with earlier | opened | rfl
    · exact ih earlier
    · exact opens.no_end opened
    · rw [result]
      split
      · simp [Event.IsEnd]
      · simp [Event.IsEnd]

/-- An end is the last event of an execution. -/
theorem Leg.Fits.of_end (fits : l.Fits id results events) (ends : event.IsEnd id) (member : event ∈ events) :
    ∃ blocks, events = .started id :: (blocks ++ [event]) ∧ AreBlocks id results blocks := by
  have started : ¬(Event.started id).IsEnd id := by simp [Event.IsEnd]
  cases l with
  | waiting =>
    rw [fits.2] at member
    cases member
  | between next =>
    obtain ⟨_, blocks, rfl, known⟩ := fits
    rcases List.mem_cons.mp member with rfl | member
    · exact absurd ends started
    · exact absurd ends (known.no_end member)
  | announced current | within current =>
    obtain ⟨_, blocks, opening, rfl, known, opens⟩ := fits
    rcases List.mem_cons.mp member with rfl | member
    · exact absurd ends started
    · rcases List.mem_append.mp member with earlier | opened
      · exact absurd ends (known.no_end earlier)
      · exact absurd ends (opens.no_end opened)
  | spent =>
    obtain ⟨blocks, rfl, known⟩ := fits
    rcases List.mem_cons.mp member with rfl | member
    · exact absurd ends started
    · exact absurd ends (known.no_end member)
  | closed =>
    obtain ⟨blocks, last, rfl, known, _⟩ := fits
    rcases List.mem_cons.mp member with rfl | member
    · exact absurd ends started
    · rcases List.mem_append.mp member with earlier | final
      · exact absurd ends (known.no_end earlier)
      · obtain rfl := List.mem_singleton.mp final
        exact ⟨blocks, rfl, known⟩

/-! ## Journals -/

/-- An entry that makes no move emits nothing but the notice of a manual step, or a cancellation. -/
theorem emission?_of_still (still : h.move? id = none) (uncancelled : h.isFarewell id = false) :
    h.result? id = none ∧ (h.emission? id = none ∧ (∀ index, h.notice? ≠ some (id, index)) ∨
      ∃ index event, h.notice? = some (id, index) ∧ h.emission? id = some event ∧ event.IsNotice id index) := by
  cases h with
  | announced event record =>
    by_cases mine : event.execution = id
    · subst mine
      cases event with
      | manual execution body index instructions token =>
        exact ⟨rfl, .inr ⟨index, _, rfl, if_pos rfl, body, instructions, token, rfl⟩⟩
      | cancelled execution => simp [Happening.isFarewell, Event.execution] at uncancelled
      | _ => simp [Happening.move?, Event.move?] at still
    · have aside : (Happening.announced event record).emission? id = none := if_neg mine
      cases event with
      | manual execution body index instructions token =>
        refine ⟨rfl, .inl ⟨aside, fun index told => mine ?_⟩⟩
        exact (Prod.mk.inj (Option.some.inj told)).1
      | stepCompleted | stepFailed => exact ⟨if_neg mine, .inl ⟨aside, by rintro _ ⟨⟩⟩⟩
      | _ => exact ⟨rfl, .inl ⟨aside, by rintro _ ⟨⟩⟩⟩
  | _ => exact ⟨rfl, .inl ⟨rfl, by rintro _ ⟨⟩⟩⟩

/-- What an entry emits that makes a move. -/
def Happening.Emits (id : String) (h : Happening) : Move → Prop
  | .begins => h.emission? id = some (.started id) ∧ h.result? id = none
  | .starts index => (∃ step, h.emission? id = some (.stepStarted id step index)) ∧ h.result? id = none
  | .enters _ | .expires _ => h.emission? id = none ∧ h.result? id = none
  | .tells index => ∃ event r, h.emission? id = some event ∧ h.result? id = some r ∧
      (h.Honest → event.IsResult id index r)
  | .completes => h.emission? id = some (.completed id) ∧ h.result? id = none
  | .fails => h.emission? id = some (.failed id) ∧ h.result? id = none

theorem emits_of_move {move : Move} (moves : h.move? id = some move) : h.Emits id move := by
  cases h with
  | announced event record =>
    by_cases mine : event.execution = id
    · have emits : (Happening.announced event record).emission? id = some event := if_pos mine
      replace moves : event.move? = some move := (if_pos mine).symm.trans moves
      subst mine
      cases event with
      | started | completed | failed =>
        obtain rfl := Option.some.inj moves
        exact ⟨emits, rfl⟩
      | stepStarted execution step =>
        obtain rfl := Option.some.inj moves
        exact ⟨⟨step, emits⟩, rfl⟩
      | stepCompleted execution step index r =>
        obtain rfl := Option.some.inj moves
        exact ⟨_, r, emits, if_pos rfl, fun honest => ⟨step, (if_neg honest).symm⟩⟩
      | stepFailed execution step index r =>
        obtain rfl := Option.some.inj moves
        exact ⟨_, r, emits, if_pos rfl, fun honest => ⟨step, (if_pos honest).symm⟩⟩
      | manual | cancelled => cases moves
    · rw [Happening.move?, if_neg mine] at moves
      cases moves
  | entered other index =>
    rw [Happening.move?] at moves
    split at moves
    · obtain rfl := Option.some.inj moves
      exact ⟨rfl, rfl⟩
    · cases moves
  | expired other index =>
    rw [Happening.move?] at moves
    split at moves
    · obtain rfl := Option.some.inj moves
      exact ⟨rfl, rfl⟩
    · cases moves
  | _ => cases moves

/-- An entry that tells of no result. -/
theorem toldResults_cons_none (silent : h.result? id = none) :
    toldResults id (h :: journal) = toldResults id journal := by
  rw [toldResults, List.filterMap_cons_none silent, toldResults]

/-- With an entry that makes no move an operator may be told of a manual step in the step that has begun. -/
theorem Leg.Fits.stays (still : h.move? id = none) (uncancelled : h.isFarewell id = false)
    (present : ∀ index, h.notice? = some (id, index) → l = .within index)
    (fits : l.Fits id (toldResults id journal) (emissions id journal)) :
    l.Fits id (toldResults id (h :: journal)) (emissions id (h :: journal)) := by
  obtain ⟨silent, ⟨aside, _⟩ | ⟨index, event, told, emits, notice⟩⟩ := emission?_of_still still uncancelled
  · rw [toldResults_cons_none silent, emissions_cons_none aside]
    exact fits
  · obtain rfl := present index told
    obtain ⟨current, blocks, opening, events, fits, opens⟩ := fits
    rw [toldResults_cons_none silent, emissions_cons_some emits, events]
    refine ⟨current, blocks, opening ++ [event], ?_, fits, opens.notice notice⟩
    simp

/-- With an entry that makes a move the events come to those of the next leg. -/
theorem Leg.Fits.moves {middle : Leg} {move : Move} (moves : h.move? id = some move) (honest : h.Honest)
    (leads : middle.after move = some l) (fits : middle.Fits id (toldResults id journal) (emissions id journal)) :
    l.Fits id (toldResults id (h :: journal)) (emissions id (h :: journal)) := by
  have emission := emits_of_move moves
  cases move with
  | begins =>
    rw [toldResults_cons_none emission.2, emissions_cons_some emission.1]
    cases middle <;> cases leads
    obtain ⟨none, nothing⟩ := fits
    rw [none, nothing]
    exact ⟨rfl, [], rfl, .nil⟩
  | starts index =>
    obtain ⟨⟨step, emits⟩, silent⟩ := emission
    rw [toldResults_cons_none silent, emissions_cons_some emits]
    obtain ⟨rfl, rfl⟩ := Leg.between_of_starts leads
    obtain ⟨next, blocks, events, fits⟩ := fits
    rw [events]
    exact ⟨next, blocks, [.stepStarted id step index], rfl, fits, step, [], rfl, List.forall_mem_nil _⟩
  | enters index =>
    rw [toldResults_cons_none emission.2, emissions_cons_none emission.1]
    obtain ⟨rfl, rfl⟩ := Leg.announced_of_enters leads
    exact fits
  | tells index =>
    obtain ⟨event, r, emits, tells, result⟩ := emission
    rw [toldResults_cons tells, emissions_cons_some emits]
    obtain ⟨under, rfl⟩ := Leg.between_of_tells leads
    obtain ⟨rfl, blocks, opening, events, fits, opens⟩ : index = (toldResults id journal).length ∧
        ∃ blocks opening, emissions id journal = .started id :: (blocks ++ opening) ∧
          AreBlocks id (toldResults id journal) blocks ∧ IsOpening id index opening := by
      rcases under with rfl | rfl
      · exact fits
      · exact fits
    have told : event.IsResult id (toldResults id journal).length r := result honest
    refine ⟨by simp, blocks ++ (opening ++ [event]), ?_, fits.snoc ⟨opening, event, rfl, opens, told⟩⟩
    rw [events]
    simp
  | expires index =>
    rw [toldResults_cons_none emission.2, emissions_cons_none emission.1]
    obtain ⟨rfl, rfl⟩ := Leg.between_of_expires leads
    exact fits.2
  | completes =>
    rw [toldResults_cons_none emission.2, emissions_cons_some emission.1]
    cases middle <;> cases leads
    obtain ⟨_, blocks, events, fits⟩ := fits
    rw [events]
    exact ⟨blocks, _, rfl, fits, .inl rfl⟩
  | fails =>
    rw [toldResults_cons_none emission.2, emissions_cons_some emission.1]
    obtain ⟨rfl, blocks, events, fits⟩ : l = .closed ∧ ∃ blocks, emissions id journal = .started id :: blocks ∧
        AreBlocks id (toldResults id journal) blocks := by
      cases middle <;> cases leads
      · exact ⟨rfl, fits.2⟩
      · exact ⟨rfl, fits⟩
    rw [events]
    exact ⟨blocks, _, rfl, fits, .inr rfl⟩

/-- The events of an execution that was not cancelled are those of the leg that its driver is on. -/
theorem fits_of_leg (way : leg id journal = some l) (punctual : Punctual id journal)
    (honest : ∀ h ∈ journal, h.Honest) (uncancelled : farewells id journal = 0) :
    l.Fits id (toldResults id journal) (emissions id journal) := by
  induction journal generalizing l with
  | nil =>
    obtain rfl := Option.some.inj way
    exact ⟨rfl, rfl⟩
  | cons h earlier ih =>
    obtain ⟨present, before⟩ := punctual
    rw [farewells, List.countP_cons] at uncancelled
    have noFarewell : h.isFarewell id = false := by
      cases farewell : h.isFarewell id with
      | false => rfl
      | true => simp [farewell] at uncancelled
    have ih {l : Leg} (way : leg id earlier = some l) : l.Fits id (toldResults id earlier) (emissions id earlier) :=
      ih way before (fun h member => honest h (List.mem_cons_of_mem _ member)) (by rw [farewells]; omega)
    cases moves : h.move? id with
    | none =>
      rw [leg_cons_none moves] at way
      exact (ih way).stays moves noFarewell fun index told => Option.some.inj (way.symm.trans (present index told))
    | some move =>
      rw [leg_cons_some moves] at way
      obtain ⟨middle, led, leads⟩ := Option.bind_eq_some_iff.mp way
      exact (ih led).moves moves (honest h List.mem_cons_self) leads

/-! ## Executions -/

namespace Machine

variable {x : Execution} {workflow : Workflow} {options : Options}

/-- The events of an execution that was not cancelled, by the leg that its driver is on. -/
theorem Arises.fits (arises : Arises e host m) (found : m.world.ledger.record? id = some x)
    (notCancelled : x.status ≠ .cancelled) :
    ∃ l, leg id m.world.journal = some l ∧
      l.Fits id (toldResults id m.world.journal) (emissions id m.world.journal) := by
  obtain ⟨l, way⟩ := arises.reachable.way host.spares_nothing id
  have sound := arises.valid.sound id x found
  have told := arises.reachable.told host.spares_nothing
  refine ⟨l, way, fits_of_leg way (arises.punctual id) told.honest ?_⟩
  exact (sound.untold (sound.notRequested notCancelled)).2

/-- The events of an execution that ended by itself, in a time that could be told. -/
theorem Arises.lifecycle (arises : Arises e host m) (admitted : .admitted id workflow options ∈ m.world.journal)
    (found : m.world.ledger.record? id = some x) (ended : x.status ≠ .running) (notCancelled : x.status ≠ .cancelled)
    (timed : .untimed id ∉ m.world.journal) :
    IsLifecycle id x.results x.status (emissions id m.world.journal) := by
  have sound := arises.valid.sound id x found
  have judged : Judged id workflow x m.world.journal :=
    (((sound.tally notCancelled workflow options admitted).2 ended).2).resolve_left timed
  have results : x.results = toldResults id m.world.journal :=
    (arises.reachable.told host.spares_nothing).ended id x found ended notCancelled
  obtain ⟨l, _, fits⟩ := arises.fits found notCancelled
  rw [← results] at fits
  cases judged with
  | concluded _ status _ told =>
    obtain ⟨record, told⟩ := told
    obtain ⟨blocks, events, known⟩ := fits.of_end (.inl rfl) (mem_emissions told)
    refine ⟨blocks, .completed id, events, known, .inl ⟨?_, rfl⟩⟩
    rw [status]
    split
    · exact .inl rfl
    · exact .inr rfl
  | aborted _ status _ told =>
    obtain ⟨record, told⟩ := told
    obtain ⟨blocks, events, known⟩ := fits.of_end (.inr rfl) (mem_emissions told)
    exact ⟨blocks, .failed id, events, known, .inr ⟨status, rfl⟩⟩

end Machine

end Runbook
