import Runbook.Proofs.Bonded
import Runbook.Proofs.Rest

/-! # What happens to tasks and their bonds

Around an engine one thing happens after another: tasks go on, guests arrive, the clock moves, and in a harsh
climate tasks are cancelled. Guests are callers, and those who have a step interpreted by itself and leave
behind what it comes to. All of it keeps the bonds of tasks, so that what is left behind in the end is what was
promised, and in a mild climate nothing that was promised is missing once the machine has come to rest.
-/

namespace Runbook

open Machine Interpreter

variable {σ : Type} {c : Climate} {e : Engine σ} {host : Host σ} {m m' m'' : Machine σ} {bonds : Bonds}
  {pledges : Pledges} {t : TaskId} {b : Bond}

/-! ## What may happen -/

/-- What a guest does who has something interpreted and leaves behind what it comes to. -/
def Interpreter.interpreting (attempt : Attempt σ StepResult) (id : TaskId) : Routine σ Unit := do
  let outcome ← ExceptT.run attempt
  Routine.change (leave id outcome)

/-- The next thing that happens around an engine whose clock shows moments of a timeline. Tasks are cancelled
only in harsh times, and only some guests are welcome. -/
inductive Machine.Happens (e : Engine σ) (host : Host σ) (time : Timeline) (harsh : Prop)
    (Welcome : (TaskId → Routine σ Unit) → Prop) : Machine σ → Machine σ → Prop
  /-- A task goes on, or the first job of the queue is done. -/
  | work {m m' : Machine σ} (taken : m.step? (host.service e) = some m') :
      Happens e host time harsh Welcome m m'
  | arrive {m : Machine σ} (body : TaskId → Routine σ Unit) (welcome : Welcome body) :
      Happens e host time harsh Welcome m (m.launch body).1
  | elapse {m m' : Machine σ} (elapsed : m.elapse? = some m') (shows : time.Shows m'.world.agenda.now) :
      Happens e host time harsh Welcome m m'
  | wind (m : Machine σ) (seconds : Float) (shows : time.Shows (m.world.agenda.now + seconds)) :
      Happens e host time harsh Welcome m (m.moveClock seconds)
  | cancel (m : Machine σ) (id : TaskId) (possible : harsh) :
      Happens e host time harsh Welcome m { m with world := (m.world.cancel id).1 }

/-- One thing happens after another. -/
inductive Machine.Unfolds (e : Engine σ) (host : Host σ) (time : Timeline) (harsh : Prop)
    (Welcome : (TaskId → Routine σ Unit) → Prop) : Machine σ → Machine σ → Prop
  | refl (m : Machine σ) : Unfolds e host time harsh Welcome m m
  | next {m₁ m₂ m₃ : Machine σ} (before : Unfolds e host time harsh Welcome m₁ m₂)
      (last : Happens e host time harsh Welcome m₂ m₃) : Unfolds e host time harsh Welcome m₁ m₃

/-- No task can go on, and none waits for anything but the end of others. -/
structure Machine.AtRest (m : Machine σ) : Prop where
  idle : m.running = none
  agenda : m.world.agenda.AtRest

/-- A task waits at a latch. -/
def Machine.Latched (m : Machine σ) : Prop := ∃ t key, (t, .latch key) ∈ m.world.agenda.waits

/-! ## Pledges -/

namespace Pledges

/-- The pledges after a task was created, which may promise something. -/
def add (pledges : Pledges) (t : TaskId) (collector : Option TaskId) : Option (Outcome → Prop) → Pledges
  | none => pledges
  | some promise => Function.update pledges t (some ⟨collector, promise⟩)

theorem Within.refl (pledges : Pledges) : pledges.Within pledges := fun _ _ pledged => pledged

theorem Within.trans {pledges' pledges'' : Pledges} (first : pledges.Within pledges')
    (second : pledges'.Within pledges'') : pledges.Within pledges'' :=
  fun t pledge pledged => second t pledge (first t pledge pledged)

variable {collector : Option TaskId} {promise : Option (Outcome → Prop)} {s : TaskId} {pledge : Pledge}

theorem within_add (unpledged : pledges t = none) : pledges.Within (pledges.add t collector promise) := by
  intro s pledge pledged
  cases promise with
  | none => exact pledged
  | some promise =>
    have different : s ≠ t := by
      rintro rfl
      cases unpledged.symm.trans pledged
    exact (Function.update_of_ne different ..).trans pledged

theorem add_cases (pledged : pledges.add t collector promise s = some pledge) :
    s = t ∧ pledge.collector = collector ∧ promise = some pledge.promise ∨ pledges s = some pledge := by
  cases promise with
  | none => exact .inr pledged
  | some promise =>
    rcases eq_or_ne s t with rfl | different
    · rw [add, Function.update_self] at pledged
      obtain rfl := Option.some.inj pledged
      exact .inl ⟨rfl, rfl, rfl⟩
    · exact .inr ((Function.update_of_ne different ..).symm.trans pledged)

theorem add_self {promise : Outcome → Prop} :
    pledges.add t collector (some promise) t = some ⟨collector, promise⟩ :=
  Function.update_self ..

end Pledges

/-- In a mild climate a wait that ends at once ends because its cue has come. -/
theorem Bond.Awaits.immediate {w : World σ} {cue : Cue} {wake : Wake} (awaits : b.Awaits c cue)
    (immediate : immediate? w cue = some wake) (mild : ¬c.harsh) : wake = .ready := by
  cases cue with
  | time => cases immediate
  | decision => exact absurd awaits mild
  | latch key =>
    change (if w.isOpen key then some Wake.ready else none) = some wake at immediate
    split at immediate <;> cases immediate
    rfl
  | tasks ids =>
    change (if ids.isEmpty then some Wake.ready else none) = some wake at immediate
    split at immediate <;> cases immediate
    rfl

theorem Agenda.paused_finish (a : Agenda) (id : TaskId) : (a.finish id).paused = a.paused := by
  have told (watchers : List Watcher) (a : Agenda) :
      (watchers.foldl (fun a w => a.enqueue (Watcher.job w)) a).paused = a.paused := by
    induction watchers generalizing a with
    | nil => rfl
    | cons w rest ih =>
      rw [List.foldl_cons, ih]
      cases w <;> simp [Agenda.paused, Agenda.enqueue, Watcher.job, Job.resumed?]
  exact told _ _

namespace Machine.Bonded

variable (bonded : m.Bonded c bonds pledges)

include bonded

/-! ## Tasks that are created -/

/-- There is one more task, with a bond of its own. -/
theorem launched {body : TaskId → Routine σ Unit} {promise : Option (Outcome → Prop)} (collector : Option TaskId)
    (older : ∀ s, collector = some s → s < m.world.agenda.created)
    (charge : Option String) (honours : (body m.world.agenda.created).Honours c m.world.agenda.created
      { owes := promise, charge } fun _ b => b.Over c) :
    (m.launch body).1.Bonded c (Function.update bonds m.world.agenda.created (some { owes := promise, charge }))
      (pledges.add m.world.agenda.created collector promise) := by
  have tends := bonded.fair.orderly.create
  have soothes := m.world.agenda.soothes_create
  have within : pledges.Within (pledges.add m.world.agenda.created collector promise) :=
    Pledges.within_add bonded.unpledged
  have parked (s : TaskId) : s ∈ (m.launch body).1.parked.map (·.1) ↔
      s ∈ m.parked.map (·.1) ∨ s = m.world.agenda.created := by
    simp [launch, Agenda.create]
  have alive (s : TaskId) := m.world.agenda.mem_alive_create s
  have paused (s : TaskId) := m.world.agenda.mem_paused_create s
  have older_ne {s : TaskId} (old : s < m.world.agenda.created) :
      Function.update bonds m.world.agenda.created (some { owes := promise, charge }) s = bonds s :=
    Function.update_of_ne (Nat.ne_of_lt old) ..
  exact {
    fair := ⟨tends.orderly, bonded.fair.moment, fun mild => soothes.serene (bonded.fair.serene mild),
      bonded.fair.records, bonded.fair.journal⟩
    enlisted := fun s b found => by
      refine (alive s).mpr ?_
      rcases noted_cases found with ⟨rfl, _⟩ | ⟨_, found⟩
      · exact .inr rfl
      · exact .inl (bonded.enlisted s b found)
    apart := nodup_park bonded.apart bonded.vacant _
    parked := fun s k listed => by
      rcases List.mem_append.mp listed with before | new
      · obtain ⟨b, found, parked⟩ := bonded.parked s k before
        exact ⟨b, (older_ne (bonded.old found)).trans found, parked.later tends.passes.continues⟩
      · cases List.mem_singleton.mp new
        refine ⟨_, Function.update_self .., .time 0.0, fun wake mild => ?_, by rintro _ ⟨⟩⟩
        cases wake with
        | ready => exact honours
        | cancelled =>
          refine .inl ?_
          by_contra calm
          cases mild calm
    running := fun s p runs => by
      obtain ⟨idle, alone, b, found, honours⟩ := bonded.running s p runs
      have old := bonded.old found
      exact ⟨fun pausing => ((paused s).mp pausing).elim idle (Nat.ne_of_lt old),
        fun member => ((parked s).mp member).elim alone (Nat.ne_of_lt old), b, (older_ne old).trans found, honours⟩
    ended := fun s b found joined branch member living => by
      rcases noted_cases found with ⟨_, ⟨⟩⟩ | ⟨_, found⟩
      · cases joined
      · have pledged := bonded.branches s b found branch member
        exact ((alive _).mp living).elim (bonded.ended s b found joined branch member)
          (Nat.ne_of_lt (bonded.numbered _ _ pledged).1)
    owed := fun s b promised found owes => by
      rcases noted_cases found with ⟨rfl, ⟨⟩⟩ | ⟨_, found⟩
      · obtain rfl : promise = some promised := owes
        exact ⟨_, Pledges.add_self, rfl⟩
      · obtain ⟨pledge, pledged, same⟩ := bonded.owed s b promised found owes
        exact ⟨pledge, within s pledge pledged, same⟩
    branches := fun s b found branch member => by
      rcases noted_cases found with ⟨_, ⟨⟩⟩ | ⟨_, found⟩
      · cases member
      · exact within _ _ (bonded.branches s b found branch member)
    numbered := fun s pledge pledged => by
      rcases Pledges.add_cases pledged with ⟨rfl, rfl, _⟩ | pledged
      · exact ⟨Nat.lt_succ_self _, older⟩
      · obtain ⟨old, collectors⟩ := bonded.numbered s pledge pledged
        exact ⟨Nat.lt_succ_of_lt old, collectors⟩
    outcomes := fun s outcome left => by
      obtain ⟨pledge, pledged, kept⟩ := bonded.outcomes s outcome left
      exact ⟨pledge, within s pledge pledged, kept⟩
    kept := fun mild s pledge pledged counted => by
      rcases Pledges.add_cases pledged with ⟨rfl, _, same⟩ | pledged
      · exact .inl ⟨_, Function.update_self .., same⟩
      · have before := counted.of_update fun member => absurd member List.not_mem_nil
        refine (bonded.kept mild s pledge pledged before).imp_left fun owing => noted_update owing fun b found => ?_
        cases bonded.new.symm.trans found
    charged := fun mild id unbegun => by
      obtain ⟨s, b, found, charge⟩ := bonded.charged mild id unbegun
      exact ⟨s, b, (older_ne (bonded.old found)).trans found, charge⟩
    rests := fun mild s living => by
      rcases (alive s).mp living with before | new
      · exact (bonded.rests mild s before).imp_right fun pausing => (paused s).mpr (.inl pausing)
      · exact .inr ((paused s).mpr (.inr new))
    posted := fun mild s pausing => (parked s).mpr (((paused s).mp pausing).imp_left (bonded.posted mild s)) }

/-- A task creates another one. -/
theorem spawns {body : TaskId → Routine σ Unit} {k : TaskId → Routine σ Unit}
    (runs : m.running = some (t, .spawn body k)) :
    ∃ bonds' pledges', pledges.Within pledges' ∧
      ({ (m.launch body).1 with running := some (t, k m.world.agenda.created) } : Machine σ).Bonded c bonds'
        pledges' := by
  obtain ⟨_, _, b, found, honours⟩ := bonded.running t _ runs
  obtain ⟨given, b', hires, created, rest⟩ := honours m.world.agenda.created
  have old := bonded.old found
  have different : t ≠ m.world.agenda.created := Nat.ne_of_lt old
  obtain ⟨promise, charge, rfl⟩ : ∃ promise charge, given = { owes := promise, charge } := by
    cases hires <;> exact ⟨_, _, rfl⟩
  have launched := bonded.launched (some t) (fun s same => Option.some.inj same ▸ old) charge created
  have mine : Function.update bonds m.world.agenda.created (some { owes := promise, charge }) t = some b :=
    (Function.update_of_ne different ..).trans found
  have pledged : pledges.add m.world.agenda.created (some t) promise m.world.agenda.created =
      promise.map fun promise => ⟨some t, promise⟩ := by
    cases promise with
    | none => exact bonded.unpledged
    | some promise => exact Pledges.add_self
  have hired {branch : TaskId × (Outcome → Prop)} (member : branch ∈ b'.branches) :
      branch ∈ b.branches ∨ branch.1 = m.world.agenda.created ∧ promise = some branch.2 := by
    cases hires with
    | aide | driver => exact .inl member
    | branch promise =>
      rcases List.mem_append.mp member with before | last
      · exact .inl before
      · rw [List.mem_singleton.mp last]
        exact .inr ⟨rfl, rfl⟩
  have same : b'.owes = b.owes ∧ b'.joined = b.joined := by
    cases hires <;> exact ⟨rfl, rfl⟩
  refine ⟨_, _, Pledges.within_add bonded.unpledged, launched.turns b' runs mine (fun joined branch member => ?_)
    (fun promised owes => same.1 ▸ owes) (fun branch member => ?_) launched.outcomes ?_ (fun id _ charged => ?_) rest⟩
  · rcases hired member with before | ⟨_, some⟩
    · exact launched.ended t b mine (same.2 ▸ joined) branch before
    · cases hires with
      | aide | driver => cases some
      | branch _ open_ => cases open_.symm.trans joined
  · rcases hired member with before | ⟨named, some⟩
    · exact launched.branches t b mine branch before
    · rw [named, pledged, some]
      rfl
  · intro mild s pledge pledged' counted
    rcases Pledges.add_cases pledged' with ⟨rfl, _, some⟩ | before
    · refine .inl ⟨_, (Function.update_of_ne (Ne.symm different) ..).trans (Function.update_self ..), some⟩
    have younger : s ≠ m.world.agenda.created := Nat.ne_of_lt (bonded.numbered s pledge before).1
    have counted' := counted.of_update fun member =>
      ⟨b, mine, (hired member).resolve_right fun new => younger new.1⟩
    refine (launched.kept mild s pledge pledged' counted').imp_left fun owing => noted_update owing fun b₁ known owes => ?_
    obtain rfl := Option.some.inj (mine.symm.trans known)
    exact same.1.trans owes
  · cases hires with
    | aide | branch => exact ⟨t, _, Function.update_self .., charged⟩
    | driver id' charge =>
      obtain rfl := Option.some.inj (charge.symm.trans charged)
      exact ⟨_, _, (Function.update_of_ne (Ne.symm different) ..).trans (Function.update_self ..), rfl⟩

/-! ## The running task -/

/-- An errand is run by whoever has to run it. -/
theorem calls (interprets : e.Interprets c) (suits : host.Suits c) {errand : Errand}
    {k : Except Interrupt Value → Routine σ Unit} (runs : m.running = some (t, .call errand k)) :
    ∃ bonds', ({ m with running := some (t, (host.service e errand).bind k) } : Machine σ).Bonded c bonds' pledges := by
  obtain ⟨_, _, b, found, free, honours⟩ := bonded.running t _ runs
  refine ⟨_, bonded.goes b runs found (bonded.ended t b found) rfl (fun _ member => member)
    (fun _ charge => .inl charge) ?_⟩
  refine (Host.service_meets interprets suits errand t b free).bind ?_
  rintro answer _ ⟨rfl, answers⟩
  exact honours answer answers

/-- A task does not have to wait. -/
theorem goesOn {cue : Cue} {k : Wake → Routine σ Unit} {wake : Wake} (runs : m.running = some (t, .wait cue k))
    (immediate : immediate? m.world cue = some wake) :
    ∃ bonds', ({ m with running := some (t, k wake) } : Machine σ).Bonded c bonds' pledges := by
  obtain ⟨_, _, b, found, awaits, honours⟩ := bonded.running t _ runs
  refine ⟨_, bonded.goes _ runs found (fun joined branch member => ?_) (b.after_owes cue wake)
    (fun _ member => Bond.mem_of_after member) (fun _ charge => .inl ((b.after_charge cue wake).trans charge))
    (honours wake (awaits.immediate immediate))⟩
  have before := Bond.mem_of_after member
  rcases Bond.joined_of_after joined with joined | ⟨⟨ids, rfl⟩, _⟩
  · exact bonded.ended t b found joined branch before
  · change (if ids.isEmpty then some Wake.ready else none) = some wake at immediate
    split at immediate
    · next empty =>
      have none : b.branches = [] := List.map_eq_nil_iff.mp (awaits.2 ▸ List.isEmpty_iff.mp empty)
      rw [none] at before
      cases before
    · cases immediate

/-- A task has nothing left to do, and in a mild climate it has left behind what it promised. -/
theorem finishes (runs : m.running = some (t, .done ())) :
    (schedule { m with running := none } (·.finish t)).Bonded c (Function.update bonds t none) pledges := by
  obtain ⟨idle, alone, b, found, free⟩ := bonded.running t _ runs
  have ends := bonded.fair.orderly.finish t
  have retains := m.world.agenda.finish_retains t
  have soothes := m.world.agenda.soothes_finish t
  have known {s : TaskId} {b₁ : Bond} (listed : Function.update bonds t none s = some b₁) : s ≠ t ∧ bonds s = some b₁ :=
    (noted_cases listed).resolve_left fun new => nomatch new.2
  exact {
    fair := ⟨ends.orderly, (show (m.world.agenda.finish t).now = _ from retains.now) ▸ bonded.fair.moment,
      fun mild => soothes.serene (bonded.fair.serene mild), bonded.fair.records, bonded.fair.journal⟩
    enlisted := fun s b₁ listed =>
      (ends.alive s).mpr ⟨bonded.enlisted s b₁ (known listed).2, (known listed).1⟩
    apart := bonded.apart
    parked := fun s k listed => by
      have different : s ≠ t := by
        rintro rfl
        exact alone (List.mem_map_of_mem listed)
      obtain ⟨b₁, found₁, parked⟩ := bonded.parked s k listed
      exact ⟨b₁, (Function.update_of_ne different ..).trans found₁, parked.later ends.passes.continues⟩
    running := fun _ _ runs => nomatch runs
    ended := fun s b₁ listed joined branch member alive =>
      bonded.ended s b₁ (known listed).2 joined branch member ((ends.alive _).mp alive).1
    owed := fun s b₁ promise listed => bonded.owed s b₁ promise (known listed).2
    branches := fun s b₁ listed => bonded.branches s b₁ (known listed).2
    numbered := fun s pledge pledged => by
      rw [show (schedule { m with running := none } (·.finish t)).world.agenda.created = _ from retains.created]
      exact bonded.numbered s pledge pledged
    outcomes := fun s outcome left => bonded.outcomes s outcome
      ((show (m.world.agenda.finish t).outcomes = _ from retains.outcomes) ▸ left)
    kept := fun mild s pledge pledged counted => by
      have before : bonds.CountOn s pledge := by
        intro collector same
        obtain ⟨b₁, listed, member⟩ := counted collector same
        exact ⟨b₁, (known listed).2, member⟩
      rcases bonded.kept mild s pledge pledged before with ⟨b₁, found₁, owes⟩ | ⟨outcome, left⟩
      · have different : s ≠ t := by
          rintro rfl
          obtain rfl := Option.some.inj (found.symm.trans found₁)
          rw [(free.resolve_left mild).1] at owes
          cases owes
        exact .inl ⟨b₁, (Function.update_of_ne different ..).trans found₁, owes⟩
      · refine .inr ⟨outcome, ?_⟩
        rw [show (schedule { m with running := none } (·.finish t)).world.agenda.outcomes = _ from retains.outcomes]
        exact left
    charged := fun mild id unbegun => by
      obtain ⟨s, b₁, found₁, charge⟩ := bonded.charged mild id unbegun
      refine ⟨s, b₁, (Function.update_of_ne ?_ ..).trans found₁, charge⟩
      rintro rfl
      obtain rfl := Option.some.inj (found.symm.trans found₁)
      cases (free.resolve_left mild).2.symm.trans charge
    rests := fun mild s alive => by
      obtain ⟨before, different⟩ := (ends.alive s).mp alive
      right
      rcases bonded.rests mild s before with ⟨p, going⟩ | paused
      · cases runs.symm.trans going
        exact absurd rfl different
      · exact soothes.paused s paused
    posted := fun mild s paused => bonded.posted mild s (m.world.agenda.paused_finish t ▸ paused) }

/-- A task is marked no longer, or nobody is to be marked in such a climate. -/
theorem spares_unmark (id : TaskId) :
    c.Spares m.world { m.world with agenda := m.world.agenda.amend id ({ · with cancelled := false }) } := by
  have tends := bonded.fair.orderly.amend id (f := ({ · with cancelled := false })) fun _ => ⟨rfl, rfl⟩
  exact bonded.fair.spares_agenda (tends.stands ⟨rfl, rfl, rfl⟩) (fun _ => m.world.agenda.soothes_unmark id) rfl rfl

/-- Someone cancels a task. -/
theorem cancels (harsh : c.harsh) (id : TaskId) :
    ({ m with world := (m.world.cancel id).1 } : Machine σ).Bonded c bonds pledges := by
  have stirs := World.cancel_stirs id bonded.fair.orderly
  exact bonded.stirred (bonded.fair.spares_agenda (stirs.agenda.stands (m.world.cancel_retains id))
    (fun mild => absurd harsh mild) stirs.ledger stirs.journal)

/-- A task begins to wait. -/
theorem waits {cue : Cue} {k : Wake → Routine σ Unit} (runs : m.running = some (t, .wait cue k))
    (suspends : immediate? m.world cue = none) :
    (schedule { m with parked := m.parked ++ [(t, k)], running := none } (heed t cue)).Bonded c bonds pledges := by
  obtain ⟨idle, alone, b, found, awaits, honours⟩ := bonded.running t _ runs
  have old := bonded.old found
  have mine (ids : List TaskId) (same : cue = .tasks ids) (other : TaskId) (listed : other ∈ ids) :
      other < m.world.agenda.created ∧ t < other := by
    subst same
    obtain ⟨branch, member, rfl⟩ := List.mem_map.mp (awaits.2 ▸ listed)
    obtain ⟨older, collectors⟩ := bonded.numbered _ _ (bonded.branches t b found branch member)
    exact ⟨older, collectors t rfl⟩
  obtain ⟨wait, heeds, joins, _⟩ := bonded.fair.orderly.heed idle old fun ids same other listed =>
    (mine ids same other listed).1
  have retains := m.world.agenda.heed_retains t cue
  have soothes (mild : ¬c.harsh) : m.world.agenda.Soothes (heed t cue m.world.agenda) := by
    refine m.world.agenda.soothes_heed t (fun token same => ?_) (fun same => ?_) fun ids same other listed =>
      (mine ids same other listed).2
    · subst same
      exact mild awaits
    · subst same
      cases suspends
  have pauses (s : TaskId) := m.world.agenda.mem_paused_heed t s cue
  exact {
    fair := ⟨heeds.orderly, (show (heed t cue m.world.agenda).now = _ from retains.now) ▸ bonded.fair.moment,
      fun mild => (soothes mild).serene (bonded.fair.serene mild), bonded.fair.records, bonded.fair.journal⟩
    enlisted := fun s b₁ listed =>
      (show (heed t cue m.world.agenda).alive = _ from heeds.alive) ▸ bonded.enlisted s b₁ listed
    apart := nodup_park bonded.apart alone k
    parked := fun s k' listed => by
      rcases List.mem_append.mp listed with before | last
      · obtain ⟨b₁, found₁, parked⟩ := bonded.parked s k' before
        exact ⟨b₁, found₁, parked.later heeds.passes.continues⟩
      · cases List.mem_singleton.mp last
        refine ⟨b, found, cue, honours, fun ids same => ?_⟩
        subst same
        refine ⟨awaits.2, fun other listed => ?_, .inl (heeds.joins ids (joins ids rfl))⟩
        exact Nat.lt_of_lt_of_le (mine ids rfl other listed).1 heeds.passes.created
    running := fun _ _ runs => nomatch runs
    ended := fun s b₁ listed joined branch member alive => bonded.ended s b₁ listed joined branch member
      ((show (heed t cue m.world.agenda).alive = _ from heeds.alive) ▸ alive)
    owed := bonded.owed
    branches := bonded.branches
    numbered := fun s pledge pledged =>
      (show (heed t cue m.world.agenda).created = _ from retains.created).symm ▸ bonded.numbered s pledge pledged
    outcomes := fun s outcome left => bonded.outcomes s outcome
      ((show (heed t cue m.world.agenda).outcomes = _ from retains.outcomes) ▸ left)
    kept := fun mild s pledge pledged counted => by
      refine (bonded.kept mild s pledge pledged counted).imp_right ?_
      exact (show (heed t cue m.world.agenda).outcomes = _ from retains.outcomes).symm ▸ fun left => left
    charged := bonded.charged
    rests := fun mild s alive => by
      right
      have before : s ∈ m.world.agenda.alive := (show (heed t cue m.world.agenda).alive = _ from heeds.alive) ▸ alive
      rcases bonded.rests mild s before with ⟨p, going⟩ | paused
      · cases runs.symm.trans going
        exact (pauses t).mpr (.inr rfl)
      · exact (pauses s).mpr (.inl paused)
    posted := fun mild s paused => by
      change s ∈ List.map (·.1) (m.parked ++ [(t, k)])
      rw [List.map_append, List.mem_append]
      exact ((pauses s).mp paused).imp (bonded.posted mild s) List.mem_singleton.mpr }

/-- A task that begins to wait may have been cancelled while it was running. -/
theorem parks {cue : Cue} {k : Wake → Routine σ Unit} (runs : m.running = some (t, .wait cue k))
    (suspends : immediate? m.world cue = none) : (m.park t cue k).Bonded c bonds pledges := by
  have waits := bonded.waits runs suspends
  unfold park
  simp only
  split
  · next marked =>
    have harsh : c.harsh := by
      by_contra mild
      cases ((waits.fair.serene mild).unmarked_task? t).symm.trans marked
    exact (waits.stirred (waits.spares_unmark t)).cancels harsh t
  · exact waits

/-! ## Jobs -/

/-- A task that is about to be resumed waits no longer. If it waited for its branches, they have ended. -/
theorem branches_ended {wake : Wake} {ready : List Job} (queue : m.world.agenda.ready = .resume t wake :: ready)
    (awaits : m.world.agenda.Awaits t (b.branches.map (·.1))) :
    ∀ branch ∈ b.branches, branch.1 ∉ m.world.agenda.alive := by
  intro branch among
  rcases awaits.joins with joins | gone
  · have paused := Agenda.Joins.paused (a := { m.world.agenda with ready }) joins
    exact absurd paused (bonded.fair.orderly.dequeue_resume queue)
  · exact gone branch.1 (List.mem_map_of_mem among)

/-- A parked task goes on with the bond that it has after its wait. -/
theorem wakes (idle : m.running = none) {wake wake' : Wake} {ready : List Job}
    (queue : m.world.agenda.ready = .resume t wake :: ready) {k : Wake → Routine σ Unit} (member : (t, k) ∈ m.parked)
    (mildly : ¬c.harsh → wake' = .ready) :
    ∃ bonds', ({ (m.schedule ({ · with ready })).schedule fun a => a.amend t ({ · with cancelled := false }) with
        parked := m.parked.filter (·.1 != t)
        running := some (t, k wake') } : Machine σ).Bonded c bonds' pledges := by
  obtain ⟨b, found, cue, honours, awaits⟩ := bonded.parked t k member
  have taken := bonded.fair.orderly.dequeue queue rfl
  have released := bonded.fair.orderly.dequeue_resume queue
  have marked := taken.orderly.amend t (f := ({ · with cancelled := false })) fun _ => ⟨rfl, rfl⟩
  have stands := (taken.stands ⟨rfl, rfl, rfl⟩).trans (marked.stands ⟨rfl, rfl, rfl⟩)
  have stay {s : TaskId} {k' : Wake → Routine σ Unit} (left : (s, k') ∈ m.parked.filter (·.1 != t)) :
      (s, k') ∈ m.parked ∧ s ≠ t := by
    simpa using left
  refine ⟨Function.update bonds t (some (b.after cue wake')), {
    fair := ⟨marked.orderly, bonded.fair.moment, fun mild =>
      (Agenda.soothes_unmark _ t).serene ((bonded.fair.serene mild).dequeue queue (by simp)),
      bonded.fair.records, bonded.fair.journal⟩
    enlisted := fun s b₁ listed => (stands.alive s).mpr ?_
    apart := bonded.apart.sublist (List.filter_sublist.map _)
    parked := fun s k' left => ?_
    running := fun s p going => ?_
    ended := fun s b₁ listed joined branch among alive => ?_
    owed := fun s b₁ promise listed owes => ?_
    branches := fun s b₁ listed branch among => ?_
    numbered := bonded.numbered
    outcomes := bonded.outcomes
    kept := fun mild s pledge pledged counted => ?_
    charged := fun mild id unbegun => ?_
    rests := fun mild s alive => ?_
    posted := fun mild s paused => ?_ }⟩
  · rcases noted_cases listed with ⟨rfl, _⟩ | ⟨_, listed⟩
    · exact bonded.enlisted s b found
    · exact bonded.enlisted s b₁ listed
  · obtain ⟨before, different⟩ := stay left
    obtain ⟨b₁, found₁, parked⟩ := bonded.parked s k' before
    exact ⟨b₁, (Function.update_of_ne different ..).trans found₁, parked.later stands.continues⟩
  · cases going
    refine ⟨fun paused => released ((marked.stands ⟨rfl, rfl, rfl⟩).paused t paused), fun among => ?_, _,
      Function.update_self .., honours wake' mildly⟩
    obtain ⟨⟨s, k'⟩, left, same⟩ := List.mem_map.mp among
    exact (stay left).2 same
  · have living := (stands.alive _).mp alive
    rcases noted_cases listed with ⟨rfl, ⟨⟩⟩ | ⟨_, listed⟩
    · have before := Bond.mem_of_after among
      rcases Bond.joined_of_after joined with joined | ⟨⟨ids, same⟩, _⟩
      · exact bonded.ended s b found joined branch before living
      · obtain ⟨rfl, waiting⟩ := awaits ids same
        exact bonded.branches_ended queue waiting branch before living
    · exact bonded.ended s b₁ listed joined branch among living
  · rcases noted_cases listed with ⟨rfl, ⟨⟩⟩ | ⟨_, listed⟩
    · exact bonded.owed s b promise found (b.after_owes cue wake' ▸ owes)
    · exact bonded.owed s b₁ promise listed owes
  · rcases noted_cases listed with ⟨rfl, ⟨⟩⟩ | ⟨_, listed⟩
    · exact bonded.branches s b found branch (Bond.mem_of_after among)
    · exact bonded.branches s b₁ listed branch among
  · have before := counted.of_update fun among => ⟨b, found, Bond.mem_of_after among⟩
    refine (bonded.kept mild s pledge pledged before).imp_left fun owing => noted_update owing fun b₁ found₁ owes => ?_
    obtain rfl := Option.some.inj (found.symm.trans found₁)
    exact (b.after_owes cue wake').trans owes
  · obtain ⟨s, charged⟩ := bonded.charged mild id unbegun
    refine ⟨s, noted_update charged fun b₁ found₁ charge => ?_⟩
    obtain rfl := Option.some.inj (found.symm.trans found₁)
    exact (b.after_charge cue wake').trans charge
  · rcases eq_or_ne s t with rfl | different
    · exact .inl ⟨_, rfl⟩
    · right
      rcases bonded.rests mild s ((stands.alive s).mp alive) with ⟨p, going⟩ | paused
      · cases idle.symm.trans going
      · have still := (List.mem_cons.mp ((Agenda.paused_of_resume queue).mem_iff.mp paused)).resolve_left different
        exact (Agenda.soothes_unmark _ t).paused s still
  · have different : s ≠ t := by
      rintro rfl
      exact released paused
    obtain ⟨⟨s', k'⟩, before, rfl⟩ := List.mem_map.mp (bonded.posted mild s (stands.paused s paused))
    exact List.mem_map_of_mem (List.mem_filter.mpr ⟨before, by simpa using different⟩)

/-- A task is resumed, and in a mild climate it is parked and goes on because its cue has come. -/
theorem resumes (idle : m.running = none) {wake : Wake} {ready : List Job}
    (queue : m.world.agenda.ready = .resume t wake :: ready) :
    ∃ bonds', ((m.schedule ({ · with ready })).resume t wake).Bonded c bonds' pledges := by
  rcases (m.schedule ({ · with ready })).resume_cases t wake with ⟨absent, still⟩ | ⟨k, member, goes⟩
  · have harsh : c.harsh := by
      by_contra mild
      exact absent (bonded.posted mild t ((Agenda.paused_of_resume queue).mem_iff.mpr List.mem_cons_self))
    have stands := (bonded.fair.orderly.dequeue queue rfl).stands ⟨rfl, rfl, rfl⟩
    rw [still]
    exact ⟨bonds, bonded.stirred (bonded.fair.spares_agenda stands (fun mild => absurd harsh mild) rfl rfl)⟩
  · rw [goes]
    exact bonded.wakes idle queue member fun mild => (bonded.fair.serene mild).resumed_ready queue

/-- A job of the queue is done. -/
theorem executes (idle : m.running = none) {job : Job} {ready : List Job}
    (queue : m.world.agenda.ready = job :: ready) :
    ∃ bonds', ((m.schedule ({ · with ready })).execute job).Bonded c bonds' pledges := by
  have serene (noTimer : ∀ t, job ≠ .ring t) (mild : ¬c.harsh) : ({ m.world.agenda with ready } : Agenda).Serene :=
    (bonded.fair.serene mild).dequeue queue fun t same => absurd same (noTimer t)
  have shrinks : m.world.agenda.Retains ({ m.world.agenda with ready } : Agenda) := ⟨rfl, rfl, rfl⟩
  have pausing (noResume : job.resumed? = none) {s : TaskId} (paused : s ∈ m.world.agenda.paused) :
      s ∈ ({ m.world.agenda with ready } : Agenda).paused := by
    rwa [Agenda.paused, queue, List.filterMap_cons_none noResume] at paused
  cases job with
  | resume t wake => exact bonded.resumes idle queue
  | ring t =>
    have taken := bonded.fair.orderly.dequeue queue rfl
    have tends := taken.trans bonded.fair.orderly (taken.orderly.ring t)
    have retains : m.world.agenda.Retains (({ m.world.agenda with ready } : Agenda).ring t) :=
      shrinks.trans (Agenda.ring_retains _ t)
    exact ⟨bonds, bonded.stirred (bonded.fair.spares_agenda (tends.stands retains)
      (fun mild => ⟨fun serene => serene.ring bonded.fair.orderly queue,
        fun s paused => Agenda.paused_ring (pausing rfl paused) t⟩) rfl rfl)⟩
  | report t =>
    have retains : m.world.agenda.Retains (({ m.world.agenda with ready } : Agenda).hear t) :=
      shrinks.trans (Agenda.hear_retains _ t)
    refine ⟨bonds, bonded.stirred (bonded.fair.spares_agenda ((bonded.fair.orderly.hear queue).stands retains)
      (fun mild => ?_) rfl rfl)⟩
    obtain ⟨heard, paused⟩ := (serene (by simp) mild).hear t
    exact ⟨fun _ => heard, fun s member => paused s (pausing rfl member)⟩
  | forget execution =>
    have taken := bonded.fair.orderly.dequeue queue rfl
    exact ⟨bonds, bonded.stirred (bonded.fair.spares_agenda (taken.stands ⟨rfl, rfl, rfl⟩)
      (fun mild => ⟨fun _ => serene (by simp) mild, fun _ paused => pausing rfl paused⟩) rfl rfl)⟩

/-! ## The clock -/

/-- The clock moves on, and the timers that are due ring. -/
theorem rings {now : Float} (shows : c.time.Shows now) :
    ({ m with world := { m.world with agenda := Agenda.ringDue { m.world.agenda with now } } } : Machine σ).Bonded c
      bonds pledges := by
  have clocked := bonded.clocked shows
  have spares : c.Spares { m.world with agenda := { m.world.agenda with now } }
      { m.world with agenda := Agenda.ringDue { m.world.agenda with now } } :=
    clocked.fair.spares_agenda (clocked.fair.orderly.ringDue.stands (Agenda.ringDue_retains _))
      (fun _ => Agenda.soothes_ringDue _) rfl rfl
  exact clocked.stirred spares

/-! ## Steps -/

/-- A guest is welcome if it honours the bond of a task that may promise something. -/
theorem happens (interprets : e.Interprets c) (suits : host.Suits c) {Welcome : (TaskId → Routine σ Unit) → Prop}
    (guests : ∀ body, Welcome body → ∃ promise, ∀ id, (body id).Honours c id { owes := promise } fun _ b => b.Over c)
    (happens : Machine.Happens e host c.time c.harsh Welcome m m') :
    ∃ bonds' pledges', pledges.Within pledges' ∧ m'.Bonded c bonds' pledges' := by
  have kept {m' : Machine σ} (bonded' : ∃ bonds', m'.Bonded c bonds' pledges) :
      ∃ bonds' pledges', pledges.Within pledges' ∧ m'.Bonded c bonds' pledges' := by
    obtain ⟨bonds', bonded'⟩ := bonded'
    exact ⟨bonds', pledges, .refl pledges, bonded'⟩
  cases happens with
  | work taken =>
    rcases step?_cases taken with ⟨t, p, runs, rfl⟩ | ⟨job, ready, idle, queue, rfl⟩
    · cases p with
      | done => exact kept ⟨_, bonded.finishes runs⟩
      | act f k => exact kept (bonded.acts runs)
      | call errand k => exact kept (bonded.calls interprets suits runs)
      | spawn body k => exact bonded.spawns runs
      | wait cue k =>
        rw [advance]
        cases immediate : immediate? m.world cue with
        | some wake => exact kept (bonded.goesOn runs immediate)
        | none => exact kept ⟨bonds, bonded.parks runs immediate⟩
    · exact kept (bonded.executes idle queue)
  | arrive body welcome =>
    obtain ⟨promise, honours⟩ := guests body welcome
    exact ⟨_, _, Pledges.within_add bonded.unpledged, bonded.launched none (by rintro _ ⟨⟩) none (honours _)⟩
  | elapse elapsed shows =>
    obtain ⟨agenda, moved, rfl⟩ := Option.map_eq_some_iff.mp elapsed
    obtain ⟨due, _, rfl⟩ := Option.map_eq_some_iff.mp moved
    let waited : Agenda :=
      { m.world.agenda with now := if m.world.agenda.now < due then due else m.world.agenda.now }
    have now : waited.ringDue.now = waited.now := (Agenda.ringDue_retains waited).now
    have shown : c.time.Shows waited.now := now.symm ▸ shows
    exact kept ⟨bonds, bonded.rings shown⟩
  | wind seconds shows => exact kept ⟨bonds, bonded.rings shows⟩
  | cancel id possible => exact kept ⟨bonds, bonded.cancels possible id⟩

/-- Whatever happens, pledges are kept. -/
theorem unfolds (interprets : e.Interprets c) (suits : host.Suits c) {Welcome : (TaskId → Routine σ Unit) → Prop}
    (guests : ∀ body, Welcome body → ∃ promise, ∀ id, (body id).Honours c id { owes := promise } fun _ b => b.Over c)
    (unfolds : Machine.Unfolds e host c.time c.harsh Welcome m m') :
    ∃ bonds' pledges', pledges.Within pledges' ∧ m'.Bonded c bonds' pledges' := by
  induction unfolds with
  | refl => exact ⟨bonds, pledges, .refl pledges, bonded⟩
  | next _ last ih =>
    obtain ⟨bonds₁, pledges₁, within₁, bonded₁⟩ := ih
    obtain ⟨bonds₂, pledges₂, within₂, bonded₂⟩ := bonded₁.happens interprets suits guests last
    exact ⟨bonds₂, pledges₂, within₁.trans within₂, bonded₂⟩

/-! ## Rest -/

/-- In a mild climate nothing but a latch keeps a machine from rest that does not go on. -/
theorem rest_of_spent (mild : ¬c.harsh) {service : Service σ} (spent : m.Spent service)
    (unlatched : ¬m.Latched) : m.AtRest := by
  obtain ⟨idle, ready, untimed⟩ := spent_iff.mp spent
  have serene := bonded.fair.serene mild
  refine ⟨idle, ready, ?_⟩
  rintro ⟨t, wait⟩ waits joins
  cases wait with
  | timer due => exact untimed t due waits
  | ringing => exact absurd (ready ▸ serene.rings t waits) List.not_mem_nil
  | decision token => exact serene.unasked t token waits
  | latch key => exact unlatched ⟨t, key, waits⟩
  | tasks => cases joins

/-- In a mild climate every task has ended once the machine has come to rest. -/
theorem nobody_left (mild : ¬c.harsh) (rest : m.AtRest) : m.world.agenda.alive = [] := by
  refine rest.agenda.empty bonded.fair.orderly (bonded.fair.serene mild) fun t alive => ?_
  refine (bonded.rests mild t alive).resolve_left ?_
  rintro ⟨p, going⟩
  cases rest.idle.symm.trans going

/-- In a mild climate every execution on record has begun by then. -/
theorem begun_of_rest (mild : ¬c.harsh) (rest : m.AtRest) {id : String} (recorded : m.world.Recorded id) :
    m.world.HasBegun id := by
  by_contra unbegun
  obtain ⟨t, b, found, _⟩ := bonded.charged mild id ⟨recorded, unbegun⟩
  have alive := bonded.enlisted t b found
  rw [bonded.nobody_left mild rest] at alive
  cases alive

/-- In a mild climate whoever promised something to nobody in particular has kept the promise in the end. -/
theorem left_of_rest (mild : ¬c.harsh) (rest : m.AtRest) {promise : Outcome → Prop}
    (pledged : pledges t = some ⟨none, promise⟩) : ∃ outcome, (t, outcome) ∈ m.world.agenda.outcomes := by
  refine (bonded.kept mild t _ pledged fun _ same => nomatch same).resolve_left ?_
  rintro ⟨b, found, _⟩
  have alive := bonded.enlisted t b found
  rw [bonded.nobody_left mild rest] at alive
  cases alive

end Machine.Bonded

/-! ## Runs from the beginning -/

/-- Before anything happens nothing is cut short. -/
theorem Machine.Pristine.serene (pristine : m.Pristine) : m.world.agenda.Serene := by
  have nobody (task : Task) : task ∉ m.world.agenda.tasks := pristine.tasks ▸ List.not_mem_nil
  have idle (id : TaskId) (wait : Wait) : (id, wait) ∉ m.world.agenda.waits := pristine.waits ▸ List.not_mem_nil
  exact {
    unmarked := fun task member => absurd member (nobody task)
    resumed := fun id => pristine.ready ▸ List.not_mem_nil
    uncut := fun id ids left cut waits => absurd waits (idle id _)
    descends := fun task member => absurd member (nobody task)
    unasked := fun id token => idle id _
    rings := fun id waits => absurd waits (idle id _) }

theorem Machine.Pristine.fair (pristine : m.Pristine) (shows : c.time.Shows m.world.agenda.now) : c.Fair m.world where
  orderly := pristine.orderly
  moment := shows
  serene _ := pristine.serene
  records id x found := by
    rw [Ledger.record?, pristine.records] at found
    cases found
  journal h member := by
    rw [pristine.journal] at member
    cases member

/-- Before anything happens nobody has promised anything. -/
theorem Machine.Pristine.bonded (pristine : m.Pristine) (outcomes : m.world.agenda.outcomes = [])
    (shows : c.time.Shows m.world.agenda.now) : m.Bonded c (fun _ => none) fun _ => none where
  fair := pristine.fair shows
  enlisted _ _ found := nomatch found
  apart := by
    rw [pristine.parked]
    exact .nil
  parked t k listed := by
    rw [pristine.parked] at listed
    cases listed
  running t p runs := by
    rw [pristine.running] at runs
    cases runs
  ended _ _ found := nomatch found
  owed _ _ _ found := nomatch found
  branches _ _ found := nomatch found
  numbered _ _ pledged := nomatch pledged
  outcomes t outcome left := by
    rw [outcomes] at left
    cases left
  kept _ _ _ pledged := nomatch pledged
  charged _ id unbegun := by
    have listed := unbegun.1
    rw [World.Recorded, Ledger.admitted, pristine.records] at listed
    cases listed
  rests _ t alive := by
    rw [pristine.alive] at alive
    cases alive
  posted _ t paused := by
    rw [pristine.paused] at paused
    cases paused

end Runbook
