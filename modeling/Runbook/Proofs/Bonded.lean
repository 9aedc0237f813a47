import Runbook.Proofs.Courtesy
import Runbook.Proofs.Manning

/-! # Machines whose tasks honour their bonds

Every task of a machine honours the bond that it has: the running one with all that it is still going to do, a
parked one with what it does when it is resumed. Whatever a task has left behind is what it promised, and in a
mild climate a promise that somebody still counts on is one that a live task is going to keep, or has kept, and
an execution that has not begun is one that a live task has charge of. Each step of a machine preserves this, and
what a task promised when it was created never changes.
-/

namespace Runbook

open Machine Interpreter

variable {σ : Type}

/-- What a task promised to leave behind, and who is to collect it: the task that created it as a branch, or
somebody outside. -/
structure Pledge where
  collector : Option TaskId
  promise : Outcome → Prop

/-- The bonds of the tasks that have not ended. -/
abbrev Bonds := TaskId → Option Bond

/-- What tasks promised, whether they have ended or not. -/
abbrev Pledges := TaskId → Option Pledge

/-- No pledge has been changed. -/
def Pledges.Within (pledges pledges' : Pledges) : Prop := ∀ t pledge, pledges t = some pledge → pledges' t = some pledge

/-- Somebody still counts on what a task has promised. -/
def Bonds.CountOn (bonds : Bonds) (t : TaskId) (pledge : Pledge) : Prop :=
  ∀ s, pledge.collector = some s → ∃ b, bonds s = some b ∧ (t, pledge.promise) ∈ b.branches

/-- A task has charge of the execution. -/
def Bonds.Charged (bonds : Bonds) (id : String) : Prop := ∃ t b, bonds t = some b ∧ b.charge = some id

/-- A parked task honours its bond whatever it waits for. If it waits for others, these are its branches. -/
def Bond.Parked (c : Climate) (b : Bond) (a : Agenda) (t : TaskId) (k : Wake → Routine σ Unit) : Prop :=
  ∃ cue, (∀ wake, (¬c.harsh → wake = .ready) → (k wake).Honours c t (b.after cue wake) fun _ b => b.Over c) ∧
    ∀ ids, cue = .tasks ids → ids = b.branches.map (·.1) ∧ a.Awaits t ids

/-- The tasks of the machine honour their bonds. -/
structure Machine.Bonded (c : Climate) (m : Machine σ) (bonds : Bonds) (pledges : Pledges) : Prop where
  fair : c.Fair m.world
  enlisted : ∀ t b, bonds t = some b → t ∈ m.world.agenda.alive
  apart : (m.parked.map (·.1)).Nodup
  parked : ∀ t k, (t, k) ∈ m.parked → ∃ b, bonds t = some b ∧ b.Parked c m.world.agenda t k
  running : ∀ t p, m.running = some (t, p) → t ∉ m.world.agenda.paused ∧ t ∉ m.parked.map (·.1) ∧
    ∃ b, bonds t = some b ∧ p.Honours c t b fun _ b => b.Over c
  ended : ∀ t b, bonds t = some b → b.joined = true → ∀ branch ∈ b.branches, branch.1 ∉ m.world.agenda.alive
  owed : ∀ t b promise, bonds t = some b → b.owes = some promise →
    ∃ pledge, pledges t = some pledge ∧ pledge.promise = promise
  branches : ∀ t b, bonds t = some b → ∀ branch ∈ b.branches, pledges branch.1 = some ⟨some t, branch.2⟩
  /-- Whoever collects from a task was created before it. -/
  numbered : ∀ t pledge, pledges t = some pledge →
    t < m.world.agenda.created ∧ ∀ s, pledge.collector = some s → s < t
  outcomes : ∀ t outcome, (t, outcome) ∈ m.world.agenda.outcomes →
    ∃ pledge, pledges t = some pledge ∧ pledge.promise outcome
  kept : ¬c.harsh → ∀ t pledge, pledges t = some pledge → bonds.CountOn t pledge →
    (∃ b, bonds t = some b ∧ b.owes = some pledge.promise) ∨ ∃ outcome, (t, outcome) ∈ m.world.agenda.outcomes
  charged : ¬c.harsh → ∀ id, m.world.Unbegun id → bonds.Charged id
  /-- A task that does not run is parked, and waits or is about to be resumed. -/
  rests : ¬c.harsh → ∀ t ∈ m.world.agenda.alive, (∃ p, m.running = some (t, p)) ∨ t ∈ m.world.agenda.paused
  posted : ¬c.harsh → ∀ t ∈ m.world.agenda.paused, t ∈ m.parked.map (·.1)

variable {c : Climate} {e : Engine σ} {host : Host σ} {m m' : Machine σ} {bonds : Bonds} {pledges : Pledges}
  {t : TaskId} {b b' : Bond} {p q : Routine σ Unit}

theorem Bond.Parked.later {a a' : Agenda} {k : Wake → Routine σ Unit} (parked : b.Parked c a t k)
    (continues : a.Continues a') : b.Parked c a' t k := by
  obtain ⟨cue, honours, awaits⟩ := parked
  exact ⟨cue, honours, fun ids same => ⟨(awaits ids same).1, (awaits ids same).2.later continues⟩⟩

/-- Whoever counts on a promise now has done so before, if the bond that was changed is not the reason. -/
theorem Bonds.CountOn.of_update {s : TaskId} {pledge : Pledge}
    (counted : Bonds.CountOn (Function.update bonds t (some b')) s pledge)
    (fewer : (s, pledge.promise) ∈ b'.branches → ∃ b, bonds t = some b ∧ (s, pledge.promise) ∈ b.branches) :
    bonds.CountOn s pledge :=
  fun collector same => noted_of_update (counted collector same) fewer

namespace Agenda

theorem paused_watch (a : Agenda) (id : TaskId) (watcher : Watcher) {job : Job} (noResume : job.resumed? = none) :
    (a.watch id watcher job).paused = a.paused := by
  unfold watch
  split
  · rfl
  · simp [paused, enqueue, noResume]

/-- A task that begins to wait pauses, and nobody else does. -/
theorem mem_paused_heed (a : Agenda) (id other : TaskId) (cue : Cue) :
    other ∈ (Machine.heed id cue a).paused ↔ other ∈ a.paused ∨ other = id := by
  have suspends (wait : Wait) : other ∈ (a.suspend id wait).paused ↔ other ∈ a.paused ∨ other = id := by
    simp only [paused, suspend, List.map_append, List.mem_append, List.map_cons, List.map_nil, List.mem_singleton]
    tauto
  cases cue with
  | time seconds =>
    change other ∈ (a.sleep id seconds).paused ↔ _
    unfold sleep
    split
    · rw [paused_enqueue, List.mem_append, List.mem_singleton]
    · exact suspends _
  | decision token => exact suspends _
  | latch key => exact suspends _
  | tasks ids =>
    rw [← suspends (.tasks ids ids.length false)]
    change other ∈ (a.join id ids).paused ↔ _
    unfold join
    generalize a.suspend id (.tasks ids ids.length false) = joining
    induction ids generalizing joining with
    | nil => exact Iff.rfl
    | cons first rest ih => rw [List.foldl_cons, ih, paused_watch _ _ _ rfl]

end Agenda

namespace Machine.Bonded

variable (bonded : m.Bonded c bonds pledges)

include bonded

theorem old (found : bonds t = some b) : t < m.world.agenda.created :=
  bonded.fair.orderly.numbered t (bonded.enlisted t b found)

theorem new : bonds m.world.agenda.created = none := by
  cases found : bonds m.world.agenda.created with
  | none => rfl
  | some b => exact absurd (bonded.old found) (Nat.lt_irrefl _)

theorem unpledged : pledges m.world.agenda.created = none := by
  cases found : pledges m.world.agenda.created with
  | none => rfl
  | some pledge => exact absurd (bonded.numbered _ pledge found).1 (Nat.lt_irrefl _)

theorem vacant : m.world.agenda.created ∉ m.parked.map (·.1) := by
  intro member
  obtain ⟨⟨s, k⟩, listed, same⟩ := List.mem_map.mp member
  obtain ⟨b, found, _⟩ := bonded.parked s k listed
  exact Nat.ne_of_lt (bonded.old found) same

/-- What there is of branches that have ended is what they were to leave behind. -/
theorem backed (found : bonds t = some b) : b.Backed c m.world := by
  intro joined branch member
  have pledged := bonded.branches t b found branch member
  refine ⟨fun outcome left => ?_, fun mild => ?_⟩
  · obtain ⟨pledge, same, kept⟩ := bonded.outcomes _ outcome left
    obtain rfl := Option.some.inj (pledged.symm.trans same)
    exact kept
  · refine (bonded.kept mild branch.1 _ pledged ?_).resolve_left ?_
    · rintro s same
      obtain rfl := Option.some.inj same
      exact ⟨b, found, member⟩
    · rintro ⟨b', alive, _⟩
      exact bonded.ended t b found joined branch member (bonded.enlisted _ b' alive)

/-! ## Tasks that stay -/

/-- The tasks stay as they are, while waits end and executions are admitted that somebody has charge of. -/
theorem kept_charged {w : World σ} (keeps : c.Keeps m.world w)
    (unbegun : ∀ id, w.Unbegun id → m.world.Unbegun id ∨ bonds.Charged id) :
    ({ m with world := w } : Machine σ).Bonded c bonds pledges where
  fair := keeps.fair
  enlisted t b found := (keeps.stands.alive t).mpr (bonded.enlisted t b found)
  apart := bonded.apart
  parked t k listed := by
    obtain ⟨b, found, parked⟩ := bonded.parked t k listed
    exact ⟨b, found, parked.later keeps.stands.continues⟩
  running t p runs := by
    obtain ⟨idle, alone, known⟩ := bonded.running t p runs
    exact ⟨fun paused => idle (keeps.stands.paused t paused), alone, known⟩
  ended t b found joined branch member alive :=
    bonded.ended t b found joined branch member ((keeps.stands.alive _).mp alive)
  owed := bonded.owed
  branches := bonded.branches
  numbered t pledge pledged := by
    rw [keeps.stands.created]
    exact bonded.numbered t pledge pledged
  outcomes t outcome left := bonded.outcomes t outcome (keeps.stands.outcomes ▸ left)
  kept mild t pledge pledged counted := by
    rw [keeps.stands.outcomes]
    exact bonded.kept mild t pledge pledged counted
  charged mild id listed := (unbegun id listed).elim (bonded.charged mild id) fun charged => charged
  rests mild t alive :=
    (bonded.rests mild t ((keeps.stands.alive t).mp alive)).imp_right (keeps.paused mild t)
  posted mild t paused := bonded.posted mild t (keeps.stands.paused t paused)

theorem stirred {w : World σ} (spares : c.Spares m.world w) :
    ({ m with world := w } : Machine σ).Bonded c bonds pledges :=
  bonded.kept_charged spares.toKeeps fun id unbegun => .inl (spares.unbegun id unbegun)

/-- The clock moves. -/
theorem clocked {now : Float} (shows : c.time.Shows now) :
    ({ m with world := { m.world with agenda := { m.world.agenda with now } } } : Machine σ).Bonded c bonds
      pledges := by
  have tends : m.world.agenda.Tends { m.world.agenda with now } := bonded.fair.orderly.congr rfl rfl rfl rfl
  exact {
    fair := ⟨tends.orderly, shows, fun mild => (bonded.fair.serene mild).congr rfl rfl rfl, bonded.fair.records,
      bonded.fair.journal⟩
    enlisted := bonded.enlisted
    apart := bonded.apart
    parked := fun t k listed => by
      obtain ⟨b, found, parked⟩ := bonded.parked t k listed
      exact ⟨b, found, parked.later tends.passes.continues⟩
    running := bonded.running
    ended := bonded.ended
    owed := bonded.owed
    branches := bonded.branches
    numbered := bonded.numbered
    outcomes := bonded.outcomes
    kept := bonded.kept
    charged := bonded.charged
    rests := bonded.rests
    posted := bonded.posted }

/-! ## The running task -/

/-- The running task goes on with another bond, and perhaps with other outcomes left behind. -/
theorem turns (b' : Bond) (runs : m.running = some (t, p)) (found : bonds t = some b) {outcomes : List (TaskId × Outcome)}
    (ended : b'.joined = true → ∀ branch ∈ b'.branches, branch.1 ∉ m.world.agenda.alive)
    (owed : ∀ promise, b'.owes = some promise → b.owes = some promise)
    (branches : ∀ branch ∈ b'.branches, pledges branch.1 = some ⟨some t, branch.2⟩)
    (left : ∀ s outcome, (s, outcome) ∈ outcomes → ∃ pledge, pledges s = some pledge ∧ pledge.promise outcome)
    (kept : ¬c.harsh → ∀ s pledge, pledges s = some pledge →
      Bonds.CountOn (Function.update bonds t (some b')) s pledge →
        (∃ b, Function.update bonds t (some b') s = some b ∧ b.owes = some pledge.promise) ∨
          ∃ outcome, (s, outcome) ∈ outcomes)
    (charged : ∀ id, m.world.Unbegun id → b.charge = some id → Bonds.Charged (Function.update bonds t (some b')) id)
    (honours : q.Honours c t b' fun _ b => b.Over c) :
    ({ m with
        world := { m.world with agenda := { m.world.agenda with outcomes } }
        running := some (t, q) } : Machine σ).Bonded c (Function.update bonds t (some b')) pledges := by
  obtain ⟨idle, alone, _⟩ := bonded.running t p runs
  have tends : m.world.agenda.Tends { m.world.agenda with outcomes } := bonded.fair.orderly.congr rfl rfl rfl rfl
  exact {
    fair := ⟨tends.orderly, bonded.fair.moment,
      fun mild => (bonded.fair.serene mild).congr rfl rfl rfl, bonded.fair.records, bonded.fair.journal⟩
    enlisted := fun s b₁ known => by
      rcases noted_cases known with ⟨rfl, _⟩ | ⟨_, known⟩
      · exact bonded.enlisted s b found
      · exact bonded.enlisted s b₁ known
    apart := bonded.apart
    parked := fun s k listed => by
      have different : s ≠ t := by
        rintro rfl
        exact alone (List.mem_map_of_mem listed)
      obtain ⟨b, found, parked⟩ := bonded.parked s k listed
      exact ⟨b, (Function.update_of_ne different ..).trans found, parked.later tends.passes.continues⟩
    running := fun s p going => by
      cases going
      exact ⟨idle, alone, b', Function.update_self .., honours⟩
    ended := fun s b₁ known joined => by
      rcases noted_cases known with ⟨rfl, ⟨⟩⟩ | ⟨_, known⟩
      · exact ended joined
      · exact bonded.ended s b₁ known joined
    owed := fun s b₁ promise known owes => by
      rcases noted_cases known with ⟨rfl, ⟨⟩⟩ | ⟨_, known⟩
      · exact bonded.owed s b promise found (owed promise owes)
      · exact bonded.owed s b₁ promise known owes
    branches := fun s b₁ known => by
      rcases noted_cases known with ⟨rfl, ⟨⟩⟩ | ⟨_, known⟩
      · exact branches
      · exact bonded.branches s b₁ known
    numbered := bonded.numbered
    outcomes := left
    kept := kept
    charged := fun mild id unbegun => by
      obtain ⟨s, b₁, known, charge⟩ := bonded.charged mild id unbegun
      rcases eq_or_ne s t with rfl | different
      · obtain rfl := Option.some.inj (found.symm.trans known)
        exact charged id unbegun charge
      · exact ⟨s, b₁, (Function.update_of_ne different ..).trans known, charge⟩
    rests := fun mild s alive => by
      refine (bonded.rests mild s alive).imp_left ?_
      rintro ⟨p', going⟩
      cases runs.symm.trans going
      exact ⟨q, rfl⟩
    posted := bonded.posted }

/-- The running task goes on and has not left anything behind, nor taken anything. -/
theorem goes (b' : Bond) (runs : m.running = some (t, p)) (found : bonds t = some b)
    (ended : b'.joined = true → ∀ branch ∈ b'.branches, branch.1 ∉ m.world.agenda.alive)
    (owed : b'.owes = b.owes) (fewer : ∀ branch ∈ b'.branches, branch ∈ b.branches)
    (charged : ∀ id, b.charge = some id → b'.charge = some id ∨ ¬m.world.Unbegun id)
    (honours : q.Honours c t b' fun _ b => b.Over c) :
    ({ m with running := some (t, q) } : Machine σ).Bonded c (Function.update bonds t (some b')) pledges := by
  refine bonded.turns b' runs found ended (fun promise owes => owed ▸ owes)
    (fun branch member => bonded.branches t b found branch (fewer branch member)) bonded.outcomes ?_
    (fun id unbegun charge => ⟨t, b', Function.update_self .., (charged id charge).resolve_right fun begun =>
      begun unbegun⟩) honours
  intro mild s pledge pledged counted
  have before := counted.of_update fun member => ⟨b, found, fewer _ member⟩
  refine (bonded.kept mild s pledge pledged before).imp_left fun owing => noted_update owing fun b₁ known owes => ?_
  obtain rfl := Option.some.inj (found.symm.trans known)
  exact owed.trans owes

/-- A task does something. -/
theorem acts {β : Type} {f : World σ → β × World σ} {k : β → Routine σ Unit}
    (runs : m.running = some (t, .act f k)) :
    ∃ bonds', ({ m with world := (f m.world).2, running := some (t, k (f m.world).1) } : Machine σ).Bonded c bonds'
      pledges := by
  obtain ⟨_, _, b, found, honours⟩ := bonded.running t _ runs
  obtain ⟨b', deed, rest⟩ := honours m.world bonded.fair (bonded.backed found)
  generalize (f m.world).2 = w at deed rest ⊢
  cases deed with
  | spares spares =>
    have stirred := bonded.stirred spares
    exact ⟨_, stirred.goes b runs found (stirred.ended t b found) rfl (fun _ member => member)
      (fun _ charge => .inl charge) rest⟩
  | admits id free keeps only =>
    have charging := bonded.goes { b with charge := some id } runs found (bonded.ended t b found) rfl
      (fun _ member => member) (fun _ charge => nomatch free.symm.trans charge) rest
    refine ⟨_, charging.kept_charged keeps fun other unbegun => (only other unbegun).imp_right ?_⟩
    rintro rfl
    exact ⟨t, _, Function.update_self .., rfl⟩
  | begins id charge spares begun =>
    have stirred := bonded.stirred spares
    refine ⟨_, stirred.goes { b with charge := none } runs found (stirred.ended t b found) rfl (fun _ member => member)
      ?_ rest⟩
    intro other charge'
    obtain rfl := Option.some.inj (charge.symm.trans charge')
    exact .inr begun
  | @leaves promise outcome owes kept =>
    obtain ⟨pledge, pledged, rfl⟩ := bonded.owed t b promise found owes
    refine ⟨_, bonded.turns { b with owes := none } runs found (bonded.ended t b found)
      (fun _ same => nomatch same) (bonded.branches t b found) (fun s outcome' member => ?_) ?_
      (fun _ _ charge => ⟨t, _, Function.update_self .., charge⟩) rest⟩
    · rcases List.mem_append.mp member with before | last
      · exact bonded.outcomes s outcome' before
      · cases List.mem_singleton.mp last
        exact ⟨pledge, pledged, kept⟩
    · intro mild s pledge' pledged' counted
      rcases eq_or_ne s t with rfl | different
      · exact .inr ⟨outcome, List.mem_append_right _ (List.mem_singleton.mpr rfl)⟩
      · rw [Function.update_of_ne different]
        have before := counted.of_update fun member => ⟨b, found, member⟩
        exact (bonded.kept mild s pledge' pledged' before).imp_right fun ⟨left, member⟩ =>
          ⟨left, List.mem_append_left _ member⟩
  | collects joined =>
    refine ⟨_, bonded.turns { b with branches := [], joined := false } runs found
      (fun same => nomatch same) (fun _ owes => owes) (fun _ member => nomatch member)
      (fun s outcome member => bonded.outcomes s outcome (List.mem_filter.mp member).1) ?_
      (fun _ _ charge => ⟨t, _, Function.update_self .., charge⟩) rest⟩
    intro mild s pledge pledged counted
    -- What is taken was left behind by the branches, and nobody else counts on it.
    have others : s ∉ b.branches.map (·.1) := by
      intro listed
      obtain ⟨branch, member, rfl⟩ := List.mem_map.mp listed
      obtain rfl := Option.some.inj ((bonded.branches t b found branch member).symm.trans pledged)
      obtain ⟨b₁, known, among⟩ := counted t rfl
      rw [Function.update_self] at known
      obtain rfl := Option.some.inj known
      cases among
    have before := counted.of_update fun member => nomatch member
    rcases bonded.kept mild s pledge pledged before with owing | ⟨outcome, member⟩
    · refine .inl (noted_update owing fun b₁ known owes => ?_)
      obtain rfl := Option.some.inj (found.symm.trans known)
      exact owes
    · refine .inr ⟨outcome, List.mem_filter.mpr ⟨member, ?_⟩⟩
      simpa using others

end Machine.Bonded

end Runbook
