import Runbook.Proofs.Posts
import Runbook.Proofs.Unfolding

/-! # Machines on time

Every task of a machine is punctual: the running one from the moment on that the clock shows, and a parked one from
the moment on at which it will be resumed. That moment is settled although it has not come: it is when the timer is
due, or when the last of the branches ends that the task waits for, or now. So the clock never moves past it.
-/

namespace Runbook

open Machine Interpreter

variable {σ : Type} {h : Habits} {final : Ledger} {e : Engine σ} {host : Host σ} {m m' : Machine σ} {posts : Posts}
  {a a' : Agenda} {x y : Moment} {t : TaskId} {b b' : Post} {p q : Routine σ Unit} {wait wait' : Option Wait}

/-! ## Tasks that are parked -/

namespace Post

/-- The branches have ended if they are said to have. -/
def Gathered (b : Post) (a : Agenda) : Prop := b.joined = true → ∀ branch ∈ b.branches, branch.id ∉ a.alive

/-- The moment at which a task goes on that waits in a way, or is about to be resumed. -/
inductive Due (b : Post) (a : Agenda) (x : Moment) : Option Wait → Moment → Prop
  | queued (gathered : b.Gathered a) : Due b a x none x
  | ringing (gathered : b.Gathered a) : Due b a x (some .ringing) x
  | latch (key : Value) (gathered : b.Gathered a) : Due b a x (some (.latch key)) x
  | timer (due : Moment) (gathered : b.Gathered a) : Due b a x (some (.timer due.seconds)) (max x due)
  | tasks {ids : List TaskId} {left : Nat} {cut : Bool} {y : Moment} (joined : b.joined = true)
      (named : ids = b.branches.map (·.id)) (later : x ≤ y) (terms : ∀ branch ∈ b.branches, branch.term ≤ y)
      (last : y ≤ x ∨ ∃ branch ∈ b.branches, y = branch.term) : Due b a x (some (.tasks ids left cut)) y

/-- How a task ends: as it is to, and with the ledger as it is to become if it owns the ledger. -/
def Ends (final : Ledger) (_ : Unit) (b : Post) (x : Moment) : Prop := b.Over x ∧ ∀ l, b.ledger = some l → l = final

theorem Gathered.congr (gathered : b.Gathered a)
    (alive : ∀ branch ∈ b.branches, branch.id ∈ a'.alive → branch.id ∈ a.alive) : b.Gathered a' :=
  fun joined branch member living => gathered joined branch member (alive branch member living)

theorem Due.congr (due : b.Due a x wait y)
    (alive : ∀ branch ∈ b.branches, branch.id ∈ a'.alive → branch.id ∈ a.alive) : b.Due a' x wait y := by
  cases due with
  | queued gathered => exact .queued (gathered.congr alive)
  | ringing gathered => exact .ringing (gathered.congr alive)
  | latch key gathered => exact .latch key (gathered.congr alive)
  | timer due gathered => exact .timer due (gathered.congr alive)
  | tasks joined named later terms last => exact .tasks joined named later terms last

theorem Due.later (due : b.Due a x wait y) : x ≤ y := by
  cases due with
  | queued | ringing | latch => exact le_refl x
  | timer due => exact le_max_left x due
  | tasks _ _ later => exact later

/-- Whoever does not wait any more goes on now. -/
theorem Due.now (due : b.Due a x none y) : y = x ∧ b.Gathered a := by
  cases due with
  | queued gathered => exact ⟨rfl, gathered⟩

/-- As long as the clock does not move past the moment at which a task goes on, that moment stays the same. -/
theorem Due.elapses {x' : Moment} (due : b.Due a x wait y) (after : x ≤ x') (before : x' ≤ y) :
    b.Due a x' (Agenda.rungAt x'.seconds wait) y := by
  cases due with
  | queued gathered =>
    rw [le_antisymm before after]
    exact .queued gathered
  | ringing gathered =>
    rw [le_antisymm before after]
    exact .ringing gathered
  | latch key gathered =>
    rw [le_antisymm before after]
    exact .latch key gathered
  | timer d gathered =>
    unfold Agenda.rungAt
    dsimp only
    split
    · next early =>
      have early : x' < d := (Moment.lt_iff x' d).mpr early
      have same : max x d = max x' d := by rw [max_eq_right (after.trans early.le), max_eq_right early.le]
      rw [same]
      exact .timer d gathered
    · next past =>
      have past : d ≤ x' := not_lt.mp (mt (Moment.lt_iff x' d).mp past)
      rw [le_antisymm (max_le after past) before]
      exact .ringing gathered
  | tasks joined named later terms last =>
    exact .tasks joined named before terms (last.imp_left fun now => now.trans after)

/-- A wait that goes on, or ends by itself, is over when it was to be. -/
theorem Due.drifts (due : b.Due a x wait y) (drifts : Wait.Drifts a.alive wait wait')
    (ended : ∀ branch ∈ b.branches, branch.id ∉ a.alive → branch.term ≤ x) : b.Due a x wait' y := by
  cases drifts with
  | stays => exact due
  | rings =>
    cases due with
    | ringing gathered => exact .queued gathered
  | passes =>
    cases due with
    | latch _ gathered => exact .queued gathered
  | counts =>
    cases due with
    | tasks joined named later terms last => exact .tasks joined named later terms last
  | gathers gone =>
    cases due with
    | tasks joined named later terms last =>
      have away (branch : Branch) (member : branch ∈ b.branches) : branch.id ∉ a.alive :=
        gone branch.id (named ▸ List.mem_map_of_mem member)
      have now : y ≤ x := by
        rcases last with now | ⟨branch, member, rfl⟩
        · exact now
        · exact ended branch member (away branch member)
      rw [le_antisymm now later]
      exact .queued fun _ => away

end Post

/-! ## Machines -/

/-- Whoever waits for others is told of the ends of none but them. -/
def Agenda.Heeded (a : Agenda) : Prop := ∀ task ∈ a.tasks, ∀ id ids left cut, .waiter id ∈ task.watchers →
  a.wait? id = some (.tasks ids left cut) → task.id ∈ ids

/-- The tasks of the machine are punctual at their posts. -/
structure Machine.Timely (h : Habits) (final : Ledger) (m : Machine σ) (posts : Posts) (x : Moment) : Prop where
  clock : m.world.agenda.now = x.seconds
  orderly : m.world.agenda.Orderly
  serene : m.world.agenda.Serene
  heeded : m.world.agenda.Heeded
  calm : m.world.ledger.Calm
  kept : posts.Kept m.world.agenda x
  booked : posts.Booked m.world.ledger final
  apart : (m.parked.map (·.1)).Nodup
  /-- Whoever is parked waits or is about to be resumed. -/
  paused : ∀ t, t ∈ m.parked.map (·.1) ↔ t ∈ m.world.agenda.paused
  busy : ∀ t ∈ m.world.agenda.alive, (∃ p, m.running = some (t, p)) ∨ t ∈ m.world.agenda.paused
  parked : ∀ t k, (t, k) ∈ m.parked → ∃ b y, posts t = some b ∧ y ≤ b.term ∧
    b.Due m.world.agenda x (m.world.agenda.wait? t) y ∧ (k .ready).Punctual h t b y (Post.Ends final)
  running : ∀ t p, m.running = some (t, p) → t ∉ m.world.agenda.paused ∧ ∃ b, posts t = some b ∧ x ≤ b.term ∧
    b.Gathered m.world.agenda ∧ p.Punctual h t b x (Post.Ends final)

namespace Machine.Timely

variable (timely : m.Timely h final posts x)

include timely

theorem old (found : posts t = some b) : t < m.world.agenda.created :=
  timely.orderly.numbered t (timely.kept.alive found)

theorem ended (found : posts t = some b) (branch : Branch) (member : branch ∈ b.branches)
    (gone : branch.id ∉ m.world.agenda.alive) : branch.term ≤ x :=
  (timely.kept.branches t b found branch member).ended (timely.kept.unposted gone)

/-- A task that is not parked knows the world. -/
theorem sees (found : posts t = some b) (gathered : b.Gathered m.world.agenda) : b.Sees x m.world where
  clock := timely.clock
  calm := timely.calm
  owned l owns := timely.booked.owned t l ⟨b, found, owns⟩
  backed joined branch member := by
    have holds := timely.kept.branches t b found branch member
    refine holds.promise.resolve_left ?_
    rintro ⟨c, alive, -⟩
    exact gathered joined branch member (timely.kept.alive alive)

/-- Something happens while all tasks stay where they are. -/
theorem eased {w : World σ} (eases : m.world.agenda.Eases w.agenda) (ledger : w.ledger = m.world.ledger) :
    ({ m with world := w } : Machine σ).Timely h final posts x where
  clock := eases.stands.now.trans timely.clock
  orderly := eases.stands.orderly
  serene := eases.serene
  heeded task' member id ids left cut watches waits := by
    obtain ⟨task, before, named, same⟩ := eases.watchers task' member
    have drifts := eases.drifts id
    rw [waits] at drifts
    rw [← named]
    rw [← same] at watches
    generalize waited : m.world.agenda.wait? id = wait at drifts
    cases drifts with
    | stays => exact timely.heeded task before id ids left cut watches waited
    | counts => exact timely.heeded task before id ids _ _ watches waited
  calm := by
    rw [ledger]
    exact timely.calm
  kept := timely.kept.congr eases.stands.alive eases.stands.created eases.stands.outcomes
  booked := by
    rw [ledger]
    exact timely.booked
  apart := timely.apart
  paused t := (timely.paused t).trans ⟨eases.paused t, eases.stands.paused t⟩
  busy t alive := (timely.busy t ((eases.stands.alive t).mp alive)).imp_right (eases.paused t)
  parked t k listed := by
    obtain ⟨b, y, found, early, due, punctual⟩ := timely.parked t k listed
    have drifted := due.drifts (eases.drifts t) (timely.ended found)
    exact ⟨b, y, found, early, drifted.congr fun _ _ => (eases.stands.alive _).mp, punctual⟩
  running t p runs := by
    obtain ⟨idle, b, found, early, gathered, punctual⟩ := timely.running t p runs
    exact ⟨fun paused => idle (eases.stands.paused t paused), b, found, early,
      gathered.congr fun _ _ => (eases.stands.alive _).mp, punctual⟩

/-! ## The running task -/

/-- The running task goes on at another post, and perhaps with other outcomes left behind. -/
theorem turns (b' : Post) (runs : m.running = some (t, p)) {w : World σ} {outcomes : List (TaskId × Outcome)}
    (agenda : w.agenda = { m.world.agenda with outcomes }) (calm : w.ledger.Calm)
    (kept : Posts.Kept (Function.update posts t (some b')) w.agenda x)
    (booked : Posts.Booked (Function.update posts t (some b')) w.ledger final) (early : x ≤ b'.term)
    (gathered : b'.Gathered m.world.agenda) (punctual : q.Punctual h t b' x (Post.Ends final)) :
    ({ m with world := w, running := some (t, q) } : Machine σ).Timely h final (Function.update posts t (some b')) x := by
  obtain ⟨idle, -⟩ := timely.running t p runs
  obtain ⟨memory, agenda', ledger, gate, bus, latches, background, ids, journal⟩ := w
  cases (agenda : agenda' = _)
  exact {
    clock := timely.clock
    orderly := by
      have tends : m.world.agenda.Tends { m.world.agenda with outcomes } := timely.orderly.congr rfl rfl rfl rfl
      exact tends.orderly
    serene := timely.serene.congr rfl rfl rfl
    heeded := timely.heeded
    calm
    kept
    booked
    apart := timely.apart
    paused := timely.paused
    busy := fun s alive => by
      refine (timely.busy s alive).imp_left ?_
      rintro ⟨p', going⟩
      cases runs.symm.trans going
      exact ⟨q, rfl⟩
    parked := fun s k listed => by
      obtain ⟨c, y, found, early, due, punctual⟩ := timely.parked s k listed
      have different : s ≠ t := by
        rintro rfl
        exact idle ((timely.paused s).mp (List.mem_map_of_mem listed))
      exact ⟨c, y, (Function.update_of_ne different ..).trans found, early, due.congr fun _ _ alive => alive, punctual⟩
    running := fun s p' going => by
      cases going
      exact ⟨idle, b', Function.update_self .., early, gathered, punctual⟩ }

/-- A task does what its post allows it. -/
theorem acts {β : Type} {f : World σ → β × World σ} {k : β → Routine σ Unit} (runs : m.running = some (t, .act f k)) :
    ∃ posts', ({ m with world := (f m.world).2, running := some (t, k (f m.world).1) } : Machine σ).Timely h final
      posts' x := by
  obtain ⟨-, b, found, early, gathered, punctual⟩ := timely.running t _ runs
  have sees := timely.sees found gathered
  obtain ⟨b', deed, rest⟩ := punctual m.world sees
  generalize (f m.world).2 = w at deed ⊢
  generalize k (f m.world).1 = q at rest ⊢
  have still (agenda : w.agenda = m.world.agenda) :
      w.agenda = { m.world.agenda with outcomes := m.world.agenda.outcomes } := agenda
  cases deed with
  | aside agenda ledger =>
    refine ⟨_, timely.turns b runs (still agenda) (ledger ▸ timely.calm) ?_ ?_ early gathered rest⟩
    · rw [agenda]
      exact timely.kept.amends found b rfl rfl rfl
    · rw [ledger]
      exact timely.booked.amends found rfl
  | opens key =>
    have eases := World.openLatch_eases timely.orderly timely.serene key
    have eased := timely.eased eases (World.openLatch_stirs timely.orderly key).ledger
    refine ⟨_, eased.turns b runs rfl eased.calm ?_ ?_ early ?_ rest⟩
    · exact eased.kept.amends found b rfl rfl rfl
    · exact eased.booked.amends found rfl
    · exact gathered.congr fun _ _ => (eases.stands.alive _).mp
  | writes owns calm agenda =>
    refine ⟨_, timely.turns { b with ledger := some w.ledger } runs (still agenda) calm ?_ ?_ early gathered rest⟩
    · rw [agenda]
      exact timely.kept.amends found _ rfl rfl rfl
    · exact timely.booked.writes found owns _
  | leaves owes =>
    refine ⟨_, timely.turns { b with owes := none } runs rfl timely.calm ?_ ?_ early gathered rest⟩
    · exact timely.kept.leaves found owes (timely.old found)
    · exact timely.booked.amends found rfl
  | collects joined =>
    refine ⟨_, timely.turns { b with branches := [], joined := false } runs rfl timely.calm ?_ ?_ early
      (fun joined => nomatch joined) rest⟩
    · exact timely.kept.collects found
    · exact timely.booked.amends found rfl

/-- The world stays as it is while a task goes on. -/
theorem goes (b' : Post) (runs : m.running = some (t, p)) (found : posts t = some b) (term : b'.term = b.term)
    (owes : b'.owes = b.owes) (branches : b'.branches = b.branches) (ledger : b'.ledger = b.ledger) (early : x ≤ b'.term)
    (gathered : b'.Gathered m.world.agenda) (punctual : q.Punctual h t b' x (Post.Ends final)) :
    ({ m with running := some (t, q) } : Machine σ).Timely h final (Function.update posts t (some b')) x :=
  timely.turns b' runs rfl timely.calm (timely.kept.amends found b' term owes branches)
    (timely.booked.amends found ledger) early gathered punctual

/-- An errand is run by whoever has to run it. -/
theorem calls (regular : host.Regular h) {errand : Errand} {k : Except Interrupt Value → Routine σ Unit}
    (runs : m.running = some (t, .call errand k)) : ∃ posts',
      ({ m with running := some (t, (host.service e errand).bind k) } : Machine σ).Timely h final posts' x := by
  obtain ⟨-, b, found, early, gathered, free, punctual⟩ := timely.running t _ runs
  refine ⟨_, timely.goes b runs found rfl rfl rfl rfl early gathered ?_⟩
  apply (regular.punctual fun answer y answers => (punctual answer y answers).1).bind
  rintro answer _ y ⟨rfl, answers⟩
  exact (punctual answer y answers).2

/-- A task does not have to wait. -/
theorem goesOn {cue : Cue} {k : Wake → Routine σ Unit} {wake : Wake} (runs : m.running = some (t, .wait cue k))
    (immediate : immediate? m.world cue = some wake) :
    ∃ posts', ({ m with running := some (t, k wake) } : Machine σ).Timely h final posts' x := by
  obtain ⟨-, b, found, early, gathered, punctual⟩ := timely.running t _ runs
  cases cue with
  | time seconds => cases immediate
  | decision token => exact punctual.elim
  | latch key =>
    change (if m.world.isOpen key then some Wake.ready else none) = some wake at immediate
    split at immediate
    · cases immediate
      exact ⟨_, timely.goes b runs found rfl rfl rfl rfl early gathered punctual⟩
    · cases immediate
  | tasks ids =>
    change (if ids.isEmpty then some Wake.ready else none) = some wake at immediate
    split at immediate
    · next empty =>
      cases immediate
      obtain ⟨-, named, -, rest⟩ := punctual
      have none : b.branches = [] := List.map_eq_nil_iff.mp (named ▸ List.isEmpty_iff.mp empty)
      have now : b.joinedAt x = x := by rw [Post.joinedAt, none]; rfl
      rw [now] at rest
      refine ⟨_, timely.goes { b with joined := true } runs found rfl rfl rfl rfl early (fun _ branch member => ?_) rest⟩
      rw [none] at member
      cases member
    · cases immediate

/-- A task has nothing left to do. -/
theorem finishes (runs : m.running = some (t, .done ())) :
    (schedule { m with running := none } (·.finish t)).Timely h final (Function.update posts t none) x := by
  obtain ⟨idle, b, found, early, gathered, done, last⟩ := timely.running t _ runs
  have ends := timely.orderly.finish t
  have retains := m.world.agenda.finish_retains t
  have soothes := m.world.agenda.soothes_finish t
  obtain ⟨ready, same⟩ := m.world.agenda.finish_eq t
  have waits (s : TaskId) : (m.world.agenda.finish t).wait? s = m.world.agenda.wait? s := by rw [same]; rfl
  have tasks : (m.world.agenda.finish t).tasks = m.world.agenda.tasks.filter (·.id != t) := by rw [same]
  exact {
    clock := retains.now.trans timely.clock
    orderly := ends.orderly
    serene := soothes.serene timely.serene
    heeded := fun task member id ids left cut watches waiting => by
      have before : task ∈ m.world.agenda.tasks.filter (·.id != t) := tasks ▸ member
      exact timely.heeded task (List.mem_filter.mp before).1 id ids left cut watches ((waits id).symm.trans waiting)
    calm := timely.calm
    kept := timely.kept.finishes found done.punctual.ge done.owes ends.alive retains
    booked := timely.booked.finishes found last
    apart := timely.apart
    paused := fun s => by
      rw [show (schedule { m with running := none } (·.finish t)).world.agenda.paused = _ from
        m.world.agenda.paused_finish t]
      exact timely.paused s
    busy := fun s alive => by
      obtain ⟨before, different⟩ := (ends.alive s).mp alive
      right
      rcases timely.busy s before with ⟨p, going⟩ | paused
      · cases runs.symm.trans going
        exact absurd rfl different
      · exact soothes.paused s paused
    parked := fun s k listed => by
      obtain ⟨c, y, found', early', due, punctual⟩ := timely.parked s k listed
      have different : s ≠ t := by
        rintro rfl
        exact idle ((timely.paused s).mp (List.mem_map_of_mem listed))
      refine ⟨c, y, (Function.update_of_ne different ..).trans found', early', ?_, punctual⟩
      have waiting : (schedule { m with running := none } (·.finish t)).world.agenda.wait? s =
          m.world.agenda.wait? s := waits s
      rw [waiting]
      exact due.congr fun _ _ alive => ((ends.alive _).mp alive).1
    running := fun _ _ runs => nomatch runs }

/-! ## Tasks that are created -/

/-- There is one more task, with a post of its own. -/
theorem launched {body : TaskId → Routine σ Unit} (post : Post) (none : post.branches = [])
    (booked : Posts.Booked (Function.update posts m.world.agenda.created (some post)) m.world.ledger final)
    (early : x ≤ post.term)
    (punctual : (body m.world.agenda.created).Punctual h m.world.agenda.created post x (Post.Ends final)) :
    (m.launch body).1.Timely h final (Function.update posts m.world.agenda.created (some post)) x := by
  have tends := timely.orderly.create
  have soothes := m.world.agenda.soothes_create
  have vacant : m.world.agenda.created ∉ m.world.agenda.paused :=
    fun paused => Nat.lt_irrefl _ (timely.orderly.known _ paused)
  have pauses (s : TaskId) := m.world.agenda.mem_paused_create s
  have alive (s : TaskId) := m.world.agenda.mem_alive_create s
  have others {s : TaskId} {k : Wake → Routine σ Unit} (listed : (s, k) ∈ m.parked) : s ≠ m.world.agenda.created := by
    rintro rfl
    exact vacant ((timely.paused _).mp (List.mem_map_of_mem listed))
  have old {s : TaskId} {c : Post} (found : posts s = some c) (branch : Branch) (member : branch ∈ c.branches)
      (living : branch.id ∈ m.world.agenda.create.1.alive) : branch.id ∈ m.world.agenda.alive := by
    have holds := timely.kept.branches s c found branch member
    exact ((alive _).mp living).resolve_right (Nat.ne_of_lt holds.created)
  exact {
    clock := timely.clock
    orderly := tends.orderly
    serene := soothes.serene timely.serene
    heeded := fun task member id ids left cut watches waiting => by
      have tasks : task ∈ m.world.agenda.tasks ++ [{ id := m.world.agenda.created }] := member
      rcases List.mem_append.mp tasks with before | last
      · exact timely.heeded task before id ids left cut watches waiting
      · cases List.mem_singleton.mp last
        cases watches
    calm := timely.calm
    kept := timely.kept.begins post none
    booked
    apart := nodup_park timely.apart (fun member => vacant ((timely.paused _).mp member)) _
    paused := fun s => by
      change s ∈ List.map (·.1) (m.parked ++ [(m.world.agenda.created, firstTurn (body m.world.agenda.created))]) ↔
        s ∈ m.world.agenda.create.1.paused
      rw [List.map_append, List.mem_append, timely.paused, pauses]
      simp
    busy := fun s living => by
      rcases (alive s).mp living with before | rfl
      · exact (timely.busy s before).imp_right fun paused => (pauses s).mpr (.inl paused)
      · exact .inr ((pauses _).mpr (.inr rfl))
    parked := fun s k listed => by
      rcases List.mem_append.mp listed with before | last
      · obtain ⟨c, y, found, early', due, punctual'⟩ := timely.parked s k before
        refine ⟨c, y, (Function.update_of_ne (others before) ..).trans found, early', ?_, punctual'⟩
        have waiting : (m.launch body).1.world.agenda.wait? s = m.world.agenda.wait? s := rfl
        rw [waiting]
        exact due.congr (old found)
      · cases List.mem_singleton.mp last
        refine ⟨post, x, Function.update_self .., early, ?_, punctual⟩
        have waiting : (m.launch body).1.world.agenda.wait? m.world.agenda.created = .none :=
          (Agenda.wait?_eq_none_of_not_paused vacant : m.world.agenda.wait? _ = .none)
        rw [waiting]
        exact .queued fun _ branch member => by rw [none] at member; cases member
    running := fun s p runs => by
      obtain ⟨idle, c, found, early', gathered, punctual'⟩ := timely.running s p runs
      have different : s ≠ m.world.agenda.created := Nat.ne_of_lt (timely.old found)
      refine ⟨fun paused => ((pauses s).mp paused).elim idle different, c,
        (Function.update_of_ne different ..).trans found, early', gathered.congr (old found), punctual'⟩ }

/-- A task creates a branch. -/
theorem spawns {body : TaskId → Routine σ Unit} {k : TaskId → Routine σ Unit}
    (runs : m.running = some (t, .spawn body k)) : ∃ posts',
      ({ (m.launch body).1 with running := some (t, k m.world.agenda.created) } : Machine σ).Timely h final posts' x := by
  obtain ⟨-, b, found, early, gathered, alone, hires⟩ := timely.running t _ runs
  obtain ⟨outcome, term, later, created, rest⟩ := hires m.world.agenda.created
  have vacant : posts m.world.agenda.created = none :=
    timely.kept.unposted fun alive => Nat.lt_irrefl _ (timely.orderly.numbered _ alive)
  have launched := timely.launched { term, owes := some outcome } rfl (timely.booked.begins vacant rfl) later
    (created.mono fun _ _ _ done => ⟨done.1, fun l owns => by rw [done.2] at owns; cases owns⟩)
  have mine : t ≠ m.world.agenda.created := Nat.ne_of_lt (timely.old found)
  have found' : Function.update posts m.world.agenda.created (some { term, owes := some outcome }) t = some b :=
    (Function.update_of_ne mine ..).trans found
  refine ⟨_, launched.turns { b with branches := b.branches ++ [⟨m.world.agenda.created, outcome, term⟩] } runs rfl
    launched.calm ?_ ?_ early (fun joined => ?_) rest⟩
  · exact timely.kept.spawns found timely.orderly.numbered term outcome
  · exact launched.booked.amends found' rfl
  · cases alone.symm.trans joined

end Machine.Timely

/-! ## Waits -/

/-- A task that begins to wait goes on at the moment that is settled for that. -/
theorem Post.begins {cue : Cue} {k : Wake → Routine σ Unit} {w : World σ} {Q : Unit → Post → Moment → Prop}
    (punctual : (Routine.wait cue k).Punctual h t b x Q) (clock : w.agenda.now = x.seconds) (early : x ≤ b.term)
    (gathered : b.Gathered w.agenda) (number : ∀ seconds, cue = .time seconds → seconds.isNaN = false) :
    ∃ b' : Post, ∃ y, b'.term = b.term ∧ b'.owes = b.owes ∧ b'.branches = b.branches ∧ b'.ledger = b.ledger ∧
      y ≤ b'.term ∧ b'.Due w.agenda x (w.agenda.begun? cue) y ∧ (k .ready).Punctual h t b' y Q := by
  cases cue with
  | time seconds =>
    refine ⟨b, x.after seconds, rfl, rfl, rfl, rfl, punctual.1, ?_, punctual.2⟩
    unfold Agenda.begun?
    dsimp only
    split
    · next none =>
      rw [x.after_of_le none]
      exact .queued gathered
    · next positive =>
      have real := number seconds rfl
      rw [x.after_of_positive real positive, clock]
      exact .timer (x.plus real positive) gathered
  | decision token => exact punctual.elim
  | latch key => exact ⟨b, x, rfl, rfl, rfl, rfl, early, .latch key gathered, punctual⟩
  | tasks ids =>
    obtain ⟨-, named, inTime, rest⟩ := punctual
    refine ⟨{ b with joined := true }, b.joinedAt x, rfl, rfl, rfl, rfl, inTime, ?_, rest⟩
    refine .tasks rfl named (x.le_latest _)
      (fun branch member => Moment.le_latest_of_mem (List.mem_map_of_mem member) x) ?_
    rcases x.latest_cases (b.branches.map (·.term)) with same | member
    · exact .inl same.le
    · obtain ⟨branch, member, same⟩ := List.mem_map.mp member
      exact .inr ⟨branch, member, same.symm⟩

namespace Machine.Timely

variable (timely : m.Timely h final posts x)

include timely

/-- A task begins to wait. -/
theorem waits {cue : Cue} {k : Wake → Routine σ Unit} (runs : m.running = some (t, .wait cue k))
    (number : ∀ seconds, cue = .time seconds → seconds.isNaN = false) (suspends : immediate? m.world cue = none) :
    ∃ posts', (schedule { m with parked := m.parked ++ [(t, k)], running := none }
      (heed t cue)).Timely h final posts' x := by
  obtain ⟨idle, b, found, early, gathered, punctual⟩ := timely.running t _ runs
  obtain ⟨b', y, term, owes, branches, ledger, inTime, due, rest⟩ :=
    Post.begins punctual timely.clock early gathered number
  have mine (ids : List TaskId) (same : cue = .tasks ids) (other : TaskId) (listed : other ∈ ids) :
      other < m.world.agenda.created ∧ t < other := by
    subst same
    obtain ⟨branch, member, rfl⟩ := List.mem_map.mp (punctual.2.1 ▸ listed)
    have holds := timely.kept.branches t b found branch member
    exact ⟨holds.created, holds.later⟩
  obtain ⟨wait, heeds, joins, -⟩ := timely.orderly.heed idle (timely.old found) fun ids same other listed =>
    (mine ids same other listed).1
  have retains := m.world.agenda.heed_retains t cue
  have soothes : m.world.agenda.Soothes (heed t cue m.world.agenda) := by
    refine m.world.agenda.soothes_heed t (fun token same => ?_) (fun same => ?_) fun ids same other listed =>
      (mine ids same other listed).2
    · subst same
      exact punctual
    · subst same
      cases suspends
  have pauses (s : TaskId) := m.world.agenda.mem_paused_heed t s cue
  have waiting (s : TaskId) := Agenda.wait?_heed idle cue s
  have alive (s : TaskId) : s ∈ (heed t cue m.world.agenda).alive ↔ s ∈ m.world.agenda.alive := by rw [heeds.alive]
  refine ⟨Function.update posts t (some b'), {
    clock := retains.now.trans timely.clock
    orderly := heeds.orderly
    serene := soothes.serene timely.serene
    heeded := fun task' member id ids left cut watches waits => ?_
    calm := timely.calm
    kept := (timely.kept.amends found b' term owes branches).congr alive retains.created retains.outcomes
    booked := timely.booked.amends found ledger
    apart := nodup_park timely.apart (fun member => idle ((timely.paused t).mp member)) k
    paused := fun s => ?_
    busy := fun s living => ?_
    parked := fun s k' listed => ?_
    running := fun _ _ runs => nomatch runs }⟩
  · have waits' := (waiting id).symm.trans waits
    rcases Agenda.waiter_heed member watches with ⟨rfl, ids', rfl, listed⟩ | ⟨task, before, named, watched⟩
    · rw [if_pos rfl] at waits'
      cases waits'
      exact listed
    · split at waits'
      · next same =>
        subst same
        exact absurd watched (timely.orderly.unwatched idle before)
      · rw [← named]
        exact timely.heeded task before id ids left cut watched waits'
  · change s ∈ List.map (·.1) (m.parked ++ [(t, k)]) ↔ s ∈ (heed t cue m.world.agenda).paused
    rw [List.map_append, List.mem_append, timely.paused, pauses]
    simp
  · right
    rcases timely.busy s ((alive s).mp living) with ⟨p, going⟩ | paused
    · cases runs.symm.trans going
      exact (pauses t).mpr (.inr rfl)
    · exact (pauses s).mpr (.inl paused)
  · have waits : (schedule { m with parked := m.parked ++ [(t, k)], running := none } (heed t cue)).world.agenda.wait? s =
        if s = t then m.world.agenda.begun? cue else m.world.agenda.wait? s := waiting s
    rw [waits]
    rcases List.mem_append.mp listed with before | last
    · obtain ⟨c, z, found', early', due', punctual'⟩ := timely.parked s k' before
      have different : s ≠ t := by
        rintro rfl
        exact idle ((timely.paused s).mp (List.mem_map_of_mem before))
      rw [if_neg different]
      exact ⟨c, z, (Function.update_of_ne different ..).trans found', early',
        due'.congr fun _ _ => (alive _).mp, punctual'⟩
    · cases List.mem_singleton.mp last
      rw [if_pos rfl]
      exact ⟨b', y, Function.update_self .., inTime, due.congr fun _ _ => (alive _).mp, rest⟩

/-- A task that begins to wait has not been cancelled while it was running. -/
theorem parks {cue : Cue} {k : Wake → Routine σ Unit} (runs : m.running = some (t, .wait cue k))
    (number : ∀ seconds, cue = .time seconds → seconds.isNaN = false) (suspends : immediate? m.world cue = none) :
    ∃ posts', (m.park t cue k).Timely h final posts' x := by
  obtain ⟨posts', waits⟩ := timely.waits runs number suspends
  refine ⟨posts', ?_⟩
  unfold park
  simp only
  rw [waits.serene.unmarked_task? t, if_neg Bool.false_ne_true]
  exact waits

end Machine.Timely

end Runbook
