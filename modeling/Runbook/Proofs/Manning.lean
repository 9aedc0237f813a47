import Runbook.Proofs.Diligence
import Runbook.Proofs.Tending

/-! # Machines with a roster

Every task of a machine minds the duty that the roster gives it: the running one with all that it is still
going to do, a parked one with what it does when it is resumed. A parked task that has to wait for others
waits for exactly those, and one that waits for an answer tends the request. Each step of a machine is one
move of its roster.
-/

namespace Runbook

open Machine

variable {σ : Type} {e : Engine σ} {host : Host σ} {spared : String → Prop} {m m' : Machine σ}
  {roster roster' : Roster} {t : TaskId} {d d' : Duty}

/-- What a task does minds a duty to its end. -/
abbrev Routine.Fulfills (e : Engine σ) (p : Routine σ Unit) (d : Duty) : Prop :=
  p.Minds e d fun _ d => d.Over

/-- The tasks of the machine mind their duties. -/
structure Machine.Manned (e : Engine σ) (m : Machine σ) (roster : Roster) : Prop where
  orderly : m.world.agenda.Orderly
  enlisted : ∀ t d, roster t = some d → t ∈ m.world.agenda.alive
  apart : (m.parked.map (·.1)).Nodup
  parked : ∀ t k, (t, k) ∈ m.parked → ∃ d, roster t = some d ∧
    (∀ wake, (k wake).Fulfills e d.rested) ∧ m.world.agenda.Awaits t d.owes
  running : ∀ t p, m.running = some (t, p) → t ∉ m.world.agenda.paused ∧ t ∉ m.parked.map (·.1) ∧
    ∃ d, roster t = some d ∧ p.Fulfills e d
  /-- Who has only to retire an execution does so before anybody else has a turn. -/
  closing : ∀ t d, roster t = some d → d.phase = .closing → ∃ p, m.running = some (t, p)
  heeded : ∀ t token, m.world.agenda.Asks t token → ∃ d, roster t = some d ∧ d.tends = some token
  staffed : Staffed roster m.world
  kept : Kept roster m.world

/-- What an act makes of the agenda. -/
theorem Engine.Act.agenda {w w' : World σ} (act : e.Act d w d' w') (orderly : w.agenda.Orderly) :
    w'.agenda.Orderly ∧ (∀ id ∈ w.agenda.alive, id ∈ w'.agenda.alive) ∧
      (∀ id token, w'.agenda.Asks id token → w.agenda.Asks id token) ∧
      ∀ id ∈ w'.agenda.paused, id ∈ w.agenda.paused ∨ w.agenda.created ≤ id := by
  have tends (tends : w.agenda.Tends w'.agenda) : w'.agenda.Orderly ∧
      (∀ id ∈ w.agenda.alive, id ∈ w'.agenda.alive) ∧
      (∀ id token, w'.agenda.Asks id token → w.agenda.Asks id token) ∧
      ∀ id ∈ w'.agenda.paused, id ∈ w.agenda.paused ∨ w.agenda.created ≤ id :=
    ⟨tends.orderly, tends.lives, tends.asks, tends.paused⟩
  rcases act.setting orderly with ⟨wakes, _⟩ | ⟨id, driver, _, _, kept⟩ | ⟨_, _, _, opened⟩ | ⟨_, _, _, taken⟩
  · exact tends wakes.agenda
  · have notifies := orderly.notifies driver id
    rw [kept]
    exact ⟨notifies.orderly, fun _ alive => notifies.alive ▸ alive, fun id token => (notifies.asks id token).mp,
      fun _ member => .inl (notifies.paused ▸ member)⟩
  · exact tends (by rw [opened]; exact orderly.tends)
  · exact tends (by rw [taken]; exact orderly.tends)

/-- What a wait for a cue is. -/
theorem Agenda.Orderly.heed {a : Agenda} (orderly : a.Orderly) (idle : t ∉ a.paused) (old : t < a.created)
    {cue : Cue} (bounded : ∀ ids, cue = .tasks ids → ∀ other ∈ ids, other < a.created) :
    ∃ wait, a.Heeds (Machine.heed t cue a) t wait ∧ (∀ ids, cue = .tasks ids → wait.joins = some ids) ∧
      ∀ token, wait.asks = some token → cue = .decision token := by
  cases cue with
  | time seconds =>
    refine ⟨.timer (a.now + seconds), ?_, fun _ same => (nomatch same), fun _ same => nomatch same⟩
    change a.Heeds (a.sleep t seconds) t _
    unfold Agenda.sleep
    split
    · exact orderly.defer idle old .ready rfl
    · exact orderly.suspend idle old rfl
  | decision token =>
    exact ⟨_, orderly.suspend idle old rfl, fun _ same => (nomatch same),
      fun _ same => congrArg Cue.decision (Option.some.inj same)⟩
  | latch key =>
    exact ⟨_, orderly.suspend idle old rfl, fun _ same => (nomatch same), fun _ same => nomatch same⟩
  | tasks ids =>
    exact ⟨_, orderly.join idle old ids (bounded ids rfl), fun _ same => congrArg some (Cue.tasks.inj same),
      fun _ same => nomatch same⟩

namespace Machine.Manned

theorem old (manned : m.Manned e roster) (found : roster t = some d) : t < m.world.agenda.created :=
  manned.orderly.numbered t (manned.enlisted t d found)

theorem absent (manned : m.Manned e roster) (ended : t ∉ m.world.agenda.alive) : roster t = none := by
  cases found : roster t with
  | none => rfl
  | some d => exact absurd (manned.enlisted t d found) ended

theorem new (manned : m.Manned e roster) : roster m.world.agenda.created = none :=
  manned.absent fun alive => Nat.lt_irrefl _ (manned.orderly.numbered _ alive)

/-- Nobody is parked under the number of the next task. -/
theorem vacant (manned : m.Manned e roster) : m.world.agenda.created ∉ m.parked.map (·.1) := by
  intro member
  obtain ⟨⟨t, k⟩, listed, same⟩ := List.mem_map.mp member
  obtain ⟨d, found, _⟩ := manned.parked t k listed
  exact Nat.ne_of_lt (manned.old found) same

/-- After a move those who stay parked mind the same duties as before. -/
theorem move (manned : m.Manned e roster) (shift : e.Shift roster m.world roster' m'.world)
    (orderly : m'.world.agenda.Orderly) (enlisted : ∀ t d, roster' t = some d → t ∈ m'.world.agenda.alive)
    (apart : (m'.parked.map (·.1)).Nodup)
    (parked : ∀ t k, (t, k) ∈ m'.parked → (t, k) ∈ m.parked ∧ roster' t = roster t ∨
      ∃ d, roster' t = some d ∧ (∀ wake, (k wake).Fulfills e d.rested) ∧ m'.world.agenda.Awaits t d.owes)
    (running : ∀ t p, m'.running = some (t, p) → t ∉ m'.world.agenda.paused ∧ t ∉ m'.parked.map (·.1) ∧
      ∃ d, roster' t = some d ∧ p.Fulfills e d)
    (closing : ∀ t d, roster' t = some d → d.phase = .closing → ∃ p, m'.running = some (t, p))
    (heeded : ∀ t token, m'.world.agenda.Asks t token → ∃ d, roster' t = some d ∧ d.tends = some token) :
    m'.Manned e roster' where
  orderly := orderly
  enlisted := enlisted
  apart := apart
  parked t k listed := by
    rcases parked t k listed with ⟨listed, same⟩ | fresh
    · obtain ⟨d, found, minds, awaits⟩ := manned.parked t k listed
      exact ⟨d, same.trans found, minds, awaits.later shift.continues⟩
    · exact fresh
  running := running
  closing := closing
  heeded := heeded
  staffed := manned.staffed.shift shift
  kept := manned.kept.shift manned.staffed shift

/-! ## Waits that end and clocks that move -/

/-- Waits end and requests are settled, while the tasks stay where they are. -/
theorem stirred (manned : m.Manned e roster) {w : World σ} (stirs : m.world.Stirs w) :
    ({ m with world := w } : Machine σ).Manned e roster := by
  refine manned.move (.pass (stirs.passes manned.orderly)) stirs.agenda.orderly (fun t d found => ?_)
    manned.apart (fun t k listed => .inl ⟨listed, rfl⟩) (fun t p runs => ?_) manned.closing fun t token asks => ?_
  · exact stirs.agenda.lives t (manned.enlisted t d found)
  · obtain ⟨idle, alone, d, found, minds⟩ := manned.running t p runs
    refine ⟨fun paused => ?_, alone, d, found, minds⟩
    rcases stirs.agenda.paused t paused with paused | new
    · exact idle paused
    · exact Nat.not_lt.mpr new (manned.old found)
  · exact manned.heeded t token (stirs.agenda.asks t token asks)

/-! ## The running task -/

section Running

variable (manned : m.Manned e roster)

include manned

/-- Who has only to retire an execution is the running task. -/
theorem closer {p : Routine σ Unit} {s : TaskId} (runs : m.running = some (t, p)) (found : roster s = some d)
    (closing : d.phase = .closing) : s = t := by
  obtain ⟨q, runs'⟩ := manned.closing s d found closing
  exact (Prod.mk.inj (Option.some.inj (runs'.symm.trans runs))).1

/-- A task has nothing left to do. -/
theorem finishes (runs : m.running = some (t, .done ())) :
    ∃ roster', e.Shift roster m.world roster' (schedule { m with running := none } (·.finish t)).world ∧
      (schedule { m with running := none } (·.finish t)).Manned e roster' := by
  obtain ⟨idle, alone, d, found, spent⟩ := manned.running t _ runs
  have ends := manned.orderly.finish t
  have shift : e.Shift roster m.world (roster.drop t) { m.world with agenda := m.world.agenda.finish t } :=
    .quit t d found spent manned.orderly
  refine ⟨_, shift, manned.move shift ends.orderly (fun s d' found' => ?_) manned.apart
    (fun s k listed => .inl ⟨listed, Roster.drop_other roster ?_⟩) (fun _ _ runs => nomatch runs)
    (fun s d' found' closing => ?_) fun s token asks => ?_⟩
  · obtain ⟨different, found'⟩ := Roster.drop_some found'
    exact (ends.alive s).mpr ⟨manned.enlisted s d' found', different⟩
  · rintro rfl
    exact alone (List.mem_map_of_mem listed)
  · obtain ⟨different, found'⟩ := Roster.drop_some found'
    exact absurd (manned.closer runs found' closing) different
  · have asked := ends.asks s token asks
    obtain ⟨d', found', tends⟩ := manned.heeded s token asked
    refine ⟨d', (Roster.drop_other roster ?_).trans found', tends⟩
    rintro rfl
    exact idle asked.paused

/-- The running task goes on with another duty. -/
theorem turn {p q : Routine σ Unit} (runs : m.running = some (t, p)) {w : World σ}
    (shift : e.Shift roster m.world (roster.put t d') w) (orderly : w.agenda.Orderly)
    (lives : ∀ id ∈ m.world.agenda.alive, id ∈ w.agenda.alive)
    (asks : ∀ id token, w.agenda.Asks id token → m.world.agenda.Asks id token)
    (paused : ∀ id ∈ w.agenda.paused, id ∈ m.world.agenda.paused ∨ m.world.agenda.created ≤ id)
    (minds : q.Fulfills e d') :
    ({ m with world := w, running := some (t, q) } : Machine σ).Manned e (roster.put t d') := by
  obtain ⟨idle, alone, d, found, _⟩ := manned.running t p runs
  refine manned.move shift orderly (fun s d₁ found₁ => ?_) manned.apart
    (fun s k listed => .inl ⟨listed, Roster.put_other roster d' ?_⟩) (fun s p runs => ?_)
    (fun s d₁ found₁ closing => ?_) fun s token asked => ?_
  · rcases Roster.put_some found₁ with ⟨rfl, _⟩ | ⟨_, found₁⟩
    · exact lives s (manned.enlisted s d found)
    · exact lives s (manned.enlisted s d₁ found₁)
  · rintro rfl
    exact alone (List.mem_map_of_mem listed)
  · cases runs
    refine ⟨fun pausing => ?_, alone, d', Roster.put_self .., minds⟩
    rcases paused t pausing with pausing | new
    · exact idle pausing
    · exact Nat.not_lt.mpr new (manned.old found)
  · rcases Roster.put_some found₁ with ⟨rfl, _⟩ | ⟨different, found₁⟩
    · exact ⟨q, rfl⟩
    · exact absurd (manned.closer runs found₁ closing) different
  · have before := asks s token asked
    obtain ⟨d₁, found₁, tends⟩ := manned.heeded s token before
    refine ⟨d₁, (Roster.put_other roster d' ?_).trans found₁, tends⟩
    rintro rfl
    exact idle before.paused

/-- A task changes the world. -/
theorem acts {β : Type} {f : World σ → β × World σ} {k : β → Routine σ Unit}
    (runs : m.running = some (t, .act f k)) (ledger : m.world.ledger.Orderly)
    (named : ∀ id x, m.world.ledger.record? id = some x → x.id = .text id) :
    ∃ roster', e.Shift roster m.world roster' (f m.world).2 ∧
      ({ m with world := (f m.world).2, running := some (t, k (f m.world).1) } : Machine σ).Manned e roster' := by
  obtain ⟨idle, alone, d, found, minds⟩ := manned.running t _ runs
  have fit : d.Fit m.world := ⟨manned.orderly, named, fun id => manned.staffed.recorded found⟩
  obtain ⟨d', act, rest⟩ := minds m.world fit
  obtain ⟨orderly, lives, asks, paused⟩ := act.agenda manned.orderly
  have shift : e.Shift roster m.world (roster.put t d') (f m.world).2 := .act t d d' found ledger fit act
  exact ⟨_, shift, manned.turn runs shift orderly lives asks paused rest⟩

/-- An errand is run by whoever has to run it. -/
theorem calls {errand : Errand} {k : Except Interrupt Value → Routine σ Unit}
    (runs : m.running = some (t, .call errand k)) :
    e.Shift roster m.world roster m.world ∧
      ({ m with running := some (t, (host.service e errand).bind k) } : Machine σ).Manned e roster := by
  obtain ⟨idle, alone, d, found, steady, rest, _⟩ := manned.running t _ runs
  have shift : e.Shift roster m.world roster m.world :=
    .pass ((World.stirs_refl manned.orderly).passes manned.orderly)
  refine ⟨shift, manned.move shift manned.orderly manned.enlisted manned.apart
    (fun s k listed => .inl ⟨listed, rfl⟩) (fun s p runs => ?_) (fun s d₁ found₁ closing => ?_) manned.heeded⟩
  · cases runs
    refine ⟨idle, alone, d, found, (Host.service_minds host errand steady).bind ?_⟩
    rintro answer _ rfl
    exact rest answer
  · exact ⟨_, congrArg (fun s => some (s, _)) (manned.closer runs found₁ closing).symm⟩

/-- A task does not have to wait. -/
theorem goesOn {cue : Cue} {k : Wake → Routine σ Unit} {wake : Wake} (runs : m.running = some (t, .wait cue k))
    (immediate : immediate? m.world cue = some wake) :
    ∃ roster', e.Shift roster m.world roster' m.world ∧
      ({ m with running := some (t, k wake) } : Machine σ).Manned e roster' := by
  obtain ⟨idle, alone, d, found, awaits, rest⟩ := manned.running t _ runs
  have owes : d.owes = [] := by
    rcases awaits.owes with ⟨ids, rfl, same⟩ | ⟨_, owes⟩
    · change (if ids.isEmpty then some Wake.ready else none) = some wake at immediate
      split at immediate
      · next empty => exact same ▸ List.isEmpty_iff.mp empty
      · cases immediate
    · exact owes
  have shift : e.Shift roster m.world (roster.put t d.rested) m.world :=
    .rest t d found (fun child member => by rw [owes] at member; cases member)
      ((World.stirs_refl manned.orderly).passes manned.orderly)
  exact ⟨_, shift, manned.turn runs shift manned.orderly (fun _ alive => alive) (fun _ _ asks => asks)
    (fun _ member => .inl member) (rest wake)⟩

/-- There is one more task, and only the running one may have another duty than before. -/
theorem launched {body : TaskId → Routine σ Unit} {running : Option (TaskId × Routine σ Unit)} {given : Duty}
    (shift : e.Shift roster m.world roster' (m.launch body).1.world)
    (fresh : roster' m.world.agenda.created = some given) (spent : given.Over)
    (minds : (body m.world.agenda.created).Fulfills e given)
    (known : ∀ s d', roster' s = some d' → s = m.world.agenda.created ∨ ∃ d, roster s = some d)
    (same : ∀ s < m.world.agenda.created, (∀ p, m.running ≠ some (s, p)) → roster' s = roster s)
    (runs : ∀ s p, running = some (s, p) →
      (∃ p₀, m.running = some (s, p₀)) ∧ ∃ d, roster' s = some d ∧ p.Fulfills e d)
    (closing : ∀ s d, roster' s = some d → d.phase = .closing → ∃ p, running = some (s, p)) :
    ({ (m.launch body).1 with running } : Machine σ).Manned e roster' := by
  have tends := manned.orderly.create
  have parked : (m.launch body).1.parked.map (·.1) = m.parked.map (·.1) ++ [m.world.agenda.created] := by
    simp [launch, Agenda.create]
  refine manned.move shift tends.orderly (fun s d' found' => ?_) ?_ (fun s k listed => ?_) (fun s p going => ?_)
    closing fun s token asked => ?_
  · rcases known s d' found' with rfl | ⟨d, found⟩
    · exact (Agenda.mem_alive_create _ _).mpr (.inr rfl)
    · exact tends.lives s (manned.enlisted s d found)
  · exact nodup_park manned.apart manned.vacant _
  · rcases List.mem_append.mp listed with before | new
    · obtain ⟨d, found, _⟩ := manned.parked s k before
      refine .inl ⟨before, same s (manned.old found) fun p going => ?_⟩
      exact (manned.running s p going).2.1 (List.mem_map_of_mem before)
    · cases List.mem_singleton.mp new
      refine .inr ⟨given, fresh, ?_, ?_⟩
      · rw [Duty.rested_of_owes spent.owes]
        rintro (_ | _)
        · exact minds
        · exact spent
      · rw [spent.owes]
        exact ⟨List.forall_mem_nil _, .inr (List.forall_mem_nil _)⟩
  · obtain ⟨⟨p₀, going₀⟩, d, found, minds⟩ := runs s p going
    obtain ⟨idle, alone, d₀, found₀, _⟩ := manned.running s p₀ going₀
    have old := manned.old found₀
    refine ⟨fun paused => ?_, ?_, d, found, minds⟩
    · rcases tends.paused s paused with paused | new
      · exact idle paused
      · exact Nat.not_lt.mpr new old
    · rw [parked, List.mem_append]
      rintro (member | last)
      · exact alone member
      · exact Nat.ne_of_lt old (List.mem_singleton.mp last)
  · have before := tends.asks s token asked
    obtain ⟨d, found, tended⟩ := manned.heeded s token before
    refine ⟨d, (same s (manned.old found) fun p going => ?_).trans found, tended⟩
    exact (manned.running s p going).1 before.paused

/-- A task creates another one. -/
theorem spawns {body : TaskId → Routine σ Unit} {k : TaskId → Routine σ Unit}
    (runs : m.running = some (t, .spawn body k)) :
    ∃ roster', e.Shift roster m.world roster' (m.launch body).1.world ∧
      ({ (m.launch body).1 with running := some (t, k m.world.agenda.created) } : Machine σ).Manned e roster' := by
  obtain ⟨idle, alone, d, found, minds⟩ := manned.running t _ runs
  obtain ⟨given, d', hires, child, rest⟩ := minds m.world.agenda.created
  have old := manned.old found
  have shift : e.Shift roster m.world ((roster.put t d').put m.world.agenda.created given)
      (m.launch body).1.world :=
    .hire t d given d' found old manned.new hires manned.orderly
  have mine : ((roster.put t d').put m.world.agenda.created given) t = some d' :=
    (Roster.put_other _ given (Nat.ne_of_lt old)).trans (Roster.put_self ..)
  refine ⟨_, shift, manned.launched shift (Roster.put_self ..) hires.spent child (fun s d₁ found₁ => ?_)
    (fun s older still => ?_) (fun s p going => ?_) fun s d₁ found₁ closing => ?_⟩
  · rcases Roster.put_some found₁ with ⟨rfl, _⟩ | ⟨_, found₁⟩
    · exact .inl rfl
    rcases Roster.put_some found₁ with ⟨rfl, _⟩ | ⟨_, found₁⟩
    · exact .inr ⟨d, found⟩
    · exact .inr ⟨d₁, found₁⟩
  · refine (Roster.put_other _ given (Nat.ne_of_lt older)).trans (Roster.put_other roster d' ?_)
    rintro rfl
    exact still _ runs
  · cases going
    exact ⟨⟨_, runs⟩, d', mine, rest⟩
  · rcases Roster.put_some found₁ with ⟨rfl, rfl⟩ | ⟨_, found₁⟩
    · exact absurd closing hires.spent.not_closing
    rcases Roster.put_some found₁ with ⟨rfl, _⟩ | ⟨different, found₁⟩
    · exact ⟨_, rfl⟩
    · exact absurd (manned.closer runs found₁ closing) different

/-- A task begins to wait for what its duty lets it wait for. -/
theorem heeds {cue : Cue} {k : Wake → Routine σ Unit} (runs : m.running = some (t, .wait cue k)) :
    m.world.Passes { m.world with agenda := heed t cue m.world.agenda } ∧
      (schedule { m with parked := m.parked ++ [(t, k)], running := none } (heed t cue)).Manned e roster := by
  obtain ⟨idle, alone, d, found, awaits, rest⟩ := manned.running t _ runs
  have bounded (ids : List TaskId) (same : cue = .tasks ids) : ∀ other ∈ ids, other < m.world.agenda.created := by
    intro other listed
    rcases awaits.owes with ⟨ids', same', owes⟩ | ⟨none, _⟩
    · obtain rfl : ids = ids' := Cue.tasks.inj (same.symm.trans same')
      exact manned.kept.owes t d found other (owes ▸ listed)
    · exact absurd same (none ids)
  obtain ⟨wait, heeds, joins, asks⟩ := manned.orderly.heed idle (manned.old found) bounded
  have passes : m.world.Passes { m.world with agenda := heed t cue m.world.agenda } :=
    ⟨rfl, rfl, rfl, .refl _, manned.orderly, heeds.passes⟩
  refine ⟨passes, manned.move (.pass passes) heeds.orderly (fun s d' found' => ?_) ?_ (fun s k' listed => ?_)
    (fun _ _ runs => nomatch runs) (fun s d' found' closing => ?_) fun s token asked => ?_⟩
  · exact heeds.alive ▸ manned.enlisted s d' found'
  · exact nodup_park manned.apart alone k
  · rcases List.mem_append.mp listed with before | new
    · exact .inl ⟨before, rfl⟩
    · cases List.mem_singleton.mp new
      refine .inr ⟨d, found, rest, fun other listed => ?_, ?_⟩
      · exact Nat.lt_of_lt_of_le (manned.kept.owes t d found other listed) heeds.passes.created
      · rcases awaits.owes with ⟨ids, same, owes⟩ | ⟨_, owes⟩
        · exact .inl (heeds.joins _ (owes ▸ joins ids same))
        · rw [owes]
          exact .inr fun _ member => nomatch member
  · obtain rfl := manned.closer runs found' closing
    obtain rfl := Option.some.inj (found.symm.trans found')
    cases awaits.phase.symm.trans closing
  · rcases heeds.asks s token asked with before | ⟨rfl, asking⟩
    · exact manned.heeded s token before
    · exact ⟨d, found, awaits.tends token (asks token asking)⟩

/-- A task has to wait. A cancellation that came while it was running cuts its wait short. -/
theorem parks {cue : Cue} {k : Wake → Routine σ Unit} (runs : m.running = some (t, .wait cue k)) :
    e.Shift roster m.world roster (m.park t cue k).world ∧ (m.park t cue k).Manned e roster := by
  obtain ⟨passes, parked⟩ := manned.heeds runs
  unfold park
  simp only
  split
  · have marked := parked.orderly.amend t (f := ({ · with cancelled := false })) fun _ => ⟨rfl, rfl⟩
    have stirs := (World.stirs_agenda marked).trans parked.orderly (World.cancel_stirs t marked.orderly)
    exact ⟨.pass (passes.trans (stirs.passes parked.orderly)), parked.stirred stirs⟩
  · exact ⟨.pass passes, parked⟩

end Running

/-! ## Jobs -/

/-- A parked task is resumed. If it waited for others, they have ended. -/
theorem resumed (manned : m.Manned e roster) (idle : m.running = none) {wake : Wake} {ready : List Job}
    (queue : m.world.agenda.ready = .resume t wake :: ready) :
    ∃ roster', e.Shift roster m.world roster' ((m.schedule ({ · with ready })).resume t wake).world ∧
      ((m.schedule ({ · with ready })).resume t wake).Manned e roster' := by
  have taken := manned.orderly.dequeue queue rfl
  have released := manned.orderly.dequeue_resume queue
  have dequeued : m.world.Stirs (m.schedule ({ · with ready })).world := World.stirs_agenda taken
  rcases (m.schedule ({ · with ready })).resume_cases t wake with ⟨_, still⟩ | ⟨k, listed, goes⟩
  · rw [still]
    exact ⟨roster, .pass (dequeued.passes manned.orderly), manned.stirred dequeued⟩
  · rw [goes]
    obtain ⟨d, found, minds, awaits⟩ := manned.parked t k listed
    -- Whoever is resumed has left its wait, so that its branches are no longer waited for.
    have ended (child : TaskId) (member : child ∈ d.owes) : roster child = none := by
      rcases awaits.joins with joins | gone
      · exact absurd (Agenda.Joins.paused (a := { m.world.agenda with ready }) joins) released
      · exact manned.absent (gone child member)
    have marked := taken.orderly.amend t (f := ({ · with cancelled := false })) fun _ => ⟨rfl, rfl⟩
    have tends := taken.trans manned.orderly marked
    have shift : e.Shift roster m.world (roster.put t d.rested)
        ((m.schedule ({ · with ready })).schedule
          fun a => a.amend t ({ · with cancelled := false })).world :=
      .rest t d found ended ((World.stirs_agenda tends).passes manned.orderly)
    have stay {s : TaskId} {k' : Wake → Routine σ Unit} (left : (s, k') ∈ m.parked.filter (·.1 != t)) :
        (s, k') ∈ m.parked ∧ s ≠ t := by
      simpa using left
    refine ⟨_, shift, manned.move shift tends.orderly (fun s d₁ found₁ => ?_) ?_ (fun s k' left => ?_)
      (fun s p runs => ?_) (fun s d₁ found₁ closing => ?_) fun s token asked => ?_⟩
    · rcases Roster.put_some found₁ with ⟨rfl, _⟩ | ⟨_, found₁⟩
      · exact tends.lives s (manned.enlisted s d found)
      · exact tends.lives s (manned.enlisted s d₁ found₁)
    · exact manned.apart.sublist (List.filter_sublist.map _)
    · exact .inl ⟨(stay left).1, Roster.put_other roster _ (stay left).2⟩
    · cases runs
      refine ⟨fun paused => ?_, fun member => ?_, d.rested, Roster.put_self .., minds _⟩
      · rcases marked.paused t paused with paused | new
        · exact released paused
        · exact Nat.not_lt.mpr new (manned.old found)
      · obtain ⟨⟨s, k'⟩, left, same⟩ := List.mem_map.mp member
        exact (stay left).2 same
    · rcases Roster.put_some found₁ with ⟨rfl, _⟩ | ⟨_, found₁⟩
      · exact ⟨_, rfl⟩
      · obtain ⟨p, runs⟩ := manned.closing s d₁ found₁ closing
        cases idle.symm.trans runs
    · have before := marked.asks s token asked
      obtain ⟨d₁, found₁, tended⟩ := manned.heeded s token (taken.asks s token before)
      refine ⟨d₁, (Roster.put_other roster _ ?_).trans found₁, tended⟩
      rintro rfl
      exact released before.paused

/-- A job of the queue is done. -/
theorem executed (manned : m.Manned e roster) (idle : m.running = none) {job : Job} {ready : List Job}
    (queue : m.world.agenda.ready = job :: ready) :
    ∃ roster', e.Shift roster m.world roster' ((m.schedule ({ · with ready })).execute job).world ∧
      ((m.schedule ({ · with ready })).execute job).Manned e roster' := by
  have stirred {w : World σ} (stirs : m.world.Stirs w) : ∃ roster', e.Shift roster m.world roster' w ∧
      ({ m with world := w } : Machine σ).Manned e roster' :=
    ⟨roster, .pass (stirs.passes manned.orderly), manned.stirred stirs⟩
  cases job with
  | resume t wake => exact manned.resumed idle queue
  | ring t =>
    have taken := manned.orderly.dequeue queue rfl
    exact stirred (World.stirs_agenda (taken.trans manned.orderly (taken.orderly.ring t)))
  | report t => exact stirred (World.stirs_agenda (manned.orderly.hear queue))
  | forget execution =>
    have taken := manned.orderly.dequeue queue rfl
    have shift : e.Shift roster m.world roster ((m.schedule ({ · with ready })).execute (.forget execution)).world :=
      .forget execution ready queue manned.orderly
    refine ⟨roster, shift, manned.move shift taken.orderly (fun t d found => ?_) manned.apart
      (fun _ _ listed => .inl ⟨listed, rfl⟩) (fun _ _ runs => nomatch idle.symm.trans runs) manned.closing
      fun t token asked => ?_⟩
    · exact taken.lives t (manned.enlisted t d found)
    · exact manned.heeded t token (taken.asks t token asked)

/-- A visitor comes. -/
theorem visited (manned : m.Manned e roster) {body : TaskId → Routine σ Unit}
    (visits : ∀ id, Visit e spared (body id)) :
    ∃ roster', e.Shift roster m.world roster' (m.launch body).1.world ∧ (m.launch body).1.Manned e roster' := by
  have shift : e.Shift roster m.world (roster.put m.world.agenda.created {}) (m.launch body).1.world :=
    .visit manned.new manned.orderly
  have minds : (body m.world.agenda.created).Fulfills e {} :=
    (visit_minds (visits _)).mono fun _ _ free => free ▸ Duty.over_free
  have same (s : TaskId) (older : s < m.world.agenda.created) :
      (roster.put m.world.agenda.created {}) s = roster s :=
    Roster.put_other roster {} (Nat.ne_of_lt older)
  refine ⟨_, shift, manned.launched shift (Roster.put_self ..) Duty.over_free minds (fun s d₁ found₁ => ?_)
    (fun s older _ => same s older) (fun s p going => ?_) fun s d₁ found₁ closing => ?_⟩
  · rcases Roster.put_some found₁ with ⟨rfl, _⟩ | ⟨_, found₁⟩
    · exact .inl rfl
    · exact .inr ⟨d₁, found₁⟩
  · obtain ⟨_, _, d, found, minds⟩ := manned.running s p going
    exact ⟨⟨p, going⟩, d, (same s (manned.old found)).trans found, minds⟩
  · rcases Roster.put_some found₁ with ⟨rfl, rfl⟩ | ⟨_, found₁⟩
    · cases closing
    · exact manned.closing s d₁ found₁ closing

/-! ## Steps -/

/-- Each step of the machine is one move of its roster. -/
theorem step (manned : m.Manned e roster) (valid : Books.Valid e spared m.world.books)
    (step : Machine.Step e host spared m m') :
    ∃ roster', e.Shift roster m.world roster' m'.world ∧ m'.Manned e roster' := by
  have stirred {w : World σ} (stirs : m.world.Stirs w) : ∃ roster', e.Shift roster m.world roster' w ∧
      ({ m with world := w } : Machine σ).Manned e roster' :=
    ⟨roster, .pass (stirs.passes manned.orderly), manned.stirred stirs⟩
  cases step with
  | work taken =>
    rcases step?_cases taken with ⟨t, p, runs, rfl⟩ | ⟨job, ready, idle, queue, rfl⟩
    · cases p with
      | done => exact manned.finishes runs
      | act f k => exact manned.acts runs valid.orderly fun id x found => (valid.sound id x found).self
      | call errand k => exact ⟨roster, manned.calls runs⟩
      | spawn body k => exact manned.spawns runs
      | wait cue k =>
        rw [advance]
        cases immediate : immediate? m.world cue with
        | some wake => exact manned.goesOn runs immediate
        | none => exact ⟨roster, manned.parks runs⟩
    · exact manned.executed idle queue
  | visit body visits => exact manned.visited visits
  | elapse elapsed =>
    obtain ⟨agenda, moved, rfl⟩ := Option.map_eq_some_iff.mp elapsed
    exact stirred (World.stirs_agenda (manned.orderly.elapse moved))
  | wind seconds => exact stirred (World.stirs_agenda (manned.orderly.ring_at _))
  | cancel id => exact stirred (World.cancel_stirs id manned.orderly)

end Machine.Manned

/-! ## Runs from the beginning -/

namespace Machine

/-- Nothing has happened yet, there are no tasks, and nobody waits for anything. -/
structure Pristine (m : Machine σ) : Prop extends m.Fresh where
  tasks : m.world.agenda.tasks = []
  waits : m.world.agenda.waits = []
  ready : m.world.agenda.ready = []
  requests : m.world.gate.requests = []
  background : m.world.background = []

/-- A machine that one in which nothing has happened can become, whatever tools, observers and visitors do. -/
def Arises (e : Engine σ) (host : Host σ) (m : Machine σ) : Prop :=
  ∃ start : Machine σ, start.Pristine ∧ Run e host (fun _ => False) start m

theorem Arises.reachable (arises : Arises e host m) : Reachable e host (fun _ => False) m := by
  obtain ⟨start, pristine, run⟩ := arises
  exact ⟨start, pristine.toFresh, run⟩

theorem Arises.run (arises : Arises e host m) (run : Run e host (fun _ => False) m m') : Arises e host m' := by
  obtain ⟨start, pristine, before⟩ := arises
  exact ⟨start, pristine, before.trans run⟩

theorem Arises.valid (arises : Arises e host m) : Books.Valid e (fun _ => False) m.world.books :=
  arises.reachable.valid host.spares_nothing

theorem Pristine.arises (pristine : m.Pristine) : Arises e host m := ⟨m, pristine, .refl m⟩

theorem Pristine.alive (pristine : m.Pristine) : m.world.agenda.alive = [] := by
  rw [Agenda.alive, pristine.tasks, List.map_nil]

theorem Pristine.paused (pristine : m.Pristine) : m.world.agenda.paused = [] := by
  rw [Agenda.paused, pristine.waits, pristine.ready, List.map_nil, List.filterMap_nil, List.append_nil]

/-- Before anything happens nobody waits for anybody. -/
theorem Pristine.orderly (pristine : m.Pristine) : m.world.agenda.Orderly := by
  have alive := pristine.alive
  have paused := pristine.paused
  have due : m.world.agenda.due = [] := by
    rw [Agenda.due, pristine.tasks, pristine.ready, List.flatMap_nil, List.filterMap_nil, List.append_nil]
  refine ⟨alive ▸ .nil, fun id member => ?_, paused ▸ .nil, fun id member => ?_, fun id => ?_, fun id ids joins => ?_⟩
  · rw [alive] at member
    cases member
  · rw [paused] at member
    cases member
  · rw [due, Agenda.left_of_not_paused (paused ▸ List.not_mem_nil), List.count_nil]
  · have pausing := joins.paused
    rw [paused] at pausing
    cases pausing

/-- Before anything happens nobody has a duty. -/
theorem Pristine.manned (pristine : m.Pristine) : m.Manned e fun _ => none where
  orderly := pristine.orderly
  enlisted _ _ found := nomatch found
  apart := by
    rw [pristine.parked]
    exact .nil
  parked t k listed := by
    rw [pristine.parked] at listed
    cases listed
  running t p runs := by
    rw [pristine.running] at runs
    cases runs
  closing _ _ found := nomatch found
  heeded t token asks := by
    obtain ⟨wait, member, _⟩ := asks
    rw [pristine.waits] at member
    cases member
  staffed := by
    have unbegun (id : String) : ¬m.world.HasBegun id := by
      rintro ⟨record, member⟩
      rw [pristine.journal] at member
      cases member
    exact ⟨fun _ _ _ _ _ found => (nomatch found), fun _ _ _ found => (nomatch found),
      fun _ _ _ found => (nomatch found), fun id _ begun => absurd begun (unbegun id),
      fun id begun => absurd begun (unbegun id), fun _ _ _ found => nomatch found⟩
  kept := by
    refine ⟨fun _ _ _ _ found => (nomatch found), fun id t member => ?_, fun task member => ?_,
      fun id queued => ?_, fun _ _ found => nomatch found⟩
    · rw [pristine.background] at member
      cases member
    · rw [pristine.tasks] at member
      cases member
    · rw [pristine.ready] at queued
      cases queued

/-- What every move preserves holds at the end of a run if it did at its beginning. -/
theorem Manned.run {I : Roster → Machine σ → Prop} (manned : m.Manned e roster) (arises : Arises e host m)
    (holds : I roster m)
    (move : ∀ (roster : Roster) (m : Machine σ) (roster' : Roster) (m' : Machine σ), Arises e host m →
      m.Manned e roster → I roster m → Machine.Step e host (fun _ => False) m m' →
        e.Shift roster m.world roster' m'.world → m'.Manned e roster' → I roster' m')
    (run : Run e host (fun _ => False) m m') : ∃ roster', m'.Manned e roster' ∧ I roster' m' := by
  induction run with
  | refl => exact ⟨roster, manned, holds⟩
  | next before step ih =>
    obtain ⟨roster₁, manned₁, holds₁⟩ := ih
    obtain ⟨roster₂, shift, manned₂⟩ := manned₁.step (arises.run before).valid step
    exact ⟨roster₂, manned₂, move _ _ _ _ (arises.run before) manned₁ holds₁ step shift manned₂⟩

/-- What holds before anything happens, and is preserved by every move, holds always. -/
theorem Arises.holds {I : Roster → Machine σ → Prop} (arises : Arises e host m)
    (start : ∀ m : Machine σ, m.Pristine → I (fun _ => none) m)
    (move : ∀ (roster : Roster) (m : Machine σ) (roster' : Roster) (m' : Machine σ), Arises e host m →
      m.Manned e roster → I roster m → Machine.Step e host (fun _ => False) m m' →
        e.Shift roster m.world roster' m'.world → m'.Manned e roster' → I roster' m') :
    ∃ roster, m.Manned e roster ∧ I roster m := by
  obtain ⟨m₀, pristine, run⟩ := arises
  exact pristine.manned.run pristine.arises (start m₀ pristine) move run

theorem Arises.manned (arises : Arises e host m) : ∃ roster, m.Manned e roster := by
  obtain ⟨roster, manned, _⟩ := arises.holds (I := fun _ _ => True) (fun _ _ => trivial)
    fun _ _ _ _ _ _ _ _ _ _ => trivial
  exact ⟨roster, manned⟩

/-- What is a matter of the books, holds before anything happens and is preserved by every affair holds always. -/
theorem Arises.affairs {I : World σ → Prop} (arises : Arises e host m)
    (start : ∀ m : Machine σ, m.Pristine → I m.world)
    (affair : ∀ {d d' : Duty} {w w' : World σ}, w.ledger.Orderly → I w → e.Affair d w d' w' → I w')
    (books : ∀ {w w' : World σ}, I w → w'.ledger = w.ledger → w'.journal = w.journal → I w') : I m.world := by
  have holds : ∃ roster, m.Manned e roster ∧ I m.world := by
    refine arises.holds (I := fun _ m => I m.world) start fun roster m roster' m' arises manned known _ shift _ => ?_
    rcases shift.books fun t d id found => manned.staffed.recorded found with
      ⟨_, _, _, _, _, happens⟩ | ⟨ledger, journal⟩
    · exact affair arises.valid.orderly known happens
    · exact books known ledger journal
  obtain ⟨_, _, known⟩ := holds
  exact known

/-- An execution on record stays on record. -/
theorem Arises.recorded {id : String} (arises : Arises e host m)
    (run : Run e host (fun _ => False) m m') (recorded : m.world.Recorded id) : m'.world.Recorded id := by
  obtain ⟨x, found⟩ := Ledger.mem_admitted.mp recorded
  obtain ⟨x', found', _⟩ := (arises.reachable.later host.spares_nothing run).records id x found
  exact Ledger.mem_admitted.mpr ⟨x', found'⟩

theorem blank_pristine (memory : σ) (bus : Bus) : (blank memory bus).Pristine :=
  ⟨blank_fresh memory bus, rfl, rfl, rfl, rfl, rfl⟩

/-- Whatever becomes of a blank machine that executes a workflow has arisen. -/
theorem arises_executing (memory : σ) (bus : Bus) (workflow options : Value) (steps : Nat) :
    Arises e host ((blank memory bus).executing e host workflow options steps) :=
  ⟨_, blank_pristine memory bus, run_executing workflow options steps _⟩

end Machine

end Runbook
