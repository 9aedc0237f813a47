import Runbook.Proofs.Manning
import Runbook.Proofs.Yield

/-! # Calls and their returns

A call is what a task does from a given machine until a routine has come to its end, with whatever the task
does after that. The task takes its turns one after the other, and as long as it waits anything can happen.
-/

namespace Runbook

open Machine

variable {σ α β : Type} {e : Engine σ} {host : Host σ} {m m' between : Machine σ} {task t : TaskId}
  {rest : α → Routine σ Unit}

/-- A task that has a routine to run, and something else after it, comes to the end of the routine and to
what the routine yields. -/
inductive Machine.Completes (e : Engine σ) (host : Host σ) (task : TaskId) (rest : α → Routine σ Unit) :
    Machine σ → Routine σ α → Machine σ → α → Prop
  | done (m : Machine σ) (a : α) : Completes e host task rest m (.done a) m a
  | act {m m' : Machine σ} {β : Type} {f : World σ → β × World σ} {k : β → Routine σ α} {a : α}
      (later : Completes e host task rest (m.advance (host.service e) task ((Routine.act f k).bind rest))
        (k (f m.world).1) m' a) :
      Completes e host task rest m (.act f k) m' a
  | call {m m' : Machine σ} {errand : Errand} {k : Except Interrupt Value → Routine σ α} {a : α}
      (later : Completes e host task rest (m.advance (host.service e) task ((Routine.call errand k).bind rest))
        ((host.service e errand).bind k) m' a) :
      Completes e host task rest m (.call errand k) m' a
  | spawn {m m' : Machine σ} {body : TaskId → Routine σ Unit} {k : TaskId → Routine σ α} {a : α}
      (later : Completes e host task rest (m.advance (host.service e) task ((Routine.spawn body k).bind rest))
        (k m.world.agenda.created) m' a) :
      Completes e host task rest m (.spawn body k) m' a
  /-- There is nothing to wait for. -/
  | goesOn {m m' : Machine σ} {cue : Cue} {k : Wake → Routine σ α} {wake : Wake} {a : α}
      (immediate : immediate? m.world cue = some wake)
      (later : Completes e host task rest (m.advance (host.service e) task ((Routine.wait cue k).bind rest))
        (k wake) m' a) :
      Completes e host task rest m (.wait cue k) m' a
  /-- Anything can happen until the task is resumed. -/
  | waits {m between resumed m' : Machine σ} {cue : Cue} {k : Wake → Routine σ α} {wake : Wake} {a : α}
      (suspends : immediate? m.world cue = none)
      (meanwhile : Run e host (fun _ => False)
        (m.advance (host.service e) task ((Routine.wait cue k).bind rest)) between)
      (idle : between.running = none) (resumes : between.step? (host.service e) = some resumed)
      (going : resumed.running = some (task, (k wake).bind rest))
      (later : Completes e host task rest resumed (k wake) m' a) :
      Completes e host task rest m (.wait cue k) m' a

/-- A task that is about to run a routine has come to the end of it in another machine. -/
def Machine.Returns (e : Engine σ) (host : Host σ) (task : TaskId) (m : Machine σ) (p : Routine σ α)
    (m' : Machine σ) (a : α) : Prop :=
  ∃ rest : α → Routine σ Unit, m.running = some (task, p.bind rest) ∧ Completes e host task rest m p m' a

namespace Machine

/-- The next step of a machine is one of its running task. -/
theorem step?_of_running {service : Service σ} {p : Routine σ Unit} (runs : m.running = some (task, p)) :
    m.step? service = some (m.advance service task p) := by
  rw [step?, runs]

/-- A machine whose tasks are all parked takes up a task that is the first to be resumed. -/
theorem ready_of_resumes {service : Service σ} {p : Routine σ Unit} (idle : m.running = none)
    (resumes : m.step? service = some m') (going : m'.running = some (task, p)) :
    ∃ wake ready, m.world.agenda.ready = .resume task wake :: ready := by
  rcases step?_cases resumes with ⟨_, _, runs, _⟩ | ⟨job, ready, _, queue, rfl⟩
  · cases idle.symm.trans runs
  · have stays {m' : Machine σ} (same : m'.running = m.running) : m'.running ≠ some (task, p) := by
      rw [same, idle]
      simp
    cases job with
    | resume other wake =>
      change (Machine.resume _ other wake).running = _ at going
      unfold Machine.resume at going
      split at going
      · exact absurd going (stays rfl)
      · obtain rfl : other = task := (Prod.mk.inj (Option.some.inj going)).1
        exact ⟨wake, ready, queue⟩
    | ring | report | forget => exact absurd going (stays rfl)

namespace Completes

/-- A call is a run of the machine, after which the task goes on with whatever comes next. -/
theorem run {p : Routine σ α} {a : α} (completes : Completes e host task rest m p m' a)
    (runs : m.running = some (task, p.bind rest)) :
    Run e host (fun _ => False) m m' ∧ m'.running = some (task, rest a) := by
  have first {m₁ : Machine σ} {p : Routine σ α} (runs : m₁.running = some (task, p.bind rest)) :
      Run e host (fun _ => False) m₁ (m₁.advance (host.service e) task (p.bind rest)) :=
    .next (.refl m₁) (.work (step?_of_running runs))
  induction completes with
  | done => exact ⟨.refl _, runs⟩
  | act _ ih =>
    obtain ⟨later, ends⟩ := ih rfl
    exact ⟨(first runs).trans later, ends⟩
  | call _ ih =>
    obtain ⟨later, ends⟩ := ih (by rw [Routine.bind_bind]; rfl)
    exact ⟨(first runs).trans later, ends⟩
  | spawn _ ih =>
    obtain ⟨later, ends⟩ := ih rfl
    exact ⟨(first runs).trans later, ends⟩
  | goesOn immediate _ ih =>
    obtain ⟨later, ends⟩ := ih (by rw [Routine.bind, advance, immediate])
    exact ⟨(first runs).trans later, ends⟩
  | waits _ meanwhile _ resumes going _ ih =>
    obtain ⟨later, ends⟩ := ih going
    exact ⟨((first runs).trans (meanwhile.next (.work resumes))).trans later, ends⟩

theorem of_done {a b : α} (completes : Completes e host task rest m (.done b) m' a) : m' = m ∧ a = b := by
  cases completes
  exact ⟨rfl, rfl⟩

/-- A call of one routine after the other is a call of the first, and then of the second. -/
theorem bind {p : Routine σ β} {f : β → Routine σ α} {a : α}
    (completes : Completes e host task rest m (p.bind f) m' a) : ∃ m₁ b,
      Completes e host task (fun b => (f b).bind rest) m p m₁ b ∧ Completes e host task rest m₁ (f b) m' a := by
  have next {p : Routine σ β} : (p.bind f).bind rest = p.bind fun b => (f b).bind rest := Routine.bind_bind p f rest
  generalize whole : p.bind f = q at completes
  -- If the first routine has come to its end, the call is one of the second from the start.
  have second {m m' : Machine σ} {a : α} {b : β} {q : Routine σ α} (last : f b = q)
      (completes : Completes e host task rest m q m' a) : ∃ m₁ b',
        Completes e host task (fun b => (f b).bind rest) m (.done b) m₁ b' ∧
          Completes e host task rest m₁ (f b') m' a :=
    ⟨m, b, .done m b, last ▸ completes⟩
  induction completes generalizing p with
  | done m a =>
    cases p with
    | done b => exact second whole (.done m a)
    | _ => cases whole
  | act later ih =>
    cases p with
    | done b => exact second whole (.act later)
    | act g k =>
      cases whole
      obtain ⟨m₁, b, first, last⟩ := ih rfl
      exact ⟨m₁, b, .act (next (p := .act _ _) ▸ first), last⟩
    | _ => cases whole
  | call later ih =>
    cases p with
    | done b => exact second whole (.call later)
    | call errand k =>
      cases whole
      obtain ⟨m₁, b, first, last⟩ := ih (Routine.bind_bind _ _ _)
      exact ⟨m₁, b, .call (next (p := .call _ _) ▸ first), last⟩
    | _ => cases whole
  | spawn later ih =>
    cases p with
    | done b => exact second whole (.spawn later)
    | spawn body k =>
      cases whole
      obtain ⟨m₁, b, first, last⟩ := ih rfl
      exact ⟨m₁, b, .spawn (next (p := .spawn _ _) ▸ first), last⟩
    | _ => cases whole
  | goesOn immediate later ih =>
    cases p with
    | done b => exact second whole (.goesOn immediate later)
    | wait cue k =>
      cases whole
      obtain ⟨m₁, b, first, last⟩ := ih rfl
      exact ⟨m₁, b, .goesOn immediate (next (p := .wait _ _) ▸ first), last⟩
    | _ => cases whole
  | waits suspends meanwhile idle resumes going later ih =>
    cases p with
    | done b => exact second whole (.waits suspends meanwhile idle resumes going later)
    | wait cue k =>
      cases whole
      obtain ⟨m₁, b, first, last⟩ := ih rfl
      exact ⟨m₁, b, .waits suspends (next (p := .wait _ _) ▸ meanwhile) idle resumes (next (p := k _) ▸ going)
        first, last⟩
    | _ => cases whole

/-- A call that gets to its end by itself changes nothing but the world. -/
theorem of_ahead {p : Routine σ α} {a b : α} {w : World σ} (completes : Completes e host task rest m p m' b)
    (alone : p.ahead m.world = (.done a, w)) : b = a ∧ m'.world = w ∧ m'.parked = m.parked := by
  induction completes with
  | done m b =>
    cases alone
    exact ⟨rfl, rfl, rfl⟩
  | act _ ih => exact ih alone
  | call | spawn | goesOn | waits => cases alone

/-- What a call comes to is something that the routine can yield. -/
theorem yields {p : Routine σ α} {a : α} (completes : Completes e host task rest m p m' a) : p.Yields a := by
  induction completes with
  | done => rfl
  | act _ ih | spawn _ ih | goesOn _ _ ih | waits _ _ _ _ _ _ ih => exact ⟨_, ih⟩
  | call _ ih =>
    obtain ⟨answer, _, later⟩ := (Routine.yields_bind ..).mp ih
    exact ⟨answer, later⟩

end Completes

/-- A task that can get to the end of a routine by itself does so before anybody else has a turn. -/
theorem returns_of_ahead {p : Routine σ α} {a : α} {w : World σ} (runs : m.running = some (task, p.bind rest))
    (alone : p.ahead m.world = (.done a, w)) :
    m.Returns e host task p { m with world := w, running := some (task, rest a) } a := by
  refine ⟨rest, runs, ?_⟩
  induction p generalizing m with
  | done b =>
    cases alone
    have same : { m with running := some (task, rest b) } = m := by
      rw [show rest b = (Routine.done b).bind rest from rfl, ← runs]
    exact same.symm ▸ .done m b
  | act f k ih => exact .act (ih _ rfl alone)
  | call | spawn | wait => cases alone

/-! ## Calls that are followed -/

/-- How the wait of a task is about to end, if the next step of the machine is to resume the task. -/
def resumption? (m : Machine σ) (task : TaskId) : Option Wake :=
  match m.running, m.world.agenda.ready with
  | none, .resume id wake :: _ =>
    if id = task then
      some (if ((m.world.agenda.task? id).map (·.cancelled)).getD false then .cancelled else wake)
    else none
  | _, _ => none

/-- A task followed through what it has to do, or through its wait and what it has to do after that, while
nothing happens but the steps of the machine itself: the machine when it has come to the end, and what it
has come to. -/
def pursue (service : Service σ) (task : TaskId) :
    (fuel : Nat) → Machine σ → Routine σ α ⊕ (Wake → Routine σ α) → Option (Machine σ × α)
  | 0, _, _ => none
  | fuel + 1, m, .inr k =>
    (m.step? service).bind fun m' => match m.resumption? task with
      | some wake => m'.pursue service task fuel (.inl (k wake))
      | none => m'.pursue service task fuel (.inr k)
  | fuel + 1, m, .inl p => match p with
    | .done a => some (m, a)
    | .act f k => (m.step? service).bind fun m' => m'.pursue service task fuel (.inl (k (f m.world).1))
    | .call errand k =>
      (m.step? service).bind fun m' => m'.pursue service task fuel (.inl ((service errand).bind k))
    | .spawn _ k =>
      (m.step? service).bind fun m' => m'.pursue service task fuel (.inl (k m.world.agenda.created))
    | .wait cue k => (m.step? service).bind fun m' => match immediate? m.world cue with
      | some wake => m'.pursue service task fuel (.inl (k wake))
      | none => m'.pursue service task fuel (.inr k)

theorem idle_of_resumption {wake : Wake} (moved : m.resumption? task = some wake) : m.running = none := by
  rw [resumption?] at moved
  split at moved
  · next runs _ => exact runs
  · cases moved

/-- A parked task is resumed with what comes after its wait. -/
theorem resume_running {k : Wake → Routine σ Unit} (apart : (m.parked.map (·.1)).Nodup)
    (listed : (task, k) ∈ m.parked) (wake : Wake) : (m.resume task wake).running =
      some (task, k (if ((m.world.agenda.task? task).map (·.cancelled)).getD false then .cancelled else wake)) := by
  obtain ⟨found, chosen⟩ : ∃ found, m.parked.find? (·.1 == task) = some found :=
    Option.isSome_iff_exists.mp (List.find?_isSome.mpr ⟨_, listed, by simp⟩)
  obtain rfl : found = (task, k) := List.inj_on_of_nodup_map apart (List.mem_of_find?_eq_some chosen) listed
    (by simpa using List.find?_some chosen)
  rw [Machine.resume, chosen]

/-- The others stay parked. -/
theorem resume_parked {k : Wake → Routine σ Unit} {id : TaskId} (listed : (task, k) ∈ m.parked)
    (different : id ≠ task) (wake : Wake) : (task, k) ∈ (m.resume id wake).parked := by
  unfold Machine.resume
  split
  · exact listed
  · exact List.mem_filter.mpr ⟨listed, by simpa using different.symm⟩

/-- In a step of the machine itself a parked task is resumed if it is its turn, and stays parked otherwise. -/
theorem parked_step {service : Service σ} {k : Wake → Routine σ Unit} (apart : (m.parked.map (·.1)).Nodup)
    (listed : (task, k) ∈ m.parked) (taken : m.step? service = some m') :
    (∀ wake, m.resumption? task = some wake → m'.running = some (task, k wake)) ∧
      (m.resumption? task = none → (task, k) ∈ m'.parked) := by
  have stays (unmoved : m.resumption? task = none) (still : (task, k) ∈ m'.parked) :
      (∀ wake, m.resumption? task = some wake → m'.running = some (task, k wake)) ∧
        (m.resumption? task = none → (task, k) ∈ m'.parked) :=
    ⟨fun wake moved => absurd (unmoved.symm.trans moved) (by simp), fun _ => still⟩
  rcases step?_cases taken with ⟨t, p, runs, rfl⟩ | ⟨job, ready, idle, queue, rfl⟩
  · refine stays (by rw [resumption?, runs]) ?_
    cases p with
    | done | act | call => exact listed
    | spawn body q => exact List.mem_append_left _ listed
    | wait cue q =>
      rw [advance]
      split
      · exact listed
      · rw [park_parked]
        exact List.mem_append_left _ listed
  · cases job with
    | resume id wake =>
      by_cases mine : id = task
      · subst mine
        refine ⟨fun wake' moved => ?_, fun unmoved => ?_⟩
        · simp only [resumption?, idle, queue, if_pos, Option.some.injEq] at moved
          rw [← moved]
          exact resume_running (m := m.schedule ({ · with ready })) apart listed wake
        · simp [resumption?, idle, queue] at unmoved
      · refine stays (by simp [resumption?, idle, queue, mine]) ?_
        exact resume_parked (m := m.schedule ({ · with ready })) listed mine wake
    | ring | report | forget => exact stays (by simp [resumption?, idle, queue]) listed

/-- A call that was followed to its end has come to it. -/
theorem pursue_completes {a : α} (fuel : Nat) (arises : Arises e host m) :
    (∀ p : Routine σ α, m.running = some (task, p.bind rest) →
      m.pursue (host.service e) task fuel (.inl p) = some (m', a) → Completes e host task rest m p m' a) ∧
    ∀ k : Wake → Routine σ α, (task, fun wake => (k wake).bind rest) ∈ m.parked →
      m.pursue (host.service e) task fuel (.inr k) = some (m', a) →
        ∃ wake between resumed, Run e host (fun _ => False) m between ∧ between.running = none ∧
          between.step? (host.service e) = some resumed ∧
          resumed.running = some (task, (k wake).bind rest) ∧
          Completes e host task rest resumed (k wake) m' a := by
  induction fuel generalizing m with
  | zero => exact ⟨fun _ _ followed => (nomatch followed), fun _ _ followed => nomatch followed⟩
  | succ fuel ih =>
    have next {m₁ : Machine σ} (taken : m.step? (host.service e) = some m₁) :
        Run e host (fun _ => False) m m₁ := .next (.refl m) (.work taken)
    refine ⟨fun p runs followed => ?_, fun k listed followed => ?_⟩
    · have taken : m.step? (host.service e) = _ := step?_of_running runs
      have later := ih (arises.run (next taken))
      cases p with
      | done b =>
        obtain ⟨rfl, rfl⟩ : m = m' ∧ b = a := by simpa [pursue] using followed
        exact .done m b
      | act f k =>
        rw [pursue, taken, Option.bind_some] at followed
        exact .act (later.1 _ rfl followed)
      | call errand k =>
        rw [pursue, taken, Option.bind_some] at followed
        exact .call (later.1 _ (by rw [Routine.bind_bind]; rfl) followed)
      | spawn body k =>
        rw [pursue, taken, Option.bind_some] at followed
        exact .spawn (later.1 _ rfl followed)
      | wait cue k =>
        rw [pursue, taken, Option.bind_some] at followed
        cases immediate : immediate? m.world cue with
        | some wake =>
          rw [immediate] at followed
          exact .goesOn immediate (later.1 _ (by rw [Routine.bind, advance, immediate]) followed)
        | none =>
          rw [immediate] at followed
          obtain ⟨wake, between, resumed, meanwhile, idle, resumes, going, completes⟩ := later.2 k
            (by rw [Routine.bind, advance, immediate, park_parked]; simp) followed
          exact .waits immediate meanwhile idle resumes going completes
    · cases taken : m.step? (host.service e) with
      | none =>
        rw [pursue, taken] at followed
        cases followed
      | some m₁ =>
        rw [pursue, taken, Option.bind_some] at followed
        obtain ⟨_, manned⟩ := arises.manned
        obtain ⟨resumes, stays⟩ := parked_step manned.apart listed taken
        have later := ih (arises.run (next taken))
        cases moved : m.resumption? task with
        | some wake =>
          rw [moved] at followed
          have going := resumes wake moved
          exact ⟨wake, m, m₁, .refl m, idle_of_resumption moved, taken, going, later.1 (k wake) going followed⟩
        | none =>
          rw [moved] at followed
          obtain ⟨wake, between, resumed, meanwhile, rest⟩ := later.2 k (stays moved) followed
          exact ⟨wake, between, resumed, (next taken).trans meanwhile, rest⟩

/-- A task that was followed to where a check is passed has come there. -/
theorem exists_returns {p : Routine σ α} (fuel : Nat) (check : Machine σ → α → Bool) (arises : Arises e host m)
    (runs : m.running = some (task, p.bind rest))
    (passes : (m.pursue (host.service e) task fuel (.inl p)).any (fun r => check r.1 r.2) = true) :
    ∃ m' a, m.Returns e host task p m' a ∧ Arises e host m' ∧ m'.running = some (task, rest a) ∧
      check m' a = true := by
  cases followed : m.pursue (host.service e) task fuel (.inl p) with
  | none =>
    rw [followed] at passes
    cases passes
  | some reached =>
    rw [followed] at passes
    have completes := (pursue_completes fuel arises).1 p runs followed
    obtain ⟨run, ends⟩ := completes.run runs
    exact ⟨reached.1, reached.2, ⟨rest, runs, completes⟩, arises.run run, ends, passes⟩

/-- The same for calls that succeed with a given value. -/
theorem exists_returns_ok [DecidableEq α] {p : Routine σ (Except Interrupt α)}
    {rest : Except Interrupt α → Routine σ Unit} (fuel : Nat) (a : α) (check : Machine σ → Bool)
    (arises : Arises e host m) (runs : m.running = some (task, p.bind rest))
    (passes : (m.pursue (host.service e) task fuel (.inl p)).any
      (fun r => r.2.toOption == some a && check r.1) = true) :
    ∃ m', m.Returns e host task p m' (.ok a) ∧ Arises e host m' ∧ m'.running = some (task, rest (.ok a)) ∧
      check m' = true := by
  obtain ⟨m', outcome, returns, arises', ends, passed⟩ :=
    exists_returns fuel (fun m outcome => outcome.toOption == some a && check m) arises runs passes
  obtain ⟨succeeds, checked⟩ := Bool.and_eq_true_iff.mp passed
  obtain rfl : outcome = .ok a := by
    cases outcome with
    | error => simp [Except.toOption] at succeeds
    | ok b => simpa [Except.toOption] using succeeds
  exact ⟨m', returns, arises', ends, checked⟩

end Machine

end Runbook
