import Runbook.Proofs.Calls

/-! # Stories

A story tells what a machine is at every moment. A task that has its turn goes on until it waits or ends; in
between the first job of the queue is done, or something comes from outside, whatever it is: anyone may arrive
with anything to do, the clock may move, tasks may be cancelled, or nothing happens.

A task is followed through a routine by what it does itself, deed by deed. An errand that it runs is one deed of
it, which begins at one moment and has been done at another; what the tool or observer does meanwhile is followed
in the same way.
-/

namespace Runbook

open Machine

variable {σ α β : Type} {service : Service σ} {t : TaskId} {n n₀ n₁ : Nat}

/-! ## Moments -/

/-- What can come from outside. -/
inductive Machine.Beside : Machine σ → Machine σ → Prop
  | nothing (m : Machine σ) : Beside m m
  | arrive (m : Machine σ) (body : TaskId → Routine σ Unit) : Beside m (m.launch body).1
  | elapse {m m' : Machine σ} (elapsed : m.elapse? = some m') : Beside m m'
  | wind (m : Machine σ) (seconds : Float) : Beside m (m.moveClock seconds)
  | cancel (m : Machine σ) (id : TaskId) : Beside m { m with world := (m.world.cancel id).1 }

/-- What a machine is at every moment. -/
structure Story (service : Service σ) where
  machine : Nat → Machine σ
  happens : ∀ n, (machine n).step? service = some (machine (n + 1)) ∨
    (machine n).running = none ∧ (machine n).Beside (machine (n + 1))

namespace Story

variable {s : Story service} {m : Machine σ}

/-- The world at a moment. -/
def world (s : Story service) (n : Nat) : World σ := (s.machine n).world

/-- The task is about to do something. -/
def Runs (s : Story service) (t : TaskId) (p : Routine σ Unit) (n : Nat) : Prop :=
  (s.machine n).running = some (t, p)

theorem Runs.next {p : Routine σ Unit} (runs : s.Runs t p n) :
    s.machine (n + 1) = (s.machine n).advance service t p := by
  rcases s.happens n with taken | ⟨idle, _⟩
  · exact (Option.some.inj ((step?_of_running runs).symm.trans taken)).symm
  · cases runs.symm.trans idle

section

variable {rest : α → Routine σ Unit} {f : World σ → β × World σ} {k : β → Routine σ α}

theorem Runs.act (runs : s.Runs t ((Routine.act f k).bind rest) n) :
    s.Runs t ((k (f (s.world n)).1).bind rest) (n + 1) ∧ s.world (n + 1) = (f (s.world n)).2 := by
  constructor
  · rw [Runs, runs.next]
    rfl
  · rw [world, runs.next]
    rfl

theorem Runs.call {errand : Errand} {k : Except Interrupt Value → Routine σ α}
    (runs : s.Runs t ((Routine.call errand k).bind rest) n) :
    s.Runs t ((service errand).bind fun answer => (k answer).bind rest) (n + 1) := by
  rw [Runs, runs.next]
  rfl

theorem Runs.spawn {body : TaskId → Routine σ Unit} {k : TaskId → Routine σ α}
    (runs : s.Runs t ((Routine.spawn body k).bind rest) n) :
    s.Runs t ((k (s.world n).agenda.created).bind rest) (n + 1) := by
  rw [Runs, runs.next]
  rfl

theorem Runs.goesOn {cue : Cue} {k : Wake → Routine σ α} {wake : Wake}
    (runs : s.Runs t ((Routine.wait cue k).bind rest) n) (immediate : immediate? (s.world n) cue = some wake) :
    s.Runs t ((k wake).bind rest) (n + 1) := by
  rw [Runs, runs.next, Routine.bind, advance]
  rw [world] at immediate
  rw [immediate]

theorem Runs.parks {cue : Cue} {k : Wake → Routine σ α} (runs : s.Runs t ((Routine.wait cue k).bind rest) n)
    (suspends : immediate? (s.world n) cue = none) :
    (t, fun wake => (k wake).bind rest) ∈ (s.machine (n + 1)).parked := by
  rw [runs.next, Routine.bind, advance]
  rw [world] at suspends
  rw [suspends, park_parked]
  exact List.mem_append_right _ List.mem_cons_self

end

theorem Runs.assoc {p : Routine σ α} {f : α → Routine σ β} {rest : β → Routine σ Unit}
    (runs : s.Runs t ((p.bind f).bind rest) n) : s.Runs t (p.bind fun a => (f a).bind rest) n := by
  rwa [Routine.bind_bind] at runs

/-! ## Deeds -/

/-- Something that a task has done itself. -/
inductive Deed where
  /-- It changed the world. -/
  | acted (moment : Nat)
  /-- It ran an errand, from one moment to another. -/
  | ran (errand : Errand) (answer : Except Interrupt Value) (begun ended : Nat)
  | created (child : TaskId) (moment : Nat)
  /-- It waited, from one moment to another; they are the same if there was nothing to wait for. -/
  | waited (cue : Cue) (wake : Wake) (since resumed : Nat)

/-- It ran an errand that ended in a cancellation. -/
def Deed.isCut : Deed → Bool
  | .ran _ (.error (.cancelled _)) _ _ => true
  | _ => false

/-- No errand ended in a cancellation. -/
def Uncancelled (deeds : List Deed) : Prop := ∀ deed ∈ deeds, deed.isCut = false

theorem uncancelled_cons {deed : Deed} {deeds : List Deed} :
    Uncancelled (deed :: deeds) ↔ deed.isCut = false ∧ Uncancelled deeds := List.forall_mem_cons

/-- A task that has a routine to run from a moment on, and something else after it, has done some deeds and come
to where that much of the routine is left. -/
inductive Follows (s : Story service) (t : TaskId) :
    {α : Type} → (rest : α → Routine σ Unit) → Routine σ α → Nat → List Deed → Routine σ α → Nat → Prop
  | here {α : Type} {rest : α → Routine σ Unit} {p : Routine σ α} {n : Nat} (runs : s.Runs t (p.bind rest) n) :
      Follows s t rest p n [] p n
  | act {α β : Type} {rest : α → Routine σ Unit} {f : World σ → β × World σ} {k : β → Routine σ α} {q : Routine σ α}
      {deeds : List Deed} {n n' : Nat} (runs : s.Runs t ((Routine.act f k).bind rest) n)
      (later : Follows s t rest (k (f (s.world n)).1) (n + 1) deeds q n') :
      Follows s t rest (.act f k) n (.acted n :: deeds) q n'
  | call {α : Type} {rest : α → Routine σ Unit} {errand : Errand} {k : Except Interrupt Value → Routine σ α}
      {q : Routine σ α} {answer : Except Interrupt Value} {inner deeds : List Deed} {n n₁ n' : Nat}
      (runs : s.Runs t ((Routine.call errand k).bind rest) n)
      (serves : Follows s t (fun answer => (k answer).bind rest) (service errand) (n + 1) inner (.done answer) n₁)
      (later : Follows s t rest (k answer) n₁ deeds q n') :
      Follows s t rest (.call errand k) n (.ran errand answer n n₁ :: deeds) q n'
  | spawn {α : Type} {rest : α → Routine σ Unit} {body : TaskId → Routine σ Unit} {k : TaskId → Routine σ α}
      {q : Routine σ α} {deeds : List Deed} {n n' : Nat} (runs : s.Runs t ((Routine.spawn body k).bind rest) n)
      (later : Follows s t rest (k (s.world n).agenda.created) (n + 1) deeds q n') :
      Follows s t rest (.spawn body k) n (.created (s.world n).agenda.created n :: deeds) q n'
  /-- There is nothing to wait for. -/
  | goesOn {α : Type} {rest : α → Routine σ Unit} {cue : Cue} {k : Wake → Routine σ α} {q : Routine σ α} {wake : Wake}
      {deeds : List Deed} {n n' : Nat} (runs : s.Runs t ((Routine.wait cue k).bind rest) n)
      (immediate : immediate? (s.world n) cue = some wake)
      (later : Follows s t rest (k wake) (n + 1) deeds q n') :
      Follows s t rest (.wait cue k) n (.waited cue wake n n :: deeds) q n'
  /-- The task has its next turn when it is resumed. -/
  | waits {α : Type} {rest : α → Routine σ Unit} {cue : Cue} {k : Wake → Routine σ α} {q : Routine σ α} {wake : Wake}
      {deeds : List Deed} {n n₁ n' : Nat} (runs : s.Runs t ((Routine.wait cue k).bind rest) n)
      (suspends : immediate? (s.world n) cue = none) (after : n < n₁)
      (away : ∀ j, n < j → j < n₁ → ∀ p, ¬s.Runs t p j) (later : Follows s t rest (k wake) n₁ deeds q n') :
      Follows s t rest (.wait cue k) n (.waited cue wake n n₁ :: deeds) q n'

namespace Follows

variable {rest : α → Routine σ Unit} {p q : Routine σ α} {deeds : List Deed}

/-- At first the task is about to run the routine. -/
theorem runs (follows : s.Follows t rest p n₀ deeds q n) : s.Runs t (p.bind rest) n₀ := by
  cases follows <;> assumption

/-- What is left of the routine is what the task is about to do. -/
theorem left (follows : s.Follows t rest p n₀ deeds q n) : s.Runs t (q.bind rest) n := by
  induction follows with
  | here runs => exact runs
  | act _ _ ih | call _ _ _ _ ih | spawn _ _ ih | goesOn _ _ _ ih | waits _ _ _ _ _ ih => exact ih

theorem le (follows : s.Follows t rest p n₀ deeds q n) : n₀ ≤ n := by
  induction follows with
  | here => exact Nat.le_refl _
  | act _ _ ih | spawn _ _ ih | goesOn _ _ _ ih => omega
  | call _ _ _ serves later => omega
  | waits _ _ _ _ _ ih => omega

/-- There is nothing to do once a routine is done. -/
theorem of_done {a : α} (follows : s.Follows t rest (.done a) n₀ deeds q n) : deeds = [] ∧ q = .done a ∧ n = n₀ := by
  cases follows
  exact ⟨rfl, rfl, rfl⟩

/-- Whoever has come somewhere and goes on from there has come to where that leads. -/
theorem trans {r : Routine σ α} {deeds' : List Deed} (first : s.Follows t rest p n₀ deeds q n)
    (second : s.Follows t rest q n deeds' r n₁) : s.Follows t rest p n₀ (deeds ++ deeds') r n₁ := by
  induction first with
  | here => exact second
  | act runs _ ih => exact .act runs (ih second)
  | call runs serves _ _ ih => exact .call runs serves (ih second)
  | spawn runs _ ih => exact .spawn runs (ih second)
  | goesOn runs immediate _ ih => exact .goesOn runs immediate (ih second)
  | waits runs suspends after away _ ih => exact .waits runs suspends after away (ih second)

private theorem goes_on {f : β → Routine σ α} {b : β} (whole : f b = p) (follows : s.Follows t rest p n₀ deeds q n) :
    ∃ b' n₁ first second, s.Follows t (fun b => (f b).bind rest) (.done b) n₀ first (.done b') n₁ ∧
      s.Follows t rest (f b') n₁ second q n ∧ deeds = first ++ second := by
  subst whole
  exact ⟨b, n₀, [], deeds, .here follows.runs, follows, rfl⟩

/-- Whoever follows one routine after the other is still with the first, or has come to the end of it and goes on
with the second. -/
theorem bind {p : Routine σ β} {f : β → Routine σ α} (follows : s.Follows t rest (p.bind f) n₀ deeds q n) :
    (∃ left, s.Follows t (fun b => (f b).bind rest) p n₀ deeds left n ∧ q = left.bind f ∧ ∀ b, left ≠ .done b) ∨
      ∃ b n₁ first second, s.Follows t (fun b => (f b).bind rest) p n₀ first (.done b) n₁ ∧
        s.Follows t rest (f b) n₁ second q n ∧ deeds = first ++ second := by
  -- By induction on the deeds: each is one of the first routine, which the whole begins with, unless that is done.
  generalize whole : p.bind f = r at follows
  induction follows generalizing p with
  | @here _ rest _ n runs =>
    cases p with
    | done b => exact .inr (goes_on whole (.here runs))
    | act | wait | call | spawn =>
      subst whole
      exact .inl ⟨_, .here (Runs.assoc runs), rfl, fun b same => nomatch same⟩
  | @act _ _ rest g k _ _ n _ runs later ih =>
    cases p with
    | done b => exact .inr (goes_on whole (.act runs later))
    | act _ k' =>
      cases whole
      rcases ih rfl with ⟨left, follows, rfl, ongoing⟩ | ⟨b, n₁, first, second, follows, goes, rfl⟩
      · exact .inl ⟨left, .act (Runs.assoc (p := .act g k') runs) follows, rfl, ongoing⟩
      · exact .inr ⟨b, n₁, _, second, .act (Runs.assoc (p := .act g k') runs) follows, goes, rfl⟩
    | wait | call | spawn => cases whole
  | @call _ rest errand k _ answer _ _ n _ _ runs serves later _ ih =>
    cases p with
    | done b => exact .inr (goes_on whole (.call runs serves later))
    | call _ k' =>
      cases whole
      simp only [Routine.bind_bind] at serves
      rcases ih rfl with ⟨left, follows, rfl, ongoing⟩ | ⟨b, n₁, first, second, follows, goes, rfl⟩
      · exact .inl ⟨left, .call (Runs.assoc (p := .call errand k') runs) serves follows, rfl, ongoing⟩
      · exact .inr ⟨b, n₁, _, second, .call (Runs.assoc (p := .call errand k') runs) serves follows, goes, rfl⟩
    | act | wait | spawn => cases whole
  | @spawn _ rest body k _ _ n _ runs later ih =>
    cases p with
    | done b => exact .inr (goes_on whole (.spawn runs later))
    | spawn _ k' =>
      cases whole
      rcases ih rfl with ⟨left, follows, rfl, ongoing⟩ | ⟨b, n₁, first, second, follows, goes, rfl⟩
      · exact .inl ⟨left, .spawn (Runs.assoc (p := .spawn body k') runs) follows, rfl, ongoing⟩
      · exact .inr ⟨b, n₁, _, second, .spawn (Runs.assoc (p := .spawn body k') runs) follows, goes, rfl⟩
    | act | wait | call => cases whole
  | @goesOn _ rest cue k _ wake _ n _ runs immediate later ih =>
    cases p with
    | done b => exact .inr (goes_on whole (.goesOn runs immediate later))
    | wait _ k' =>
      cases whole
      rcases ih rfl with ⟨left, follows, rfl, ongoing⟩ | ⟨b, n₁, first, second, follows, goes, rfl⟩
      · exact .inl ⟨left, .goesOn (Runs.assoc (p := .wait cue k') runs) immediate follows, rfl, ongoing⟩
      · exact .inr ⟨b, n₁, _, second, .goesOn (Runs.assoc (p := .wait cue k') runs) immediate follows, goes, rfl⟩
    | act | call | spawn => cases whole
  | @waits _ rest cue k _ wake _ n _ _ runs suspends after away later ih =>
    cases p with
    | done b => exact .inr (goes_on whole (.waits runs suspends after away later))
    | wait _ k' =>
      cases whole
      rcases ih rfl with ⟨left, follows, rfl, ongoing⟩ | ⟨b, n₁, first, second, follows, goes, rfl⟩
      · exact .inl ⟨left, .waits (Runs.assoc (p := .wait cue k') runs) suspends after away follows, rfl, ongoing⟩
      · exact .inr ⟨b, n₁, _, second, .waits (Runs.assoc (p := .wait cue k') runs) suspends after away follows, goes,
          rfl⟩
    | act | call | spawn => cases whole

/-- Whoever follows a routine whose value is only looked at is still with the routine. -/
theorem bind_done {p : Routine σ β} {g : β → α}
    (follows : s.Follows t rest (p.bind fun b => .done (g b)) n₀ deeds q n) :
    ∃ left, s.Follows t (fun b => rest (g b)) p n₀ deeds left n ∧ q = left.bind fun b => .done (g b) := by
  rcases follows.bind with ⟨left, follows, same, _⟩ | ⟨b, n₁, first, second, follows, ends, rfl⟩
  · exact ⟨left, follows, same⟩
  · obtain ⟨rfl, rfl, rfl⟩ := ends.of_done
    rw [List.append_nil]
    exact ⟨.done b, follows, rfl⟩

end Follows

/-! ## Machines that are left alone -/

/-- The machine after a number of steps, or once it has no more to do. -/
def after (service : Service σ) (m : Machine σ) : Nat → Machine σ
  | 0 => m
  | n + 1 => ((after service m n).step? service).getD (after service m n)

/-- Nothing comes from outside. -/
def unattended (service : Service σ) (m : Machine σ) : Story service where
  machine := after service m
  happens n := by
    rw [after]
    cases taken : (after service m n).step? service with
    | some m' => exact .inl rfl
    | none =>
      refine .inr ⟨?_, .nothing _⟩
      cases runs : (after service m n).running with
      | none => rfl
      | some turn => cases (step?_of_running runs).symm.trans taken

theorem unattended_next {m' : Machine σ} (taken : ((unattended service m).machine n).step? service = some m') :
    (unattended service m).machine (n + 1) = m' :=
  congrArg (Option.getD · _) taken

end Story

/-- The machine once a parked task is resumed, with the moment and the end of its wait. -/
def Machine.awaken? (service : Service σ) (t : TaskId) :
    (fuel : Nat) → Machine σ → Nat → Option (Wake × Machine σ × Nat)
  | 0, _, _ => none
  | fuel + 1, m, n =>
    if m.running.map (·.1) = some t ∨ ¬(m.parked.map (·.1)).Nodup then none
    else (m.step? service).bind fun m' => match m.resumption? t with
      | some wake => some (wake, m', n + 1)
      | none => m'.awaken? service t fuel (n + 1)

/-- What a task does until a routine is done, with what it comes to, the machine then and the moment. -/
def Machine.trace (service : Service σ) (t : TaskId) :
    (fuel : Nat) → {α : Type} → Machine σ → Nat → Routine σ α → Option (List Story.Deed × α × Machine σ × Nat)
  | 0, _, _, _, _ => none
  | _ + 1, _, m, n, .done a => some ([], a, m, n)
  | fuel + 1, _, m, n, .act f k => (m.step? service).bind fun m' =>
    (m'.trace service t fuel (n + 1) (k (f m.world).1)).map (·.map (.acted n :: ·) id)
  | fuel + 1, _, m, n, .call errand k => (m.step? service).bind fun m' =>
    (m'.trace service t fuel (n + 1) (service errand)).bind fun (_, answer, m₁, n₁) =>
      (m₁.trace service t fuel n₁ (k answer)).map (·.map (.ran errand answer n n₁ :: ·) id)
  | fuel + 1, _, m, n, .spawn _ k => (m.step? service).bind fun m' =>
    (m'.trace service t fuel (n + 1) (k m.world.agenda.created)).map
      (·.map (.created m.world.agenda.created n :: ·) id)
  | fuel + 1, _, m, n, .wait cue k => (m.step? service).bind fun m' => match immediate? m.world cue with
    | some wake =>
      (m'.trace service t fuel (n + 1) (k wake)).map (·.map (.waited cue wake n n :: ·) id)
    | none => (m'.awaken? service t fuel (n + 1)).bind fun (wake, m₁, n₁) =>
      (m₁.trace service t fuel n₁ (k wake)).map (·.map (.waited cue wake n n₁ :: ·) id)

namespace Story

variable {m m' : Machine σ} {fuel : Nat}

theorem awaken?_runs {K : Wake → Routine σ Unit} {wake : Wake}
    (listed : (t, K) ∈ ((unattended service m).machine n).parked)
    (woken : ((unattended service m).machine n).awaken? service t fuel n = some (wake, m', n₁)) :
    m' = (unattended service m).machine n₁ ∧ n < n₁ ∧
      (∀ j, n ≤ j → j < n₁ → ∀ p, ¬(unattended service m).Runs t p j) ∧
      (unattended service m).Runs t (K wake) n₁ := by
  induction fuel generalizing n with
  | zero => cases woken
  | succ fuel ih =>
    rw [Machine.awaken?] at woken
    split at woken
    · cases woken
    · next fit =>
      obtain ⟨elsewhere, apart⟩ := not_or.mp fit
      have now (p : Routine σ Unit) : ¬(unattended service m).Runs t p n := fun runs => elsewhere (by
        rw [show _ = some (t, p) from runs]
        rfl)
      obtain ⟨next, taken, woken⟩ := Option.bind_eq_some_iff.mp woken
      obtain rfl := unattended_next taken
      obtain ⟨resumed, stays⟩ := parked_step (not_not.mp apart) listed taken
      split at woken
      · next wake' moved =>
        cases woken
        refine ⟨rfl, Nat.lt_succ_self n, fun j from_ before => ?_, resumed _ moved⟩
        obtain rfl : j = n := by omega
        exact now
      · next unmoved =>
        obtain ⟨same, after, away, runs⟩ := ih (stays unmoved) woken
        refine ⟨same, by omega, fun j from_ before => ?_, runs⟩
        rcases Nat.eq_or_lt_of_le from_ with rfl | later
        · exact now
        · exact away j later before

/-- A task that nobody disturbs has done what it was followed through. -/
theorem trace_follows {p : Routine σ α} {rest : α → Routine σ Unit} {a : α} {deeds : List Deed}
    (runs : (unattended service m).Runs t (p.bind rest) n)
    (traced : ((unattended service m).machine n).trace service t fuel n p = some (deeds, a, m', n₁)) :
    (unattended service m).Follows t rest p n deeds (.done a) n₁ ∧ m' = (unattended service m).machine n₁ := by
  induction fuel generalizing α n m' n₁ deeds with
  | zero => cases traced
  | succ fuel ih =>
    cases p with
    | done b =>
      cases traced
      exact ⟨.here runs, rfl⟩
    | act f k =>
      obtain ⟨next, taken, traced⟩ := Option.bind_eq_some_iff.mp traced
      obtain rfl := unattended_next taken
      obtain ⟨⟨_, _⟩, later, same⟩ := Option.map_eq_some_iff.mp traced
      cases same
      obtain ⟨follows, same⟩ := ih runs.act.1 later
      exact ⟨.act runs follows, same⟩
    | call errand k =>
      obtain ⟨next, taken, traced⟩ := Option.bind_eq_some_iff.mp traced
      obtain rfl := unattended_next taken
      obtain ⟨⟨inner, answer, m₁, n₁⟩, served, traced⟩ := Option.bind_eq_some_iff.mp traced
      obtain ⟨serves, rfl⟩ := ih runs.call served
      obtain ⟨⟨_, _⟩, later, same⟩ := Option.map_eq_some_iff.mp traced
      cases same
      obtain ⟨follows, same⟩ := ih (p := k answer) serves.left later
      exact ⟨.call runs serves follows, same⟩
    | spawn body k =>
      obtain ⟨next, taken, traced⟩ := Option.bind_eq_some_iff.mp traced
      obtain rfl := unattended_next taken
      obtain ⟨⟨_, _⟩, later, same⟩ := Option.map_eq_some_iff.mp traced
      cases same
      obtain ⟨follows, same⟩ := ih runs.spawn later
      exact ⟨.spawn runs follows, same⟩
    | wait cue k =>
      obtain ⟨next, taken, traced⟩ := Option.bind_eq_some_iff.mp traced
      obtain rfl := unattended_next taken
      cases immediate : immediate? ((unattended service m).machine n).world cue with
      | some wake =>
        rw [immediate] at traced
        obtain ⟨⟨_, _⟩, later, same⟩ := Option.map_eq_some_iff.mp traced
        cases same
        obtain ⟨follows, same⟩ := ih (runs.goesOn immediate) later
        exact ⟨.goesOn runs immediate follows, same⟩
      | none =>
        rw [immediate] at traced
        obtain ⟨⟨wake, m₁, n₁⟩, woken, traced⟩ := Option.bind_eq_some_iff.mp traced
        obtain ⟨rfl, after, away, resumed⟩ := awaken?_runs (runs.parks immediate) woken
        obtain ⟨⟨_, _⟩, later, same⟩ := Option.map_eq_some_iff.mp traced
        cases same
        obtain ⟨follows, same⟩ := ih resumed later
        exact ⟨.waits runs immediate (by omega) (fun j from_ before => away j from_ before) follows, same⟩

/-- What a task that nobody disturbs was followed to, where a check is passed. -/
theorem exists_follows {p : Routine σ α} {rest : α → Routine σ Unit} (fuel : Nat) (check : List Deed → α → Nat → Bool)
    (runs : (unattended service m).Runs t (p.bind rest) n)
    (passes : (((unattended service m).machine n).trace service t fuel n p).any
      (fun r => check r.1 r.2.1 r.2.2.2) = true) :
    ∃ deeds a n', (unattended service m).Follows t rest p n deeds (.done a) n' ∧ check deeds a n' = true := by
  cases traced : ((unattended service m).machine n).trace service t fuel n p with
  | none =>
    rw [traced] at passes
    cases passes
  | some reached =>
    rw [traced] at passes
    exact ⟨reached.1, reached.2.1, reached.2.2.2, (trace_follows runs traced).1, passes⟩

end Story

end Runbook
