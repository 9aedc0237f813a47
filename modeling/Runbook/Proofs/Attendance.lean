import Runbook.Interpreter
import Runbook.Proofs.Answers
import Runbook.Proofs.Sight

/-! # Those who wait at the gate

Requests are opened and waited for, one waiter to a request; operators answer and release them, and waiters are
cancelled, in any order and at any moment between two steps of the waiters. Whatever comes, every waiter has come to
some stage: it is about to wait, waits, is about to go on, has found an answer, has returned, or was cancelled.
-/

namespace Runbook

open Machine

/-! ## Sessions -/

/-- What those who waited came to, under the tokens of their requests. -/
abbrev Returns := List (String × Except Interrupt Decision)

namespace Attendance

/-- A waiter returns. -/
def tell (token : String) (outcome : Except Interrupt Decision) : Routine Returns Unit :=
  .change fun w => { w with memory := w.memory ++ [(token, outcome)] }

/-- What a waiter does: it waits for the answer to its request, and returns what it came to. -/
def attend (token : String) : Routine Returns Unit :=
  (ExceptT.run (Interpreter.awaitAnswer token)).bind (tell token)

/-- What a wait that ends in some way comes to, given the answer that is found then. -/
def verdict : Wake → Option Decision → Except Interrupt Decision
  | .ready, some decision => .ok decision
  | _, _ => .error (.cancelled "")

/-- What a waiter does when its wait is over. -/
def answered (token : String) (wake : Wake) : Routine Returns Unit :=
  .act (Interpreter.takeAnswer token) fun answer => tell token (verdict wake answer)

theorem attend_eq (token : String) : attend token = .wait (.decision token) (answered token) := by
  refine congrArg (Routine.wait (.decision token)) (funext fun wake => ?_)
  refine congrArg (Routine.act (Interpreter.takeAnswer token)) (funext fun answer => ?_)
  cases wake <;> cases answer <;> rfl

/-- What can happen at the gate. -/
inductive Action where
  | opens (execution : String) (stepIndex : Int)
  | waits (token : String)
  | acknowledges (execution : String) (decision : Decision) (token : Value)
  | releases (execution : String) (note : Value)
  /-- The waiter of a request is cancelled. -/
  | cancels (token : String)
  /-- A waiter goes on, or the first job of the queue is done. -/
  | works

end Attendance

/-- A gate with its waiters. -/
structure Attendance where
  machine : Machine Returns := { world := { memory := [] } }
  /-- The waiters, with the tokens that they wait for. -/
  waiters : List (String × TaskId) := []
  /-- The requests whose waiters were cancelled before they had ended. -/
  forsaken : List String := []

namespace Attendance

/-- Waiters run no errands. -/
def service : Service Returns := fun _ => .done (.ok .null)

/-- The requests that were opened. -/
def gate (s : Attendance) : Gate := s.machine.world.gate

/-- What waiters have returned. -/
def returns (s : Attendance) : Returns := s.machine.world.memory

/-- The session with another world. -/
def change (s : Attendance) (world : World Returns) : Attendance := { s with machine := { s.machine with world } }

/-- The session after an action, if that can happen: only requests that were opened and have no waiter get one,
and only waiters are cancelled. -/
def next? (s : Attendance) : Action → Option Attendance
  | .opens execution stepIndex =>
    some (s.change { s.machine.world with gate := (s.gate.request execution stepIndex).1 })
  | .waits token =>
    if (s.gate.find? token).isSome && (under token s.waiters).isEmpty then
      let (machine, task) := s.machine.launch fun _ => attend token
      some { s with machine, waiters := s.waiters ++ [(token, task)] }
    else none
  | .acknowledges execution decision token =>
    some (s.change (s.machine.world.acknowledge execution decision token).1)
  | .releases execution note => some (s.change (s.machine.world.releaseGate execution note).1)
  | .cancels token =>
    (under token s.waiters).head?.map fun task =>
      let (world, hit) := s.machine.world.cancel task
      { s.change world with forsaken := if hit then token :: s.forsaken else s.forsaken }
  | .works => (s.machine.step? service).map fun machine => { s with machine }

/-- The session after actions, if they can happen one after another. -/
def play (s : Attendance) (actions : List Action) : Option Attendance := actions.foldlM next? s

/-! ## How far a waiter has come -/

/-- How the wait for a request can have ended: with a decision, or by a cancellation. -/
inductive Settled (resolution : Resolution) (cut : Prop) : Wake → Prop
  | ready {decision : Decision} (decided : resolution = .decided decision) : Settled resolution cut .ready
  | cancelled (closed : resolution ≠ .unsettled) (excused : cut) : Settled resolution cut .cancelled

/-- What a waiter may return: the decision for its request, or no decision if it was cancelled. -/
def Fits (resolution : Resolution) (cut : Prop) : Except Interrupt Decision → Prop
  | .ok decision => resolution = .decided decision
  | .error _ => cut

/-- How far a waiter has come: what its request has come to, whether it was cancelled, what it has returned and
what there is to see of it. -/
inductive Stage (t : TaskId) (token : String) (resolution : Resolution) (cut : Prop) :
    List (Except Interrupt Decision) → Sight Returns → Prop
  | called {marked : Bool} (whole : resolution ≠ .abandoned) (mark : marked = true → cut) :
      Stage t token resolution cut [] { task := some { id := t, cancelled := marked }
                                        parked := [firstTurn (attend token)], wakes := [.ready] }
  | waits (opened : resolution = .unsettled) :
      Stage t token resolution cut [] { task := some { id := t }
                                        parked := [answered token], waits := [.decision token] }
  | freed {marked : Bool} {wake : Wake} (settled : Settled resolution cut wake) (mark : marked = true → cut) :
      Stage t token resolution cut [] { task := some { id := t, cancelled := marked }
                                        parked := [answered token], wakes := [wake] }
  | begins {marked : Bool} (whole : resolution ≠ .abandoned) (mark : marked = true → cut) :
      Stage t token resolution cut [] { task := some { id := t, cancelled := marked }
                                        running := some (attend token) }
  | answers {marked : Bool} {wake : Wake} (settled : Settled resolution cut wake) :
      Stage t token resolution cut [] { task := some { id := t, cancelled := marked }
                                        running := some (answered token wake) }
  | tells {marked : Bool} {outcome : Except Interrupt Decision} (fits : Fits resolution cut outcome) :
      Stage t token resolution cut [] { task := some { id := t, cancelled := marked }
                                        running := some (tell token outcome) }
  | ends {marked : Bool} {outcome : Except Interrupt Decision} (fits : Fits resolution cut outcome) :
      Stage t token resolution cut [outcome] { task := some { id := t, cancelled := marked }
                                               running := some (.done ()) }
  | leaves {marked : Bool} (excused : cut) :
      Stage t token resolution cut [] { task := some { id := t, cancelled := marked }
                                        running := some (.done ()) }
  | past {outcome : Except Interrupt Decision} (fits : Fits resolution cut outcome) :
      Stage t token resolution cut [outcome] {}
  | gone (excused : cut) : Stage t token resolution cut [] {}

/-- A session in which every waiter has come to some stage, and there is no sign of anyone else. -/
structure Sound (s : Attendance) : Prop where
  numbered : s.gate.Numbered
  kept : s.gate.Kept
  once : (s.waiters.map (·.1)).Nodup
  apart : (s.waiters.map (·.2)).Nodup
  early : ∀ t ∈ s.waiters.map (·.2), t < s.machine.world.agenda.created
  staged : ∀ token t, (token, t) ∈ s.waiters → ∃ r, s.gate.find? token = some r ∧
    Stage t token r.resolution (token ∈ s.forsaken) (under token s.returns) (s.machine.sight t)
  strangers : ∀ t ∉ s.waiters.map (·.2), s.machine.sight t = {}
  unheard : ∀ token ∉ s.waiters.map (·.1), under token s.returns = []
  abandoned : ∀ r ∈ s.gate.requests, r.resolution = .abandoned → r.token ∈ s.forsaken
  waited : ∀ token ∈ s.forsaken, token ∈ s.waiters.map (·.1)
  jobs : ∀ job ∈ s.machine.world.agenda.ready, ∃ t wake, job = .resume t wake

variable {s s' : Attendance} {t u : TaskId} {token other : String} {resolution : Resolution} {cut : Prop}
  {told : List (Except Interrupt Decision)} {sight : Sight Returns} {wake : Wake}
  {outcome : Except Interrupt Decision} {p : Routine Returns Unit}

theorem sound_start : Sound {} where
  numbered := rfl
  kept _ member := nomatch member
  once := List.nodup_nil
  apart := List.nodup_nil
  early _ member := nomatch member
  staged _ _ member := nomatch member
  strangers _ _ := rfl
  unheard _ _ := rfl
  abandoned _ member := nomatch member
  waited _ member := nomatch member
  jobs _ member := nomatch member

/-! ## Requests are settled -/

/-- Nobody but the waiter of a request waits for it. -/
theorem Stage.not_asks (stage : Stage t token resolution cut told sight) (different : other ≠ token) :
    Wait.decision other ∉ sight.waits := by
  cases stage <;> simp [different]

/-- A decision for a request changes nothing for a waiter who does not wait at the moment. -/
theorem Stage.decide (stage : Stage t token .unsettled cut told sight) (idle : sight.waits = [])
    (decision : Decision) : Stage t token (.decided decision) cut told sight := by
  have fitting {outcome : Except Interrupt Decision} (fits : Fits .unsettled cut outcome) :
      Fits (.decided decision) cut outcome := by
    cases outcome with
    | ok _ => cases fits
    | error _ => exact fits
  have closed {wake : Wake} (settled : Settled .unsettled cut wake) : False := by
    cases settled with
    | ready decided => cases decided
    | cancelled closed => exact closed rfl
  cases stage with
  | called _ mark => exact .called (by simp) mark
  | waits => cases idle
  | freed settled => exact (closed settled).elim
  | begins _ mark => exact .begins (by simp) mark
  | answers settled => exact (closed settled).elim
  | tells fits => exact .tells (fitting fits)
  | ends fits => exact .ends (fitting fits)
  | leaves excused => exact .leaves excused
  | past fits => exact .past (fitting fits)
  | gone excused => exact .gone excused

/-- Whoever waits has a request that nobody has settled. -/
theorem Stage.waiting (stage : Stage t token resolution cut told sight) (waits : sight.waits ≠ []) :
    resolution = .unsettled ∧ told = [] ∧ sight.waits = [.decision token] ∧
      sight = { task := some { id := t }, parked := [answered token], waits := [.decision token] } := by
  cases stage with
  | waits opened => exact ⟨opened, rfl, rfl, rfl⟩
  | _ => exact absurd rfl waits

/-- A waiter takes note of a decision for its request. -/
theorem Stage.settle {m : Machine Returns} {r : Gate.Request}
    (stage : Stage t token r.resolution cut told (m.sight t)) (decision : Decision) :
    Stage t token (r.settled (.decided decision)).resolution cut told
      ({ m with world := m.world.settle token (.decided decision) }.sight t) := by
  by_cases waits : (m.sight t).waits = []
  · rw [sight_settle _ (by simp [waits])]
    cases opened : r.isOpen with
    | true =>
      rw [Gate.Request.settled_of_open opened]
      rw [Gate.Request.isOpen_iff.mp opened] at stage
      exact stage.decide waits decision
    | false => rwa [Gate.Request.settled_of_closed opened]
  · obtain ⟨opened, rfl, waiting, seen⟩ := stage.waiting waits
    rw [sight_settle_waiting _ waiting, Gate.Request.settled_of_open (Gate.Request.isOpen_iff.mpr opened), seen]
    exact .freed (.ready rfl) (nofun)

/-- What becomes of the queue when a request is settled. -/
theorem jobs_settle {w : World Returns} (jobs : ∀ job ∈ w.agenda.ready, ∃ t wake, job = .resume t wake)
    (token : String) (resolution : Resolution) :
    ∀ job ∈ (w.settle token resolution).agenda.ready, ∃ t wake, job = .resume t wake := by
  intro job queued
  obtain ⟨ids, ready⟩ := settle_ready w token resolution
  rw [ready] at queued
  rcases List.mem_append.mp queued with old | new
  · exact jobs job old
  · obtain ⟨t, _, rfl⟩ := List.mem_map.mp new
    exact ⟨t, _, rfl⟩

/-- A decision makes no request abandoned. -/
theorem abandoned_settle {g : Gate} {forsaken : List String} (decision : Decision)
    (abandoned : ∀ r ∈ g.requests, r.resolution = .abandoned → r.token ∈ forsaken) (token : String) :
    ∀ r ∈ (g.settle token (.decided decision)).requests, r.resolution = .abandoned → r.token ∈ forsaken := by
  intro r' member lost
  obtain ⟨r, old, rfl | ⟨_, _, rfl⟩⟩ := Gate.mem_settle member
  · exact abandoned r' old lost
  · cases lost

/-- A decision for one request leaves the session sound. -/
theorem Sound.settle (sound : s.Sound) (token : String) (decision : Decision) :
    (s.change (s.machine.world.settle token (.decided decision))).Sound := by
  have settles := s.gate.settles_settle token (.decided decision)
  exact {
    numbered := settles.numbered sound.numbered
    kept := settles.kept sound.kept
    once := sound.once
    apart := sound.apart
    early := fun t listed => Nat.lt_of_lt_of_eq (sound.early t listed) (settle_created ..).symm
    staged := fun other t member => by
      obtain ⟨r, found, stage⟩ := sound.staged other t member
      refine ⟨_, (s.gate.find?_settle token other _).trans (congrArg _ found), ?_⟩
      simp only
      split
      · next same =>
        subst same
        exact stage.settle decision
      · next different =>
        have kept := stage.not_asks (Ne.symm different)
        exact (sight_settle (.decided decision) kept).symm ▸ stage
    strangers := fun t stranger => by
      have none := sound.strangers t stranger
      exact (sight_settle _ (by rw [none]; exact List.not_mem_nil)).trans none
    unheard := sound.unheard
    abandoned := abandoned_settle decision sound.abandoned token
    waited := sound.waited
    jobs := jobs_settle sound.jobs token _ }

theorem Sound.acknowledges (sound : s.Sound) (execution : String) (decision : Decision) (token : Value) :
    (s.change (s.machine.world.acknowledge execution decision token).1).Sound := by
  unfold World.acknowledge
  split
  · exact sound.settle _ decision
  · exact sound

theorem Sound.releases (sound : s.Sound) (execution : String) (note : Value) :
    (s.change (s.machine.world.releaseGate execution note).1).Sound := by
  have each (chosen : List Gate.Request) (s : Attendance) (sound : s.Sound) :
      (s.change (chosen.foldl (fun w r => w.settle r.token (.decided (Gate.released note))) s.machine.world)).Sound := by
    induction chosen generalizing s with
    | nil => exact sound
    | cons r rest ih => exact ih _ (sound.settle r.token _)
  exact each _ s sound

/-! ## Requests are opened and waited for -/

theorem Sound.opens (sound : s.Sound) (execution : String) (stepIndex : Int) :
    (s.change { s.machine.world with gate := (s.gate.request execution stepIndex).1 }).Sound where
  numbered := sound.numbered.request execution stepIndex
  kept := sound.kept.request execution stepIndex
  once := sound.once
  apart := sound.apart
  early := sound.early
  staged token t member := by
    obtain ⟨r, found, stage⟩ := sound.staged token t member
    exact ⟨r, Gate.find?_request_old found execution stepIndex, stage⟩
  strangers := sound.strangers
  unheard := sound.unheard
  abandoned r member lost := by
    rcases List.mem_append.mp member with old | new
    · exact sound.abandoned r old lost
    · rw [List.mem_singleton.mp new] at lost
      cases lost
  waited := sound.waited
  jobs := sound.jobs

/-- A request that nobody has waited for gets a waiter. -/
theorem Sound.waits (sound : s.Sound) {r : Gate.Request} (found : s.gate.find? token = some r)
    (alone : under token s.waiters = []) :
    ({ s with
      machine := (s.machine.launch fun _ => attend token).1
      waiters := s.waiters ++ [(token, s.machine.world.agenda.created)] } : Attendance).Sound := by
  have unheard : token ∉ s.waiters.map (·.1) := by
    intro listed
    obtain ⟨⟨_, t⟩, member, rfl⟩ := List.mem_map.mp listed
    exact List.not_mem_nil (alone ▸ mem_under.mpr member)
  have new : s.machine.world.agenda.created ∉ s.waiters.map (·.2) := fun listed =>
    Nat.lt_irrefl _ (sound.early _ listed)
  have unseen := sound.strangers _ new
  have other {t : TaskId} (different : t ≠ s.machine.world.agenda.created) :
      (s.machine.launch fun _ => attend token).1.sight t = s.machine.sight t := sight_launch_other different _
  exact {
    numbered := sound.numbered
    kept := sound.kept
    once := by
      rw [List.map_append]
      exact List.concat_eq_append ▸ sound.once.concat unheard
    apart := by
      rw [List.map_append]
      exact List.concat_eq_append ▸ sound.apart.concat new
    early := fun t listed => by
      rw [List.map_append, List.mem_append] at listed
      refine Nat.lt_succ_of_le ?_
      rcases listed with old | fresh
      · exact Nat.le_of_lt (sound.early t old)
      · exact Nat.le_of_eq (List.mem_singleton.mp fresh)
    staged := fun token' t member => by
      rcases List.mem_append.mp member with old | fresh
      · have different : t ≠ s.machine.world.agenda.created := by
          rintro rfl
          exact new (List.mem_map_of_mem old)
        obtain ⟨r, found, stage⟩ := sound.staged token' t old
        exact ⟨r, found, (other different).symm ▸ stage⟩
      · obtain ⟨rfl, rfl⟩ := Prod.mk.inj (List.mem_singleton.mp fresh)
        refine ⟨r, found, ?_⟩
        rw [sight_launch_self unseen]
        change Stage _ _ _ _ (under token' s.returns) _
        rw [sound.unheard token' unheard]
        refine .called (fun lost => ?_) nofun
        obtain ⟨member, named⟩ := Gate.find?_mem found
        exact unheard (sound.waited _ (named ▸ sound.abandoned r member lost))
    strangers := fun t stranger => by
      rw [List.map_append, List.mem_append, not_or] at stranger
      exact (other fun same => stranger.2 (List.mem_singleton.mpr same)).trans (sound.strangers t stranger.1)
    unheard := fun token' stranger => by
      rw [List.map_append, List.mem_append, not_or] at stranger
      exact sound.unheard token' stranger.1
    abandoned := sound.abandoned
    waited := fun token' cut => by
      rw [List.map_append]
      exact List.mem_append_left _ (sound.waited token' cut)
    jobs := fun job queued => by
      rcases List.mem_append.mp queued with old | fresh
      · exact sound.jobs job old
      · exact ⟨_, _, List.mem_singleton.mp fresh⟩ }

/-! ## One waiter moves -/

/-- Each waiter has a request of its own. -/
theorem Sound.own (sound : s.Sound) (member : (token, t) ∈ s.waiters) (other' : (other, u) ∈ s.waiters)
    (different : u ≠ t) : other ≠ token := by
  rintro rfl
  have same := List.inj_on_of_nodup_map sound.once other' member rfl
  exact different (Prod.mk.inj same).2

/-- Nobody else waits for the request of a waiter. -/
theorem Sound.unasked (sound : s.Sound) (member : (token, t) ∈ s.waiters) (different : u ≠ t) :
    Wait.decision token ∉ (s.machine.sight u).waits := by
  by_cases known : u ∈ s.waiters.map (·.2)
  · obtain ⟨⟨other, u⟩, listed, rfl⟩ := List.mem_map.mp known
    obtain ⟨r, _, stage⟩ := sound.staged other u listed
    exact stage.not_asks (Ne.symm (sound.own member listed different))
  · rw [sound.strangers u known]
    exact List.not_mem_nil

/-- One waiter goes on from one stage to another, and nobody else is concerned. -/
theorem Sound.move (sound : s.Sound) (member : (token, t) ∈ s.waiters) {m : Machine Returns}
    {forsaken : List String} (created : m.world.agenda.created = s.machine.world.agenda.created)
    (numbered : m.world.gate.Numbered) (kept : m.world.gate.Kept)
    (finds : ∀ other ≠ token, m.world.gate.find? other = s.gate.find? other)
    (others : ∀ u ≠ t, m.sight u = s.machine.sight u)
    (told : ∀ other ≠ token, under other m.world.memory = under other s.returns)
    (cuts : ∀ other ≠ token, (other ∈ forsaken ↔ other ∈ s.forsaken))
    (jobs : ∀ job ∈ m.world.agenda.ready, ∃ t wake, job = .resume t wake)
    (own : ∃ r, m.world.gate.find? token = some r ∧ (r.resolution = .abandoned → token ∈ forsaken) ∧
      Stage t token r.resolution (token ∈ forsaken) (under token m.world.memory) (m.sight t)) :
    ({ s with machine := m, forsaken } : Attendance).Sound where
  numbered := numbered
  kept := kept
  once := sound.once
  apart := sound.apart
  early u listed := Nat.lt_of_lt_of_eq (sound.early u listed) created.symm
  staged other u listed := by
    by_cases same : u = t
    · subst same
      have owned : other = token := by
        have entry := List.inj_on_of_nodup_map sound.apart listed member rfl
        exact (Prod.mk.inj entry).1
      subst owned
      obtain ⟨r, found, _, stage⟩ := own
      exact ⟨r, found, stage⟩
    · have foreign := sound.own member listed same
      obtain ⟨r, found, stage⟩ := sound.staged other u listed
      refine ⟨r, (finds other foreign).trans found, ?_⟩
      change Stage u other r.resolution (other ∈ forsaken) (under other m.world.memory) (m.sight u)
      rw [others u same, told other foreign, propext (cuts other foreign)]
      exact stage
  strangers u stranger := by
    have different : u ≠ t := by
      rintro rfl
      exact stranger (List.mem_map_of_mem member)
    exact (others u different).trans (sound.strangers u stranger)
  unheard other stranger := by
    have different : other ≠ token := by
      rintro rfl
      exact stranger (List.mem_map_of_mem member)
    exact (told other different).trans (sound.unheard other stranger)
  abandoned r listed lost := by
    have found := numbered.find? listed
    by_cases same : r.token = token
    · obtain ⟨r', found', lost', _⟩ := own
      rw [same] at found ⊢
      obtain rfl := Option.some.inj (found.symm.trans found')
      exact lost' lost
    · rw [finds _ same] at found
      exact (cuts _ same).mpr (sound.abandoned r (Gate.find?_mem found).1 lost)
  waited other cut := by
    by_cases same : other = token
    · exact same ▸ List.mem_map_of_mem member
    · exact sound.waited other ((cuts other same).mp cut)
  jobs := jobs

/-! ## A waiter is cancelled -/

/-- A waiter that was cancelled is excused from now on. -/
theorem Fits.excuse {cut' : Prop} (fits : Fits resolution cut outcome) (excused : cut') :
    Fits resolution cut' outcome := by
  cases outcome with
  | ok _ => exact fits
  | error _ => exact excused

theorem Settled.excuse {cut' : Prop} (settled : Settled resolution cut wake) (excused : cut') :
    Settled resolution cut' wake := by
  cases settled with
  | ready decided => exact .ready decided
  | cancelled closed _ => exact .cancelled closed excused

/-- A waiter that does not wait at the moment is marked. -/
theorem Stage.mark {cut' : Prop} {task : Task} (stage : Stage t token resolution cut told sight)
    (alive : sight.task = some task) (idle : sight.waits = []) (excused : cut') :
    Stage t token resolution cut' told { sight with task := some { task with cancelled := true } } := by
  cases stage with
  | waits => cases idle
  | past | gone => cases alive
  | called whole => cases alive; exact .called whole fun _ => excused
  | freed settled => cases alive; exact .freed (settled.excuse excused) fun _ => excused
  | begins whole => cases alive; exact .begins whole fun _ => excused
  | answers settled => cases alive; exact .answers (settled.excuse excused)
  | tells fits => cases alive; exact .tells (fits.excuse excused)
  | ends fits => cases alive; exact .ends (fits.excuse excused)
  | leaves => cases alive; exact .leaves excused

/-- A waiter that is cancelled while it waits gives its request up. -/
theorem Sound.abandons (sound : s.Sound) (member : (token, t) ∈ s.waiters) {m : Machine Returns}
    (seen : m.sight t = { task := some { id := t }, parked := [answered token], waits := [.decision token] })
    (others : ∀ u ≠ t, m.sight u = s.machine.sight u) (gate : m.world.gate = s.gate)
    (memory : m.world.memory = s.returns) (created : m.world.agenda.created = s.machine.world.agenda.created)
    (jobs : ∀ job ∈ m.world.agenda.ready, ∃ t wake, job = .resume t wake)
    (opened : ∃ r, s.gate.find? token = some r ∧ r.isOpen = true) (silent : under token s.returns = [])
    {forsaken : List String} (cuts : ∀ other ≠ token, (other ∈ forsaken ↔ other ∈ s.forsaken))
    (cut : token ∈ forsaken) :
    ({ s with machine := { m with world := m.world.settle token .abandoned }, forsaken } : Attendance).Sound := by
  obtain ⟨r, found, opened⟩ := opened
  have settles := s.gate.settles_settle token .abandoned
  have gate' : (m.world.settle token .abandoned).gate = s.gate.settle token .abandoned := by
    rw [← gate]
    rfl
  refine sound.move member ((settle_created ..).trans created) (gate' ▸ settles.numbered sound.numbered)
    (gate' ▸ settles.kept sound.kept) (fun other different => ?_) (fun u different => ?_) (fun other _ => ?_) cuts
    (jobs_settle jobs token _) ⟨r.settled .abandoned, ?_, fun _ => cut, ?_⟩
  · rw [gate', Gate.find?_settle]
    simp [different]
  · refine (sight_settle _ ?_).trans (others u different)
    rw [others u different]
    exact sound.unasked member different
  · exact congrArg (under other) memory
  · rw [gate', Gate.find?_settle, found, Option.map_some, if_pos rfl]
  · have told : under token (m.world.settle token .abandoned).memory = [] := (congrArg (under token) memory).trans silent
    rw [told, sight_settle_waiting _ (by rw [seen]), seen, Gate.Request.settled_of_open opened]
    exact .freed (.cancelled (by simp) cut) nofun

theorem Sound.cancels (sound : s.Sound) (member : (token, t) ∈ s.waiters) :
    ({ s.change (s.machine.world.cancel t).1 with
      forsaken := if (s.machine.world.cancel t).2 then token :: s.forsaken else s.forsaken } : Attendance).Sound := by
  obtain ⟨r, found, stage⟩ := sound.staged token t member
  have cuts (other : String) (different : other ≠ token) : other ∈ token :: s.forsaken ↔ other ∈ s.forsaken := by
    simp [different]
  cases alive : (s.machine.sight t).task with
  | none =>
    rw [cancel_of_ended alive]
    exact sound
  | some task =>
    by_cases idle : (s.machine.sight t).waits = []
    · rw [cancel_of_idle alive idle, if_pos rfl]
      have sight (u : TaskId) := sight_amend (f := ({ · with cancelled := true })) (fun _ => rfl) s.machine t u
      refine sound.move member rfl sound.numbered sound.kept (fun _ _ => rfl) (fun u different => ?_) (fun _ _ => rfl)
        cuts sound.jobs ⟨r, found, fun _ => List.mem_cons_self, ?_⟩
      · refine (sight u).trans ?_
        simp only [different, if_false, Option.map_id']
      · have excused : token ∈ token :: s.forsaken := List.mem_cons_self
        have marked := stage.mark alive idle excused
        have seen := sight t
        rw [alive, Option.map_some, if_pos rfl] at seen
        rw [← seen] at marked
        exact marked
    · obtain ⟨opened, silent, waiting, seen⟩ := stage.waiting idle
      rw [cancel_of_waiting alive waiting, if_pos rfl]
      exact sound.abandons member seen (fun _ _ => rfl) rfl rfl rfl sound.jobs
        ⟨r, found, Gate.Request.isOpen_iff.mpr opened⟩ silent cuts List.mem_cons_self

/-! ## A waiter goes on -/

/-- Whoever runs is a waiter, and has come to some stage. -/
theorem Sound.runs (sound : s.Sound) (running : s.machine.running = some (t, p)) :
    ∃ token r, (token, t) ∈ s.waiters ∧ s.gate.find? token = some r ∧
      Stage t token r.resolution (token ∈ s.forsaken) (under token s.returns) (s.machine.sight t) := by
  by_cases known : t ∈ s.waiters.map (·.2)
  · obtain ⟨⟨token, t⟩, member, rfl⟩ := List.mem_map.mp known
    obtain ⟨r, found, stage⟩ := sound.staged token t member
    exact ⟨token, r, member, found, stage⟩
  · have seen := sight_running running
    rw [sound.strangers t known] at seen
    cases seen

/-- A request is abandoned only if its waiter was cancelled. -/
theorem Sound.excused (sound : s.Sound) {r : Gate.Request} (found : s.gate.find? token = some r)
    (lost : r.resolution = .abandoned) : token ∈ s.forsaken := by
  obtain ⟨listed, named⟩ := Gate.find?_mem found
  exact named ▸ sound.abandoned r listed lost

/-- A waiter does something that is no business of the others. -/
theorem Sound.goes_on (sound : s.Sound) (member : (token, t) ∈ s.waiters)
    (running : s.machine.running = some (t, p)) {q : Routine Returns Unit} {w : World Returns}
    (agenda : w.agenda = s.machine.world.agenda) (numbered : w.gate.Numbered) (kept : w.gate.Kept)
    (finds : ∀ other ≠ token, w.gate.find? other = s.gate.find? other)
    (told : ∀ other ≠ token, under other w.memory = under other s.returns)
    (own : ∃ r, w.gate.find? token = some r ∧ (r.resolution = .abandoned → token ∈ s.forsaken) ∧
      Stage t token r.resolution (token ∈ s.forsaken) (under token w.memory)
        { s.machine.sight t with running := some q }) :
    ({ s with machine := { s.machine with world := w, running := some (t, q) } } : Attendance).Sound := by
  refine sound.move member (congrArg Agenda.created agenda) numbered kept finds
    (fun u different => sight_go_on_other agenda running different) told (fun _ _ => .rfl) (agenda ▸ sound.jobs) ?_
  rwa [sight_go_on_self agenda]

/-- A waiter comes to wait, or finds its request settled. -/
theorem Sound.attends (sound : s.Sound) (member : (token, t) ∈ s.waiters) {r : Gate.Request}
    (found : s.gate.find? token = some r) (silent : under token s.returns = []) {marked : Bool}
    (whole : r.resolution ≠ .abandoned) (mark : marked = true → token ∈ s.forsaken)
    (seen : s.machine.sight t =
      { task := some { id := t, cancelled := marked }, running := some (attend token) }) :
    ({ s with machine := s.machine.advance service t (attend token) } : Attendance).Sound := by
  have running : s.machine.running = some (t, attend token) := running_of_sight (by rw [seen])
  have finding : s.machine.world.gate.find? token = some r := found
  rw [attend_eq] at seen running ⊢
  cases resolution : r.resolution with
  | abandoned => exact absurd resolution whole
  | decided decision =>
    have next : s.machine.advance service t (.wait (.decision token) (answered token)) =
        { s.machine with running := some (t, answered token .ready) } := by
      simp only [advance, immediate?, finding, Option.bind_some, resolution]
    rw [next]
    refine sound.goes_on member running rfl sound.numbered sound.kept (fun _ _ => rfl) (fun _ _ => rfl)
      ⟨r, found, fun lost => absurd lost whole, ?_⟩
    have told : under token s.machine.world.memory = [] := silent
    rw [told, seen]
    exact .answers (.ready resolution)
  | unsettled =>
    have next : s.machine.advance service t (.wait (.decision token) (answered token)) =
        s.machine.park t (.decision token) (answered token) := by
      simp only [advance, immediate?, finding, Option.bind_some, resolution]
    have suspended := sight_suspended_self token (answered token) seen
    have others (u : TaskId) (different : u ≠ t) :
        (s.machine.suspended t token (answered token)).sight u = s.machine.sight u :=
      sight_suspended_other running different
    rw [next, park_decision seen]
    cases marked with
    | false =>
      refine sound.move member rfl sound.numbered sound.kept (fun _ _ => rfl) others (fun _ _ => rfl)
        (fun _ _ => .rfl) sound.jobs ⟨r, found, fun lost => absurd lost whole, ?_⟩
      have told : under token s.machine.world.memory = [] := silent
      change Stage t token r.resolution _ (under token s.machine.world.memory) _
      rw [told, if_neg Bool.false_ne_true, suspended]
      exact .waits resolution
    | true =>
      have unmarked (u : TaskId) := sight_amend (f := ({ · with cancelled := false })) (fun _ => rfl)
        (s.machine.suspended t token (answered token)) t u
      rw [if_pos rfl]
      refine sound.abandons (m := (s.machine.suspended t token (answered token)).schedule
        (·.amend t ({ · with cancelled := false }))) member ?_ (fun u different => ?_) rfl rfl rfl sound.jobs
        ⟨r, found, Gate.Request.isOpen_iff.mpr resolution⟩ silent (fun _ _ => .rfl) (mark rfl)
      · rw [unmarked t, suspended]
        simp
      · rw [unmarked u, others u different]
        simp only [different, if_false, Option.map_id']

/-- A waiter whose wait is over takes its request off the gate. -/
theorem Sound.takes (sound : s.Sound) (member : (token, t) ∈ s.waiters) {r : Gate.Request}
    (found : s.gate.find? token = some r) (silent : under token s.returns = []) {marked : Bool}
    (settled : Settled r.resolution (token ∈ s.forsaken) wake)
    (lost : r.resolution = .abandoned → token ∈ s.forsaken)
    (seen : s.machine.sight t =
      { task := some { id := t, cancelled := marked }, running := some (answered token wake) }) :
    ({ s with machine := s.machine.advance service t (answered token wake) } : Attendance).Sound := by
  have running : s.machine.running = some (t, answered token wake) := running_of_sight (by rw [seen])
  have closed : ∀ q ∈ s.gate.requests, q.token = token → q.isOpen = false := by
    rintro q listed rfl
    obtain rfl := Option.some.inj ((sound.numbered.find? listed).symm.trans found)
    cases opened : q.isOpen with
    | false => rfl
    | true =>
      rw [Gate.Request.isOpen_iff.mp opened] at settled
      cases settled with
      | ready decided => cases decided
      | cancelled closed => exact absurd rfl closed
  refine sound.goes_on member running rfl (sound.numbered.withdraw token) (sound.kept.withdraw closed)
    (fun other different => ?_) (fun _ _ => rfl) ⟨{ r with listed := false }, ?_, lost, ?_⟩
  · refine (s.gate.find?_withdraw token other).trans ?_
    simp only [different, if_false, Option.map_id']
  · exact (s.gate.find?_withdraw token token).trans (by rw [found, Option.map_some, if_pos rfl])
  · have told : under token s.machine.world.memory = [] := silent
    have finding : s.machine.world.gate.find? token = some r := found
    have answer : (s.machine.world.gate.find? token).bind (·.answer?) = r.answer? := by
      rw [finding]
      rfl
    change Stage t token r.resolution _ (under token s.machine.world.memory) _
    rw [told, seen, answer]
    refine .tells ?_
    cases settled with
    | ready decided =>
      rw [Gate.Request.answer?, decided]
      rfl
    | cancelled _ excused => exact excused

/-- A waiter returns what it came to. -/
theorem Sound.tells (sound : s.Sound) (member : (token, t) ∈ s.waiters) {r : Gate.Request}
    (found : s.gate.find? token = some r) (silent : under token s.returns = []) {marked : Bool}
    (fits : Fits r.resolution (token ∈ s.forsaken) outcome) (lost : r.resolution = .abandoned → token ∈ s.forsaken)
    (seen : s.machine.sight t =
      { task := some { id := t, cancelled := marked }, running := some (tell token outcome) }) :
    ({ s with machine := s.machine.advance service t (tell token outcome) } : Attendance).Sound := by
  have running : s.machine.running = some (t, tell token outcome) := running_of_sight (by rw [seen])
  refine sound.goes_on member running rfl sound.numbered sound.kept (fun _ _ => rfl) (fun other different => ?_)
    ⟨r, found, lost, ?_⟩
  · change under other (s.returns ++ _) = _
    rw [under_append, under_singleton_other (Ne.symm different), List.append_nil]
  · change Stage _ _ _ _ (under token (s.returns ++ _)) _
    rw [under_append, silent, under_singleton_self, seen]
    exact .ends fits

/-- A waiter ends. -/
theorem Sound.ends (sound : s.Sound) (member : (token, t) ∈ s.waiters) {r : Gate.Request}
    (found : s.gate.find? token = some r) {marked : Bool} (lost : r.resolution = .abandoned → token ∈ s.forsaken)
    (seen : s.machine.sight t = { task := some { id := t, cancelled := marked }, running := some (.done ()) })
    (ended : Stage t token r.resolution (token ∈ s.forsaken) (under token s.returns) {}) :
    ({ s with machine := s.machine.advance service t (.done ()) } : Attendance).Sound := by
  have agenda : (s.machine.advance service t (.done ())).world.agenda =
      { s.machine.world.agenda with tasks := s.machine.world.agenda.tasks.filter (·.id != t) } :=
    Agenda.finish_unwatched (congrArg Sight.task seen) rfl
  refine sound.move member (by rw [agenda]) sound.numbered sound.kept (fun _ _ => rfl)
    (fun u different => sight_finish_other seen rfl different) (fun _ _ => rfl) (fun _ _ => .rfl)
    (by rw [agenda]; exact sound.jobs) ⟨r, found, lost, ?_⟩
  rw [show (s.machine.advance service t (.done ())).sight t = {} from sight_finish_self seen rfl]
  exact ended

theorem Sound.advances (sound : s.Sound) (running : s.machine.running = some (t, p)) :
    ({ s with machine := s.machine.advance service t p } : Attendance).Sound := by
  obtain ⟨token, r, member, found, stage⟩ := sound.runs running
  have runs := sight_running running
  have lost := sound.excused found
  generalize told : under token s.returns = list at stage
  generalize seen : s.machine.sight t = sight at stage
  rw [seen] at runs
  cases stage with
  | called | waits | freed | past | gone => cases runs
  | begins whole mark =>
    obtain rfl := Option.some.inj runs
    exact sound.attends member found told whole mark seen
  | answers settled =>
    obtain rfl := Option.some.inj runs
    exact sound.takes member found told settled lost seen
  | tells fits =>
    obtain rfl := Option.some.inj runs
    exact sound.tells member found told fits lost seen
  | ends fits =>
    obtain rfl := Option.some.inj runs
    exact sound.ends member found lost seen (told ▸ .past fits)
  | leaves excused =>
    obtain rfl := Option.some.inj runs
    exact sound.ends member found lost seen (told ▸ .gone excused)

/-- A waiter that is resumed goes on as its stage lets it, and is marked no longer. -/
theorem Sound.goesOn (sound : s.Sound) (idle : s.machine.running = none) {wake : Wake} {rest : List Job}
    (queue : s.machine.world.agenda.ready = .resume t wake :: rest) (member : (token, t) ∈ s.waiters) {r : Gate.Request}
    (found : s.gate.find? token = some r) {k : Wake → Routine Returns Unit} {marked : Bool}
    (alive : s.machine.sight t = { task := some { id := t, cancelled := marked }, parked := [k], wakes := [wake] })
    (next : Stage t token r.resolution (token ∈ s.forsaken) (under token s.returns)
      { task := some { id := t }, running := some (k (if marked then .cancelled else wake)) }) :
    ({ s with machine := (s.machine.dequeued rest).resume t wake } : Attendance).Sound := by
  have self := sight_resume_self queue alive
  have others (u : TaskId) (different : u ≠ t) := sight_resume_other idle queue alive different
  have lost := sound.excused found
  have resumed := resume_of_sight (m := s.machine.dequeued rest) wake (congrArg Sight.task alive)
    (congrArg Sight.parked alive)
  have told : under token ((s.machine.dequeued rest).resume t wake).world.memory = under token s.returns := by
    rw [resumed]
    rfl
  refine sound.move member ?_ ?_ ?_ ?_ others ?_ (fun _ _ => .rfl) ?_ ⟨r, ?_, lost, self ▸ told ▸ next⟩
  · rw [resumed]
    rfl
  · rw [resumed]
    exact sound.numbered
  · rw [resumed]
    exact sound.kept
  · rw [resumed]
    exact fun _ _ => rfl
  · rw [resumed]
    exact fun _ _ => rfl
  · rw [resumed]
    exact fun job queued => sound.jobs job (queue ▸ List.mem_cons_of_mem _ queued)
  · rw [resumed]
    exact found

/-- The first job of the queue resumes a waiter. -/
theorem Sound.resumes (sound : s.Sound) (idle : s.machine.running = none) {job : Job} {rest : List Job}
    (queue : s.machine.world.agenda.ready = job :: rest) :
    ({ s with machine := (s.machine.dequeued rest).execute job } : Attendance).Sound := by
  obtain ⟨t, wake, rfl⟩ := sound.jobs job (queue ▸ List.mem_cons_self)
  have woken := Agenda.wakes_dequeue_self queue
  have known : t ∈ s.waiters.map (·.2) := by
    by_contra stranger
    have silent : s.machine.world.agenda.wakes t = [] := congrArg Sight.wakes (sound.strangers t stranger)
    cases silent.symm.trans woken
  obtain ⟨⟨token, t⟩, member, rfl⟩ := List.mem_map.mp known
  obtain ⟨r, found, stage⟩ := sound.staged token t member
  have wakes : (s.machine.sight t).wakes = wake :: _ := woken
  generalize told : under token s.returns = list at stage
  generalize seen : s.machine.sight t = sight at stage
  rw [seen] at wakes
  cases stage with
  | waits | begins | answers | tells | ends | leaves | past | gone => cases wakes
  | @called marked whole mark =>
    obtain ⟨rfl, _⟩ := List.cons.inj wakes
    refine sound.goesOn idle queue member found seen ?_
    rw [told]
    cases marked with
    | false => exact .begins whole nofun
    | true => exact .leaves (mark rfl)
  | @freed marked woken settled mark =>
    obtain ⟨rfl, _⟩ := List.cons.inj wakes
    refine sound.goesOn idle queue member found seen ?_
    rw [told]
    cases marked with
    | false => exact .answers settled
    | true =>
      refine .answers (.cancelled (fun opened => ?_) (mark rfl))
      cases settled with
      | ready decided => cases opened.symm.trans decided
      | cancelled closed _ => exact closed opened

/-! ## Whatever happens next -/

/-- Whatever happens next, every waiter has come to some stage. -/
theorem Sound.next (sound : s.Sound) {action : Action} (next : s.next? action = some s') : s'.Sound := by
  cases action with
  | opens execution stepIndex =>
    obtain rfl := Option.some.inj next
    exact sound.opens execution stepIndex
  | waits token =>
    rw [next?] at next
    split at next
    · next allowed =>
      obtain rfl := Option.some.inj next
      obtain ⟨opened, alone⟩ := Bool.and_eq_true_iff.mp allowed
      obtain ⟨r, found⟩ := Option.isSome_iff_exists.mp opened
      exact sound.waits found (List.isEmpty_iff.mp alone)
    · cases next
  | acknowledges execution decision token =>
    obtain rfl := Option.some.inj next
    exact sound.acknowledges execution decision token
  | releases execution note =>
    obtain rfl := Option.some.inj next
    exact sound.releases execution note
  | cancels token =>
    obtain ⟨t, chosen, rfl⟩ := Option.map_eq_some_iff.mp next
    exact sound.cancels (mem_under.mp (List.mem_of_head? chosen))
  | works =>
    obtain ⟨m, stepped, rfl⟩ := Option.map_eq_some_iff.mp next
    rcases step?_cases stepped with ⟨t, p, running, rfl⟩ | ⟨job, rest, idle, queue, rfl⟩
    · exact sound.advances running
    · exact sound.resumes idle queue

end Attendance

end Runbook
