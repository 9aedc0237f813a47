import Runbook.Proofs.Decisions
import Runbook.Proofs.Keys
import Runbook.Proofs.Requests

/-! # Requests that are listed

The gate lists the requests of an execution, and takes an answer under the token of one of them. The two agree but for
a moment: a request is settled by the answer and stays listed until its waiter goes on, and no answer reaches it
meanwhile. What is listed and not settled can be answered, what can be answered is listed, and whoever has returned
has taken its request off the list. So at rest, where everybody who was woken has gone on, all that waiters are waiting
for is listed as it can be answered.
-/

namespace Runbook

open Machine

variable {g g' : Gate} {token other : String} {r : Gate.Request}

/-! ## Answers under the tokens of listed requests -/

/-- What an answer under a token comes to, for the requests that are listed. -/
structure World.Agrees {σ : Type} (w : World σ) : Prop where
  /-- It settles the request, if that is not settled. -/
  reached : ∀ execution, ∀ r ∈ w.gate.pending execution, r.isOpen = true → ∀ decision,
    w.acknowledge execution decision (.text r.token) = (w.settle r.token (.decided decision), true)
  /-- It is refused if the request is settled. -/
  refused : ∀ execution, ∀ r ∈ w.gate.pending execution, r.isOpen = false → ∀ decision,
    w.acknowledge execution decision (.text r.token) = (w, false)
  /-- No answer reaches what is not listed. -/
  listed : ∀ execution decision token, (w.acknowledge execution decision (.text token)).2 = true →
    ∃ r ∈ w.gate.pending execution, r.token = token ∧ r.isOpen = true

theorem Gate.equal_token {name : String} (r : Gate.Request) :
    ((Value.text name).isNull || (Value.text name).equal (.text r.token)) = true ↔ r.token = name := by
  change (Value.text name).equal (.text r.token) = true ↔ r.token = name
  rw [Entries.equal_text, beq_iff_eq]
  exact eq_comm

theorem Gate.Numbered.agrees {σ : Type} {w : World σ} (numbered : w.gate.Numbered) : w.Agrees where
  reached execution r member opened decision := by
    rw [World.acknowledge, numbered.addressee? member opened]
  refused execution r member closed decision := by
    have nobody : w.gate.addressee? execution (.text r.token) = none := by
      apply List.find?_eq_none.mpr
      intro q listed fits
      obtain ⟨named, opened⟩ := Bool.and_eq_true_iff.mp fits
      have same := Gate.equal_token q |>.mp named
      have one : q = r := List.inj_on_of_nodup_map numbered.nodup (List.mem_filter.mp listed).1
        (List.mem_filter.mp member).1 same
      rw [one, closed] at opened
      cases opened
    rw [World.acknowledge, nobody]
  listed execution decision token reached := by
    rw [World.acknowledge] at reached
    split at reached
    · next r found =>
      have fits := List.find?_some found
      obtain ⟨named, opened⟩ := Bool.and_eq_true_iff.mp fits
      exact ⟨r, List.mem_of_find?_eq_some found, (Gate.equal_token r).mp named, opened⟩
    · cases reached

/-! ## Requests off the list -/

namespace Gate

/-- There is a request under the token, and it is not listed any more. -/
def Unlisted (g : Gate) (token : String) : Prop := ∃ r, g.find? token = some r ∧ r.listed = false

theorem Unlisted.map {f : Request → Request} (unlisted : g.Unlisted token) (requests : g'.requests = g.requests.map f)
    (same : ∀ r, (f r).token = r.token) (kept : ∀ r, r.listed = false → (f r).listed = false) :
    g'.Unlisted token := by
  obtain ⟨r, found, off⟩ := unlisted
  refine ⟨f r, ?_, kept r off⟩
  rw [Gate.find?, requests, find?_map same, found, Option.map_some]

theorem Unlisted.settle (unlisted : g.Unlisted token) (other : String) (resolution : Resolution) :
    (g.settle other resolution).Unlisted token := by
  apply unlisted.map (f := fun r => if r.token == other then r.settled resolution else r) rfl
  · intro r
    split
    · exact r.settled_token resolution
    · rfl
  · intro r off
    unfold Request.settled
    split
    · split <;> exact off
    · exact off

theorem Unlisted.request (unlisted : g.Unlisted token) (execution : String) (stepIndex : Int) :
    (g.request execution stepIndex).1.Unlisted token := by
  obtain ⟨r, found, off⟩ := unlisted
  exact ⟨r, find?_request_old found execution stepIndex, off⟩

theorem Unlisted.withdraw (unlisted : g.Unlisted token) (other : String) : (g.withdraw other).Unlisted token := by
  apply unlisted.map (f := fun r => if r.token == other then { r with listed := false } else r) rfl
  · intro r
    split <;> rfl
  · intro r off
    split
    · rfl
    · exact off

theorem unlisted_withdraw (found : g.find? token = some r) : (g.withdraw token).Unlisted token := by
  refine ⟨{ r with listed := false }, ?_, rfl⟩
  rw [find?_withdraw, found, Option.map_some, if_pos rfl]

/-- Under its token a listed request is not off the list. -/
theorem Numbered.not_unlisted {execution : String} (numbered : g.Numbered) (member : r ∈ g.pending execution) :
    ¬g.Unlisted r.token := by
  rintro ⟨q, found, off⟩
  obtain ⟨there, fits⟩ := List.mem_filter.mp member
  obtain rfl := Option.some.inj ((numbered.find? there).symm.trans found)
  rw [off] at fits
  cases fits

end Gate

/-! ## Waiters that have gone on -/

namespace Attendance

variable {s s' : Attendance} {t : TaskId} {p : Routine Returns Unit}

/-- The next thing that the routine does is to return something. -/
def Speaks : Routine Returns Unit → Prop
  | .act f _ => ∃ w, (f w).2.memory ≠ w.memory
  | _ => False

theorem speaks_tell (token : String) (outcome : Except Interrupt Decision) : Speaks (tell token outcome) := by
  refine ⟨{ memory := [] }, fun same => ?_⟩
  cases same

theorem not_speaks_attend (token : String) : ¬Speaks (attend token) := by
  rw [attend_eq]
  exact id

theorem not_speaks_answered (token : String) (wake : Wake) : ¬Speaks (answered token wake) :=
  fun ⟨_, changed⟩ => changed rfl

/-- Whoever has returned, or is about to, has taken its request off the list. -/
structure Discreet (s : Attendance) : Prop where
  told : ∀ token, under token s.returns ≠ [] → s.gate.Unlisted token
  speaks : ∀ token t p, (token, t) ∈ s.waiters → s.machine.running = some (t, p) → Speaks p → s.gate.Unlisted token

theorem discreet_start : Discreet {} where
  told _ spoken := absurd rfl spoken
  speaks _ _ _ member := nomatch member

theorem Discreet.opens (discreet : s.Discreet) (execution : String) (stepIndex : Int) :
    (s.change { s.machine.world with gate := (s.gate.request execution stepIndex).1 }).Discreet where
  told token spoken := (discreet.told token spoken).request execution stepIndex
  speaks token t p member running spoken :=
    (discreet.speaks token t p member running spoken).request execution stepIndex

/-- A request that is settled is listed as it was before. -/
theorem Discreet.settle (discreet : s.Discreet) (token : String) (resolution : Resolution) (forsaken : List String) :
    ({ s.change (s.machine.world.settle token resolution) with forsaken } : Attendance).Discreet where
  told other spoken := (discreet.told other spoken).settle token resolution
  speaks other t p member running spoken :=
    (discreet.speaks other t p member running spoken).settle token resolution

theorem Discreet.releases (discreet : s.Discreet) (execution : String) (note : Value) :
    (s.change (s.machine.world.releaseGate execution note).1).Discreet := by
  have each (chosen : List Gate.Request) (s : Attendance) (discreet : s.Discreet) :
      (s.change (chosen.foldl (fun w r => w.settle r.token (.decided (Gate.released note)))
        s.machine.world)).Discreet := by
    induction chosen generalizing s with
    | nil => exact discreet
    | cons r rest ih => exact ih _ (discreet.settle r.token (.decided (Gate.released note)) s.forsaken)
  exact each _ s discreet

theorem Discreet.cancels (discreet : s.Discreet) (sound : s.Sound) (member : (token, t) ∈ s.waiters)
    (forsaken : List String) : ({ s.change (s.machine.world.cancel t).1 with forsaken } : Attendance).Discreet := by
  obtain ⟨r, found, stage⟩ := sound.staged token t member
  cases alive : (s.machine.sight t).task with
  | none =>
    rw [cancel_of_ended alive]
    exact ⟨discreet.told, discreet.speaks⟩
  | some task =>
    by_cases idle : (s.machine.sight t).waits = []
    · rw [cancel_of_idle alive idle]
      exact ⟨discreet.told, discreet.speaks⟩
    · rw [cancel_of_waiting alive (stage.waiting idle).2.2.1]
      exact discreet.settle token .abandoned forsaken

/-- A new waiter says nothing yet. -/
theorem Discreet.waits (discreet : s.Discreet) (sound : s.Sound) (token : String) :
    ({ s with
      machine := (s.machine.launch fun _ => attend token).1
      waiters := s.waiters ++ [(token, s.machine.world.agenda.created)] } : Attendance).Discreet where
  told := discreet.told
  speaks other t p member running spoken := by
    rcases List.mem_append.mp member with old | fresh
    · exact discreet.speaks other t p old running spoken
    · obtain ⟨rfl, rfl⟩ := Prod.mk.inj (List.mem_singleton.mp fresh)
      have runs : s.machine.running = some (s.machine.world.agenda.created, p) := running
      obtain ⟨_, _, listed, _⟩ := sound.runs runs
      exact absurd (sound.early _ (List.mem_map_of_mem listed)) (Nat.lt_irrefl _)

/-- A waiter goes on without a word. -/
theorem Discreet.silent (discreet : s.Discreet) {m : Machine Returns} (memory : m.world.memory = s.returns)
    (keeps : ∀ token, s.gate.Unlisted token → m.world.gate.Unlisted token)
    (quiet : ∀ t p, m.running = some (t, p) → ¬Speaks p) : ({ s with machine := m } : Attendance).Discreet where
  told token spoken := by
    apply keeps token
    apply discreet.told token
    rw [← memory]
    exact spoken
  speaks token t p _ running spoken := absurd spoken (quiet t p running)

/-- Nobody runs after a waiter has come to wait, unless its request is settled. -/
theorem advance_attend {m : Machine Returns} {task : Task}
    (seen : m.sight t = { task := some task, running := some (attend token) }) :
    (m.advance service t (attend token)).world.memory = m.world.memory ∧
      (∀ other, m.world.gate.Unlisted other → (m.advance service t (attend token)).world.gate.Unlisted other) ∧
      ∀ u p, (m.advance service t (attend token)).running = some (u, p) → ¬Speaks p := by
  rw [attend_eq] at seen ⊢
  unfold advance
  simp only
  split
  · next wake _ =>
    refine ⟨rfl, fun _ unlisted => unlisted, fun u p running => ?_⟩
    obtain ⟨rfl, rfl⟩ := Prod.mk.inj (Option.some.inj running)
    exact not_speaks_answered token wake
  · rw [park_decision seen]
    split
    · exact ⟨rfl, fun _ unlisted => unlisted.settle token .abandoned, nofun⟩
    · exact ⟨rfl, fun _ unlisted => unlisted, nofun⟩

/-- The waiter that runs takes its request off the list before it returns. -/
theorem Discreet.advances (discreet : s.Discreet) (sound : s.Sound) (running : s.machine.running = some (t, p)) :
    ({ s with machine := s.machine.advance service t p } : Attendance).Discreet := by
  obtain ⟨token, r, member, found, stage⟩ := sound.runs running
  have runs := sight_running running
  generalize under token s.returns = list at stage
  generalize seen : s.machine.sight t = sight at stage
  rw [seen] at runs
  cases stage with
  | called | waits | freed | past | gone => cases runs
  | begins =>
    obtain rfl := Option.some.inj runs
    obtain ⟨memory, keeps, quiet⟩ := advance_attend seen
    exact discreet.silent memory keeps quiet
  | @answers marked wake =>
    obtain rfl := Option.some.inj runs
    exact {
      told := fun other spoken => (discreet.told other spoken).withdraw token
      speaks := fun other u p listed runs spoken => by
        obtain ⟨rfl, _⟩ := Prod.mk.inj (Option.some.inj runs)
        obtain ⟨rfl, _⟩ := Prod.mk.inj (List.inj_on_of_nodup_map sound.apart listed member rfl)
        exact Gate.unlisted_withdraw found }
  | @tells marked outcome =>
    obtain rfl := Option.some.inj runs
    have unlisted := discreet.speaks token t _ member running (speaks_tell token outcome)
    exact {
      told := fun other spoken => by
        by_cases same : other = token
        · exact same ▸ unlisted
        · apply discreet.told other
          change under other (s.returns ++ [(token, outcome)]) ≠ [] at spoken
          rwa [under_append, under_singleton_other (Ne.symm same), List.append_nil] at spoken
      speaks := fun other u p listed runs spoken => by
        obtain ⟨_, rfl⟩ := Prod.mk.inj (Option.some.inj runs)
        exact spoken.elim }
  | ends | leaves =>
    obtain rfl := Option.some.inj runs
    exact discreet.silent rfl (fun _ unlisted => unlisted) nofun

/-- A waiter that is resumed has not returned yet. -/
theorem Discreet.resumes (discreet : s.Discreet) (sound : s.Sound) {job : Job} {rest : List Job}
    (queue : s.machine.world.agenda.ready = job :: rest) :
    ({ s with machine := (s.machine.dequeued rest).execute job } : Attendance).Discreet := by
  obtain ⟨t, wake, rfl⟩ := sound.jobs job (queue ▸ List.mem_cons_self)
  have woken := Agenda.wakes_dequeue_self queue
  have wakes : (s.machine.sight t).wakes = wake :: _ := woken
  have go_on {k : Wake → Routine Returns Unit} {marked : Bool}
      (alive : s.machine.sight t =
        { task := some { id := t, cancelled := marked }, parked := [k], wakes := [wake] })
      (quiet : ∀ wake, ¬Speaks (k wake)) :
      ({ s with machine := (s.machine.dequeued rest).resume t wake } : Attendance).Discreet := by
    have resumed := resume_of_sight (m := s.machine.dequeued rest) wake (congrArg Sight.task alive)
      (congrArg Sight.parked alive)
    rw [resumed]
    refine discreet.silent ?_ ?_ ?_
    · rfl
    · exact fun _ unlisted => unlisted
    · intro u p running
      obtain ⟨rfl, rfl⟩ := Prod.mk.inj (Option.some.inj running)
      exact quiet _
  by_cases known : t ∈ s.waiters.map (·.2)
  · obtain ⟨⟨token, t⟩, member, rfl⟩ := List.mem_map.mp known
    obtain ⟨r, _, stage⟩ := sound.staged token t member
    generalize under token s.returns = list at stage
    generalize seen : s.machine.sight t = sight at stage
    rw [seen] at wakes
    cases stage with
    | waits | begins | answers | tells | ends | leaves | past | gone => cases wakes
    | called =>
      obtain ⟨rfl, _⟩ := List.cons.inj wakes
      apply go_on seen
      intro wake
      cases wake with
      | ready => exact not_speaks_attend token
      | cancelled => exact id
    | freed =>
      obtain ⟨rfl, _⟩ := List.cons.inj wakes
      exact go_on seen (not_speaks_answered token)
  · rw [sound.strangers t known] at wakes
    cases wakes

/-- Whatever happens next, whoever has returned is off the list. -/
theorem Discreet.next (discreet : s.Discreet) (sound : s.Sound) {action : Action} (next : s.next? action = some s') :
    s'.Discreet := by
  cases action with
  | opens execution stepIndex =>
    obtain rfl := Option.some.inj next
    exact discreet.opens execution stepIndex
  | waits token =>
    rw [next?] at next
    split at next
    · obtain rfl := Option.some.inj next
      exact discreet.waits sound token
    · cases next
  | acknowledges execution decision token =>
    obtain rfl := Option.some.inj next
    unfold World.acknowledge
    split
    · next r _ => exact discreet.settle r.token (.decided decision) s.forsaken
    · exact discreet
  | releases execution note =>
    obtain rfl := Option.some.inj next
    exact discreet.releases execution note
  | cancels token =>
    obtain ⟨t, chosen, rfl⟩ := Option.map_eq_some_iff.mp next
    exact discreet.cancels sound (mem_under.mp (List.mem_of_head? chosen)) _
  | works =>
    obtain ⟨m, stepped, rfl⟩ := Option.map_eq_some_iff.mp next
    rcases step?_cases stepped with ⟨t, p, running, rfl⟩ | ⟨job, rest, _, queue, rfl⟩
    · exact discreet.advances sound running
    · exact discreet.resumes sound queue

theorem Discreet.plays (discreet : s.Discreet) (sound : s.Sound) {actions : List Action}
    (played : s.play actions = some s') : s'.Discreet := by
  induction actions generalizing s with
  | nil =>
    obtain rfl := Option.some.inj played
    exact discreet
  | cons action rest ih =>
    rw [Attendance.play, List.foldlM_cons] at played
    obtain ⟨between, next, played⟩ := Option.bind_eq_some_iff.mp played
    exact ih (discreet.next sound next) (sound.next next) played

/-- At rest a waiter that was not cancelled and has not returned waits for a request that nobody has settled. -/
theorem Stage.opened {resolution : Resolution} {cut : Prop} {told : List (Except Interrupt Decision)}
    {sight : Sight Returns} (stage : Stage t token resolution cut told sight) (running : sight.running = none)
    (wakes : sight.wakes = []) (silent : told = []) (uncut : ¬cut) : resolution = .unsettled := by
  cases stage with
  | called | freed => cases wakes
  | waits opened => exact opened
  | begins | answers | tells | ends | leaves => cases running
  | past => cases silent
  | gone excused => exact absurd excused uncut

/-- What the list of the gate tells about answers, in a session. -/
structure Candid (s : Attendance) : Prop where
  /-- Listed requests that nobody has settled can be answered, and nothing else can. -/
  agrees : s.machine.world.Agrees
  /-- Whoever has returned is not listed: a request that is listed though it is settled has a waiter that has still to
  go on, or none. -/
  gone : ∀ execution, ∀ r ∈ s.gate.pending execution, under r.token s.returns = []
  /-- At rest every listed request with a waiter that was not cancelled can be answered. -/
  rested : s.machine.step? service = none → ∀ execution, ∀ r ∈ s.gate.pending execution,
    r.token ∈ s.waiters.map (·.1) → r.token ∉ s.forsaken → ∀ decision,
      s.machine.world.acknowledge execution decision (.text r.token) =
        (s.machine.world.settle r.token (.decided decision), true)

theorem Discreet.candid (discreet : s.Discreet) (sound : s.Sound) : s.Candid := by
  have agrees : s.machine.world.Agrees := Gate.Numbered.agrees sound.numbered
  have gone (execution : String) (r : Gate.Request) (member : r ∈ s.gate.pending execution) :
      under r.token s.returns = [] := by
    by_contra spoken
    exact sound.numbered.not_unlisted member (discreet.told r.token spoken)
  refine ⟨agrees, gone, fun idle execution r member waited uncut => ?_⟩
  obtain ⟨⟨token, t⟩, listed, same⟩ := List.mem_map.mp waited
  obtain ⟨q, found, stage⟩ := sound.staged token t listed
  obtain rfl : token = r.token := same
  obtain rfl := Option.some.inj ((sound.numbered.find? (List.mem_filter.mp member).1).symm.trans found)
  obtain ⟨running, ready⟩ := step?_eq_none.mp idle
  obtain ⟨running, wakes⟩ := sight_idle running ready t
  have opened := stage.opened running wakes (gone execution r member) uncut
  exact agrees.reached execution r member (Gate.Request.isOpen_iff.mpr opened)

end Attendance

/-- In every session at the gate, and in whatever state an engine comes to: an answer under the token of a listed
request settles it, unless it is settled already and its waiter has still to go on, and no answer reaches a request
that is not listed. -/
theorem listed_can_be_answered {σ : Type} (e : Engine σ) (host : Host σ) (actions : List Attendance.Action) :
    (∀ s, Attendance.play {} actions = some s → s.Candid) ∧
      ∀ m : Machine σ, Arises e host m → m.world.Agrees := by
  constructor
  · intro s played
    obtain ⟨sound, _⟩ := Attendance.sound_start.plays played
    exact (Attendance.discreet_start.plays Attendance.sound_start played).candid sound
  · intro m arises
    obtain ⟨_, _, tended⟩ := arises.tended
    exact Gate.Numbered.agrees tended.numbered

/-- A request is opened, its waiter comes to wait, and an operator answers. -/
def answeredRequest : List Attendance.Action :=
  [.opens "a" 0, .waits (Gate.tokenOf 1), .works, .works, .acknowledges "a" { approved := .bool true } .null]

/-- The request that was answered is listed until its waiter goes on, and meanwhile no answer under its token reaches
it. -/
theorem answered_request_refused : ∃ s, Attendance.play {} answeredRequest = some s ∧
    (∃ r ∈ s.gate.pending "a", r.token = Gate.tokenOf 1) ∧
    (s.machine.world.acknowledge "a" { approved := .bool true } (.text (Gate.tokenOf 1))).2 = false := by
  have played : ((Attendance.play {} answeredRequest).map fun s =>
      ((s.gate.pending "a").any (·.token == Gate.tokenOf 1),
        (s.machine.world.acknowledge "a" { approved := .bool true } (.text (Gate.tokenOf 1))).2)) =
        some (true, false) := by
    decide +kernel
  obtain ⟨s, played, seen⟩ := Option.map_eq_some_iff.mp played
  obtain ⟨listed, refused⟩ := Prod.mk.inj seen
  obtain ⟨r, member, named⟩ := List.any_eq_true.mp listed
  exact ⟨s, played, ⟨r, member, beq_iff_eq.mp named⟩, refused⟩

/-- Before the operator answers, and again when the waiter has gone on, the list is as it is answered. -/
theorem answeredRequest_candid : ∃ s, Attendance.play {} (answeredRequest ++ [.opens "a" 1, .works]) = some s ∧
    s.Candid ∧ Arises awaitEngine idleHost awaiting ∧ awaiting.world.Agrees := by
  have played : (Attendance.play {} (answeredRequest ++ [.opens "a" 1, .works])).isSome = true := by decide +kernel
  obtain ⟨s, played⟩ := Option.isSome_iff_exists.mp played
  have arises : Arises awaitEngine idleHost awaiting := arises_executing ..
  obtain ⟨candid, agrees⟩ := listed_can_be_answered awaitEngine idleHost (answeredRequest ++ [.opens "a" 1, .works])
  exact ⟨s, played, candid s played, arises, agrees _ arises⟩

end Runbook
