import Runbook.Proofs.Attendance
import Runbook.Proofs.Rest

/-! # Decisions and those who wait for them

In whatever order requests are opened and waited for, acknowledged and released, and waiters cancelled: a request
gets at most one decision, from an answer that goes to it, and its waiter returns that decision and no other.
-/

namespace Runbook

open Machine

namespace Attendance

variable {s s' : Attendance} {t : TaskId} {token : String} {resolution : Resolution} {cut : Prop}
  {told : List (Except Interrupt Decision)} {sight : Sight Returns} {outcome : Except Interrupt Decision}
  {p : Routine Returns Unit}

/-! ## Who decides -/

/-- The decisions that an action gives, under the tokens of the requests that get them. -/
def given (s : Attendance) : Action → List (String × Decision)
  | .acknowledges execution decision token =>
    ((s.gate.requests.find? fun r => r.isMeant execution token && r.isOpen).map fun r => (r.token, decision)).toList
  | .releases execution note =>
    (s.gate.requests.filter fun r => r.execution == execution && r.isOpen).map fun r =>
      (r.token, Gate.released note)
  | _ => []

/-- The decisions that actions give one after another. -/
def log (s : Attendance) : List Action → List (String × Decision)
  | [] => []
  | action :: rest => s.given action ++ ((s.next? action).map (log · rest)).getD []

/-- A waiter that comes to wait gives its request up if it is marked, and does nothing else to the gate. -/
theorem advance_wait_lingers {m : Machine Returns} {task : Task} {k : Wake → Routine Returns Unit}
    (seen : m.sight t = { task := some task, running := some p }) :
    m.world.gate.Lingers (m.advance service t (.wait (.decision token) k)).world.gate := by
  unfold advance
  simp only
  split
  · exact Gate.lingers_refl _
  · rw [park_decision seen]
    split
    · exact Gate.lingers_abandon _ token
    · exact Gate.lingers_refl _

/-- Waiters give no decisions. -/
theorem Sound.works_lingers (sound : s.Sound) {m : Machine Returns} (stepped : s.machine.step? service = some m) :
    s.gate.Lingers m.world.gate := by
  rcases step?_cases stepped with ⟨t, p, running, rfl⟩ | ⟨job, rest, _, queue, rfl⟩
  · obtain ⟨token, r, _, _, stage⟩ := sound.runs running
    have runs := sight_running running
    generalize under token s.returns = list at stage
    generalize seen : s.machine.sight t = sight at stage
    rw [seen] at runs
    cases stage with
    | called | waits | freed | past | gone => cases runs
    | begins =>
      obtain rfl := Option.some.inj runs
      exact attend_eq token ▸ advance_wait_lingers seen
    | answers =>
      obtain rfl := Option.some.inj runs
      exact Gate.lingers_withdraw _ token
    | tells | ends | leaves =>
      obtain rfl := Option.some.inj runs
      exact Gate.lingers_refl _
  · obtain ⟨t, wake, rfl⟩ := sound.jobs job (queue ▸ List.mem_cons_self)
    change s.gate.Lingers ((s.machine.dequeued rest).resume t wake).world.gate
    unfold resume
    split <;> exact Gate.lingers_refl _

/-- A cancellation gives no decision. -/
theorem Sound.cancels_lingers (sound : s.Sound) (member : (token, t) ∈ s.waiters) :
    s.gate.Lingers (s.machine.world.cancel t).1.gate := by
  obtain ⟨r, found, stage⟩ := sound.staged token t member
  cases alive : (s.machine.sight t).task with
  | none =>
    rw [cancel_of_ended alive]
    exact Gate.lingers_refl _
  | some task =>
    by_cases idle : (s.machine.sight t).waits = []
    · rw [cancel_of_idle alive idle]
      exact Gate.lingers_refl _
    · rw [cancel_of_waiting alive (stage.waiting idle).2.2.1]
      exact Gate.lingers_abandon _ token

/-- What becomes of a request: it is settled at most once, with a decision that is given for it. -/
structure Follows (given : List (String × Decision)) (r r' : Gate.Request) : Prop where
  execution : r'.execution = r.execution
  closed : r.isOpen = false → r'.resolution = r.resolution
  decided : ∀ d, r'.resolution = .decided d ↔ r.resolution = .decided d ∨ (r.token, d) ∈ given

/-- Decisions are given for requests that nobody has settled, one for each. -/
theorem Sound.given_open (sound : s.Sound) (action : Action) :
    ((s.given action).map (·.1)).Nodup ∧
      ∀ token d, (token, d) ∈ s.given action → ∃ r, s.gate.find? token = some r ∧ r.isOpen = true := by
  cases action with
  | opens | waits | cancels | works => exact ⟨List.nodup_nil, fun _ _ member => nomatch member⟩
  | acknowledges execution decision token =>
    rw [given]
    cases found : s.gate.requests.find? fun r => r.isMeant execution token && r.isOpen with
    | none => exact ⟨List.nodup_nil, fun _ _ member => nomatch member⟩
    | some r =>
      refine ⟨List.nodup_singleton _, fun token d member => ?_⟩
      obtain ⟨rfl, _⟩ := Prod.mk.inj (List.mem_singleton.mp member)
      have fits := List.find?_some found
      exact ⟨r, sound.numbered.find? (List.mem_of_find?_eq_some found), (Bool.and_eq_true_iff.mp fits).2⟩
  | releases execution note =>
    constructor
    · rw [given, List.map_map]
      exact sound.numbered.nodup.sublist (List.filter_sublist.map _)
    · intro token d member
      obtain ⟨r, chosen, same⟩ := List.mem_map.mp member
      obtain ⟨rfl, _⟩ := Prod.mk.inj same
      obtain ⟨listed, fits⟩ := List.mem_filter.mp chosen
      exact ⟨r, sound.numbered.find? listed, (Bool.and_eq_true_iff.mp fits).2⟩

/-- Where no decision is given a request is as it was, or abandoned. -/
theorem follows_of_lingers {r r' : Gate.Request} (lingers : r.Lingers r') : Follows [] r r' := by
  refine ⟨lingers.execution, fun closed => ?_, fun d => ?_⟩
  · rcases lingers.resolution with same | ⟨opened, _⟩
    · exact same
    · cases closed.symm.trans opened
  · rcases lingers.resolution with same | ⟨opened, lost⟩
    · simp [same]
    · simp [lost, Gate.Request.isOpen_iff.mp opened]

/-- What becomes of the requests, and that those which are new get no other decisions. -/
def Continues (given : List (String × Decision)) (g g' : Gate) : Prop :=
  ∀ token, (∀ r, g.find? token = some r → ∃ r', g'.find? token = some r' ∧ Follows given r r') ∧
    (g.find? token = none → ∀ r', g'.find? token = some r' → ∀ d, r'.resolution = .decided d ↔ (token, d) ∈ given)

theorem continues_of_lingers {g g' : Gate} (lingers : g.Lingers g') : Continues [] g g' := by
  intro token
  have related := lingers token
  constructor
  · intro r found
    rw [found] at related
    cases same : g'.find? token with
    | none => rw [same] at related; cases related
    | some r' =>
      rw [same] at related
      cases related with
      | some lingers => exact ⟨r', rfl, follows_of_lingers lingers⟩
  · intro unknown r' found
    rw [unknown, found] at related
    cases related

/-- A new request is not settled. -/
theorem continues_request (g : Gate) (execution : String) (stepIndex : Int) :
    Continues [] g (g.request execution stepIndex).1 := by
  intro token
  constructor
  · intro r found
    exact ⟨r, Gate.find?_request_old found execution stepIndex, rfl, fun _ => rfl, by simp⟩
  · intro unknown r' found
    have unknown : g.requests.find? (·.token == token) = none := unknown
    rw [Gate.find?, Gate.request, List.find?_append, unknown, Option.none_or] at found
    rw [List.mem_singleton.mp (List.mem_of_find?_eq_some found)]
    simp

/-- Each request is changed on its own, with or without a decision. -/
theorem continues_map {g g' : Gate} {given : List (String × Decision)} {f : Gate.Request → Gate.Request}
    (requests : g'.requests = g.requests.map f) (same : ∀ r, (f r).token = r.token)
    (follows : ∀ token r, g.find? token = some r → Follows given r (f r)) : Continues given g g' := by
  intro token
  have mapped : g'.find? token = (g.find? token).map f := by
    rw [Gate.find?, requests]
    exact Gate.find?_map same g token
  constructor
  · intro r found
    exact ⟨f r, by rw [mapped, found]; rfl, follows token r found⟩
  · intro unknown r' found
    rw [mapped, unknown] at found
    cases found

/-- A request that is settled with a decision, or was settled before. -/
theorem follows_settled {r : Gate.Request} {given : List (String × Decision)} {decision : Decision}
    (decided : ∀ d, (r.token, d) ∈ given ↔ r.isOpen = true ∧ d = decision) :
    Follows given r (r.settled (.decided decision)) := by
  refine ⟨r.settled_execution _, fun closed => by rw [Gate.Request.settled_of_closed closed], fun d => ?_⟩
  rw [decided]
  cases opened : r.isOpen with
  | true =>
    rw [Gate.Request.settled_of_open opened, Gate.Request.isOpen_iff.mp opened]
    simp [eq_comm]
  | false =>
    rw [Gate.Request.settled_of_closed opened]
    simp

/-- A request that gets no decision. -/
theorem follows_same {r : Gate.Request} {given : List (String × Decision)} (none : ∀ d, (r.token, d) ∉ given) :
    Follows given r r :=
  ⟨rfl, fun _ => rfl, fun d => by simp [none d]⟩

/-- An answer settles the request that it is meant for, if somebody still waits for it. -/
theorem Sound.continues_acknowledge (sound : s.Sound) (execution : String) (decision : Decision) (token : Value) :
    Continues (s.given (.acknowledges execution decision token)) s.gate
      (s.machine.world.acknowledge execution decision token).1.gate := by
  have told := World.acknowledge_eq sound.kept execution decision token
  cases found : s.gate.requests.find? fun r => r.isMeant execution token && r.isOpen with
  | none =>
    have finding : s.machine.world.gate.requests.find? (fun r => r.isMeant execution token && r.isOpen) = none := found
    rw [finding] at told
    rw [told, given, found]
    exact continues_of_lingers (Gate.lingers_refl _)
  | some q =>
    have finding : s.machine.world.gate.requests.find? (fun r => r.isMeant execution token && r.isOpen) = some q :=
      found
    have fits := List.find?_some found
    have opened := (Bool.and_eq_true_iff.mp fits).2
    rw [finding] at told
    rw [told, given, found]
    refine continues_map (f := fun r => if r.token == q.token then r.settled (.decided decision) else r) rfl
      (fun r => by split <;> simp) fun other r listed => ?_
    by_cases same : r.token = q.token
    · have one : r = q := List.inj_on_of_nodup_map sound.numbered.nodup (Gate.find?_mem listed).1
        (List.mem_of_find?_eq_some found) same
      subst one
      rw [if_pos (beq_self_eq_true _)]
      exact follows_settled fun d => by simp [opened]
    · rw [if_neg (by simpa using same)]
      exact follows_same fun d => by simp [same]

/-- A release settles the requests of an execution that somebody still waits for. -/
theorem Sound.continues_release (sound : s.Sound) (execution : String) (note : Value) :
    Continues (s.given (.releases execution note)) s.gate (s.machine.world.releaseGate execution note).1.gate := by
  have requests := (World.releaseGate_spec sound.numbered sound.kept execution note).1
  refine continues_map requests (fun r => by split <;> rfl) fun token r found => ?_
  obtain ⟨listed, rfl⟩ := Gate.find?_mem found
  have decided (d : Decision) : (r.token, d) ∈ s.given (.releases execution note) ↔
      (r.execution = execution ∧ r.isOpen = true) ∧ d = Gate.released note := by
    constructor
    · intro member
      obtain ⟨q, chosen, same⟩ := List.mem_map.mp member
      obtain ⟨named, rfl⟩ := Prod.mk.inj same
      obtain ⟨old, fits⟩ := List.mem_filter.mp chosen
      obtain rfl : q = r := List.inj_on_of_nodup_map sound.numbered.nodup old listed named
      exact ⟨by simpa using fits, rfl⟩
    · rintro ⟨fits, rfl⟩
      exact List.mem_map.mpr ⟨r, List.mem_filter.mpr ⟨listed, by simpa using fits⟩, rfl⟩
  by_cases belongs : r.execution = execution
  · have follows : Follows (s.given (.releases execution note)) r (r.settled (.decided (Gate.released note))) :=
      follows_settled fun d => by rw [decided]; simp [belongs]
    simpa [Gate.Request.settled, belongs] using follows
  · rw [if_neg (by simp [belongs])]
    exact follows_same fun d => by rw [decided]; simp [belongs]

theorem Sound.continues (sound : s.Sound) {action : Action} (next : s.next? action = some s') :
    Continues (s.given action) s.gate s'.gate := by
  cases action with
  | opens execution stepIndex =>
    obtain rfl := Option.some.inj next
    exact continues_request s.gate execution stepIndex
  | waits token =>
    rw [next?] at next
    split at next
    · obtain rfl := Option.some.inj next
      exact continues_of_lingers (Gate.lingers_refl _)
    · cases next
  | acknowledges execution decision token =>
    obtain rfl := Option.some.inj next
    exact sound.continues_acknowledge execution decision token
  | releases execution note =>
    obtain rfl := Option.some.inj next
    exact sound.continues_release execution note
  | cancels token =>
    obtain ⟨t, chosen, rfl⟩ := Option.map_eq_some_iff.mp next
    exact continues_of_lingers (sound.cancels_lingers (mem_under.mp (List.mem_of_head? chosen)))
  | works =>
    obtain ⟨m, stepped, rfl⟩ := Option.map_eq_some_iff.mp next
    exact continues_of_lingers (sound.works_lingers stepped)

/-! ## Whole sessions -/

theorem Follows.trans {given given' : List (String × Decision)} {r r' r'' : Gate.Request}
    (token : r'.token = r.token) (first : Follows given r r') (second : Follows given' r' r'') :
    Follows (given ++ given') r r'' where
  execution := second.execution.trans first.execution
  closed closed := by
    have same := first.closed closed
    have closed' : r'.isOpen = false := by
      rw [Bool.eq_false_iff, Ne, Gate.Request.isOpen_iff, same, ← Gate.Request.isOpen_iff, closed]
      exact Bool.false_ne_true
    exact (second.closed closed').trans same
  decided d := by
    rw [second.decided, first.decided, token, List.mem_append, or_assoc]

theorem Continues.trans {given given' : List (String × Decision)} {g g' g'' : Gate}
    (known : ∀ token d, (token, d) ∈ given → ∃ r, g.find? token = some r ∧ r.isOpen = true)
    (first : Continues given g g') (second : Continues given' g' g'') : Continues (given ++ given') g g'' := by
  intro token
  constructor
  · intro r found
    obtain ⟨r', found', follows⟩ := (first token).1 r found
    obtain ⟨r'', found'', follows'⟩ := (second token).1 r' found'
    exact ⟨r'', found'', follows.trans ((Gate.find?_mem found').2.trans (Gate.find?_mem found).2.symm) follows'⟩
  · intro unknown r'' found'' d
    rw [List.mem_append]
    cases found' : g'.find? token with
    | none =>
      have ungiven : (token, d) ∉ given := fun member => by
        obtain ⟨r, found, _⟩ := known token d member
        cases unknown.symm.trans found
      rw [(second token).2 found' r'' found'' d]
      simp [ungiven]
    | some r' =>
      obtain ⟨_, again, follows⟩ := (second token).1 r' found'
      obtain rfl := Option.some.inj (again.symm.trans found'')
      rw [follows.decided, (first token).2 unknown r' found' d, (Gate.find?_mem found').2]

/-- A decision is given only for requests that nobody has settled before. -/
theorem Continues.opened {given : List (String × Decision)} {g g' : Gate} {r r' : Gate.Request}
    (continues : Continues given g g') (found : g.find? token = some r) (found' : g'.find? token = some r')
    (opened : r'.isOpen = true) : r.isOpen = true := by
  obtain ⟨_, again, follows⟩ := (continues token).1 r found
  obtain rfl := Option.some.inj (again.symm.trans found')
  by_contra closed
  rw [Bool.not_eq_true] at closed
  rw [Gate.Request.isOpen_iff, follows.closed closed, ← Gate.Request.isOpen_iff, closed] at opened
  cases opened

/-- After a decision a request is settled. -/
theorem Continues.closed {given : List (String × Decision)} {g g' : Gate} {r' : Gate.Request} {d : Decision}
    (continues : Continues given g g') (member : (token, d) ∈ given) (found' : g'.find? token = some r') :
    r'.isOpen = false := by
  have decided : r'.resolution = .decided d := by
    cases found : g.find? token with
    | none => exact ((continues token).2 found r' found' d).mpr member
    | some r =>
      obtain ⟨_, again, follows⟩ := (continues token).1 r found
      obtain rfl := Option.some.inj (again.symm.trans found')
      exact (follows.decided d).mpr (.inr ((Gate.find?_mem found).2 ▸ member))
  rw [Bool.eq_false_iff, Ne, Gate.Request.isOpen_iff, decided]
  simp

/-- However a session goes on, requests are settled at most once. -/
theorem Sound.plays (sound : s.Sound) {actions : List Action} (played : s.play actions = some s') :
    s'.Sound ∧ Continues (s.log actions) s.gate s'.gate ∧ ((s.log actions).map (·.1)).Nodup ∧
      ∀ token d, (token, d) ∈ s.log actions → ∀ r, s.gate.find? token = some r → r.isOpen = true := by
  induction actions generalizing s with
  | nil =>
    obtain rfl := Option.some.inj played
    exact ⟨sound, continues_of_lingers (Gate.lingers_refl _), List.nodup_nil, fun _ _ member => nomatch member⟩
  | cons action rest ih =>
    rw [Attendance.play, List.foldlM_cons] at played
    obtain ⟨between, next, played⟩ := Option.bind_eq_some_iff.mp played
    obtain ⟨sound', continues', nodup', fresh'⟩ := ih (sound.next next) played
    have continues := sound.continues next
    obtain ⟨nodup, known⟩ := sound.given_open action
    have whole : s.log (action :: rest) = s.given action ++ between.log rest := by
      rw [log, next]
      rfl
    rw [whole]
    refine ⟨sound', continues.trans known continues', ?_, fun token d member r found => ?_⟩
    · rw [List.map_append, List.nodup_append]
      refine ⟨nodup, nodup', ?_⟩
      intro token first other second same
      subst same
      obtain ⟨⟨token, d⟩, member, rfl⟩ := List.mem_map.mp first
      obtain ⟨⟨token', d'⟩, member', same⟩ := List.mem_map.mp second
      obtain rfl : token' = token := same
      obtain ⟨r, found, _⟩ := known token' d member
      obtain ⟨r', found', _⟩ := (continues token').1 r found
      cases (continues.closed member found').symm.trans (fresh' token' d' member' r' found')
    · rcases List.mem_append.mp member with now | later
      · obtain ⟨_, again, opened⟩ := known token d now
        obtain rfl := Option.some.inj (again.symm.trans found)
        exact opened
      · obtain ⟨r', found', _⟩ := (continues token).1 r found
        exact continues.opened found found' (fresh' token d later r' found')

/-! ## Sessions come to rest -/

theorem Stage.told_length (stage : Stage t token resolution cut told sight) : told.length ≤ 1 := by
  cases stage <;> simp

/-- What a waiter returned is the decision for its request, or it was cancelled. -/
theorem Stage.fits (stage : Stage t token resolution cut told sight) (member : outcome ∈ told) :
    Fits resolution cut outcome := by
  cases stage with
  | ends fits | past fits => exact List.mem_singleton.mp member ▸ fits
  | _ => cases member

/-- At rest a waiter has returned the decision for its request, unless there is none or it was cancelled. -/
theorem Stage.rested {decision : Decision} (stage : Stage t token resolution cut told sight)
    (running : sight.running = none) (wakes : sight.wakes = []) (decided : resolution = .decided decision)
    (uncut : ¬cut) : told = [.ok decision] := by
  cases stage with
  | called | freed => cases wakes
  | waits opened => cases opened.symm.trans decided
  | begins | answers | tells | ends | leaves => cases running
  | gone excused => exact absurd excused uncut
  | @past outcome fits =>
    cases outcome with
    | error _ => exact absurd fits uncut
    | ok given =>
      obtain rfl := Resolution.decided.inj (decided.symm.trans fits)
      rfl

/-- Left to itself a session comes to rest, and no decision is given meanwhile. -/
theorem rests (s : Attendance) : ∃ n m, s.play (List.replicate n .works) = some { s with machine := m } ∧
    m.step? service = none ∧ s.log (List.replicate n .works) = [] := by
  have errandless (errand : Errand) : (service errand).Errandless := trivial
  have down : Acc (Goes service) s.machine := windsDown errandless s.machine
  generalize start : s.machine = m at down
  induction down generalizing s with
  | intro m _ ih =>
    subst start
    cases stepped : s.machine.step? service with
    | none => exact ⟨0, s.machine, rfl, stepped, rfl⟩
    | some m' =>
      obtain ⟨n, last, played, idle, silent⟩ := ih m' (.inl stepped) { s with machine := m' } rfl
      have next : s.next? .works = some { s with machine := m' } := by rw [next?, stepped]; rfl
      refine ⟨n + 1, last, ?_, idle, ?_⟩
      · rw [List.replicate_succ, play, List.foldlM_cons, next]
        exact played
      · rw [List.replicate_succ, log, next]
        exact silent

/-- What is certain of a session after actions, whichever they were. -/
structure Faithful (actions : List Action) (s : Attendance) : Prop where
  /-- No request gets two decisions. -/
  once : ((log {} actions).map (·.1)).Nodup
  /-- Requests are decided as the actions say. -/
  decided : ∀ r ∈ s.gate.requests, ∀ d, r.resolution = .decided d ↔ (r.token, d) ∈ log {} actions
  /-- Only a waiter that is cancelled gives its request up. -/
  abandoned : ∀ r ∈ s.gate.requests, r.resolution = .abandoned → r.token ∈ s.forsaken
  /-- No waiter returns twice. -/
  single : (s.returns.map (·.1)).Nodup
  /-- A waiter returns no decision but the one for its request. -/
  returned : ∀ token d, (token, .ok d) ∈ s.returns → (token, d) ∈ log {} actions
  /-- Only a waiter that is cancelled fails. -/
  failed : ∀ token i, (token, .error i) ∈ s.returns → token ∈ s.forsaken
  /-- Left to itself the session comes to rest, and then whoever has a decision for its request has returned it,
  unless it was cancelled. -/
  answered : ∃ n s', s.play (List.replicate n .works) = some s' ∧ s'.machine.step? service = none ∧
    ∀ token t, (token, t) ∈ s.waiters → token ∉ s.forsaken → ∀ d, (token, d) ∈ log {} actions →
      (token, .ok d) ∈ s'.returns
  /-- A decision reaches a request if there is one that it is meant for and that nobody has settled. -/
  reaches : ∀ execution decision token, (s.machine.world.acknowledge execution decision token).2 = true ↔
    ∃ r ∈ s.gate.requests, r.isMeant execution token = true ∧ r.isOpen = true
  /-- It settles the earliest of them, and no other. -/
  earliest : ∀ execution decision token before r after, s.gate.requests = before ++ r :: after →
    r.isMeant execution token = true → r.isOpen = true →
    (∀ q ∈ before, q.isMeant execution token = true → q.isOpen = false) →
    (s.machine.world.acknowledge execution decision token).1.gate.requests =
      before ++ { r with resolution := .decided decision } :: after
  /-- A release settles the requests of an execution that nobody has settled, and no others. -/
  released : ∀ execution note, (s.machine.world.releaseGate execution note).1.gate.requests =
    s.gate.requests.map fun r =>
      if r.execution == execution && r.isOpen then { r with resolution := .decided (Gate.released note) } else r
  /-- It tells how many there were. -/
  counted : ∀ execution note, (s.machine.world.releaseGate execution note).2 =
    s.gate.requests.countP fun r => r.execution == execution && r.isOpen

end Attendance

open Attendance in
/-- Whatever is opened, waited for, acknowledged, released and cancelled, in whatever order: each request gets at
most one decision, from an answer that goes to it, and its waiter returns that decision. -/
theorem session_faithful {actions : List Action} {s : Attendance} (played : Attendance.play {} actions = some s) :
    Faithful actions s := by
  obtain ⟨sound, continues, once, _⟩ := sound_start.plays played
  have decided (token : String) (r : Gate.Request) (found : s.gate.find? token = some r) (d : Decision) :
      r.resolution = .decided d ↔ (token, d) ∈ log {} actions :=
    (continues token).2 rfl r found d
  have fits {token : String} {outcome : Except Interrupt Decision} (member : (token, outcome) ∈ s.returns) :
      ∃ r, s.gate.find? token = some r ∧ Fits r.resolution (token ∈ s.forsaken) outcome := by
    have told : outcome ∈ under token s.returns := mem_under.mpr member
    by_cases waited : token ∈ s.waiters.map (·.1)
    · obtain ⟨⟨token, t⟩, listed, rfl⟩ := List.mem_map.mp waited
      obtain ⟨r, found, stage⟩ := sound.staged token t listed
      exact ⟨r, found, stage.fits told⟩
    · rw [sound.unheard token waited] at told
      cases told
  exact {
    once
    decided := fun r member d => decided r.token r (sound.numbered.find? member) d
    abandoned := sound.abandoned
    single := nodup_of_under fun token => by
      by_cases waited : token ∈ s.waiters.map (·.1)
      · obtain ⟨⟨token, t⟩, listed, rfl⟩ := List.mem_map.mp waited
        obtain ⟨_, _, stage⟩ := sound.staged token t listed
        exact stage.told_length
      · rw [sound.unheard token waited]
        exact Nat.zero_le 1
    returned := fun token d member => by
      obtain ⟨r, found, fits⟩ := fits member
      exact (decided token r found d).mp fits
    failed := fun token i member => by
      obtain ⟨_, _, fits⟩ := fits member
      exact fits
    answered := by
      obtain ⟨n, m, more, idle, silent⟩ := rests s
      refine ⟨n, _, more, idle, fun token t listed uncut d given => ?_⟩
      obtain ⟨sound', continues', _⟩ := sound.plays more
      obtain ⟨r, found, _⟩ := sound.staged token t listed
      obtain ⟨r', found', follows⟩ := (continues' token).1 r found
      obtain ⟨_, again, stage⟩ := sound'.staged token t listed
      obtain rfl := Option.some.inj (again.symm.trans found')
      have resolution := (follows.decided d).mpr (.inl ((decided token r found d).mpr given))
      obtain ⟨running, ready⟩ := step?_eq_none.mp idle
      obtain ⟨running, wakes⟩ := sight_idle running ready t
      have told := stage.rested running wakes resolution uncut
      exact mem_under.mp (told ▸ List.mem_singleton_self _)
    reaches := fun execution decision token => World.acknowledge_reaches sound.kept execution decision token
    earliest := fun _ decision _ _ _ _ split meant opened earlier =>
      World.acknowledge_requests sound.numbered sound.kept decision split meant opened earlier
    released := fun execution note => (World.releaseGate_spec sound.numbered sound.kept execution note).1
    counted := fun execution note => (World.releaseGate_spec sound.numbered sound.kept execution note).2 }

/-- Three requests of two executions: one is answered by its token before its waiter begins to wait, one is released,
and the waiter of the third is cancelled before an answer comes, which finds nobody then. -/
def threeRequests : List Attendance.Action :=
  [.opens "a" 0, .opens "a" 1, .opens "b" 0, .waits (Gate.tokenOf 1), .waits (Gate.tokenOf 3),
    .works, .works, .works, .works, .waits (Gate.tokenOf 2),
    .acknowledges "a" { approved := .bool true } (.text (Gate.tokenOf 2)), .cancels (Gate.tokenOf 3),
    .acknowledges "b" { approved := .bool true } .null, .releases "a" .null] ++ List.replicate 13 .works

/-- The two whose requests were settled have returned, the one before the other; the third has failed. -/
theorem threeRequests_faithful : ∃ s, Attendance.play {} threeRequests = some s ∧ s.Faithful threeRequests ∧
    (s.returns.map fun r => (r.1, r.2.isOk)) =
      [(Gate.tokenOf 2, true), (Gate.tokenOf 3, false), (Gate.tokenOf 1, true)] ∧
    s.forsaken = [Gate.tokenOf 3] := by
  have played : ((Attendance.play {} threeRequests).map fun s =>
      (s.returns.map fun r => (r.1, r.2.isOk), s.forsaken)) =
        some ([(Gate.tokenOf 2, true), (Gate.tokenOf 3, false), (Gate.tokenOf 1, true)], [Gate.tokenOf 3]) := by
    decide +kernel
  obtain ⟨s, played, seen⟩ := Option.map_eq_some_iff.mp played
  obtain ⟨returns, forsaken⟩ := Prod.mk.inj seen
  exact ⟨s, played, session_faithful played, returns, forsaken⟩

end Runbook
