import Runbook.Proofs.Finality
import Runbook.Proofs.Manning

/-! # What becomes of open requests

An operator can answer the pending requests of an active execution, and a cancellation releases them. A
cancellation releases only what is open when it comes, though, and nothing keeps a task from opening a
request after that: whoever waits there waits for an answer that nobody can give any more.
-/

namespace Runbook

open Machine

variable {σ : Type} {e : Engine σ} {host : Host σ} {m m' : Machine σ} {w : World σ} {t : TaskId}
  {id token : String} {r : Gate.Request}

/-! ## Waits that an answer ends -/

namespace Agenda

variable {a : Agenda} {entry : TaskId × Wait} {wake : Wake}

theorem mem_waits_foldl_release (ids : List TaskId)
    (member : entry ∈ (ids.foldl (fun a id => a.release id wake) a).waits) :
    entry ∈ a.waits ∧ entry.1 ∉ ids := by
  induction ids generalizing a with
  | nil => exact ⟨member, List.not_mem_nil⟩
  | cons id rest ih =>
    obtain ⟨member, others⟩ := ih member
    obtain ⟨member, different⟩ := List.mem_filter.mp member
    refine ⟨member, fun listed => ?_⟩
    rcases List.mem_cons.mp listed with same | listed
    · simp [same] at different
    · exact others listed

/-- No wait of a sort is left when all of them have ended. -/
theorem not_sort_of_mem_releaseAll {sort : Wait → Bool} (member : entry ∈ (a.releaseAll sort wake).waits) :
    sort entry.2 = false := by
  obtain ⟨member, others⟩ := mem_waits_foldl_release _ member
  cases sorted : sort entry.2 with
  | false => rfl
  | true => exact absurd (List.mem_map_of_mem (List.mem_filter.mpr ⟨member, sorted⟩)) others

theorem exists_asks (asked : a.waits.any (·.2.asks == some token) = true) : ∃ t, a.Asks t token := by
  obtain ⟨⟨t, wait⟩, member, asks⟩ := List.any_eq_true.mp asked
  exact ⟨t, wait, member, by simpa using asks⟩

end Agenda

namespace World

/-- Nobody waits for the answer to a request that is settled. -/
theorem settle_frees (w : World σ) (token : String) (resolution : Resolution) (t : TaskId) :
    ¬(w.settle token resolution).agenda.Asks t token := by
  rintro ⟨wait, member, asks⟩
  have unsorted := Agenda.not_sort_of_mem_releaseAll member
  cases wait with
  | decision other =>
    obtain rfl : other = token := Option.some.inj asks
    simp at unsorted
  | timer | ringing | latch | tasks => cases asks

/-- When the gate is released for an execution, nobody waits for its requests any more. -/
theorem releaseGate_frees (orderly : w.agenda.Orderly) (note : Value) (member : r ∈ w.gate.unsettled id)
    (t : TaskId) : ¬(w.releaseGate id note).1.agenda.Asks t r.token := by
  obtain ⟨before, after, split⟩ := List.append_of_mem member
  have step (w : World σ) (orderly : w.agenda.Orderly) (r : Gate.Request) :
      w.Stirs (w.settle r.token (.decided (Gate.released note))) := settle_stirs orderly _ _
  have first := stirs_foldl _ step before orderly
  have second := step _ first.agenda.orderly r
  have third := stirs_foldl _ step after second.agenda.orderly
  intro asks
  rw [releaseGate, split, List.foldl_append, List.foldl_cons] at asks
  exact settle_frees _ r.token _ t (third.agenda.asks t r.token asks)

end World

/-- An operator's answer under the token of an open request goes to that request. -/
theorem Gate.Numbered.addressee? {g : Gate} (numbered : g.Numbered) (member : r ∈ g.pending id)
    (opened : r.isOpen = true) : g.addressee? id (.text r.token) = some r := by
  obtain ⟨r', chosen⟩ : ∃ r', g.addressee? id (.text r.token) = some r' := by
    refine Option.isSome_iff_exists.mp (List.find?_isSome.mpr ⟨r, member, ?_⟩)
    simp [opened, Value.equal, Value.equalScalar]
  have addressed := List.find?_some chosen
  rw [Bool.and_eq_true, Bool.or_eq_true] at addressed
  have same : r.token = r'.token := by
    rcases addressed.1 with null | equal
    · cases null
    · simpa [Value.equal, Value.equalScalar] using equal
  have listed : r' ∈ g.requests := (List.mem_filter.mp (List.mem_of_find?_eq_some chosen)).1
  rw [chosen, List.inj_on_of_nodup_map numbered.nodup listed (List.mem_filter.mp member).1 same.symm]

/-! ## Requests that can be answered -/

/-- The request belongs to an active execution. An answer of an operator ends the wait for it, and so does a
cancellation of the execution, unless the cancellation itself is at fault. -/
structure Answerable (e : Engine σ) (w : World σ) (r : Gate.Request) : Prop where
  active : w.ledger.isActive r.execution = true
  answered : ∀ decision, (Engine.acknowledge r.execution decision (.text r.token) w).1 = true ∧
    ∀ t, ¬(Engine.acknowledge r.execution decision (.text r.token) w).2.agenda.Asks t r.token
  released : (∃ fault, (e.withdraw r.execution w).1 = .error fault) ∨
    (e.withdraw r.execution w).1 = .ok true ∧ ∀ t, ¬(e.withdraw r.execution w).2.agenda.Asks t r.token

theorem answerable_of_active (numbered : w.gate.Numbered) (ledger : w.ledger.Orderly)
    (orderly : w.agenda.Orderly) (member : r ∈ w.gate.pending id) (opened : r.isOpen = true)
    (active : w.ledger.isActive id = true) : Answerable e w r := by
  obtain rfl : r.execution = id := by
    have belongs := (List.mem_filter.mp member).2
    rw [Bool.and_eq_true, beq_iff_eq] at belongs
    exact belongs.2
  refine ⟨active, fun decision => ?_, ?_⟩
  · have settled : Engine.acknowledge r.execution decision (.text r.token) w =
        (true, w.settle r.token (.decided decision)) := by
      rw [Engine.acknowledge, if_pos active, World.acknowledge, numbered.addressee? member opened]
    rw [settled]
    exact ⟨rfl, w.settle_frees r.token _⟩
  · obtain ⟨x, found⟩ := ledger.recorded r.execution active
    obtain ⟨_, _, _, _, _, ⟨done, _⟩ | ⟨failed, _⟩⟩ := Engine.withdraw_active e found active
    · right
      rcases e.withdraw_cases r.execution w with ⟨failed, _⟩ | ⟨w₁, same, world⟩
      · rw [done] at failed
        exact absurd rfl failed
      · rw [world]
        have unsettled : r ∈ w₁.gate.unsettled r.execution := by
          rw [same.gate]
          exact List.mem_filter.mpr ⟨member, opened⟩
        exact ⟨rfl, World.releaseGate_frees (same.agenda ▸ orderly) _ unsettled⟩
    · obtain ⟨fault, failed⟩ := failed
      exact .inl ⟨fault, by rw [failed]⟩

/-! ## Requests that came too late -/

/-- The execution had been cancelled before the request under the token was opened. -/
def CameLate (e : Engine σ) (host : Host σ) (m : Machine σ) (id token : String) : Prop :=
  ∃ before, Arises e host before ∧ Run e host (fun _ => False) before m ∧
    .cancelled id ∈ before.world.journal ∧ before.world.gate.find? token = none

theorem CameLate.step (late : CameLate e host m id token) (step : Machine.Step e host (fun _ => False) m m') :
    CameLate e host m' id token := by
  obtain ⟨before, arises, run, cancelled, unopened⟩ := late
  exact ⟨before, arises, run.next step, cancelled, unopened⟩

/-- No answer reaches an execution that was cancelled, and no other cancellation does. -/
theorem CameLate.stranded (late : CameLate e host m id token) :
    (∀ decision token, Engine.acknowledge id decision token m.world = (false, m.world)) ∧
      e.withdraw id m.world = (.ok false, m.world) := by
  obtain ⟨before, arises, run, cancelled, _⟩ := late
  obtain ⟨new, journal⟩ := (arises.reachable.later host.spares_nothing run).journal
  have told : .cancelled id ∈ m.world.books.journal := by
    rw [journal]
    exact List.mem_append_right _ cancelled
  obtain ⟨_, _, _, _, inactive⟩ := (arises.run run).valid.withdrawn told
  have inactive : m.world.ledger.isActive id = false := inactive
  refine ⟨fun decision token => ?_, Engine.withdraw_inactive e inactive⟩
  rw [Engine.acknowledge, inactive]
  rfl

namespace Machine

/-- The requests that tasks tend are pending, and belong to active executions unless they came late. -/
theorem Arises.tended (arises : Arises e host m) :
    ∃ roster, m.Manned e roster ∧ Tended roster m.world (CameLate e host m) := by
  refine arises.holds (I := fun roster m => Tended roster m.world (CameLate e host m))
    (fun m pristine => ?_) fun roster m roster' m' arises manned tended step shift _ => ?_
  · refine ⟨?_, fun _ _ _ found => (nomatch found), fun _ _ _ _ _ found => nomatch found⟩
    rw [Gate.Numbered, Gate.tokens, pristine.requests]
    rfl
  · refine tended.shift manned.staffed shift (fun id token late => late.step step) fun id token cancelled unopened => ?_
    exact ⟨m, arises, .next (.refl m) step, cancelled, unopened⟩

/-- Whoever waits for an answer was to wait for it when the request was opened. -/
theorem Arises.unasked (arises : Arises e host m) {roster : Roster} (manned : m.Manned e roster)
    (untended : Untended roster m.world token) (run : Run e host (fun _ => False) m m') :
    ¬m'.world.agenda.Asks t token := by
  intro asks
  have later : ∃ roster', m'.Manned e roster' ∧ Untended roster' m'.world token := by
    refine manned.run (I := fun roster m => Untended roster m.world token) arises untended
      (fun roster m roster' m' arises _ untended _ shift _ => ?_) run
    obtain ⟨_, _, tended⟩ := arises.tended
    exact untended.shift tended.numbered shift
  obtain ⟨roster', manned', untended'⟩ := later
  obtain ⟨d, found, tends⟩ := manned'.heeded t token asks
  exact untended'.tends t d found tends

end Machine

/-- A pending request that nobody has settled can be answered, unless the execution was cancelled before the
request was opened. In that case nobody can answer or release it from then on, whatever happens. The third
possibility is that nobody waits for it, or ever will. -/
theorem request_answerable_unless_late (arises : Arises e host m) (pending : r ∈ m.world.gate.pending id)
    (opened : r.isOpen = true) :
    Answerable e m.world r ∨
    (CameLate e host m id r.token ∧ ∀ m', Run e host (fun _ => False) m m' →
      (∀ decision token, Engine.acknowledge id decision token m'.world = (false, m'.world)) ∧
        e.withdraw id m'.world = (.ok false, m'.world)) ∨
    ∀ m', Run e host (fun _ => False) m m' → ∀ t, ¬m'.world.agenda.Asks t r.token := by
  obtain ⟨roster, manned, tended⟩ := arises.tended
  obtain ⟨member, belongs⟩ := List.mem_filter.mp pending
  rw [Bool.and_eq_true, beq_iff_eq] at belongs
  by_cases tends : ∃ t d, roster t = some d ∧ d.tends = some r.token
  · obtain ⟨t, d, found, tends⟩ := tends
    obtain ⟨r', known, _, _, active⟩ := tended.tended t d r.token found tends
    obtain rfl : r = r' := Option.some.inj ((tended.numbered.find? member).symm.trans known)
    rw [belongs.2] at active
    rcases active opened with active | late
    · exact .inl (answerable_of_active tended.numbered arises.valid.orderly manned.orderly pending opened active)
    · refine .inr (.inl ⟨late, fun m' run => ?_⟩)
      obtain ⟨before, arises, earlier, cancelled, unopened⟩ := late
      exact CameLate.stranded ⟨before, arises, earlier.trans run, cancelled, unopened⟩
  · refine .inr (.inr fun m' run t => ?_)
    have untended : Untended roster m.world r.token :=
      ⟨List.mem_map_of_mem member, fun t d found same => tends ⟨t, d, found, same⟩⟩
    exact arises.unasked manned untended run

/-- The open engine with manual steps that await an operator. -/
def awaitEngine : Engine Unit := { openEngine with config := { policies := { manualSteps := .await } } }

/-- A workflow of one manual step. -/
def manualWorkflow : Value :=
  Value.record [("id", .text "m"), ("name", .text "M"),
    ("steps", .list [Value.record [("type", .text "manual")]])]

/-- The engine when it has come to wait for an operator. -/
def awaiting : Machine Unit :=
  (Machine.blank () {}).executing awaitEngine idleHost manualWorkflow .null 40

/-- The same, with an observer that cancels the execution when its step starts. -/
def awaitingCancelled : Machine Unit :=
  (Machine.blank () (({} : Bus).subscribe .stepStarted "watch")).executing awaitEngine cancellingHost
    manualWorkflow .null 40

/-- The execution was cancelled before its step opened a request. The step waits, the machine is idle for
good, and neither an answer nor a cancellation reaches the request. -/
theorem late_request_stranded : Arises awaitEngine cancellingHost awaitingCancelled ∧
    awaitingCancelled.step? (cancellingHost.service awaitEngine) = none ∧
    awaitingCancelled.elapse? = none ∧
    (∃ t, awaitingCancelled.world.agenda.Asks t (Gate.tokenOf 1)) ∧
    (∃ r ∈ awaitingCancelled.world.gate.pending (Engine.executionId 1), r.isOpen = true) ∧
    awaitingCancelled.world.ledger.isActive (Engine.executionId 1) = false ∧
    (Engine.acknowledge (Engine.executionId 1) { approved := .bool true } (.text (Gate.tokenOf 1))
      awaitingCancelled.world).1 = false := by
  refine ⟨arises_executing .., Option.isNone_iff_eq_none.mp (by decide +kernel),
    Option.isNone_iff_eq_none.mp (by decide +kernel), ?_, ?_, by decide +kernel, by decide +kernel⟩
  · exact Agenda.exists_asks (by decide +kernel)
  · have opened : (awaitingCancelled.world.gate.pending (Engine.executionId 1)).any (·.isOpen) := by
      decide +kernel
    exact List.any_eq_true.mp opened

/-- The engine that waits for an operator can be answered. -/
theorem awaiting_answerable : ∃ r ∈ awaiting.world.gate.pending (Engine.executionId 1),
    r.isOpen = true ∧ Answerable awaitEngine awaiting.world r := by
  have opened : (awaiting.world.gate.pending (Engine.executionId 1)).any fun r =>
      r.isOpen && r.token == Gate.tokenOf 1 := by decide +kernel
  obtain ⟨r, pending, known⟩ := List.any_eq_true.mp opened
  obtain ⟨opened, token⟩ := Bool.and_eq_true_iff.mp known
  refine ⟨r, pending, opened, ?_⟩
  have arises : Arises awaitEngine idleHost awaiting := arises_executing ..
  rcases request_answerable_unless_late arises pending opened with answerable | ⟨_, stranded⟩ | forsaken
  · exact answerable
  · have none := (stranded awaiting (.refl _)).1 { approved := .bool true } .null
    have answered : (Engine.acknowledge (Engine.executionId 1) { approved := .bool true } .null
        awaiting.world).1 = true := by decide +kernel
    rw [none] at answered
    cases answered
  · obtain ⟨t, asks⟩ : ∃ t, awaiting.world.agenda.Asks t (Gate.tokenOf 1) :=
      Agenda.exists_asks (by decide +kernel)
    exact absurd (beq_iff_eq.mp token ▸ asks) (forsaken awaiting (.refl _) t)

end Runbook
