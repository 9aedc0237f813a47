import Runbook.Proofs.Act
import Runbook.Proofs.Run
import Runbook.Proofs.Tasks

/-! # What acts do to their setting

To open a latch, to answer a request, to cancel a task: all of this ends waits and settles requests, and
does nothing else. The agenda stays in order, requests stay in place, and the books are left alone.

To admit an execution, to end it and to retire it changes the books and nothing around them: the agenda,
the gate and the table of background tasks stay as they are. Only a cancellation that finds an active
execution goes further, and settles the requests of that execution.
-/

namespace Runbook

variable {σ : Type}

/-! ## Requests that are settled -/

/-- A request as it was, or settled by now. -/
structure Gate.Request.Becomes (r r' : Gate.Request) : Prop where
  token : r'.token = r.token
  execution : r'.execution = r.execution
  listed : r'.listed = r.listed
  isOpen : r'.isOpen = true → r' = r

/-- Some requests of the gate are settled. -/
def Gate.Settles (g g' : Gate) : Prop :=
  ∃ f : Gate.Request → Gate.Request, (∀ r : Gate.Request, r.Becomes (f r)) ∧ g'.requests = g.requests.map f

namespace Gate

variable {g g' g'' : Gate} {token : String}

theorem Request.Becomes.refl (r : Request) : r.Becomes r := ⟨rfl, rfl, rfl, fun _ => rfl⟩

theorem Settles.refl (g : Gate) : g.Settles g := ⟨fun r => r, .refl, (List.map_id' _).symm⟩

theorem Settles.trans (first : g.Settles g') (second : g'.Settles g'') : g.Settles g'' := by
  obtain ⟨f, becomes, requests⟩ := first
  obtain ⟨f', becomes', requests'⟩ := second
  refine ⟨f' ∘ f, fun r => ?_, by rw [requests', requests, List.map_map]⟩
  exact {
    token := (becomes' (f r)).token.trans (becomes r).token
    execution := (becomes' (f r)).execution.trans (becomes r).execution
    listed := (becomes' (f r)).listed.trans (becomes r).listed
    isOpen := fun still => by
      have same := (becomes' (f r)).isOpen still
      have opened : (f r).isOpen = true := same ▸ still
      exact same.trans ((becomes r).isOpen opened) }

theorem settles_settle (g : Gate) (token : String) (resolution : Resolution) :
    g.Settles (g.settle token resolution) := by
  refine ⟨fun r => if r.token == token then (if r.isOpen then { r with resolution } else r) else r,
    fun r => ?_, rfl⟩
  simp only
  split
  · split
    · next opened =>
      refine ⟨rfl, rfl, rfl, fun still => ?_⟩
      obtain ⟨token, execution, stepIndex, resolution', listed⟩ := r
      cases resolution' <;> cases opened
      cases resolution <;> cases still
      rfl
    · exact .refl r
  · exact .refl r

/-- Under its token a request is found as what it has become. -/
theorem Settles.find? (settles : g.Settles g') (token : String) :
    (g.find? token = none ∧ g'.find? token = none) ∨
      ∃ r r', g.find? token = some r ∧ g'.find? token = some r' ∧ r.Becomes r' := by
  obtain ⟨f, becomes, requests⟩ := settles
  have keys : (fun r : Request => r.token == token) ∘ f = fun r => r.token == token := by
    funext r
    rw [Function.comp_apply, (becomes r).token]
  rw [Gate.find?, Gate.find?, requests, List.find?_map, keys]
  cases g.requests.find? (·.token == token) with
  | none => exact .inl ⟨rfl, rfl⟩
  | some r => exact .inr ⟨r, f r, rfl, rfl, becomes r⟩

end Gate

/-! ## Waits that end -/

/-- Some waits end and some requests are settled. -/
structure World.Stirs (w w' : World σ) : Prop where
  ledger : w'.ledger = w.ledger
  journal : w'.journal = w.journal
  background : w'.background = w.background
  gate : w.gate.Settles w'.gate
  agenda : w.agenda.Tends w'.agenda

namespace World

variable {w w' w'' : World σ}

theorem Stirs.trans (orderly : w.agenda.Orderly) (first : w.Stirs w') (second : w'.Stirs w'') :
    w.Stirs w'' where
  ledger := second.ledger.trans first.ledger
  journal := second.journal.trans first.journal
  background := second.background.trans first.background
  gate := first.gate.trans second.gate
  agenda := first.agenda.trans orderly second.agenda

/-- Nothing but the agenda changes. -/
theorem stirs_agenda {agenda : Agenda} (tends : w.agenda.Tends agenda) : w.Stirs { w with agenda } :=
  ⟨rfl, rfl, rfl, .refl _, tends⟩

theorem stirs_refl (orderly : w.agenda.Orderly) : w.Stirs w := stirs_agenda orderly.tends

/-- One change after another. -/
theorem stirs_foldl {β : Type} (f : World σ → β → World σ)
    (step : ∀ w : World σ, w.agenda.Orderly → ∀ x, w.Stirs (f w x)) (changes : List β)
    (orderly : w.agenda.Orderly) : w.Stirs (changes.foldl f w) := by
  induction changes generalizing w with
  | nil => exact stirs_refl orderly
  | cons x rest ih => exact (step w orderly x).trans orderly (ih (step w orderly x).agenda.orderly)

theorem settle_stirs (orderly : w.agenda.Orderly) (token : String) (resolution : Resolution) :
    w.Stirs (w.settle token resolution) where
  ledger := rfl
  journal := rfl
  background := rfl
  gate := w.gate.settles_settle token resolution
  agenda := by
    dsimp only [settle]
    refine orderly.releaseAll _ (fun wait sorted => ?_) _
    cases wait <;> first | rfl | cases sorted

theorem openLatch_stirs (orderly : w.agenda.Orderly) (key : Value) : w.Stirs (w.openLatch key) := by
  unfold openLatch
  split
  · exact stirs_refl orderly
  · refine ⟨rfl, rfl, rfl, .refl _, ?_⟩
    dsimp only
    refine orderly.releaseAll _ (fun wait sorted => ?_) _
    cases wait <;> first | rfl | cases sorted

theorem acknowledge_stirs (orderly : w.agenda.Orderly) (execution : String) (decision : Decision)
    (token : Value) : w.Stirs (w.acknowledge execution decision token).1 := by
  unfold acknowledge
  split
  · next r _ => exact settle_stirs orderly r.token (.decided decision)
  · exact stirs_refl orderly

theorem releaseGate_stirs (orderly : w.agenda.Orderly) (execution : String) (note : Value) :
    w.Stirs (w.releaseGate execution note).1 :=
  stirs_foldl _ (fun _ orderly _ => settle_stirs orderly _ _) _ orderly

theorem cancelAll_stirs (cancelOne : TaskId → World σ → World σ × Bool)
    (step : ∀ (id : TaskId) (w : World σ), w.agenda.Orderly → w.Stirs (cancelOne id w).1) (ids : List TaskId)
    (any : Bool) (orderly : w.agenda.Orderly) :
    w.Stirs (ids.foldl (fun (acc : World σ × Bool) other =>
      let (w, hit) := cancelOne other acc.1
      (w, acc.2 || hit)) (w, any)).1 := by
  induction ids generalizing w any with
  | nil => exact stirs_refl orderly
  | cons id rest ih =>
    have one := step id w orderly
    exact one.trans orderly (ih _ one.agenda.orderly)

/-- A task that waits is released, and one that does not is marked. -/
theorem cancelTask_stirs (fuel : Nat) (id : TaskId) (orderly : w.agenda.Orderly) :
    w.Stirs (w.cancelTask fuel id).1 := by
  induction fuel generalizing id w with
  | zero => exact stirs_refl orderly
  | succ fuel ih =>
    have marked {w : World σ} (orderly : w.agenda.Orderly) :
        w.Stirs { w with agenda := w.agenda.amend id ({ · with cancelled := true }) } :=
      stirs_agenda (orderly.amend id fun _ => ⟨rfl, rfl⟩)
    rw [cancelTask]
    split
    · exact stirs_refl orderly
    · split
      · exact marked orderly
      · next token _ => exact settle_stirs orderly token .abandoned
      · next ids left cut waits =>
        have stirred := cancelAll_stirs (fun other w => w.cancelTask fuel other) (fun id _ => ih id) ids false orderly
        split
        next w' any folded =>
          rw [folded] at stirred
          have orderly' : w'.agenda.Orderly := stirred.agenda.orderly
          split
          · split
            · next ids' left' cut' found =>
              exact stirred.trans orderly (stirs_agenda (orderly'.rewait found rfl rfl rfl))
            · exact stirred
          · exact stirred.trans orderly (marked orderly')
      · next wait notDecision notTasks found =>
        refine stirs_agenda (orderly.release found ?_ _)
        cases wait with
        | tasks ids left cut => exact (notTasks ids left cut rfl).elim
        | _ => rfl

theorem cancel_stirs (id : TaskId) (orderly : w.agenda.Orderly) : w.Stirs (w.cancel id).1 :=
  cancelTask_stirs _ id orderly

end World

namespace Engine

variable {w : World σ}

theorem acknowledge_stirs (orderly : w.agenda.Orderly) (id : String) (decision : Decision)
    (token : Value) : w.Stirs (acknowledge id decision token w).2 := by
  unfold acknowledge
  split
  · exact World.acknowledge_stirs orderly id decision token
  · exact World.stirs_refl orderly

theorem cancelBackground_stirs (orderly : w.agenda.Orderly) : w.Stirs (cancelBackground w).2 :=
  World.stirs_foldl _ (fun _ orderly task => World.cancel_stirs task orderly) _ orderly

end Engine

/-! ## The clock -/

namespace Agenda

variable {a a' : Agenda}

/-- The clock moves, and the timers that are due ring. -/
theorem Orderly.ring_at (orderly : a.Orderly) (now : Float) :
    a.Tends (Agenda.ringDue { a with now }) := by
  have moved : a.Tends { a with now } := orderly.congr rfl rfl rfl rfl
  exact moved.trans orderly moved.orderly.ringDue

theorem Orderly.elapse (orderly : a.Orderly) (elapsed : a.elapse? = some a') : a.Tends a' := by
  obtain ⟨due, _, rfl⟩ := Option.map_eq_some_iff.mp elapsed
  exact orderly.ring_at _

/-- A timer that was to ring releases the task that waits for it. -/
theorem Orderly.ring (orderly : a.Orderly) (id : TaskId) : a.Tends (a.ring id) := by
  unfold Agenda.ring
  split
  · next found => exact orderly.release found rfl .ready
  · exact orderly.tends

end Agenda

/-! ## What bookkeeping leaves alone -/

/-- The agenda, the gate and the table of background tasks are the same. -/
structure World.SameSetting (w w' : World σ) : Prop where
  agenda : w'.agenda = w.agenda
  gate : w'.gate = w.gate
  background : w'.background = w.background

/-- Waits end and requests are settled; what becomes of the books is left open. -/
structure World.Wakes (w w' : World σ) : Prop where
  background : w'.background = w.background
  gate : w.gate.Settles w'.gate
  agenda : w.agenda.Tends w'.agenda

namespace World

variable {w w' w'' : World σ}

theorem SameSetting.refl (w : World σ) : w.SameSetting w := ⟨rfl, rfl, rfl⟩

theorem SameSetting.trans (first : w.SameSetting w') (second : w'.SameSetting w'') : w.SameSetting w'' :=
  ⟨second.agenda.trans first.agenda, second.gate.trans first.gate, second.background.trans first.background⟩

theorem SameSetting.wakes (same : w.SameSetting w') (orderly : w.agenda.Orderly) : w.Wakes w' where
  background := same.background
  gate := same.gate ▸ .refl _
  agenda := same.agenda ▸ orderly.tends

theorem Stirs.wakes (stirs : w.Stirs w') : w.Wakes w' := ⟨stirs.background, stirs.gate, stirs.agenda⟩

theorem Wakes.of_setting (same : w.SameSetting w') (wakes : w'.Wakes w'') : w.Wakes w'' :=
  ⟨wakes.background.trans same.background, same.gate ▸ wakes.gate, same.agenda ▸ wakes.agenda⟩

theorem Wakes.setting (wakes : w.Wakes w') (same : w'.SameSetting w'') : w.Wakes w'' :=
  ⟨same.background.trans wakes.background, same.gate ▸ wakes.gate, same.agenda ▸ wakes.agenda⟩

/-- To announce a change is to note it. -/
theorem announced_setting (event : Event) (change : World σ → Except Fault Bool × World σ) (w : World σ) :
    (change w).2.SameSetting (w.announced event change).2 := by
  unfold announced
  split
  all_goals
    next made =>
      rw [made]
      exact ⟨rfl, rfl, rfl⟩

/-- A request that is open after some were settled was open before, and was none of those. -/
private theorem open_of_settled (note : Value) (settled : List Gate.Request) (w : World σ) (r : Gate.Request)
    (member : r ∈ (settled.foldl (fun w r => w.settle r.token (.decided (Gate.released note))) w).gate.requests)
    (still : r.isOpen = true) : r ∈ w.gate.requests ∧ ∀ other ∈ settled, r.token ≠ other.token := by
  induction settled generalizing w with
  | nil => exact ⟨member, fun _ none => nomatch none⟩
  | cons first rest ih =>
    obtain ⟨member, others⟩ := ih (w.settle first.token _) member
    obtain ⟨r₀, member₀, became⟩ := List.mem_map.mp member
    obtain ⟨different, rfl⟩ : r₀.token ≠ first.token ∧ r₀ = r := by
      by_cases same : r₀.token = first.token
      · rw [if_pos (by simpa using same)] at became
        dsimp only at became
        by_cases opened : r₀.isOpen = true
        · rw [if_pos opened] at became
          subst became
          cases still
        · rw [if_neg opened] at became
          exact absurd (became ▸ still) opened
      · rw [if_neg (by simpa using same)] at became
        exact ⟨same, became⟩
    exact ⟨member₀, fun other listed => (List.mem_cons.mp listed).elim (· ▸ different) (others other)⟩

/-- When the gate is released for an execution, no pending request of that execution stays open. -/
theorem releaseGate_settles (w : World σ) (id : String) (note : Value) :
    ∀ r ∈ (w.releaseGate id note).1.gate.requests, r.listed = true → r.execution = id → r.isOpen = false := by
  intro r member listed named
  cases still : r.isOpen with
  | false => rfl
  | true =>
    obtain ⟨member, others⟩ := open_of_settled note (w.gate.unsettled id) w r member still
    have unsettled : r ∈ w.gate.unsettled id :=
      List.mem_filter.mpr ⟨List.mem_filter.mpr ⟨member, by simp [listed, named]⟩, still⟩
    exact absurd rfl (others r unsettled)

end World

/-! ## Bookkeeping -/

namespace Engine

variable {w : World σ} {id : String}

theorem amend_setting (id : String) (f : Execution → Execution) (w : World σ) : w.SameSetting (amend id f w) :=
  ⟨rfl, rfl, rfl⟩

theorem finish_setting (id : String) (status : ExecutionStatus) (w : World σ) :
    w.SameSetting (finish id status w).2 := by
  unfold finish
  simp only
  split <;> exact ⟨rfl, rfl, rfl⟩

theorem conclude_setting (id : String) (w : World σ) : w.SameSetting (conclude id w).2 := by
  unfold conclude
  simp only
  split
  · exact .refl w
  · exact (amend_setting id _ w).trans (finish_setting id _ _)

theorem abort_setting (id : String) (fault : Fault) (w : World σ) : w.SameSetting (abort id fault w).2 := by
  unfold abort
  split
  · exact .refl w
  · exact (amend_setting id _ w).trans (finish_setting id _ _)

theorem interrupt_setting (id : String) (w : World σ) : w.SameSetting (interrupt id w).2 := by
  unfold interrupt
  split
  · exact (amend_setting id _ w).trans (finish_setting id _ _)
  · exact .refl w

theorem retire_setting (e : Engine σ) (id : String) (w : World σ) : w.SameSetting (e.retire id w) := by
  unfold retire
  split
  · exact ⟨rfl, rfl, rfl⟩
  · exact .refl w

theorem enroll_setting (e : Engine σ) (workflow : Workflow) (options : Options) (w : World σ) :
    w.SameSetting (e.enroll workflow options w).2 := by
  unfold enroll
  split
  · exact .refl w
  · exact .refl w
  split
  · exact ⟨rfl, rfl, rfl⟩
  simp only
  split <;> exact ⟨rfl, rfl, rfl⟩

/-! ## Cancellations -/

/-- A cancellation that finds an active execution does the bookkeeping first and releases the gate then. -/
theorem withdraw_cases (e : Engine σ) (id : String) (w : World σ) :
    (e.withdraw id w).1 ≠ .ok true ∧ w.SameSetting (e.withdraw id w).2 ∨
    ∃ w₁, w.SameSetting w₁ ∧ e.withdraw id w =
      (.ok true, (w₁.releaseGate id (.text "Execution cancelled")).1.note (.cancelled id)) := by
  unfold withdraw
  split
  · have ended := (amend_setting id ({ · with cancelRequested := true }) w).trans
      (finish_setting id .cancelled _)
    split
    · next failed =>
      rw [failed] at ended
      exact .inl ⟨fun same => (nomatch same), ended⟩
    · next w' finished =>
      rw [finished] at ended
      exact .inr ⟨e.retire id w', ended.trans (retire_setting e id w'), rfl⟩
  · exact .inl ⟨fun same => (nomatch same), .refl w⟩

theorem withdraw_wakes (e : Engine σ) (id : String) (orderly : w.agenda.Orderly) :
    w.Wakes (e.withdraw id w).2 := by
  rcases e.withdraw_cases id w with ⟨_, same⟩ | ⟨w₁, same, done⟩
  · exact same.wakes orderly
  · rw [done]
    have released := World.releaseGate_stirs (w := w₁) (same.agenda ▸ orderly) id (.text "Execution cancelled")
    exact .of_setting same ⟨released.background, released.gate, released.agenda⟩

end Engine

end Runbook
