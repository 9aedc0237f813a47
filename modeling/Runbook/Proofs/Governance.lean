import Runbook.Proofs.Adherence
import Runbook.Proofs.Ending
import Runbook.Proofs.Interpretation

/-! # The conduct of an engine governs its runs

Whatever visitors, tools and observers ask of an engine, the task that asks holds the same when it is
done. A caller that waits for the end of an execution drives it itself, and its driver lets go of it; a
caller that does not wait hands it on to a task of its own. So for a protocol to govern every run it is
enough that it covers the acts of the engine itself: admissions and what their drivers do, cancellations,
and the little else that changes the books.

The record of a new execution is sound, and accounts for no results. Whoever admits the execution holds
it from then on, since its identifier is fresh, and can drive it to its end. So the conduct of an engine covers all
that the engine does to its books, and what it says of books is true of every machine that a run leads to.
-/

namespace Runbook

section Callers

open Machine

variable {σ : Type} {P : Protocol} {e : Engine σ} {host : Host σ} {spared : String → Prop}
  {grounds : String → Value → Books → Prop} {A : Books → Prop} {s : Hold P.Course} {b : Books}

/-- What a task holds that has just admitted an execution: what it held before, and a course for the new
one, on which a driver can run it to its end and let go of it at any later time. -/
def Begins (P : Protocol) (e : Engine σ) (workflow : Workflow) (id : String) (s s' : Hold P.Course)
    (b' : Books) : Prop :=
  s id = none ∧ ∃ course, s' = s.put id course ∧
    ∀ t b, P.Stands t b → P.Later b' b → t id = some course →
      (e.drive workflow id).Obeys P t b (fun _ t' _ => t' = t.drop id) fun _ t' _ => t' = t.drop id

/-- A protocol covers what an engine does to its books by itself. -/
structure Protocol.Covers (P : Protocol) (e : Engine σ) (spared : String → Prop)
    (grounds : String → Value → Books → Prop) : Prop extends P.Tolerates e.authority grounds where
  fresh : ∀ m : Machine σ, m.Fresh → P.Valid m.world.books
  enroll : ∀ workflow options s b, P.Stands s b →
    (Routine.update (e.enroll workflow options)).Obeys P s b fun r s' b' => match r with
      | .ok id => Begins P e workflow id s s' b'
      | .error _ => s' = s
  withdraw : ∀ id s (w : World σ), P.Stands s w.books →
    P.Deed s w.books (w.announced (.cancelled id) (e.withdraw id)).2.books s
  assign : ∀ id bindings s (w : World σ), ¬spared id → P.Stands s w.books →
    P.Deed s w.books (Engine.amend id (·.mergeOutputs bindings) w).books s
  clear : ∀ s (w : World σ), P.Stands s w.books → P.Deed s w.books (Engine.clearHistory w).books s

/-! ## Acts that leave the books alone -/

/-- With nothing to spare, every host will do. -/
theorem Script.spares_nothing {α : Type} (script : Script σ α) : script.Spares fun _ => False := by
  induction script with
  | done a => trivial
  | ask question k ih =>
    refine ⟨?_, ih⟩
    cases question with
    | assign id bindings => exact not_false
    | _ => trivial

theorem Host.spares_nothing (host : Host σ) : host.Spares fun _ => False :=
  ⟨fun _ _ => Script.spares_nothing _, fun _ _ => Script.spares_nothing _⟩

theorem Engine.acknowledge_books (id : String) (decision : Decision) (token : Value) (w : World σ) :
    (Engine.acknowledge id decision token w).2.books = w.books := by
  unfold Engine.acknowledge World.acknowledge
  split
  · cases w.gate.addressee? id token <;> rfl
  · rfl

theorem World.openLatch_books (w : World σ) (key : Value) : (w.openLatch key).books = w.books := by
  unfold World.openLatch
  split <;> rfl

theorem Engine.cancelBackground_books (w : World σ) :
    (Engine.cancelBackground w).2.books = w.books := by
  have cancelled (tasks : List TaskId) (w : World σ) :
      (tasks.foldl (fun w task => (w.cancel task).1) w).books = w.books := by
    induction tasks generalizing w with
    | nil => rfl
    | cons task rest ih => exact (ih _).trans (w.cancel_books task)
  exact cancelled _ w

/-! ## Callers -/

namespace Protocol.Covers

variable (covers : P.Covers e spared grounds)
include covers

theorem submit_obeys (stands : P.Stands s b) (workflow options : Value) :
    (e.submit workflow options).Obeys P s b
      (fun admitted s' b' => Begins P e admitted.1 admitted.2 s s' b') fun _ s' _ => s' = s := by
  have lawful := covers.lawful
  refine .lift_bind lawful (Q := fun _ s' _ => s' = s) stands ?_ ?_
  · rintro w rfl
    exact ⟨s, lawful.rest s _, rfl⟩
  rintro (fault | workflow) s b₁ stands₁ _ rfl
  · exact Attempt.obeys_fail_bind rfl
  refine Attempt.obeys_pure_bind ?_
  cases Options.read options with
  | error fault => exact Attempt.obeys_fail_bind rfl
  | ok options =>
    refine Attempt.obeys_pure_bind (.lift_bind lawful stands₁ (covers.enroll workflow options s b₁ stands₁) ?_)
    rintro (fault | id) s' b₂ _ _ known
    · exact Attempt.obeys_fail_bind known
    · exact Attempt.obeys_pure_bind known

/-- A caller that runs a workflow to its end holds afterwards what it held before. -/
theorem execute_neutral (workflow options : Value) : (e.execute workflow options).Neutral P A := by
  have lawful := covers.lawful
  refine .of_obeys fun s b stands _ => ?_
  refine .bind lawful stands (covers.submit_obeys stands workflow options) ?_ fun _ _ _ _ _ same => same
  rintro ⟨workflow, id⟩ _ b₁ stands₁ _ ⟨free, course, rfl, drives⟩
  have dropped := Hold.drop_put free course
  refine .bind lawful stands₁ (drives _ _ stands₁ (lawful.later_refl b₁) (Hold.put_self s id course)) ?_ ?_
  · exact fun _ _ _ _ _ same => same.trans dropped
  · exact fun _ _ _ _ _ same => same.trans dropped

/-- A caller that does not wait hands the execution on to the task that drives it. -/
theorem start_neutral (workflow options : Value) : (e.start workflow options).Neutral P A := by
  have lawful := covers.lawful
  refine .of_obeys fun s b stands _ => ?_
  refine .bind lawful stands (covers.submit_obeys stands workflow options) ?_ fun _ _ _ _ _ same => same
  rintro ⟨workflow, id⟩ _ b₁ stands₁ _ ⟨free, course, rfl, drives⟩
  refine .lift_bind lawful (Q := fun _ s' _ => s' = s) stands₁ ?_ ?_
  · refine fun _ => ⟨s, Hold.put Hold.idle id course, Hold.within_put free course,
      Hold.put_idle_within s id course, Hold.apart_put free course, fun b₂ stands₂ later₂ => ?_, rfl⟩
    refine .bind lawful stands₂ (drives _ _ stands₂ later₂ (Hold.put_self _ id course)) ?_
    exact fun _ _ _ _ _ _ => trivial
  rintro task s b₂ stands₂ _ rfl
  refine .lift_bind lawful (Q := fun _ s' _ => s' = s) stands₂ ?_ fun _ _ _ _ _ same => same
  rintro w rfl
  exact ⟨s, lawful.rest s _, rfl⟩

/-- A cancellation takes nothing from the caller and needs nothing. -/
theorem cancel_neutral (id : String) : (e.cancel id).Neutral P A := by
  have lawful := covers.lawful
  refine .of_obeys fun s b stands _ => ?_
  refine .lift_bind lawful (Q := fun _ s' _ => s' = s) stands ?_ ?_
  · rintro w rfl
    exact ⟨s, covers.withdraw id s w stands, rfl⟩
  rintro (fault | _ | callbacks) s b₁ stands₁ _ rfl
  · exact Attempt.obeys_fail_bind rfl
  · exact Attempt.obeys_pure_bind rfl
  · refine Attempt.obeys_pure_bind (.bind lawful stands₁ (covers.deliver_obeys _ callbacks stands₁) ?_ ?_)
    · exact fun _ _ _ _ _ same => same
    · exact fun _ _ _ _ _ known => known.1

theorem shutdown_neutral : (Engine.shutdown : Attempt σ Unit).Neutral P A := by
  have lawful := covers.lawful
  refine .of_obeys fun s b stands _ => ?_
  refine .lift_bind lawful (Q := fun _ s' _ => s' = s) stands ?_ ?_
  · rintro w rfl
    refine ⟨s, ?_, rfl⟩
    rw [Engine.cancelBackground_books]
    exact lawful.rest s _
  · rintro tasks s b₁ _ _ rfl wake b' _ _
    cases wake <;> rfl

/-- Every question is neutral, if it assigns to no spared execution. -/
theorem answer_neutral {β : Type} (question : Ask σ β) (spares : question.Spares spared) :
    P.Neutral (fun _ => True) (Host.answer e question) := by
  have lawful := covers.lawful
  have lasting : P.Lasting fun _ => True := fun _ _ _ known => known
  cases question with
  | remember f => exact .update_same lawful fun _ => rfl
  | pause seconds => exact .await _
  | pass key => exact .await _
  | openLatch key => exact .change_same lawful fun w => w.openLatch_books key
  | cancel id => exact covers.cancel_neutral id
  | start workflow options => exact covers.start_neutral workflow options
  | acknowledge id decision token =>
    refine .bind lawful lasting (.create lasting fun _ => ?_) fun _ => .done ()
    exact .change_same lawful fun w => Engine.acknowledge_books id decision token w
  | assign id bindings => exact .change fun s w stands _ => covers.assign id bindings s w spares stands
  | subscribe kind callback => exact .change_same lawful fun _ => rfl
  | unsubscribe kind callback => exact .update_same lawful fun _ => rfl

theorem follow_neutral {α : Type} (script : Script σ α) (spares : script.Spares spared) :
    P.Neutral (fun _ => True) (Host.follow e script) := by
  induction script with
  | done a => exact .done a
  | ask question k ih =>
    rw [Host.follow]
    exact .bind covers.lawful (fun _ _ _ known => known)
      (covers.answer_neutral question spares.1) fun answer => ih answer (spares.2 answer)

theorem service_neutral (spares : host.Spares spared) (errand : Errand) :
    P.Neutral (fun _ => True) (host.service e errand) := by
  cases errand with
  | tool name parameters => exact covers.follow_neutral _ (spares.tool name parameters)
  | observer callback event =>
    exact .bind covers.lawful (fun _ _ _ known => known)
      (covers.follow_neutral _ (spares.observer callback event)) fun _ => .done _

theorem visit_neutral {p : Routine σ Unit} (visit : Visit e spared p) :
    P.Neutral (fun _ => True) p := by
  have lawful := covers.lawful
  have lasting : P.Lasting fun _ => True := fun _ _ _ known => known
  induction visit with
  | leave => exact .done ()
  | look f k _ ih => exact .bind lawful lasting (.look lawful f) ih
  | ask question k spares _ ih => exact .bind lawful lasting (covers.answer_neutral question spares) ih
  | execute workflow options k _ ih => exact .bind lawful lasting (covers.execute_neutral workflow options) ih
  | shutdown k _ ih => exact .bind lawful lasting covers.shutdown_neutral ih
  | clearHistory k _ ih =>
    exact .bind lawful lasting (.change fun s w stands _ => covers.clear s w stands) ih

/-- A protocol that covers an engine governs every run, if what is spared is spared by tools and
observers. -/
theorem governs (spares : host.Spares spared) : P.Governs e host spared where
  lawful := covers.lawful
  fresh := covers.fresh
  service := covers.service_neutral spares
  visit _ := covers.visit_neutral

end Protocol.Covers

end Callers

open Books

variable {σ : Type} {e : Engine σ} {spared : String → Prop} {id : String} {b b' : Books}
  {s s' : Hold Execution} {workflow : Workflow} {options : Options}

namespace Engine

/-! ## Enrollment -/

/-- The record of a new execution accounts for no results. -/
theorem newExecution_account (e : Engine σ) (id : String) (workflow : Workflow) (options : Options)
    (mode : Value) (now : Float) {scope : Entries}
    (given : (options.scope.orElse (.dict [])).mapping = .ok scope) (journal : List Happening) :
    Account e id workflow options (e.newExecution id workflow scope options mode now) journal where
  totalSteps := rfl
  timeout := rfl
  bound := Nat.zero_le _
  sensible _ _ found := nomatch found
  comparable results := absurd rfl results
  summary := .inl rfl
  errors := rfl
  fold := ⟨scope, given, .nil e id _ _ _ journal, rfl⟩

/-- The record of an execution that has just been admitted is sound. -/
theorem sound_admitted {journal : List Happening} {x : Execution} (silent : Silent id journal)
    (self : x.id = .text id) (running : x.status = .running) (notRequested : x.cancelRequested = false)
    (account : ∀ journal, Account e id workflow options x journal) :
    Sound e spared id x true (.admitted id workflow options :: journal) := by
  have chronicle : Chronicle id (.admitted id workflow options :: journal) := .admission silent
  refine {
    chronicle := chronicle
    self := self
    enlisted := fun _ => rfl
    requested := fun requested => by
      rw [notRequested] at requested
      cases requested
    running := fun _ => ?_
    told := fun notRunning => absurd running notRunning
    withdrawn := ?_
    tally := fun _ workflow' options' told => ?_
    replays := fun _ workflow' options' told => ?_ }
  · rw [endings_cons, ← List.append_nil journal, silent.endings]
    rfl
  · rintro (withdrawal | farewell)
    · have quiet := silent (.cancelled id) (by simpa using withdrawal)
      simp [Happening.concerns] at quiet
    · rw [farewells_cons, ← List.append_nil journal, silent.farewells] at farewell
      cases farewell
  · obtain ⟨rfl, rfl⟩ := chronicle.once _ _ _ _ List.mem_cons_self told
    exact ⟨(account []).toTally, fun notRunning => absurd running notRunning⟩
  · obtain ⟨rfl, rfl⟩ := chronicle.once _ _ _ _ List.mem_cons_self told
    exact (account _).toReplays

/-- A fresh execution is a turn of whoever admits it. -/
theorem enroll_turn (valid : Valid e spared b) (s : Hold Execution) (x : Execution) {id : String}
    (fresh : id = executionId (b.ledger.generated + 1)) (self : x.id = .text id)
    (running : x.status = .running) (notRequested : x.cancelRequested = false)
    (account : ∀ journal, Account e id workflow options x journal)
    (ledger : b'.ledger = ({ b.ledger with generated := b.ledger.generated + 1 } : Ledger).enroll id x)
    (journal : b'.journal = .admitted id workflow options :: b.journal) :
    b.record? id = none ∧ Turn e spared id x s b b' (s.put id x) := by
  have absent : b.record? id = none := fresh ▸ valid.orderly.fresh
  have found : b'.record? id = some x := by
    rw [Books.record?, ledger]
    exact Ledger.record?_enroll_self absent x
  have active : b'.isActive id = true := by
    rw [Books.isActive, ledger]
    exact Ledger.isActive_enroll_self _ id x
  have sound : Sound e spared id x (b'.isActive id) b'.journal := by
    rw [active, journal]
    exact sound_admitted (valid.silent id absent) self running notRequested account
  refine ⟨absent, {
    orderly := by
      rw [ledger, fresh]
      exact valid.orderly.enroll x
    others := fun other different => ?_
    journal := ⟨[.admitted id workflow options], journal, onlyOf_singleton rfl fun other different => ?_⟩
    found := found
    sound := sound
    evolves := fun x' known => by
      rw [absent] at known
      cases known
    mine := fun left held => ?_
    yours := fun _ => ⟨?_, .inr absent⟩ }⟩
  · rw [Books.record?, Books.isActive, ledger]
    exact ⟨Ledger.record?_enroll_other _ x different, Ledger.isActive_enroll_other _ x different,
      Hold.put_other s x different⟩
  · simpa [Happening.concerns] using different.symm
  · rw [Hold.put_self] at held
    obtain rfl := Option.some.inj held
    exact ⟨x, found, .inr ⟨.refl spared id x, sound.running running⟩⟩
  · rintro left ⟨x', known, _⟩
    rw [absent] at known
    cases known

/-- Either the execution is admitted, and whoever admits it holds it, or nothing has happened. -/
theorem enroll_obeys (stands : (e.conduct spared).Stands s b) :
    (Routine.update (e.enroll workflow options)).Obeys (e.conduct spared) s b
      fun r s' b' => match r with
        | .ok id => Begins (e.conduct spared) e workflow id s s' b'
        | .error _ => s' = s := by
  rintro w rfl
  unfold enroll
  split
  · exact ⟨s, World.rest_deed s rfl, rfl⟩
  · exact ⟨s, World.rest_deed s rfl, rfl⟩
  split
  · exact ⟨s, World.rest_deed s rfl, rfl⟩
  simp only
  split
  · refine ⟨s, .quiet (.refl s) ⟨fun orderly => orderly.generate, fun _ => rfl, fun _ => rfl,
      [], rfl, ?_⟩, rfl⟩
    exact fun _ member => nomatch member
  · next mode _ _ _ scope given =>
    obtain ⟨id, named⟩ : ∃ id, id = executionId (w.ledger.generated + 1) := ⟨_, rfl⟩
    rw [← named]
    obtain ⟨x, new⟩ : ∃ x, x = e.newExecution id workflow scope options mode w.agenda.now := ⟨_, rfl⟩
    obtain ⟨after, entered⟩ : ∃ after : Books, after = {
        ledger := ({ w.ledger with generated := w.ledger.generated + 1 } : Ledger).enroll id x
        journal := .admitted id workflow options :: w.journal } := ⟨_, rfl⟩
    have account (journal : List Happening) : Account e id workflow options x journal :=
      new ▸ newExecution_account e id workflow options mode _ given journal
    obtain ⟨absent, turn⟩ : w.books.record? id = none ∧
        Turn e spared id x s w.books after (s.put id x) :=
      enroll_turn stands.valid s x named (new ▸ rfl) (new ▸ rfl) (new ▸ rfl) account
        (entered ▸ rfl) (entered ▸ rfl)
    rw [entered] at turn
    rw [← new]
    have free : s id = none := by
      cases held : s id with
      | none => rfl
      | some left =>
        obtain ⟨x', known, _⟩ := stands.backs id left held
        rw [absent] at known
        cases known
    have underway : Underway workflow 0 0 x := by
      rw [new]
      exact ⟨rfl, rfl, rfl, fun i r step found => (nomatch found), fun moved => absurd moved (Nat.lt_irrefl 0)⟩
    refine ⟨s.put id x, .turn id x turn, free, x, rfl, fun t b stands' later held => ?_⟩
    exact drive_obeys stands' held underway
      (admitted_lasting e spared id workflow options _ b later List.mem_cons_self)

end Engine

variable {host : Host σ}

theorem Engine.clearHistory_deed (s : Hold Execution) (w : World σ) :
    Deed e spared s w.books (Engine.clearHistory w).books s := by
  refine .quiet (.refl s) ⟨fun orderly => orderly.clear, fun _ => rfl, fun _ => rfl, [.cleared], rfl, ?_⟩
  intro h member
  obtain rfl := List.mem_singleton.mp member
  exact ⟨fun _ => rfl, rfl⟩

/-! ## Runs -/

namespace Machine.Fresh

variable {m : Machine σ}

theorem absent (fresh : m.Fresh) (id : String) : m.world.books.record? id = none := by
  rw [Books.record?, World.books, Ledger.record?, fresh.records]
  rfl

theorem orderly (fresh : m.Fresh) : m.world.ledger.Orderly := by
  refine ⟨fun id x found => ?_, ?_, fun id active => ?_⟩
  · cases (fresh.absent id).symm.trans found
  · rw [fresh.active]
    exact .nil
  · rw [Ledger.isActive, fresh.active] at active
    cases active

/-- The books of a machine in which nothing has happened are valid. -/
theorem valid (fresh : m.Fresh) : Valid e spared m.world.books := by
  have journal : m.world.books.journal = [] := fresh.journal
  refine ⟨fresh.orderly, fun id x found => ?_, fun id _ => ?_, ?_⟩
  · cases (fresh.absent id).symm.trans found
  · rw [journal]
    exact silent_nil id
  · rw [journal]
    trivial

end Machine.Fresh

/-- The conduct of an engine covers what the engine does. -/
theorem Engine.conduct_covers (e : Engine σ) (spared : String → Prop) :
    (e.conduct spared).Covers e spared Grounded where
  toTolerates := e.conduct_tolerates spared
  fresh _ fresh := fresh.valid
  enroll _ _ _ _ := Engine.enroll_obeys
  withdraw _ s _ stands := Engine.withdraw_deed e stands.valid s
  assign _ bindings _ _ free stands := Engine.assign_deed e stands free bindings
  clear s w _ := Engine.clearHistory_deed s w

/-- The conduct of an engine governs every run, if what is spared is spared by tools and observers. -/
theorem Engine.conduct_governs (spares : host.Spares spared) :
    (e.conduct spared).Governs e host spared :=
  (e.conduct_covers spared).governs spares

namespace Machine

variable {m m' : Machine σ}

theorem Reachable.valid (reachable : Reachable e host spared m) (spares : host.Spares spared) :
    Valid e spared m.world.books :=
  (Engine.conduct_governs spares).valid reachable

theorem Reachable.later (reachable : Reachable e host spared m) (spares : host.Spares spared)
    (run : Run e host spared m m') : Later spared m.world.books m'.world.books :=
  (Engine.conduct_governs spares).later reachable run

end Machine

end Runbook
