import Runbook.Proofs.Serenity
import Runbook.Proofs.Staffing

/-! # Bonds between tasks

A parallel step creates a task for each branch, waits for all of them and takes what they left behind. What a
task has still to leave behind, and the branches whose outcomes it has to collect, make up its bond. A routine
honours a bond if it leaves behind what it promised to, collects from nobody but its own branches, and does
nothing else that other tasks could be surprised by.

A task also has charge of an execution that it had admitted, or that it was created to drive, until the execution
begins. No task ends before that, unless it was cancelled.

What they could be surprised by depends on the climate. In a harsh one tasks may be cancelled, and then a branch
may leave nothing behind. In a mild one every branch that has ended has left behind what it promised.
-/

namespace Runbook

variable {σ α β : Type}

/-! ## Climates -/

/-- The moments that a clock shows. It can be told in milliseconds how much later one is than another. -/
structure Timeline where
  Shows : Float → Prop
  zero : Shows 0.0
  tellable : ∀ x y, Shows x → Shows y → ∃ ms, Execution.milliseconds (y - x) = .ok ms

/-- What may happen to whoever runs errands and waits. -/
structure Weather where
  /-- Tasks may be cancelled, and executions too. -/
  harsh : Prop
  /-- What errands are answered with. -/
  Answers : Errand → Except Interrupt Value → Prop
  courteous : ∀ errand message, Answers errand (.error (.cancelled message)) → harsh

/-- What a task can count on, whatever the others do. -/
structure Climate extends Weather where
  time : Timeline
  /-- The modes that executions are admitted in. -/
  Modes : Value → Prop
  /-- What the interpreter comes to for the steps of workflows. -/
  Tells : Step → Context → Outcome → Prop

namespace Weather

/-- Only in harsh weather anything ends in a cancellation. -/
def Bears (c : Weather) (outcome : Except Interrupt α) : Prop :=
  ∀ message, outcome = .error (.cancelled message) → c.harsh

/-- A cancellation came, as it may in harsh weather. -/
def Cut (c : Weather) (outcome : Except Interrupt α) : Prop :=
  c.harsh ∧ ∃ message, outcome = .error (.cancelled message)

/-- Something has been done, unless a cancellation came. -/
def Done (c : Weather) (outcome : Except Interrupt Unit) : Prop := outcome = .ok () ∨ c.Cut outcome

variable {c : Weather}

theorem bears_ok (a : α) : c.Bears (.ok a) := fun _ same => nomatch same

theorem bears_fault (fault : Fault) : c.Bears (.error (.fault fault) : Except Interrupt α) :=
  fun _ same => nomatch same

/-- What one part of an attempt ends in is borne by the whole. -/
theorem Bears.error {interrupt : Interrupt} (bears : c.Bears (.error interrupt : Except Interrupt α)) :
    c.Bears (.error interrupt : Except Interrupt β) :=
  fun message same => bears message (congrArg Except.error (Except.error.inj same))

theorem Bears.map {outcome : Except Interrupt α} {f : α → β} (bears : c.Bears outcome) : c.Bears (outcome.map f) := by
  cases outcome with
  | ok => exact bears_ok _
  | error => exact bears.error

theorem bears_mapError (verdict : Except Fault α) : c.Bears (verdict.mapError .fault) := by
  cases verdict with
  | ok => exact bears_ok _
  | error => exact bears_fault _

theorem Cut.error {interrupt : Interrupt} (cut : c.Cut (.error interrupt : Except Interrupt α)) :
    c.Cut (.error interrupt : Except Interrupt β) := by
  obtain ⟨harsh, message, same⟩ := cut
  exact ⟨harsh, message, congrArg Except.error (Except.error.inj same)⟩

theorem Cut.bears {outcome : Except Interrupt α} (cut : c.Cut outcome) : c.Bears outcome := fun _ _ => cut.1

theorem Done.bears {outcome : Except Interrupt Unit} (done : c.Done outcome) : c.Bears outcome := by
  rcases done with rfl | cut
  · exact bears_ok ()
  · exact cut.bears

/-- Whatever does not come to its end has been cut short. -/
theorem Done.error {interrupt : Interrupt} (done : c.Done (.error interrupt)) :
    c.Cut (.error interrupt : Except Interrupt α) := by
  rcases done with same | cut
  · cases same
  · exact cut.error

end Weather

/-- The execution is on record and has not begun. -/
def World.Unbegun (w : World σ) (id : String) : Prop := w.Recorded id ∧ ¬w.HasBegun id

namespace Climate

/-- The record of an execution between any two acts. -/
structure Sane (c : Climate) (x : Execution) : Prop where
  started : c.time.Shows x.started
  mode : c.Modes x.mode
  untouched : ¬c.harsh → x.cancelRequested = false ∧ x.status ≠ .cancelled

/-- An entry that the journal may have. -/
def Admits (c : Climate) : Happening → Prop
  | .interpreted step context outcome => c.Tells step context outcome
  | .untimed _ => False
  | _ => True

/-- The world between any two acts. -/
structure Fair (c : Climate) (w : World σ) : Prop where
  orderly : w.agenda.Orderly
  moment : c.time.Shows w.agenda.now
  serene : ¬c.harsh → w.agenda.Serene
  records : ∀ id x, w.ledger.record? id = some x → c.Sane x
  journal : ∀ h ∈ w.journal, c.Admits h

/-- An act that creates no task, ends none and touches nothing that tasks left behind. -/
structure Keeps (c : Climate) (w w' : World σ) : Prop where
  stands : w.agenda.Stands w'.agenda
  paused : ¬c.harsh → ∀ id ∈ w.agenda.paused, id ∈ w'.agenda.paused
  fair : c.Fair w'

/-- Such an act that has no execution admitted either. -/
structure Spares (c : Climate) (w w' : World σ) : Prop extends c.Keeps w w' where
  unbegun : ∀ id, w'.Unbegun id → w.Unbegun id

variable {c : Climate} {w w' : World σ} {h : Happening}

/-- A record that does not exist is taken for one that nothing has happened to. -/
theorem Fair.record (fair : c.Fair w) (id : String) : c.time.Shows (Engine.record w id).started ∧
    (¬c.harsh → (Engine.record w id).cancelRequested = false ∧ (Engine.record w id).status ≠ .cancelled) := by
  unfold Engine.record
  cases found : w.ledger.record? id with
  | none => exact ⟨c.time.zero, fun _ => ⟨rfl, fun same => nomatch same⟩⟩
  | some x => exact ⟨(fair.records id x found).started, (fair.records id x found).untouched⟩

/-- The agenda stays as it is, and records and journal stay as they should be. -/
theorem Fair.keeps (fair : c.Fair w) (agenda : w'.agenda = w.agenda)
    (records : ∀ id x, w'.ledger.record? id = some x → c.Sane x) (journal : ∀ h ∈ w'.journal, c.Admits h) :
    c.Keeps w w' where
  stands := agenda ▸ fair.orderly.stands
  paused _ _ member := agenda ▸ member
  fair := ⟨agenda ▸ fair.orderly, agenda ▸ fair.moment, fun mild => agenda ▸ fair.serene mild, records, journal⟩

/-- The same executions are on record, and what the journal told it still tells. -/
theorem Keeps.spares (keeps : c.Keeps w w') (admitted : w'.ledger.admitted = w.ledger.admitted)
    (told : ∀ h ∈ w.journal, h ∈ w'.journal) : c.Spares w w' where
  toKeeps := keeps
  unbegun id unbegun := ⟨by rw [World.Recorded, ← admitted]; exact unbegun.1,
    fun ⟨record, begun⟩ => unbegun.2 ⟨record, told _ begun⟩⟩

/-- Nothing changes but what is neither on the agenda nor in the books. -/
theorem Fair.spares_aside (fair : c.Fair w) (agenda : w'.agenda = w.agenda) (ledger : w'.ledger = w.ledger)
    (journal : w'.journal = w.journal) : c.Spares w w' :=
  (fair.keeps agenda (ledger ▸ fair.records) (journal ▸ fair.journal)).spares (by rw [ledger])
    fun _ member => journal ▸ member

theorem Fair.spares_note (fair : c.Fair w) (agenda : w'.agenda = w.agenda) (ledger : w'.ledger = w.ledger)
    (journal : w'.journal = h :: w.journal) (admits : c.Admits h) : c.Spares w w' := by
  refine (fair.keeps agenda (ledger ▸ fair.records) ?_).spares (by rw [ledger]) fun _ member => ?_
  · rw [journal]
    exact List.forall_mem_cons.mpr ⟨admits, fair.journal⟩
  · rw [journal]
    exact List.mem_cons_of_mem _ member

/-- Nothing changes but the agenda, on which waits end. -/
theorem Fair.spares_agenda (fair : c.Fair w) (stands : w.agenda.Stands w'.agenda)
    (soothes : ¬c.harsh → w.agenda.Soothes w'.agenda) (ledger : w'.ledger = w.ledger)
    (journal : w'.journal = w.journal) : c.Spares w w' :=
  have keeps : c.Keeps w w' := {
    stands := stands
    paused := fun mild => (soothes mild).paused
    fair := ⟨stands.orderly, stands.now ▸ fair.moment, fun mild => (soothes mild).serene (fair.serene mild),
      ledger ▸ fair.records, journal ▸ fair.journal⟩ }
  keeps.spares (by rw [ledger]) fun _ member => journal ▸ member

theorem Fair.spares_refl (fair : c.Fair w) : c.Spares w w := fair.spares_aside rfl rfl rfl

theorem Spares.trans {w'' : World σ} (first : c.Spares w w') (second : c.Spares w' w'') : c.Spares w w'' where
  stands := first.stands.trans second.stands
  paused mild id member := second.paused mild id (first.paused mild id member)
  fair := second.fair
  unbegun id unbegun := first.unbegun id (second.unbegun id unbegun)

end Climate

/-! ## Bonds -/

/-- What a task has still to leave behind, and the branches that it has created and not collected, each with
what it is to leave behind. -/
structure Bond where
  owes : Option (Outcome → Prop) := none
  /-- The execution that it has charge of until it begins. -/
  charge : Option String := none
  branches : List (TaskId × (Outcome → Prop)) := []
  /-- The branches have ended. -/
  joined : Bool := false

namespace Bond

/-- There are no branches, and there is no execution to begin. -/
structure Free (b : Bond) : Prop where
  branches : b.branches = []
  joined : b.joined = false
  charge : b.charge = none

/-- What there is of branches that have ended is what they were to leave behind. -/
def Backed (c : Climate) (b : Bond) (w : World σ) : Prop :=
  b.joined = true → ∀ branch ∈ b.branches,
    (∀ outcome, (branch.1, outcome) ∈ w.agenda.outcomes → branch.2 outcome) ∧
      (¬c.harsh → ∃ outcome, (branch.1, outcome) ∈ w.agenda.outcomes)

/-- An act of a task: its bond and the world before, and both afterwards. -/
inductive Deed (c : Climate) (t : TaskId) : Bond → World σ → Bond → World σ → Prop
  | spares {b : Bond} {w w' : World σ} (spares : c.Spares w w') : Deed c t b w b w'
  | admits {b : Bond} {w w' : World σ} (id : String) (free : b.charge = none) (keeps : c.Keeps w w')
      (only : ∀ other, w'.Unbegun other → w.Unbegun other ∨ other = id) : Deed c t b w { b with charge := some id } w'
  | begins {b : Bond} {w w' : World σ} (id : String) (charge : b.charge = some id) (spares : c.Spares w w')
      (begun : ¬w'.Unbegun id) : Deed c t b w { b with charge := none } w'
  | leaves {b : Bond} {w : World σ} {promise : Outcome → Prop} {outcome : Outcome}
      (owes : b.owes = some promise) (kept : promise outcome) :
      Deed c t b w { b with owes := none } (Interpreter.leave t outcome w)
  | collects {b : Bond} {w : World σ} (joined : b.joined = true) :
      Deed c t b w { b with branches := [], joined := false }
        (Interpreter.collect (b.branches.map (·.1)) w).2

/-- The task may wait for a cue: if it is for others, for exactly its branches. -/
def Awaits (c : Climate) (b : Bond) : Cue → Prop
  | .tasks ids => b.joined = false ∧ ids = b.branches.map (·.1)
  | .decision _ => c.harsh
  | _ => True

/-- The bond after a wait. A wait for branches that was cut short is a wait that nothing is collected after. -/
def after (b : Bond) : Cue → Wake → Bond
  | .tasks _, .ready => { b with joined := true }
  | .tasks _, .cancelled => { b with branches := [] }
  | _, _ => b

/-- A task that is created: what its bond is, and what becomes of the bond of the one who creates it. -/
inductive Hires (b : Bond) (child : TaskId) : Bond → Bond → Prop
  | aide : Hires b child {} b
  | branch (promise : Outcome → Prop) (joined : b.joined = false) :
      Hires b child { owes := some promise } { b with branches := b.branches ++ [(child, promise)] }
  | driver (id : String) (charge : b.charge = some id) :
      Hires b child { charge := some id } { b with charge := none }

/-- The task may end. -/
def Over (c : Climate) (b : Bond) : Prop := c.harsh ∨ b.owes = none ∧ b.charge = none

variable {b : Bond} {cue : Cue} {wake : Wake} {branch : TaskId × (Outcome → Prop)}

/-- A task that has no charge is not changed by losing it. -/
theorem Free.discharged (free : b.Free) : { b with charge := none } = b := by
  obtain ⟨owes, charge, branches, joined⟩ := b
  cases (free.charge : charge = none)
  rfl

theorem after_owes (b : Bond) (cue : Cue) (wake : Wake) : (b.after cue wake).owes = b.owes := by
  unfold after
  split <;> rfl

theorem after_charge (b : Bond) (cue : Cue) (wake : Wake) : (b.after cue wake).charge = b.charge := by
  unfold after
  split <;> rfl

theorem mem_of_after (member : branch ∈ (b.after cue wake).branches) : branch ∈ b.branches := by
  unfold after at member
  split at member
  · exact member
  · cases member
  · exact member

/-- Branches that have ended either had before or have been waited for. -/
theorem joined_of_after (joined : (b.after cue wake).joined = true) :
    b.joined = true ∨ (∃ ids, cue = .tasks ids) ∧ wake = .ready := by
  unfold after at joined
  split at joined
  · exact .inr ⟨⟨_, rfl⟩, rfl⟩
  · exact .inl joined
  · exact .inl joined

end Bond

/-- Followed by a task with a given bond, the routine honours it and what becomes of it, and ends as it says. -/
def Routine.Honours {α : Type} (c : Climate) : Routine σ α → TaskId → Bond → (α → Bond → Prop) → Prop
  | .done a, _, b, Q => Q a b
  | .act f k, t, b, Q => ∀ w : World σ, c.Fair w → b.Backed c w →
    ∃ b', b.Deed c t w b' (f w).2 ∧ (k (f w).1).Honours c t b' Q
  | .wait cue k, t, b, Q => b.Awaits c cue ∧
    ∀ wake, (¬c.harsh → wake = .ready) → (k wake).Honours c t (b.after cue wake) Q
  | .call errand k, t, b, Q => b.Free ∧ ∀ answer, c.Answers errand answer → (k answer).Honours c t b Q
  | .spawn body k, t, b, Q => ∀ child, ∃ given b', b.Hires child given b' ∧
    (body child).Honours c child given (fun _ b => b.Over c) ∧ (k child).Honours c t b' Q

/-- Whoever follows the routine without having branches to collect is left with the bond that it had, and with
a value of a sort. -/
def Routine.Meets (c : Climate) (p : Routine σ α) (Q : α → Prop) : Prop :=
  ∀ t b, b.Free → p.Honours c t b fun a b' => b' = b ∧ Q a

/-- The same of an attempt, whatever it comes to. -/
def Attempt.Meets (c : Climate) (p : Attempt σ α) (Q : Except Interrupt α → Prop) : Prop :=
  (ExceptT.run p).Meets c Q

variable {c : Climate} {t : TaskId} {b : Bond}

namespace Routine

theorem Honours.mono {p : Routine σ α} {Q R : α → Bond → Prop} (honours : p.Honours c t b Q)
    (weaker : ∀ a b, Q a b → R a b) : p.Honours c t b R := by
  induction p generalizing t b with
  | done a => exact weaker a b honours
  | act f k ih =>
    intro w fair backed
    obtain ⟨b', deed, rest⟩ := honours w fair backed
    exact ⟨b', deed, ih _ rest weaker⟩
  | wait cue k ih => exact ⟨honours.1, fun wake mild => ih wake (honours.2 wake mild) weaker⟩
  | call errand k ih => exact ⟨honours.1, fun answer answers => ih answer (honours.2 answer answers) weaker⟩
  | spawn body k _ ih =>
    intro child
    obtain ⟨given, b', hires, created, rest⟩ := honours child
    exact ⟨given, b', hires, created, ih child rest weaker⟩

theorem Honours.bind {p : Routine σ α} {f : α → Routine σ β} {Q : α → Bond → Prop} {R : β → Bond → Prop}
    (first : p.Honours c t b Q) (next : ∀ a b', Q a b' → (f a).Honours c t b' R) :
    (p.bind f).Honours c t b R := by
  induction p generalizing t b with
  | done a => exact next a b first
  | act g k ih =>
    intro w fair backed
    obtain ⟨b', deed, rest⟩ := first w fair backed
    exact ⟨b', deed, ih _ rest next⟩
  | wait cue k ih => exact ⟨first.1, fun wake mild => ih wake (first.2 wake mild) next⟩
  | call errand k ih => exact ⟨first.1, fun answer answers => ih answer (first.2 answer answers) next⟩
  | spawn body k _ ih =>
    intro child
    obtain ⟨given, b', hires, created, rest⟩ := first child
    exact ⟨given, b', hires, created, ih child rest next⟩

namespace Meets

variable {Q R : α → Prop}

theorem done {a : α} (known : Q a) : (Routine.done a : Routine σ α).Meets c Q := fun _ _ _ => ⟨rfl, known⟩

theorem mono {p : Routine σ α} (meets : p.Meets c Q) (weaker : ∀ a, Q a → R a) : p.Meets c R :=
  fun t b free => (meets t b free).mono fun a _ known => ⟨known.1, weaker a known.2⟩

theorem bind {p : Routine σ α} {f : α → Routine σ β} {S : β → Prop} (first : p.Meets c Q)
    (next : ∀ a, Q a → (f a).Meets c S) : (p.bind f).Meets c S := by
  intro t b free
  refine (first t b free).bind ?_
  rintro a _ ⟨rfl, known⟩
  exact next a known t _ free

theorem update {f : World σ → α × World σ} (spares : ∀ w, c.Fair w → c.Spares w (f w).2 ∧ Q (f w).1) :
    (Routine.update f).Meets c Q :=
  fun _ b _ w fair _ => ⟨b, .spares (spares w fair).1, rfl, (spares w fair).2⟩

theorem change {f : World σ → World σ} (spares : ∀ w, c.Fair w → c.Spares w (f w)) :
    (Routine.change f).Meets c fun _ => True :=
  fun _ b _ w fair _ => ⟨b, .spares (spares w fair), rfl, trivial⟩

theorem look {f : World σ → α} (known : ∀ w, c.Fair w → Q (f w)) : (Routine.look f).Meets c Q :=
  update fun w fair => ⟨fair.spares_refl, known w fair⟩

theorem clock : (Routine.clock : Routine σ Float).Meets c c.time.Shows := look fun _ fair => fair.moment

/-- A wait that is not for other tasks. In a mild climate it ends because its cue has come. -/
theorem await {cue : Cue} (noTasks : ∀ ids, cue ≠ .tasks ids) (noRequest : ∀ token, cue = .decision token → c.harsh) :
    (Routine.await cue : Routine σ Wake).Meets c fun wake => ¬c.harsh → wake = .ready := by
  intro t b _
  cases cue with
  | time | latch => exact ⟨trivial, fun wake mild => ⟨rfl, mild⟩⟩
  | decision token => exact ⟨noRequest token rfl, fun wake mild => ⟨rfl, mild⟩⟩
  | tasks ids => exact absurd rfl (noTasks ids)

theorem perform (errand : Errand) :
    (Routine.perform errand : Routine σ (Except Interrupt Value)).Meets c (c.Answers errand) :=
  fun _ _ free => ⟨free, fun _ answers => ⟨rfl, answers⟩⟩

/-- The creation of a task that promises nothing. -/
theorem create {body : TaskId → Routine σ Unit} (meets : ∀ id, (body id).Meets c fun _ => True) :
    (Routine.create body).Meets c fun _ => True := by
  intro t b _ child
  refine ⟨{}, b, .aide, (meets child child {} ⟨rfl, rfl, rfl⟩).mono ?_, rfl, trivial⟩
  rintro _ _ ⟨rfl, _⟩
  exact .inr ⟨rfl, rfl⟩

end Meets

end Routine

namespace Attempt

/-- Whatever the first part of an attempt comes to, the bond after it is honoured: by the second part if it
succeeds, and by nothing else if it does not. -/
theorem honours_bind {p : Attempt σ α} {f : α → Attempt σ β} {Q : Except Interrupt α → Bond → Prop}
    {R : Except Interrupt β → Bond → Prop} (first : (ExceptT.run p).Honours c t b Q)
    (next : ∀ a b', Q (.ok a) b' → (ExceptT.run (f a)).Honours c t b' R)
    (fails : ∀ interrupt b', Q (.error interrupt) b' → R (.error interrupt) b') :
    (ExceptT.run (p >>= f)).Honours c t b R := by
  rw [run_bind]
  refine first.bind ?_
  rintro (interrupt | a) b' known
  · exact fails interrupt b' known
  · exact next a b' known

theorem honours_lift_bind {p : Routine σ α} {f : α → Attempt σ β} {Q : α → Bond → Prop}
    {R : Except Interrupt β → Bond → Prop} (first : p.Honours c t b Q)
    (next : ∀ a b', Q a b' → (ExceptT.run (f a)).Honours c t b' R) :
    (ExceptT.run (lift p >>= f)).Honours c t b R := by
  rw [run_bind, run_lift, Routine.bind_bind]
  exact first.bind next

namespace Meets

variable {Q R : Except Interrupt α → Prop}

theorem pure {a : α} (known : Q (.ok a)) : (Pure.pure a : Attempt σ α).Meets c Q := Routine.Meets.done known

theorem throw {interrupt : Interrupt} (known : Q (.error interrupt)) :
    (MonadExcept.throw interrupt : Attempt σ α).Meets c Q :=
  Routine.Meets.done known

theorem fail {fault : Fault} (known : Q (.error (.fault fault))) : (Attempt.fail fault : Attempt σ α).Meets c Q :=
  throw known

theorem mono {p : Attempt σ α} (meets : p.Meets c Q) (weaker : ∀ outcome, Q outcome → R outcome) : p.Meets c R :=
  Routine.Meets.mono meets weaker

theorem bind {p : Attempt σ α} {f : α → Attempt σ β} {S : Except Interrupt β → Prop} (first : p.Meets c Q)
    (next : ∀ a, Q (.ok a) → (f a).Meets c S) (fails : ∀ interrupt, Q (.error interrupt) → S (.error interrupt)) :
    (p >>= f).Meets c S := by
  rw [Meets, run_bind]
  refine Routine.Meets.bind first ?_
  rintro (interrupt | a) known
  · exact .done (fails interrupt known)
  · exact next a known

/-- A first part that cannot fail. -/
theorem lift_bind {p : Routine σ α} {f : α → Attempt σ β} {P : α → Prop} {S : Except Interrupt β → Prop}
    (first : p.Meets c P) (next : ∀ a, P a → (f a).Meets c S) : (Attempt.lift p >>= f).Meets c S := by
  rw [Meets, run_bind, run_lift, Routine.bind_bind]
  exact Routine.Meets.bind first next

/-- A first part that is a matter of computation. -/
theorem ofExcept_bind {r : Except Fault α} {f : α → Attempt σ β} {S : Except Interrupt β → Prop}
    (next : ∀ a, r = .ok a → (f a).Meets c S) (fails : ∀ fault, r = .error fault → S (.error (.fault fault))) :
    (Attempt.ofExcept r >>= f).Meets c S := by
  cases r with
  | ok a => exact next a rfl
  | error fault => exact throw (fails fault rfl)

theorem tryCatch {p : Attempt σ α} {handle : Interrupt → Attempt σ α} (first : p.Meets c Q)
    (kept : ∀ a, Q (.ok a) → R (.ok a)) (handled : ∀ interrupt, Q (.error interrupt) → (handle interrupt).Meets c R) :
    (MonadExcept.tryCatch p handle).Meets c R := by
  rw [Meets, run_tryCatch]
  refine Routine.Meets.bind first ?_
  rintro (interrupt | a) known
  · exact handled interrupt known
  · exact .done (kept a known)

/-- In a mild climate no wait is cut short. -/
theorem await {cue : Cue} (noTasks : ∀ ids, cue ≠ .tasks ids) (noRequest : ∀ token, cue = .decision token → c.harsh) :
    (Attempt.await cue : Attempt σ Unit).Meets c c.Done := by
  refine lift_bind (Routine.Meets.await noTasks noRequest) ?_
  rintro (_ | _) mild
  · exact pure (.inl rfl)
  · refine throw (.inr ⟨?_, "", rfl⟩)
    by_contra calm
    cases mild calm

end Meets

end Attempt

end Runbook
