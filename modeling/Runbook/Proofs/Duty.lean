import Runbook.Proofs.Itinerary
import Runbook.Proofs.Setting

/-! # The duties of tasks

What a task is in charge of: the execution that it drives and has to retire, the execution that it works
for as a branch, the branches that it has to wait for, the request that it tends. Every act is of one of
a few sorts, and says what it makes of the duty. A routine minds a duty if it does nothing that the duty
does not call for, and whatever it creates minds a duty of its own.

What the journal tells of an execution is told by those who serve it: its driver makes the moves, and whoever
interprets a step tells of the manual steps in it.

A duty is about tasks, while a protocol is about books: here it matters who does something and not what
is known about records.
-/

namespace Runbook

variable {σ α β : Type}

/-- Where a task stands between the admission of an execution and its first event, and at its end. -/
inductive Phase where
  | steady
  /-- The task had an execution admitted, and nobody drives it yet. -/
  | admitted (id : String)
  /-- The task created the driver of an execution, which is not in the table of background tasks yet. -/
  | handed (id : String) (driver : TaskId)
  /-- The task is to drive an execution, and has not begun. -/
  | appointed (id : String)
  /-- A cancellation has come between the driver and the callbacks that it told of a move. -/
  | severed
  /-- The execution that the task drives is over, and the next thing is to retire it. -/
  | closing

/-- What a task is in charge of. -/
structure Duty where
  /-- The execution that it drives. -/
  drives : Option String := none
  /-- The execution that it works for as a branch. -/
  works : Option String := none
  /-- The step of that execution that it is interpreting. -/
  step : Option Int := none
  phase : Phase := .steady
  /-- The tasks that it has to wait for. -/
  owes : List TaskId := []
  /-- The token of the latest request that it opened and has not taken off the gate. -/
  tends : Option String := none

namespace Duty

/-- Nothing is to be done before anything else. -/
structure Steady (d : Duty) : Prop where
  phase : d.phase = .steady
  owes : d.owes = []

/-- The task drives the execution or works for it. -/
def Serves (d : Duty) (id : String) : Prop := d.drives = some id ∨ d.works = some id

/-- The execution is in the hands of the task, from its admission to its end. -/
def Answers (d : Duty) (id : String) : Prop :=
  d.drives = some id ∨ d.phase = .admitted id ∨ d.phase = .appointed id

/-- The task may end. One that was to drive an execution may have been cancelled before it began. -/
structure Over (d : Duty) : Prop where
  drives : d.drives = none
  owes : d.owes = []
  phase : d.phase = .steady ∨ ∃ id, d.phase = .appointed id

/-- The duty after a wait. -/
def rested (d : Duty) : Duty := { d with owes := [] }

/-- The task may wait for a cue: for exactly the tasks that it has to wait for, and for the answer to
no request but its own. -/
structure Awaits (d : Duty) (cue : Cue) : Prop where
  phase : d.phase = .steady
  owes : (∃ ids, cue = .tasks ids ∧ ids = d.owes) ∨ (∀ ids, cue ≠ .tasks ids) ∧ d.owes = []
  tends : ∀ token, cue = .decision token → d.tends = some token

/-- A task that is created: what its duty is, and what becomes of the duty of the one who creates it. -/
inductive Hires : Duty → TaskId → Duty → Duty → Prop
  | aide {d : Duty} (child : TaskId) (steady : d.Steady) : Hires d child {} d
  | driver {d : Duty} (child : TaskId) (id : String) (phase : d.phase = .admitted id) :
      Hires d child { phase := .appointed id } { d with phase := .handed id child }
  | branch {d : Duty} (child : TaskId) (id : String) (index : Int) (phase : d.phase = .steady)
      (serves : d.Serves id) (step : d.step = some index) :
      Hires d child { works := some id, step := some index } { d with owes := d.owes ++ [child] }

/-- What the duty of a task takes for granted. -/
structure Fit (d : Duty) (w : World σ) : Prop where
  orderly : w.agenda.Orderly
  named : ∀ id x, w.ledger.record? id = some x → x.id = .text id
  recorded : ∀ id, d.drives = some id → ∃ x, w.ledger.record? id = some x

end Duty

/-- It tells of nothing that bears on the fate of an execution or on the history. -/
def Happening.Mere : Happening → Prop
  | .admitted .. | .cancelled _ | .untimed _ | .retired _ | .cleared => False
  | .announced event _ => match event with
    | .started _ | .completed _ | .failed _ | .cancelled _ => False
    | _ => True
  | _ => True

/-- It tells of no move, no manual step and no outcome, and of nothing that bears on the fate of an execution. -/
def Happening.Idle : Happening → Prop
  | .callbackFailed .. | .asked .. | .judged .. | .called .. | .iterated .. => True
  | _ => False

/-- What a task may tell, and its duty afterwards. -/
inductive Duty.Tells : Duty → Happening → Duty → Prop
  | aside {d : Duty} {h : Happening} (idle : h.Idle) : Tells d h d
  | manual {d : Duty} {id : String} {index : Int} (serves : d.Serves id) (step : d.step = some index)
      (body : Step) (instructions : Value) (token : Option String) (record : Option Execution) :
      Tells d (.announced (.manual id body index instructions token) record) d
  /-- The driver makes a move between two steps. -/
  | move {d : Duty} {id : String} {h : Happening} {move : Move} (drives : d.drives = some id)
      (free : d.step = none) (mere : h.Mere) (moves : h.move? id = some move)
      (only : ∀ other, other ≠ id → h.move? other = none) (outside : ∀ index, h ≠ .entered id index) : Tells d h d
  | enters {d : Duty} {id : String} (drives : d.drives = some id ∧ d.works = none) (free : d.step = none)
      (index : Int) :
      Tells d (.entered id index) { d with step := some index }
  | leaves {d : Duty} (body : Step) (context : Context) (outcome : Except Interrupt StepResult) :
      Tells d (.interpreted body context outcome) { d with step := none }

/-- The execution whose driver an observer is called by, if the event is a move. -/
def Errand.teller? : Errand → Option String
  | .tool .. => none
  | .observer _ event => event.move?.map fun _ => event.execution

/-- The duty of a task after it asked for an execution to be admitted. -/
def Duty.enrolled (d : Duty) : Except Fault String → Duty
  | .ok id => { d with phase := .admitted id }
  | .error _ => d

/-- An act of a task: its duty and the world before, and both afterwards. -/
inductive Engine.Act (e : Engine σ) : Duty → World σ → Duty → World σ → Prop
  | stir {d : Duty} {w w' : World σ} (steady : d.Steady) (stirs : w.Stirs w') : e.Act d w d w'
  | note {d d' : Duty} {w w' : World σ} (steady : d.Steady) (stirs : w.Stirs w') (h : Happening)
      (tells : d.Tells h d') : e.Act d w d' (w'.note h)
  /-- A record is changed, but not its status. -/
  | amend {d : Duty} {w : World σ} (steady : d.Steady) (id : String) (f : Execution → Execution)
      (status : ∀ x, w.ledger.record? id = some x → (f x).status = x.status) :
      e.Act d w d (Engine.amend id f w)
  | enroll {d : Duty} {w : World σ} (steady : d.Steady) (workflow : Workflow) (options : Options) :
      e.Act d w (d.enrolled (e.enroll workflow options w).1) (e.enroll workflow options w).2
  | keep {d : Duty} {w : World σ} (id : String) (driver : TaskId) (phase : d.phase = .handed id driver) :
      e.Act d w { d with phase := .steady } (Engine.keep id driver w)
  | begin {d : Duty} {w : World σ} (id : String) (phase : d.phase = .admitted id ∨ d.phase = .appointed id)
      (free : d.drives = none ∧ d.works = none) :
      e.Act d w { drives := some id } (w.announcement (.started id)).2
  /-- The driver ends its execution by itself, and the end is announced. -/
  | finish {d : Duty} {w : World σ} (steady : d.Steady) (id : String) (drives : d.drives = some id)
      (free : d.step = none) (event : Event) (kind : event = .completed id ∨ event = .failed id)
      (change : World σ → Except Fault Bool × World σ) (ends : Engine.Ends id change)
      (same : w.SameSetting (change w).2) :
      e.Act d w d (w.announced event change).2
  | interrupt {d : Duty} {w : World σ} (id : String) (drives : d.drives = some id) (owes : d.owes = [])
      (phase : d.phase = .steady ∨ d.phase = .severed) : e.Act d w { d with phase := .closing } (Engine.interrupt id w).2
  | retire {d : Duty} {w : World σ} (id : String) (drives : d.drives = some id) (owes : d.owes = [])
      (phase : d.phase = .steady ∨ d.phase = .severed ∨ d.phase = .closing) : e.Act d w {} (e.retire id w)
  | withdraw {d : Duty} {w : World σ} (steady : d.Steady) (id : String) :
      e.Act d w d (w.announced (.cancelled id) (e.withdraw id)).2
  | opens {d : Duty} {w : World σ} (steady : d.Steady) (context : Context)
      (serves : d.Serves context.execution) :
      e.Act d w { d with tends := some (Interpreter.openRequest context w).1 }
        (Interpreter.openRequest context w).2
  | takes {d : Duty} {w : World σ} (steady : d.Steady) (token : String) (tends : d.tends = some token) :
      e.Act d w { d with tends := none } (Interpreter.takeAnswer token w).2
  | gather {d : Duty} {w : World σ} (steady : d.Steady) :
      e.Act d w { d with owes := (Engine.cancelBackground w).1 } (Engine.cancelBackground w).2
  | clear {d : Duty} {w : World σ} (steady : d.Steady) : e.Act d w d (Engine.clearHistory w)

/-- Followed from a given duty, the routine minds it and what becomes of it, and ends as it says. Only a driver
calls observers with a move of its execution, and it makes no other one if it was cancelled meanwhile. -/
def Routine.Minds {α : Type} (e : Engine σ) : Routine σ α → Duty → (α → Duty → Prop) → Prop
  | .done a, d, Q => Q a d
  | .act f k, d, Q => ∀ w : World σ, d.Fit w → ∃ d', e.Act d w d' (f w).2 ∧ (k (f w).1).Minds e d' Q
  | .wait cue k, d, Q => d.Awaits cue ∧ ∀ wake, (k wake).Minds e d.rested Q
  | .call errand k, d, Q => d.Steady ∧ (∀ answer, (k answer).Minds e d Q) ∧ ∀ id, errand.teller? = some id →
    d.drives = some id ∧ d.step = none ∧
      ∀ message, (k (.error (.cancelled message))).Minds e { d with phase := .severed } Q
  | .spawn body k, d, Q => ∀ id, ∃ given d', d.Hires id given d' ∧
    (body id).Minds e given (fun _ d => d.Over) ∧ (k id).Minds e d' Q

/-- From a duty of a sort on, the routine minds it, and the duty is of that sort when it is done. -/
def Routine.Holds (e : Engine σ) (A : Duty → Prop) (p : Routine σ α) : Prop :=
  ∀ d, A d → p.Minds e d fun _ d' => A d'

variable {e : Engine σ} {d : Duty} {A : Duty → Prop}

namespace Duty

theorem rested_of_owes (owes : d.owes = []) : d.rested = d := by
  rw [Duty.rested, ← owes]

theorem Steady.rested (steady : d.Steady) : d.rested = d := rested_of_owes steady.owes

theorem Steady.awaits (steady : d.Steady) {cue : Cue} (noTasks : ∀ ids, cue ≠ .tasks ids)
    (noRequest : ∀ token, cue ≠ .decision token) : d.Awaits cue :=
  ⟨steady.phase, .inr ⟨noTasks, steady.owes⟩, fun token same => absurd same (noRequest token)⟩

theorem steady_free : Steady {} := ⟨rfl, rfl⟩

theorem over_free : Over {} := ⟨rfl, rfl, .inl rfl⟩

/-- Who has an execution to retire may not end. -/
theorem Over.not_closing (spent : d.Over) : d.phase ≠ .closing := by
  rcases spent.phase with steady | ⟨id, appointed⟩
  · rw [steady]
    exact fun same => nomatch same
  · rw [appointed]
    exact fun same => nomatch same

theorem Tells.mere {h : Happening} {d' : Duty} (tells : d.Tells h d') : h.Mere := by
  cases tells with
  | aside idle => cases h <;> trivial
  | manual | enters | leaves => trivial
  | move _ _ mere => exact mere

/-- Telling does not change the duty but in the step that the task is interpreting. -/
theorem Tells.eq {h : Happening} {d' : Duty} (tells : d.Tells h d') : ∃ step, d' = { d with step } := by
  cases tells with
  | aside | manual | move => exact ⟨d.step, rfl⟩
  | enters _ _ index => exact ⟨some index, rfl⟩
  | leaves => exact ⟨none, rfl⟩

/-- A task may end that was created and has not done anything. -/
theorem Hires.spent {child : TaskId} {given d' : Duty} (hires : d.Hires child given d') : given.Over := by
  cases hires with
  | aide => exact over_free
  | driver id => exact ⟨rfl, rfl, .inr ⟨id, rfl⟩⟩
  | branch => exact ⟨rfl, rfl, .inl rfl⟩

end Duty

namespace Routine

theorem Minds.mono {p : Routine σ α} {Q R : α → Duty → Prop} (minds : p.Minds e d Q)
    (weaker : ∀ a d, Q a d → R a d) : p.Minds e d R := by
  induction p generalizing d with
  | done a => exact weaker a d minds
  | act f k ih =>
    intro w fit
    obtain ⟨d', act, rest⟩ := minds w fit
    exact ⟨d', act, ih _ rest weaker⟩
  | wait cue k ih => exact ⟨minds.1, fun wake => ih wake (minds.2 wake) weaker⟩
  | call errand k ih =>
    obtain ⟨steady, minds, teller⟩ := minds
    refine ⟨steady, fun answer => ih answer (minds answer) weaker, fun id tells => ?_⟩
    obtain ⟨drives, free, severed⟩ := teller id tells
    exact ⟨drives, free, fun message => ih _ (severed message) weaker⟩
  | spawn body k _ ih =>
    intro id
    obtain ⟨given, d', hires, child, rest⟩ := minds id
    exact ⟨given, d', hires, child, ih id rest weaker⟩

theorem Minds.bind {p : Routine σ α} {f : α → Routine σ β} {Q : α → Duty → Prop} {R : β → Duty → Prop}
    (first : p.Minds e d Q) (next : ∀ a d', Q a d' → (f a).Minds e d' R) : (p.bind f).Minds e d R := by
  induction p generalizing d with
  | done a => exact next a d first
  | act g k ih =>
    intro w fit
    obtain ⟨d', act, rest⟩ := first w fit
    exact ⟨d', act, ih _ rest next⟩
  | wait cue k ih => exact ⟨first.1, fun wake => ih wake (first.2 wake) next⟩
  | call errand k ih =>
    obtain ⟨steady, first, teller⟩ := first
    refine ⟨steady, fun answer => ih answer (first answer) next, fun id tells => ?_⟩
    obtain ⟨drives, free, severed⟩ := teller id tells
    exact ⟨drives, free, fun message => ih _ (severed message) next⟩
  | spawn body k _ ih =>
    intro id
    obtain ⟨given, d', hires, child, rest⟩ := first id
    exact ⟨given, d', hires, child, ih id rest next⟩

namespace Holds

theorem done (a : α) : (Routine.done a : Routine σ α).Holds e A := fun _ known => known

theorem bind {p : Routine σ α} {f : α → Routine σ β} (first : p.Holds e A) (next : ∀ a, (f a).Holds e A) :
    (p.bind f).Holds e A :=
  fun d known => (first d known).bind fun a d' known' => next a d' known'

theorem update {f : World σ → α × World σ}
    (act : ∀ d w, A d → d.Fit w → ∃ d', e.Act d w d' (f w).2 ∧ A d') :
    (Routine.update f).Holds e A :=
  fun d known w fit => act d w known fit

theorem change {f : World σ → World σ} (act : ∀ d w, A d → d.Fit w → ∃ d', e.Act d w d' (f w) ∧ A d') :
    (Routine.change f).Holds e A :=
  fun d known w fit => act d w known fit

theorem look (steady : ∀ d, A d → d.Steady) (f : World σ → α) : (Routine.look f).Holds e A :=
  fun d known _ fit => ⟨d, .stir (steady d known) (World.stirs_refl fit.orderly), known⟩

theorem await (steady : ∀ d, A d → d.Steady) {cue : Cue} (noTasks : ∀ ids, cue ≠ .tasks ids)
    (noRequest : ∀ token, cue ≠ .decision token) : (Routine.await cue : Routine σ Wake).Holds e A := by
  intro d known
  refine ⟨(steady d known).awaits noTasks noRequest, fun wake => ?_⟩
  rw [(steady d known).rested]
  exact known

theorem perform (steady : ∀ d, A d → d.Steady) {errand : Errand} (aside : errand.teller? = none) :
    (Routine.perform errand : Routine σ (Except Interrupt Value)).Holds e A :=
  fun d known => ⟨steady d known, fun _ => known, fun _ tells => nomatch aside.symm.trans tells⟩

end Holds

end Routine

namespace Attempt

/-- Whatever the first part of an attempt comes to, the duty after it is minded: by the second part if it
succeeds, and by nothing else if it does not. -/
theorem minds_bind {p : Attempt σ α} {f : α → Attempt σ β} {Q : Except Interrupt α → Duty → Prop}
    {R : Except Interrupt β → Duty → Prop} (first : (ExceptT.run p).Minds e d Q)
    (success : ∀ a d', Q (.ok a) d' → (ExceptT.run (f a)).Minds e d' R)
    (failure : ∀ interrupt d', Q (.error interrupt) d' → R (.error interrupt) d') :
    (ExceptT.run (p >>= f)).Minds e d R := by
  rw [run_bind]
  refine first.bind ?_
  rintro (interrupt | a) d' known
  · exact failure interrupt d' known
  · exact success a d' known

theorem minds_lift_bind {p : Routine σ α} {f : α → Attempt σ β} {Q : α → Duty → Prop}
    {R : Except Interrupt β → Duty → Prop} (first : p.Minds e d Q)
    (next : ∀ a d', Q a d' → (ExceptT.run (f a)).Minds e d' R) :
    (ExceptT.run (lift p >>= f)).Minds e d R := by
  rw [run_bind, run_lift, Routine.bind_bind]
  exact first.bind next

/-- The attempt minds duties of a sort, however it ends. -/
def Holds (e : Engine σ) (A : Duty → Prop) (p : Attempt σ α) : Prop := (ExceptT.run p).Holds e A

namespace Holds

theorem pure (a : α) : (Pure.pure a : Attempt σ α).Holds e A := Routine.Holds.done _

theorem throw (interrupt : Interrupt) : (MonadExcept.throw interrupt : Attempt σ α).Holds e A :=
  Routine.Holds.done _

theorem fail (fault : Fault) : (Attempt.fail fault : Attempt σ α).Holds e A := throw _

theorem ofExcept (r : Except Fault α) : (Attempt.ofExcept r : Attempt σ α).Holds e A := by
  cases r with
  | ok a => exact pure a
  | error fault => exact throw _

theorem bind {p : Attempt σ α} {f : α → Attempt σ β} (first : p.Holds e A) (next : ∀ a, (f a).Holds e A) :
    (p >>= f).Holds e A := by
  rw [Holds, run_bind]
  refine Routine.Holds.bind first ?_
  rintro (interrupt | a)
  · exact Routine.Holds.done _
  · exact next a

theorem tryCatch {p : Attempt σ α} {handle : Interrupt → Attempt σ α} (first : p.Holds e A)
    (handled : ∀ interrupt, (handle interrupt).Holds e A) :
    (MonadExcept.tryCatch p handle).Holds e A := by
  rw [Holds, run_tryCatch]
  refine Routine.Holds.bind first ?_
  rintro (interrupt | a)
  · exact handled interrupt
  · exact Routine.Holds.done _

theorem lift {p : Routine σ α} (first : p.Holds e A) : (Attempt.lift p).Holds e A :=
  Routine.Holds.bind first fun _ => Routine.Holds.done _

theorem await (steady : ∀ d, A d → d.Steady) {cue : Cue} (noTasks : ∀ ids, cue ≠ .tasks ids)
    (noRequest : ∀ token, cue ≠ .decision token) : (Attempt.await cue : Attempt σ Unit).Holds e A := by
  refine bind (lift (Routine.Holds.await steady noTasks noRequest)) ?_
  rintro (_ | _)
  · exact pure ()
  · exact throw _

theorem perform (steady : ∀ d, A d → d.Steady) {errand : Errand} (aside : errand.teller? = none) :
    (Attempt.perform errand : Attempt σ Value).Holds e A :=
  Routine.Holds.perform steady aside

end Holds

end Attempt

end Runbook
