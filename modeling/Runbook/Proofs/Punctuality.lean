import Runbook.Proofs.Likeness
import Runbook.Proofs.Moments
import Runbook.Proofs.Rest

/-! # Punctual routines

If tools answer by what they are asked alone, and take their time by it too, then what a task comes to is settled
when it begins, and so is the moment at which it comes to it. Observers may suspend the task as often as they like,
as long as no time passes meanwhile: whoever is suspended goes on at the same moment.

A task may own the ledger, which nobody else then changes. It leaves behind one outcome if it is a branch of another
task, and it waits for its own branches until the latest of them has ended.

A tool is regular if its name and its parameters alone settle for which times it pauses and what it answers, whatever
it remembers. An observer is discreet if it asks nothing of the engine and lets no time pass: it may fail, and it may
suspend the task that has called it, until its next turn or until a latch is open. Whoever follows the scripts of such
tools and observers is punctual.
-/

namespace Runbook

open Host

variable {σ α β : Type}

/-! ## Posts -/

/-- How tools answer, and the times for which they wait before that. -/
structure Habits where
  answer : String → Entries → Except Interrupt Value
  pauses : String → Entries → List Float

/-- What an errand that is run at a moment comes to, and when. Observers take no time, and no observer is cancelled. -/
inductive Habits.Answers (h : Habits) : Errand → Moment → Except Interrupt Value → Moment → Prop
  | tool (name : String) (parameters : Entries) (x : Moment) :
      Answers h (.tool name parameters) x (h.answer name parameters) (x.afterAll (h.pauses name parameters))
  | observer (callback : String) (event : Event) (x : Moment) {answer : Except Interrupt Value}
      (civil : ∀ message, answer ≠ .error (.cancelled message)) : Answers h (.observer callback event) x answer x

/-- No execution is to be cancelled. -/
def Ledger.Calm (l : Ledger) : Prop := ∀ id x, l.record? id = some x → x.cancelRequested = false

/-- What a branch has left behind that nobody has collected. -/
def Agenda.left? (a : Agenda) (id : TaskId) : Option Outcome := (a.outcomes.find? (·.1 == id)).map (·.2)

/-- A task that was created as a branch, what it is to leave behind, and the moment at which it ends. -/
structure Branch where
  id : TaskId
  outcome : Outcome
  term : Moment

/-- What is settled about a branch, whatever number it has. -/
def Branch.promise (branch : Branch) : Outcome × Moment := (branch.outcome, branch.term)

/-- What is settled about a task. -/
structure Post where
  /-- The moment at which it ends. -/
  term : Moment
  /-- What it has still to leave behind. -/
  owes : Option Outcome := none
  /-- The branches that it has created and not collected. -/
  branches : List Branch := []
  /-- The branches have ended. -/
  joined : Bool := false
  /-- The ledger, if the task owns it. -/
  ledger : Option Ledger := none

namespace Post

/-- There are no branches. -/
structure Free (b : Post) : Prop where
  branches : b.branches = []
  joined : b.joined = false

/-- The moment at which all branches have ended if they are waited for from another one on. -/
def joinedAt (b : Post) (x : Moment) : Moment := x.latest (b.branches.map (·.term))

/-- The world is as the task knows it. -/
structure Sees (b : Post) (x : Moment) (w : World σ) : Prop where
  clock : w.agenda.now = x.seconds
  calm : w.ledger.Calm
  owned : ∀ l, b.ledger = some l → w.ledger = l
  backed : b.joined = true → ∀ branch ∈ b.branches, w.agenda.left? branch.id = some branch.outcome

/-- An act of a task: its post and the world before, and both afterwards. -/
inductive Deed (t : TaskId) : Post → World σ → Post → World σ → Prop
  | aside {b : Post} {w w' : World σ} (agenda : w'.agenda = w.agenda) (ledger : w'.ledger = w.ledger) : Deed t b w b w'
  | opens {b : Post} {w : World σ} (key : Value) : Deed t b w b (w.openLatch key)
  | writes {b : Post} {w w' : World σ} (owns : b.ledger ≠ none) (calm : w'.ledger.Calm)
      (agenda : w'.agenda = w.agenda) : Deed t b w { b with ledger := some w'.ledger } w'
  | leaves {b : Post} {w : World σ} {outcome : Outcome} (owes : b.owes = some outcome) :
      Deed t b w { b with owes := none } (Interpreter.leave t outcome w)
  | collects {b : Post} {w : World σ} (joined : b.joined = true) :
      Deed t b w { b with branches := [], joined := false } (Interpreter.collect (b.branches.map (·.id)) w).2

/-- The task may end. -/
structure Over (b : Post) (x : Moment) : Prop where
  punctual : x = b.term
  owes : b.owes = none
  branches : b.branches = []

end Post

/-- Followed from a moment on by a task with a given post, the routine does what is settled, and ends as it says. -/
def Routine.Punctual {α : Type} (h : Habits) : Routine σ α → TaskId → Post → Moment → (α → Post → Moment → Prop) → Prop
  | .done a, _, b, x, Q => Q a b x
  | .act f k, t, b, x, Q => ∀ w : World σ, b.Sees x w →
    ∃ b', Post.Deed t b w b' (f w).2 ∧ (k (f w).1).Punctual h t b' x Q
  | .wait (.time seconds) k, t, b, x, Q => x.after seconds ≤ b.term ∧ (k .ready).Punctual h t b (x.after seconds) Q
  | .wait (.latch _) k, t, b, x, Q => (k .ready).Punctual h t b x Q
  | .wait (.decision _) _, _, _, _, _ => False
  | .wait (.tasks ids) k, t, b, x, Q => b.joined = false ∧ ids = b.branches.map (·.id) ∧ b.joinedAt x ≤ b.term ∧
    (k .ready).Punctual h t { b with joined := true } (b.joinedAt x) Q
  | .call errand k, t, b, x, Q => b.Free ∧ ∀ answer y, h.Answers errand x answer y →
    y ≤ b.term ∧ (k answer).Punctual h t b y Q
  | .spawn body k, t, b, x, Q => b.joined = false ∧ ∀ child, ∃ outcome term, x ≤ term ∧
    (body child).Punctual h child { term, owes := some outcome } x (fun _ b y => b.Over y ∧ b.ledger = none) ∧
    (k child).Punctual h t { b with branches := b.branches ++ [⟨child, outcome, term⟩] } x Q

/-- The routine is followed to a settled end and moment, whoever follows it and has no branches. -/
structure Routine.Arrives (h : Habits) (p : Routine σ α) (x : Moment) (a : α) (y : Moment) : Prop where
  later : x ≤ y
  punctual : ∀ t b, b.Free → y ≤ b.term → p.Punctual h t b x fun a' b' y' => a' = a ∧ b' = b ∧ y' = y

/-- Whenever it begins, it is settled what the routine comes to, and when. -/
def Routine.Foreseen (h : Habits) (p : Routine σ α) : Prop := ∀ x, ∃ a y, p.Arrives h x a y

/-- The same of an attempt, whatever it comes to. -/
def Attempt.Foreseen (h : Habits) (p : Attempt σ α) : Prop := Routine.Foreseen h (ExceptT.run p)

variable {h : Habits} {t : TaskId} {b : Post} {x y z : Moment}

namespace Routine

theorem Punctual.mono {p : Routine σ α} {Q R : α → Post → Moment → Prop} (punctual : p.Punctual h t b x Q)
    (weaker : ∀ a b y, Q a b y → R a b y) : p.Punctual h t b x R := by
  induction p generalizing t b x with
  | done a => exact weaker a b x punctual
  | act f k ih =>
    intro w sees
    obtain ⟨b', deed, rest⟩ := punctual w sees
    exact ⟨b', deed, ih _ rest weaker⟩
  | wait cue k ih =>
    cases cue with
    | time => exact ⟨punctual.1, ih _ punctual.2 weaker⟩
    | latch => exact ih _ punctual weaker
    | decision => exact punctual
    | tasks => exact ⟨punctual.1, punctual.2.1, punctual.2.2.1, ih _ punctual.2.2.2 weaker⟩
  | call errand k ih =>
    refine ⟨punctual.1, fun answer y answers => ?_⟩
    obtain ⟨early, rest⟩ := punctual.2 answer y answers
    exact ⟨early, ih _ rest weaker⟩
  | spawn body k _ ih =>
    refine ⟨punctual.1, fun child => ?_⟩
    obtain ⟨outcome, term, later, created, rest⟩ := punctual.2 child
    exact ⟨outcome, term, later, created, ih child rest weaker⟩

theorem Punctual.bind {p : Routine σ α} {f : α → Routine σ β} {Q : α → Post → Moment → Prop}
    {R : β → Post → Moment → Prop} (first : p.Punctual h t b x Q)
    (next : ∀ a b y, Q a b y → (f a).Punctual h t b y R) : (p.bind f).Punctual h t b x R := by
  induction p generalizing t b x with
  | done a => exact next a b x first
  | act g k ih =>
    intro w sees
    obtain ⟨b', deed, rest⟩ := first w sees
    exact ⟨b', deed, ih _ rest next⟩
  | wait cue k ih =>
    cases cue with
    | time => exact ⟨first.1, ih _ first.2 next⟩
    | latch => exact ih _ first next
    | decision => exact first
    | tasks => exact ⟨first.1, first.2.1, first.2.2.1, ih _ first.2.2.2 next⟩
  | call errand k ih =>
    refine ⟨first.1, fun answer y answers => ?_⟩
    obtain ⟨early, rest⟩ := first.2 answer y answers
    exact ⟨early, ih _ rest next⟩
  | spawn body k _ ih =>
    refine ⟨first.1, fun child => ?_⟩
    obtain ⟨outcome, term, later, created, rest⟩ := first.2 child
    exact ⟨outcome, term, later, created, ih child rest next⟩

theorem Arrives.bind {p : Routine σ α} {f : α → Routine σ β} {a : α} {b : β} (first : p.Arrives h x a y)
    (next : (f a).Arrives h y b z) : (p.bind f).Arrives h x b z where
  later := le_trans first.later next.later
  punctual t post free early := by
    apply (first.punctual t post free (le_trans next.later early)).bind
    rintro _ _ _ ⟨rfl, rfl, rfl⟩
    exact next.punctual t _ free early

namespace Foreseen

theorem done (a : α) : (Routine.done a : Routine σ α).Foreseen h :=
  fun x => ⟨a, x, le_refl x, fun _ _ _ _ => ⟨rfl, rfl, rfl⟩⟩

theorem bind {p : Routine σ α} {f : α → Routine σ β} (first : p.Foreseen h) (next : ∀ a, (f a).Foreseen h) :
    (p.bind f).Foreseen h := by
  intro x
  obtain ⟨a, y, arrives⟩ := first x
  obtain ⟨b, z, arrives'⟩ := next a y
  exact ⟨b, z, arrives.bind arrives'⟩

/-- An act whose answer is settled by the clock, and which changes neither the agenda nor the ledger. -/
theorem update {f : World σ → α × World σ} (agenda : ∀ w, (f w).2.agenda = w.agenda)
    (ledger : ∀ w, (f w).2.ledger = w.ledger)
    (settled : ∀ x : Moment, ∃ a, ∀ w, w.agenda.now = x.seconds → w.ledger.Calm → (f w).1 = a) :
    (Routine.update f).Foreseen h := by
  intro x
  obtain ⟨a, settled⟩ := settled x
  refine ⟨a, x, le_refl x, fun t b _ _ w sees => ⟨b, .aside (agenda w) (ledger w), ?_, rfl, rfl⟩⟩
  exact settled w sees.clock sees.calm

theorem change {f : World σ → World σ} (agenda : ∀ w, (f w).agenda = w.agenda) (ledger : ∀ w, (f w).ledger = w.ledger) :
    (Routine.change f).Foreseen h :=
  update agenda ledger fun _ => ⟨(), fun _ _ _ => rfl⟩

theorem clock : (Routine.clock : Routine σ Float).Foreseen h :=
  update (fun _ => rfl) (fun _ => rfl) fun x => ⟨x.seconds, fun _ now _ => now⟩

theorem pause (seconds : Float) : (Routine.await (.time seconds) : Routine σ Wake).Foreseen h :=
  fun x => ⟨.ready, x.after seconds, x.le_after seconds, fun _ _ _ early => ⟨early, rfl, rfl, rfl⟩⟩

end Foreseen

end Routine

namespace Attempt.Foreseen

theorem pure (a : α) : (Pure.pure a : Attempt σ α).Foreseen h := Routine.Foreseen.done _

theorem throw (interrupt : Interrupt) : (MonadExcept.throw interrupt : Attempt σ α).Foreseen h :=
  Routine.Foreseen.done _

theorem fail (fault : Fault) : (Attempt.fail fault : Attempt σ α).Foreseen h := throw _

theorem ofExcept (r : Except Fault α) : (Attempt.ofExcept r : Attempt σ α).Foreseen h := by
  cases r with
  | ok a => exact pure a
  | error fault => exact throw _

theorem bind {p : Attempt σ α} {f : α → Attempt σ β} (first : p.Foreseen h) (next : ∀ a, (f a).Foreseen h) :
    (p >>= f).Foreseen h := by
  rw [Foreseen, run_bind]
  apply Routine.Foreseen.bind first
  intro outcome
  cases outcome with
  | error interrupt => exact .done _
  | ok a => exact next a

/-- A first part that cannot fail. -/
theorem lift_bind {p : Routine σ α} {f : α → Attempt σ β} (first : p.Foreseen h) (next : ∀ a, (f a).Foreseen h) :
    (Attempt.lift p >>= f).Foreseen h := by
  rw [Foreseen, run_bind, run_lift, Routine.bind_bind]
  exact Routine.Foreseen.bind first next

theorem tryCatch {p : Attempt σ α} {handle : Interrupt → Attempt σ α} (first : p.Foreseen h)
    (handled : ∀ interrupt, (handle interrupt).Foreseen h) : (MonadExcept.tryCatch p handle).Foreseen h := by
  rw [Foreseen, run_tryCatch]
  apply Routine.Foreseen.bind first
  intro outcome
  cases outcome with
  | error interrupt => exact handled interrupt
  | ok a => exact .done _

theorem pause (seconds : Float) : (Attempt.await (.time seconds) : Attempt σ Unit).Foreseen h := by
  apply lift_bind (.pause seconds)
  intro wake
  cases wake with
  | ready => exact pure ()
  | cancelled => exact throw _

end Attempt.Foreseen

variable {e : Engine σ} {host : Host σ}

/-! ## Scripts -/

namespace Script

/-- The script pauses for these times and answers so, whatever it is told by its memory, if nobody cuts it short. -/
inductive Takes : Script σ α → List Float → α → Prop
  | done (a : α) : Takes (.done a) [] a
  | remember {β : Type} {f : σ → β × σ} {k : β → Script σ α} {pauses : List Float} {a : α}
      (any : ∀ b, Takes (k b) pauses a) : Takes (.ask (.remember f) k) pauses a
  | pause {seconds : Float} {k : Wake → Script σ α} {pauses : List Float} {a : α}
      (ready : Takes (k .ready) pauses a) : Takes (.ask (.pause seconds) k) (seconds :: pauses) a
  | pass {key : Value} {k : Wake → Script σ α} {pauses : List Float} {a : α}
      (ready : Takes (k .ready) pauses a) : Takes (.ask (.pass key) k) pauses a
  | openLatch {key : Value} {k : Unit → Script σ α} {pauses : List Float} {a : α}
      (rest : Takes (k ()) pauses a) : Takes (.ask (.openLatch key) k) pauses a

/-- The script does not call the engine and lets no time pass, and it ends in no cancellation if nobody cuts it
short. -/
inductive Discreet : Script σ (Except Interrupt Unit) → Prop
  | done {answer : Except Interrupt Unit} (civil : ∀ message, answer ≠ .error (.cancelled message)) :
      Discreet (.done answer)
  | remember {β : Type} {f : σ → β × σ} {k : β → Script σ (Except Interrupt Unit)} (any : ∀ b, Discreet (k b)) :
      Discreet (.ask (.remember f) k)
  | pause {seconds : Float} {k : Wake → Script σ (Except Interrupt Unit)} (none : seconds ≤ 0.0)
      (ready : Discreet (k .ready)) : Discreet (.ask (.pause seconds) k)
  | pass {key : Value} {k : Wake → Script σ (Except Interrupt Unit)} (ready : Discreet (k .ready)) :
      Discreet (.ask (.pass key) k)
  | openLatch {key : Value} {k : Unit → Script σ (Except Interrupt Unit)} (rest : Discreet (k ())) :
      Discreet (.ask (.openLatch key) k)

/-- Whoever follows the script gets its answer after its pauses. -/
theorem Takes.punctual {script : Script σ α} {pauses : List Float} {a : α} (takes : script.Takes pauses a)
    (early : x.afterAll pauses ≤ b.term) : (follow e script).Punctual h t b x fun a' b' y =>
      a' = a ∧ b' = b ∧ y = x.afterAll pauses := by
  induction takes generalizing x with
  | done a => exact ⟨rfl, rfl, rfl⟩
  | remember _ ih => exact fun w _ => ⟨b, .aside rfl rfl, ih _ early⟩
  | pause _ ih => exact ⟨le_trans (Moment.le_afterAll _ _) early, ih early⟩
  | pass _ ih => exact ih early
  | openLatch _ ih => exact fun w _ => ⟨b, .opens _, ih early⟩

/-- Whoever follows the script is done with it at the same moment. -/
theorem Discreet.punctual {script : Script σ (Except Interrupt Unit)} (discreet : script.Discreet) (early : x ≤ b.term) :
    (follow e script).Punctual h t b x fun answer b' y =>
      (∀ message, answer ≠ .error (.cancelled message)) ∧ b' = b ∧ y = x := by
  induction discreet with
  | done civil => exact ⟨civil, rfl, rfl⟩
  | remember _ ih => exact fun w _ => ⟨b, .aside rfl rfl, ih _⟩
  | pause none _ ih =>
    refine ⟨?_, ?_⟩
    · rwa [x.after_of_le none]
    · rw [x.after_of_le none]
      exact ih
  | pass _ ih => exact ih
  | openLatch _ ih => exact fun w _ => ⟨b, .opens _, ih⟩

end Script

/-! ## Hosts -/

/-- Tools have habits, which nothing but their names and parameters settles, and observers are discreet. -/
structure Host.Regular (host : Host σ) (h : Habits) : Prop extends host.Frugal where
  habitual : ∀ name parameters, (host.tool name parameters).Takes (h.pauses name parameters) (h.answer name parameters)
  discreet : ∀ callback event, (host.observer callback event).Discreet

/-- Errands are answered as habits have it. -/
theorem Host.Regular.punctual (regular : host.Regular h) {errand : Errand}
    (early : ∀ answer y, h.Answers errand x answer y → y ≤ b.term) :
    (host.service e errand).Punctual h t b x fun answer b' y => b' = b ∧ h.Answers errand x answer y := by
  cases errand with
  | tool name parameters =>
    apply ((regular.habitual name parameters).punctual (early _ _ (.tool ..))).mono
    rintro _ _ _ ⟨rfl, rfl, rfl⟩
    exact ⟨rfl, .tool ..⟩
  | observer callback event =>
    have inTime : x ≤ b.term := early (.ok .null) x (.observer callback event x (by simp))
    apply ((regular.discreet callback event).punctual inTime).bind
    rintro answer _ _ ⟨civil, rfl, rfl⟩
    refine ⟨rfl, .observer callback event _ fun message same => ?_⟩
    cases answer with
    | error interrupt => exact civil message (by injection same with same; rw [same])
    | ok => cases same

end Runbook
