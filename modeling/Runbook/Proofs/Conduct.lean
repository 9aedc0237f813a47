import Runbook.Proofs.Obedience
import Runbook.Proofs.Standing

/-! # The conduct of an engine's tasks

The protocol that the tasks of an engine obey. The driver of an execution holds the record as it left
it; until the execution is cancelled nobody else changes that record, except that those around the
engine may assign variables to an execution that is not spared. A deed either bears on the fate of no
execution, or calls a tool that has been cleared, or is a turn of one execution, after which that
execution is sound again.
-/

namespace Runbook

variable {σ : Type}

namespace Books

/-- The record of an execution. -/
def record? (b : Books) (id : String) : Option Execution := b.ledger.record? id

/-- The execution is active. -/
def isActive (b : Books) (id : String) : Bool := b.ledger.isActive id

/-- The books of an engine between any two acts. -/
structure Valid (e : Engine σ) (spared : String → Prop) (b : Books) : Prop where
  orderly : b.ledger.Orderly
  sound : ∀ id x, b.record? id = some x → Sound e spared id x (b.isActive id) b.journal
  silent : ∀ id, b.record? id = none → Silent id b.journal
  licensed : Licensed e b.ledger b.journal

/-- The books bear out that a driver left a record: it agrees with the one in the books and has not
told an end, unless the execution has been cancelled since. -/
def Bears (spared : String → Prop) (id : String) (left : Execution) (b : Books) : Prop :=
  ∃ x, b.record? id = some x ∧
    (x.cancelRequested = true ∨ Agree spared id left x ∧ endings id b.journal = 0)

/-- The books can have come from earlier ones. -/
structure Later (spared : String → Prop) (b b' : Books) : Prop where
  journal : ∃ new, b'.journal = new ++ b.journal
  records : ∀ id x, b.record? id = some x → ∃ x', b'.record? id = some x' ∧
    Evolves spared id x (b.isActive id) x' (b'.isActive id) b'.journal

/-- The books change in nothing that bears on the fate of an execution. -/
structure Quiet (b b' : Books) : Prop where
  orderly : b.ledger.Orderly → b'.ledger.Orderly
  record? : ∀ id, b'.record? id = b.record? id
  isActive : ∀ id, b'.isActive id = b.isActive id
  journal : ∃ new, b'.journal = new ++ b.journal ∧ ∀ h ∈ new, h.Plain

/-- The books change in what bears on one execution. -/
structure Turn (e : Engine σ) (spared : String → Prop) (id : String) (x' : Execution)
    (s : Hold Execution) (b b' : Books) (s' : Hold Execution) : Prop where
  orderly : b'.ledger.Orderly
  others : ∀ other, other ≠ id → b'.record? other = b.record? other ∧
    b'.isActive other = b.isActive other ∧ s' other = s other
  journal : ∃ new, b'.journal = new ++ b.journal ∧ ∀ h ∈ new, h.isCall = false ∧
    ∀ other, other ≠ id → h.concerns other = false
  found : b'.record? id = some x'
  sound : Sound e spared id x' (b'.isActive id) b'.journal
  evolves : ∀ x, b.record? id = some x →
    Evolves spared id x (b.isActive id) x' (b'.isActive id) b'.journal
  /-- What the actor holds of it afterwards is borne out. -/
  mine : ∀ left, s' id = some left → Bears spared id left b'
  /-- An actor that does not hold it leaves it to those who do, and takes it only if it is new. -/
  yours : s id = none → (∀ left, Bears spared id left b → Bears spared id left b') ∧
    (s' id = none ∨ b.record? id = none)

/-- What a task can do to the books. It can let go of courses as well. -/
inductive Deed (e : Engine σ) (spared : String → Prop) :
    Hold Execution → Books → Books → Hold Execution → Prop
  | quiet {s s' : Hold Execution} {b b' : Books} (within : s'.Within s) (quiet : Quiet b b') :
      Deed e spared s b b' s'
  | call {s : Hold Execution} {b b' : Books} (id name : String) (parameters : Entries)
      (cleared : Cleared e b.ledger id name parameters b.journal) (ledger : b'.ledger = b.ledger)
      (journal : b'.journal = .called id name parameters :: b.journal) : Deed e spared s b b' s
  | turn {s s' : Hold Execution} {b b' : Books} (id : String) (x' : Execution)
      (turn : Turn e spared id x' s b b' s') : Deed e spared s b b' s'

/-- A tool is called directly after the journal tells of it. -/
def Allows (b : Books) : Errand → Prop
  | .tool name parameters => ∃ id earlier, b.journal = .called id name parameters :: earlier
  | .observer .. => True

end Books

/-- The protocol of an engine. -/
def Engine.conduct (e : Engine σ) (spared : String → Prop) : Protocol where
  Course := Execution
  Valid := Books.Valid e spared
  Bears := Books.Bears spared
  Deed := Books.Deed e spared
  Later := Books.Later spared
  Allows errand b := b.Allows errand

namespace Books

variable {e : Engine σ} {spared : String → Prop} {b b' b'' : Books} {s s' : Hold Execution}
  {id : String} {x' left : Execution}

theorem Later.refl (spared : String → Prop) (b : Books) : Later spared b b :=
  ⟨⟨[], rfl⟩, fun id x found => ⟨x, found, .refl spared id x _ _⟩⟩

theorem Later.trans (first : Later spared b b') (second : Later spared b' b'') :
    Later spared b b'' := by
  obtain ⟨new, journal⟩ := first.journal
  obtain ⟨new', journal'⟩ := second.journal
  refine ⟨⟨new' ++ new, by rw [journal', journal, List.append_assoc]⟩, fun id x found => ?_⟩
  obtain ⟨x', found', evolves⟩ := first.records id x found
  obtain ⟨x'', found'', evolves'⟩ := second.records id x' found'
  rw [journal'] at evolves' ⊢
  exact ⟨x'', found'', evolves.trans evolves'⟩

/-- A course stays borne out while record and endings stay. -/
theorem Bears.congr (bears : Bears spared id left b) (record : b'.record? id = b.record? id)
    (ended : endings id b'.journal = endings id b.journal) : Bears spared id left b' := by
  obtain ⟨x, found, known⟩ := bears
  exact ⟨x, record.trans found, by rw [ended]; exact known⟩

theorem Quiet.refl (b : Books) : Quiet b b :=
  ⟨fun orderly => orderly, fun _ => rfl, fun _ => rfl, [], rfl, fun _ member => nomatch member⟩

/-- A plain entry in the journal is quiet. -/
theorem Quiet.note (ledger : b'.ledger = b.ledger) {h : Happening}
    (journal : b'.journal = h :: b.journal) (plain : h.Plain) : Quiet b b' where
  orderly orderly := ledger ▸ orderly
  record? id := by rw [Books.record?, ledger, Books.record?]
  isActive id := by rw [Books.isActive, ledger, Books.isActive]
  journal := by
    refine ⟨[h], journal, fun h' member => ?_⟩
    obtain rfl := List.mem_singleton.mp member
    exact plain

/-! ## The laws -/

theorem Quiet.silent (quiet : Quiet b b') : ∃ new, b'.journal = new ++ b.journal ∧
    (∀ id, Silent id new) ∧ ∀ h ∈ new, h.isCall = false := by
  obtain ⟨new, journal, plain⟩ := quiet.journal
  exact ⟨new, journal, fun id h member => (plain h member).unconcerned id,
    fun h member => (plain h member).noCall⟩

/-- Nothing about an execution changes: its record, whether it is active, what is told of it. -/
private theorem later_of_same (record : ∀ id, b'.record? id = b.record? id)
    (active : ∀ id, b'.isActive id = b.isActive id) (journal : ∃ new, b'.journal = new ++ b.journal) :
    Later spared b b' := by
  refine ⟨journal, fun id x found => ⟨x, (record id).trans found, ?_⟩⟩
  rw [active id]
  exact .refl spared id x _ _

private theorem Valid.same (valid : Valid e spared b) (orderly : b'.ledger.Orderly)
    (record : ∀ id, b'.record? id = b.record? id) (active : ∀ id, b'.isActive id = b.isActive id)
    (new : List Happening) (journal : b'.journal = new ++ b.journal) (silent : ∀ id, Silent id new)
    (licensed : Licensed e b'.ledger b'.journal) : Valid e spared b' where
  orderly := orderly
  sound id x found := by
    rw [record id] at found
    rw [active id, journal]
    exact (valid.sound id x found).append (silent id)
  silent id absent := by
    rw [record id] at absent
    rw [journal]
    intro h member
    rcases List.mem_append.mp member with fresh | old
    · exact silent id h fresh
    · exact valid.silent id absent h old
  licensed := licensed

private theorem call_silent (id : String) (other name : String) (parameters : Entries) :
    Silent id [.called other name parameters] := by
  intro h member
  obtain rfl := List.mem_singleton.mp member
  rfl

theorem Turn.later (turn : Turn e spared id x' s b b' s') : Later spared b b' := by
  obtain ⟨new, journal, _⟩ := turn.journal
  refine ⟨⟨new, journal⟩, fun other x found => ?_⟩
  by_cases same : other = id
  · subst same
    exact ⟨x', turn.found, turn.evolves x found⟩
  · obtain ⟨record, active, _⟩ := turn.others other same
    refine ⟨x, record.trans found, ?_⟩
    rw [active]
    exact .refl spared other x _ _

theorem Turn.valid (turn : Turn e spared id x' s b b' s') (valid : Valid e spared b) :
    Valid e spared b' := by
  obtain ⟨new, journal, plain⟩ := turn.journal
  have silent (other : String) (different : other ≠ id) : Silent other new :=
    fun h member => (plain h member).2 other different
  refine ⟨turn.orderly, fun other x found => ?_, fun other absent => ?_, ?_⟩
  · by_cases same : other = id
    · subst same
      rw [turn.found] at found
      obtain rfl := Option.some.inj found
      exact turn.sound
    · obtain ⟨record, active, _⟩ := turn.others other same
      rw [record] at found
      rw [active, journal]
      exact (valid.sound other x found).append (silent other same)
  · by_cases same : other = id
    · subst same
      rw [turn.found] at absent
      cases absent
    · obtain ⟨record, _, _⟩ := turn.others other same
      rw [record] at absent
      rw [journal]
      intro h member
      rcases List.mem_append.mp member with fresh | old
      · exact silent other same h fresh
      · exact valid.silent other absent h old
  · rw [journal]
    refine Licensed.append (valid.licensed.mono fun other x found => ?_) fun h member =>
      (plain h member).1
    obtain ⟨x'', found', evolves⟩ := turn.later.records other x found
    exact ⟨x'', found', by rw [Execution.mode, evolves.metadata, Execution.mode]⟩

/-- Courses for other executions stay borne out. -/
theorem Turn.bears_other (turn : Turn e spared id x' s b b' s') {other : String}
    (different : other ≠ id) (bears : Bears spared other left b) : Bears spared other left b' := by
  obtain ⟨new, journal, plain⟩ := turn.journal
  have silent : Silent other new := fun h member => (plain h member).2 other different
  refine bears.congr (turn.others other different).1 ?_
  rw [journal]
  exact silent.endings

theorem Quiet.bears (quiet : Quiet b b') (bears : Bears spared id left b) : Bears spared id left b' := by
  obtain ⟨new, journal, silent, _⟩ := quiet.silent
  refine bears.congr (quiet.record? id) ?_
  rw [journal]
  exact (silent id).endings

/-- A call of a tool changes nothing that bears a course out. -/
theorem bears_called {other name : String} {parameters : Entries} (ledger : b'.ledger = b.ledger)
    (journal : b'.journal = .called other name parameters :: b.journal)
    (bears : Bears spared id left b) : Bears spared id left b' := by
  refine bears.congr ?_ ?_
  · rw [Books.record?, ledger, Books.record?]
  · rw [journal, endings_cons]
    rfl

section

variable {t : Hold Execution} (turn : Turn e spared id x' s b b' s') (apart : s.Apart t)
  (backs : ∀ other left, t other = some left → Bears spared other left b)
include turn apart backs

/-- Another task can hold the execution of a turn only if the actor does not, and then keeps it apart. -/
theorem Turn.stays_apart : s'.Apart t := by
  intro other
  by_cases same : other = id
  · subst same
    rcases apart other with free | free
    · rcases (turn.yours free).2 with still | new
      · exact .inl still
      · right
        cases held : t other with
        | none => rfl
        | some left =>
          obtain ⟨x, found, _⟩ := backs other left held
          rw [new] at found
          cases found
    · exact .inr free
  · rw [(turn.others other same).2.2]
    exact apart other

theorem Turn.backs_apart (other : String) (left : Execution) (held : t other = some left) :
    Bears spared other left b' := by
  by_cases same : other = id
  · subst same
    rcases apart other with free | free
    · exact (turn.yours free).1 left (backs other left held)
    · rw [free] at held
      cases held
  · exact turn.bears_other same (backs other left held)

end

theorem Deed.later (deed : Deed e spared s b b' s') : Later spared b b' := by
  cases deed with
  | quiet within quiet =>
    obtain ⟨new, journal, _⟩ := quiet.silent
    exact later_of_same quiet.record? quiet.isActive ⟨new, journal⟩
  | call id name parameters cleared ledger journal =>
    refine later_of_same (fun id => ?_) (fun id => ?_) ⟨[_], journal⟩
    · rw [Books.record?, ledger, Books.record?]
    · rw [Books.isActive, ledger, Books.isActive]
  | turn id x' turn => exact turn.later

theorem Deed.valid (deed : Deed e spared s b b' s') (valid : Valid e spared b) :
    Valid e spared b' := by
  cases deed with
  | quiet within quiet =>
    obtain ⟨new, journal, silent, noCalls⟩ := quiet.silent
    refine valid.same (quiet.orderly valid.orderly) quiet.record? quiet.isActive new journal silent ?_
    rw [journal]
    refine Licensed.append (valid.licensed.mono fun id x found => ?_) noCalls
    exact ⟨x, (quiet.record? id).trans found, rfl⟩
  | call id name parameters cleared ledger journal =>
    refine valid.same (ledger ▸ valid.orderly) (fun other => ?_) (fun other => ?_)
      [.called id name parameters] journal (fun other => call_silent other id name parameters) ?_
    · rw [Books.record?, ledger, Books.record?]
    · rw [Books.isActive, ledger, Books.isActive]
    · rw [ledger, journal]
      exact ⟨cleared, valid.licensed⟩
  | turn id x' turn => exact turn.valid valid

end Books

/-- The protocol of an engine is lawful. -/
theorem Engine.conduct_lawful (e : Engine σ) (spared : String → Prop) :
    (e.conduct spared).Lawful where
  later_refl := Books.Later.refl spared
  later_trans := Books.Later.trans
  rest s b := .quiet (.refl s) (.refl b)
  later _ deed := deed.later
  stands := by
    intro s b b' s' stands deed
    refine ⟨deed.valid stands.valid, fun other left held => ?_⟩
    cases deed with
    | quiet within quiet => exact quiet.bears (stands.backs other left (within other left held))
    | call id name parameters cleared ledger journal =>
      exact Books.bears_called ledger journal (stands.backs other left held)
    | turn id x' turn =>
      by_cases same : other = id
      · subst same
        exact turn.mine left held
      · rw [(turn.others other same).2.2] at held
        exact turn.bears_other same (stands.backs other left held)
  frame := by
    intro s b b' s' t stands deed apart backs
    cases deed with
    | quiet within quiet =>
      exact ⟨within.apart apart, fun other left held => quiet.bears (backs other left held)⟩
    | call id name parameters cleared ledger journal =>
      exact ⟨apart, fun other left held => Books.bears_called ledger journal (backs other left held)⟩
    | turn id x' turn => exact ⟨turn.stays_apart apart backs, turn.backs_apart apart backs⟩

end Runbook
