import Runbook.Engine

/-! # What the journal tells about an execution

An execution has an ending when its completion or failure is announced, and a farewell when its
cancellation is. A farewell after an ending is belated. Only a few kinds of entries concern an execution
in this way; all others leave every count and every order as they are.
-/

namespace Runbook

namespace Happening

/-- It tells that an execution completed or failed. -/
def isEnding (id : String) : Happening → Bool
  | .announced (.completed other) _ => other == id
  | .announced (.failed other) _ => other == id
  | _ => false

/-- It tells that an execution was cancelled. -/
def isFarewell (id : String) : Happening → Bool
  | .announced (.cancelled other) _ => other == id
  | _ => false

/-- It bears on the fate of an execution. -/
def concerns (id : String) : Happening → Bool
  | .admitted other _ _ => other == id
  | .announced (.completed other) _ => other == id
  | .announced (.failed other) _ => other == id
  | .announced (.cancelled other) _ => other == id
  | .cancelled other => other == id
  | .untimed other => other == id
  | _ => false

/-- It tells of a call of a tool. -/
def isCall : Happening → Bool
  | .called .. => true
  | _ => false

/-- What is to be known of an admission, if it tells of one. -/
def admission? {α : Type} (f : String → Workflow → Options → α) : Happening → Option α
  | .admitted id workflow options => some (f id workflow options)
  | _ => none

/-- It bears on the fate of no execution, and tells of no call. -/
structure Plain (h : Happening) : Prop where
  unconcerned : ∀ id, h.concerns id = false
  noCall : h.isCall = false

theorem exists_admitted {α : Type} {journal : List Happening} {a : α} (f : String → Workflow → Options → α)
    (first : journal.findSome? (admission? f) = some a) :
    ∃ id workflow options, .admitted id workflow options ∈ journal ∧ f id workflow options = a := by
  obtain ⟨h, told, known⟩ := List.exists_of_findSome?_eq_some first
  unfold admission? at known
  split at known
  · exact ⟨_, _, _, told, Option.some.inj known⟩
  · cases known

theorem concerns_of_isEnding {id : String} {h : Happening} (ending : h.isEnding id = true) :
    h.concerns id = true := by
  unfold isEnding at ending
  split at ending
  · exact ending
  · exact ending
  · cases ending

theorem concerns_of_isFarewell {id : String} {h : Happening} (farewell : h.isFarewell id = true) :
    h.concerns id = true := by
  unfold isFarewell at farewell
  split at farewell
  · exact farewell
  · cases farewell

end Happening

open Happening

/-- How often it was announced that an execution completed or failed. -/
def endings (id : String) (journal : List Happening) : Nat := journal.countP (·.isEnding id)

/-- How often it was announced that an execution was cancelled. -/
def farewells (id : String) (journal : List Happening) : Nat := journal.countP (·.isFarewell id)

/-- The cancellation of an execution was announced after its completion or failure. -/
def Belated (id : String) (journal : List Happening) : Prop :=
  ∃ later record earlier, journal = later ++ .announced (.cancelled id) record :: earlier ∧
    0 < endings id earlier

variable {id : String} {new journal : List Happening}

/-- None of the entries bears on the fate of an execution. -/
def Silent (id : String) (new : List Happening) : Prop := ∀ h ∈ new, h.concerns id = false

theorem silent_nil (id : String) : Silent id [] := fun _ member => nomatch member

theorem Silent.endings (silent : Silent id new) :
    endings id (new ++ journal) = endings id journal := by
  have none : new.countP (·.isEnding id) = 0 := by
    refine List.countP_eq_zero.mpr fun h member ending => ?_
    have quiet := silent h member
    rw [concerns_of_isEnding ending] at quiet
    cases quiet
  rw [Runbook.endings, List.countP_append, none, Nat.zero_add]
  rfl

theorem Silent.farewells (silent : Silent id new) :
    farewells id (new ++ journal) = farewells id journal := by
  have none : new.countP (·.isFarewell id) = 0 := by
    refine List.countP_eq_zero.mpr fun h member farewell => ?_
    have quiet := silent h member
    rw [concerns_of_isFarewell farewell] at quiet
    cases quiet
  rw [Runbook.farewells, List.countP_append, none, Nat.zero_add]
  rfl

/-- What concerns an execution is not among silent entries. -/
theorem Silent.mem_iff (silent : Silent id new) {h : Happening} (concerned : h.concerns id = true) :
    h ∈ new ++ journal ↔ h ∈ journal := by
  have absent : h ∉ new := fun member => by
    have quiet := silent h member
    rw [concerned] at quiet
    cases quiet
  simp [absent]

theorem endings_cons (id : String) (h : Happening) (journal : List Happening) :
    endings id (h :: journal) = endings id journal + if h.isEnding id then 1 else 0 :=
  List.countP_cons

theorem farewells_cons (id : String) (h : Happening) (journal : List Happening) :
    farewells id (h :: journal) = farewells id journal + if h.isFarewell id then 1 else 0 :=
  List.countP_cons

theorem endings_le_append (id : String) (new journal : List Happening) :
    endings id journal ≤ endings id (new ++ journal) := by
  rw [endings, endings, List.countP_append]
  exact Nat.le_add_left _ _

theorem Belated.append (belated : Belated id journal) (new : List Happening) :
    Belated id (new ++ journal) := by
  obtain ⟨later, record, earlier, rfl, ended⟩ := belated
  exact ⟨new ++ later, record, earlier, by rw [List.append_assoc], ended⟩

theorem Belated.endings (belated : Belated id journal) : 0 < endings id journal := by
  obtain ⟨later, record, earlier, rfl, ended⟩ := belated
  have grown := endings_le_append id (later ++ [.announced (.cancelled id) record]) earlier
  rw [List.append_assoc] at grown
  exact Nat.lt_of_lt_of_le ended grown

theorem Belated.farewells (belated : Belated id journal) : 0 < farewells id journal := by
  obtain ⟨later, record, earlier, rfl, _⟩ := belated
  refine List.countP_pos_iff.mpr ⟨.announced (.cancelled id) record, by simp, ?_⟩
  simp [isFarewell]

/-! ## Well-formed chronicles -/

/-- What the journal tells about one execution is in order: it ends and is bidden farewell at most once,
the farewell after the ending if there are both, an ending shows a record that has ended, and the
execution was admitted once. -/
structure Chronicle (id : String) (journal : List Happening) : Prop where
  endings : endings id journal ≤ 1
  farewells : farewells id journal ≤ 1
  belated : 0 < Runbook.endings id journal → 0 < Runbook.farewells id journal → Belated id journal
  shown : ∀ h ∈ journal, h.isEnding id = true → ∃ event y, h = .announced event (some y) ∧
    y.status ≠ .running ∧ y.status ≠ .cancelled
  once : ∀ workflow options workflow' options', .admitted id workflow options ∈ journal →
    .admitted id workflow' options' ∈ journal → workflow' = workflow ∧ options' = options

namespace Chronicle

theorem of_silent (silent : Silent id journal) : Chronicle id journal := by
  have noEnding : Runbook.endings id (journal ++ []) = Runbook.endings id [] := silent.endings
  have noFarewell : Runbook.farewells id (journal ++ []) = Runbook.farewells id [] := silent.farewells
  rw [List.append_nil] at noEnding noFarewell
  simp only [Runbook.endings, Runbook.farewells, List.countP_nil] at noEnding noFarewell
  refine ⟨by simp [Runbook.endings, noEnding], by simp [Runbook.farewells, noFarewell],
    fun ended => by simp [Runbook.endings, noEnding] at ended, fun h member ending => ?_, ?_⟩
  · have quiet := silent h member
    rw [concerns_of_isEnding ending] at quiet
    cases quiet
  · intro workflow options _ _ admitted _
    have quiet := silent _ admitted
    simp [concerns] at quiet

theorem append (chronicle : Chronicle id journal) (silent : Silent id new) :
    Chronicle id (new ++ journal) where
  endings := by
    rw [silent.endings]
    exact chronicle.endings
  farewells := by
    rw [silent.farewells]
    exact chronicle.farewells
  belated ended cancelled :=
    (chronicle.belated (silent.endings ▸ ended) (silent.farewells ▸ cancelled)).append new
  shown h member ending :=
    chronicle.shown h ((silent.mem_iff (concerns_of_isEnding ending)).mp member) ending
  once _ _ _ _ first second :=
    chronicle.once _ _ _ _ ((silent.mem_iff (by simp [concerns])).mp first)
      ((silent.mem_iff (by simp [concerns])).mp second)

/-- An entry that is no ending, farewell or admission changes nothing. -/
theorem cons {h : Happening} (chronicle : Chronicle id journal) (noEnding : h.isEnding id = false)
    (noFarewell : h.isFarewell id = false) (noAdmission : ∀ workflow options,
      h ≠ .admitted id workflow options) : Chronicle id (h :: journal) where
  endings := by simpa [endings_cons, noEnding] using chronicle.endings
  farewells := by simpa [farewells_cons, noFarewell] using chronicle.farewells
  belated ended cancelled := by
    rw [endings_cons, noEnding] at ended
    rw [farewells_cons, noFarewell] at cancelled
    exact (chronicle.belated (by simpa using ended) (by simpa using cancelled)).append [h]
  shown other member ending := by
    rcases List.mem_cons.mp member with rfl | old
    · rw [noEnding] at ending
      cases ending
    · exact chronicle.shown other old ending
  once workflow options workflow' options' first second := by
    rcases List.mem_cons.mp first with same | first
    · exact absurd same.symm (noAdmission _ _)
    · rcases List.mem_cons.mp second with same | second
      · exact absurd same.symm (noAdmission _ _)
      · exact chronicle.once _ _ _ _ first second

/-- The first announcement of an end, by a record that has ended. -/
theorem ending {event : Event} {y : Execution} (chronicle : Chronicle id journal)
    (kind : event = .completed id ∨ event = .failed id) (noEnding : Runbook.endings id journal = 0)
    (noFarewell : Runbook.farewells id journal = 0) (notRunning : y.status ≠ .running)
    (notCancelled : y.status ≠ .cancelled) :
    Chronicle id (.announced event (some y) :: journal) where
  endings := by
    rw [endings_cons, noEnding]
    split <;> omega
  farewells := by
    rw [farewells_cons, noFarewell]
    split <;> omega
  belated _ cancelled := by
    rw [farewells_cons, noFarewell] at cancelled
    rcases kind with rfl | rfl <;> simp [isFarewell] at cancelled
  shown h member ending := by
    rcases List.mem_cons.mp member with rfl | old
    · exact ⟨event, y, rfl, notRunning, notCancelled⟩
    · exact chronicle.shown h old ending
  once workflow options workflow' options' first second := by
    exact chronicle.once _ _ _ _ (by simpa using first) (by simpa using second)

/-- The first announcement of a cancellation, which is belated if there was an end before. -/
theorem farewell {record : Option Execution} (chronicle : Chronicle id journal)
    (noFarewell : Runbook.farewells id journal = 0) :
    Chronicle id (.announced (.cancelled id) record :: journal) where
  endings := by simpa [endings_cons, isEnding] using chronicle.endings
  farewells := by
    rw [farewells_cons, noFarewell]
    split <;> omega
  belated ended _ := ⟨[], record, journal, rfl, by simpa [endings_cons, isEnding] using ended⟩
  shown h member ending := by
    rcases List.mem_cons.mp member with rfl | old
    · simp [isEnding] at ending
    · exact chronicle.shown h old ending
  once workflow options workflow' options' first second := by
    exact chronicle.once _ _ _ _ (by simpa using first) (by simpa using second)

/-- An admission of an execution that nothing was told of before. -/
theorem admission {workflow : Workflow} {options : Options} (silent : Silent id journal) :
    Chronicle id (.admitted id workflow options :: journal) := by
  have none (w : Workflow) (o : Options) : .admitted id w o ∉ journal := by
    intro member
    have quiet := silent _ member
    simp [concerns] at quiet
  have chronicle := of_silent silent
  refine {
    endings := by simpa [endings_cons, isEnding] using chronicle.endings
    farewells := by simpa [farewells_cons, isFarewell] using chronicle.farewells
    belated := fun ended cancelled => ?_
    shown := fun h member ending => ?_
    once := fun w o w' o' first second => ?_ }
  · rw [endings_cons] at ended
    rw [farewells_cons] at cancelled
    exact (chronicle.belated (by simpa [isEnding] using ended)
      (by simpa [isFarewell] using cancelled)).append [_]
  · rcases List.mem_cons.mp member with rfl | old
    · simp [isEnding] at ending
    · exact chronicle.shown h old ending
  · rcases List.mem_cons.mp first with same | old
    · rcases List.mem_cons.mp second with same' | old'
      · cases same
        cases same'
        exact ⟨rfl, rfl⟩
      · exact absurd old' (none _ _)
    · exact absurd old (none _ _)

end Chronicle

end Runbook
