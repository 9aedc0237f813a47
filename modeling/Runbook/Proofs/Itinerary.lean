import Runbook.World

/-! # The way of an execution

What the journal tells of an execution's driver are moves: it begins, each step is announced as started,
may be entered and has its result told, and at last the execution completes or fails, or its time is found
to be used up. `Leg.after` is the automaton of these moves, and `leg` is where the moves of a journal lead.
A journal is in order if they lead anywhere; then an execution whose time was used up does not complete,
and unless another step is announced as started at most one more step is entered, which is the one that
is announced.
-/

namespace Runbook

/-- A move of an execution's driver. -/
inductive Move
  | begins
  /-- A step is announced as started. -/
  | starts (index : Int)
  /-- The interpreter is entered for a step. -/
  | enters (index : Int)
  /-- The result of a step is announced. -/
  | tells (index : Int)
  /-- The time is used up before a step. -/
  | expires (index : Int)
  | completes
  | fails
  deriving DecidableEq

/-- Where an execution's driver is. -/
inductive Leg
  /-- It has not begun. -/
  | waiting
  /-- No step is under way, and the next one would be this. -/
  | between (next : Int)
  /-- A step has been announced as started. -/
  | announced (index : Int)
  /-- A step is with the interpreter. -/
  | within (index : Int)
  /-- The time is used up. -/
  | spent
  /-- It has ended. -/
  | closed
  deriving DecidableEq

/-- Where a move leads, if it can be made. -/
def Leg.after : Leg → Move → Option Leg
  | waiting, .begins => some (between 0)
  | between next, .starts index => if index = next then some (announced index) else none
  | announced current, .enters index => if index = current then some (within index) else none
  | announced current, .tells index => if index = current then some (between (index + 1)) else none
  | within current, .tells index => if index = current then some (between (index + 1)) else none
  | between next, .expires index => if index = next then some spent else none
  | between _, .completes => some closed
  | between _, .fails => some closed
  | spent, .fails => some closed
  | _, _ => none

/-- The move that the announcement of an event is. -/
def Event.move? : Event → Option Move
  | .started _ => some .begins
  | .stepStarted _ _ index => some (.starts index)
  | .stepCompleted _ _ index _ | .stepFailed _ _ index _ => some (.tells index)
  | .completed _ => some .completes
  | .failed _ => some .fails
  | .manual .. | .cancelled _ => none

/-- The move of an execution that an entry tells of. -/
def Happening.move? (id : String) : Happening → Option Move
  | .announced event _ => if event.execution = id then event.move? else none
  | .entered other index => if other = id then some (.enters index) else none
  | .expired other index _ => if other = id then some (.expires index) else none
  | _ => none

/-- The moves of an execution, newest first. -/
def moves (id : String) (journal : List Happening) : List Move := journal.filterMap (·.move? id)

/-- Where moves lead from a leg, the newest move first. -/
def Leg.along (l : Leg) : List Move → Option Leg
  | [] => some l
  | move :: earlier => (l.along earlier).bind (·.after move)

/-- Where the moves that the journal tells of have led an execution's driver. -/
def leg (id : String) (journal : List Happening) : Option Leg := Leg.waiting.along (moves id journal)

/-- No step of the execution was announced as started after a cancellation had found it. -/
def Heeds (id : String) : List Happening → Prop
  | [] => True
  | h :: earlier => (∀ index, h.move? id = some (.starts index) → .cancelled id ∉ earlier) ∧ Heeds id earlier

/-! ## Moves of a journal -/

variable {id : String} {h : Happening} {new journal : List Happening} {move : Move} {l l' : Leg}
  {made : List Move}

theorem moves_append (id : String) (new journal : List Happening) :
    moves id (new ++ journal) = moves id new ++ moves id journal :=
  List.filterMap_append

theorem moves_eq_nil (still : ∀ h ∈ new, h.move? id = none) : moves id new = [] :=
  List.filterMap_eq_nil_iff.mpr still

theorem moves_cons_some (known : h.move? id = some move) : moves id (h :: journal) = move :: moves id journal :=
  List.filterMap_cons_some known

theorem Leg.along_append (l : Leg) (new made : List Move) :
    l.along (new ++ made) = (l.along made).bind (·.along new) := by
  induction new with
  | nil => simp [along]
  | cons move earlier ih => simp [along, ih, Option.bind_assoc]

theorem leg_append (id : String) (new journal : List Happening) :
    leg id (new ++ journal) = (leg id journal).bind (·.along (moves id new)) := by
  rw [leg, moves_append, Leg.along_append]
  rfl

theorem leg_still (still : ∀ h ∈ new, h.move? id = none) : leg id (new ++ journal) = leg id journal := by
  rw [leg_append, moves_eq_nil still]
  exact Option.bind_fun_some _

theorem leg_cons_some (known : h.move? id = some move) :
    leg id (h :: journal) = (leg id journal).bind (·.after move) := by
  rw [leg, moves_cons_some known]
  rfl

/-! ## What a way rules out -/

/-- The steps that the interpreter was entered for, newest first. -/
def entries (made : List Move) : List Int :=
  made.filterMap fun
    | .enters index => some index
    | _ => none

theorem entries_append (made later : List Move) : entries (later ++ made) = entries later ++ entries made :=
  List.filterMap_append

theorem Leg.starts_of_after {index : Int} (leads : l.after move = some (announced index)) :
    move = .starts index := by
  unfold after at leads
  split at leads <;> grind

theorem Leg.announced_of_enters {index : Int} (leads : l.after (.enters index) = some l') :
    l = announced index ∧ l' = within index := by
  unfold after at leads
  split at leads <;> grind

theorem Leg.between_of_starts {index : Int} (leads : l.after (.starts index) = some l') :
    l = between index ∧ l' = announced index := by
  cases l with
  | between next =>
    rw [Leg.after] at leads
    split at leads
    · next same =>
      obtain rfl := Option.some.inj leads
      exact ⟨same ▸ rfl, rfl⟩
    · cases leads
  | _ => cases leads

/-- The result that is told is that of the step that is under way. -/
theorem Leg.between_of_tells {index : Int} (leads : l.after (.tells index) = some l') :
    (l = announced index ∨ l = within index) ∧ l' = between (index + 1) := by
  cases l with
  | announced current | within current =>
    rw [Leg.after] at leads
    split at leads
    · next same =>
      obtain rfl := Option.some.inj leads
      subst same
      simp
    · cases leads
  | _ => cases leads

theorem Leg.not_starts_of_closed (leads : l.after move = some closed) (index : Int) : move ≠ .starts index := by
  rintro rfl
  unfold after at leads
  split at leads <;> grind

theorem Leg.between_of_expires {index : Int} (leads : l.after (.expires index) = some l') :
    l = between index ∧ l' = spent := by
  unfold after at leads
  split at leads <;> grind

theorem Leg.closed_of_after_completes (leads : l.after .completes = some l') : l' = closed := by
  unfold after at leads
  split at leads <;> grind

/-- As long as no step is announced as started, only the one that has been can be entered, and only once. -/
theorem Leg.entries_of_no_start (way : l.along made = some l') (noStart : ∀ index, .starts index ∉ made) :
    entries made = [] ∧ (∀ index, l' = announced index → l = announced index) ∨
      ∃ index, l = announced index ∧ entries made = [index] ∧ ∀ other, l' ≠ announced other := by
  induction made generalizing l' with
  | nil =>
    obtain rfl := Option.some.inj way
    exact .inl ⟨rfl, fun _ same => same⟩
  | cons move earlier ih =>
    obtain ⟨middle, before, leads⟩ := Option.bind_eq_some_iff.mp way
    have unannounced (other : Int) : l' ≠ announced other := by
      rintro rfl
      obtain rfl := starts_of_after leads
      exact noStart other List.mem_cons_self
    have known := ih before fun index member => noStart index (List.mem_cons_of_mem move member)
    cases move with
    | enters index =>
      obtain ⟨rfl, rfl⟩ := announced_of_enters leads
      obtain ⟨none, same⟩ | ⟨_, _, _, never⟩ := known
      · exact .inr ⟨index, same index rfl, by simpa [entries] using none, unannounced⟩
      · exact absurd rfl (never index)
    | _ =>
      obtain ⟨none, _⟩ | ⟨index, start, once, _⟩ := known
      · exact .inl ⟨by simpa [entries] using none, fun index same => absurd same (unannounced index)⟩
      · exact .inr ⟨index, start, by simpa [entries] using once, unannounced⟩

/-- After its completion an execution makes no move any more. -/
theorem Leg.closed_of_completes (way : l.along made = some l') (completes : .completes ∈ made) : l' = closed := by
  induction made generalizing l' with
  | nil => cases completes
  | cons move earlier ih =>
    obtain ⟨middle, before, leads⟩ := Option.bind_eq_some_iff.mp way
    rcases List.mem_cons.mp completes with rfl | completed
    · exact closed_of_after_completes leads
    · obtain rfl := ih before completed
      cases move <;> cases leads

/-- An execution whose time was used up does not complete. -/
theorem Leg.not_completes_of_expires {index : Int} (way : l.along made = some l')
    (expires : .expires index ∈ made) : .completes ∉ made ∧ (l' = spent ∨ l' = closed) := by
  induction made generalizing l' with
  | nil => cases expires
  | cons move earlier ih =>
    obtain ⟨middle, before, leads⟩ := Option.bind_eq_some_iff.mp way
    rcases List.mem_cons.mp expires with rfl | expired
    · obtain ⟨rfl, rfl⟩ := between_of_expires leads
      refine ⟨fun completes => ?_, .inl rfl⟩
      rcases List.mem_cons.mp completes with same | completed
      · cases same
      · cases closed_of_completes before completed
    · obtain ⟨never, rfl | rfl⟩ := ih before expired
      · cases move with
        | fails =>
          obtain rfl := Option.some.inj leads
          exact ⟨by simpa using never, .inr rfl⟩
        | _ => cases leads
      · cases move <;> cases leads

/-! ## Cancellations -/

theorem Heeds.append (heeds : Heeds id journal) (still : ∀ h ∈ new, ∀ index, h.move? id ≠ some (.starts index)) :
    Heeds id (new ++ journal) := by
  induction new with
  | nil => exact heeds
  | cons h rest ih =>
    constructor
    · intro index starts
      exact absurd starts (still h List.mem_cons_self index)
    · exact ih fun other member => still other (List.mem_cons_of_mem h member)

/-- After a cancellation no step is announced as started. -/
theorem Heeds.no_start (heeds : Heeds id (new ++ journal)) (cancelled : .cancelled id ∈ journal) (index : Int) :
    .starts index ∉ moves id new := by
  induction new with
  | nil => simp [moves]
  | cons h rest ih =>
    intro member
    obtain ⟨first, before⟩ := heeds
    obtain ⟨other, told, starts⟩ := List.mem_filterMap.mp member
    rcases List.mem_cons.mp told with rfl | later
    · exact first index starts (List.mem_append_right rest cancelled)
    · exact ih before (List.mem_filterMap.mpr ⟨other, later, starts⟩)

end Runbook
