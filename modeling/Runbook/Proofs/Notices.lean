import Runbook.Proofs.Headway
import Runbook.Proofs.Manning

/-! # Manual steps are told of within their step

Operators are told of manual steps by whoever interprets them: by the driver of the execution, or by a
branch that the driver has to wait for. Between the beginning and the end of the interpretation the driver
makes no move, and so the moves of the execution have led into the step that the manual step belongs to.
-/

namespace Runbook

open Machine

variable {σ : Type} {e : Engine σ} {host : Host σ} {m m' : Machine σ} {roster roster' : Roster} {w w' : World σ}
  {t : TaskId} {d d' : Duty} {id : String} {index : Int} {h : Happening} {new journal : List Happening}

/-! ## The journal -/

/-- The execution and the step that an operator is told of. -/
def Happening.notice? : Happening → Option (String × Int)
  | .announced (.manual id _ index _ _) _ => some (id, index)
  | _ => none

/-- Operators were told of manual steps of an execution only while it was in the step that they belong to. -/
def Punctual (id : String) : List Happening → Prop
  | [] => True
  | h :: earlier => (∀ index, h.notice? = some (id, index) → leg id earlier = some (.within index)) ∧
    Punctual id earlier

/-- Whoever tells of a manual step makes no move. -/
theorem Happening.notice_of_move {move : Move} (moves : h.move? id = some move) : h.notice? = none := by
  cases h with
  | announced event record =>
    cases event with
    | manual => simp [Happening.move?, Event.move?] at moves
    | _ => rfl
  | _ => rfl

theorem Punctual.append (punctual : Punctual id journal) (quiet : ∀ h ∈ new, h.notice? = none) :
    Punctual id (new ++ journal) := by
  induction new with
  | nil => exact punctual
  | cons h rest ih =>
    refine ⟨fun index told => ?_, ih fun other member => quiet other (List.mem_cons_of_mem h member)⟩
    cases (quiet h List.mem_cons_self).symm.trans told

/-- Where the moves have led does not depend on entries that make no move. -/
theorem leg_cons_none (still : h.move? id = none) : leg id (h :: journal) = leg id journal := by
  rw [leg, moves, List.filterMap_cons_none still]
  rfl

theorem leg_of_enters {l : Leg} (moves : h.move? id = some (.enters index)) (way : leg id (h :: journal) = some l) :
    leg id (h :: journal) = some (.within index) := by
  rw [way]
  rw [leg_cons_some moves] at way
  obtain ⟨_, _, leads⟩ := Option.bind_eq_some_iff.mp way
  rw [(Leg.announced_of_enters leads).2]

/-! ## Acts -/

/-- What an act of a task tells: nothing of moves and manual steps, a manual step, or a move. -/
inductive Engine.Tale : Duty → World σ → Duty → World σ → Prop
  | still {d d' : Duty} {w w' : World σ} (new : List Happening) (journal : w'.journal = new ++ w.journal)
      (quiet : ∀ h ∈ new, (∀ id, h.move? id = none) ∧ h.notice? = none)
      (step : d'.step = none ∨ d'.step = d.step ∧ ∀ id, d'.Serves id → d.Serves id) : Tale d w d' w'
  | notice {d : Duty} {w w' : World σ} {id : String} {index : Int} {h : Happening}
      (journal : w'.journal = h :: w.journal) (notice : h.notice? = some (id, index))
      (still : ∀ other, h.move? other = none) (serves : d.Serves id) (step : d.step = some index) : Tale d w d w'
  | move {d d' : Duty} {w w' : World σ} {id : String} {h : Happening} {move : Move}
      (journal : w'.journal = h :: w.journal) (moves : h.move? id = some move)
      (only : ∀ other, other ≠ id → h.move? other = none) (quiet : h.notice? = none)
      (whose : d.drives = some id ∧ d.owes = [] ∧ d.step = none ∨ d.phase = .admitted id ∨ d.phase = .appointed id)
      (step : d'.step = none ∨ ∃ index, move = .enters index ∧ d'.step = some index ∧
        ∀ other, d'.Serves other → other = id) : Tale d w d' w'

namespace Engine

/-- An act that adds to the journal at most entries of other kinds. -/
theorem tale_still (new : List Happening) (journal : w'.journal = new ++ w.journal)
    (quiet : ∀ h ∈ new, (∀ id, h.move? id = none) ∧ h.notice? = none) : Tale d w d w' :=
  .still new journal quiet (.inr ⟨rfl, fun _ serves => serves⟩)

theorem tale_refl (journal : w'.journal = w.journal) : Tale d w d w' :=
  tale_still [] journal fun _ member => nomatch member

/-- The end of an execution by itself is a move of its driver, unless it was cancelled or cannot be timed. -/
theorem Ends.tale (steady : d.Steady) (drives : d.drives = some id) (free : d.step = none) {event : Event}
    (kind : event = .completed id ∨ event = .failed id) {change : World σ → Except Fault Bool × World σ}
    (ends : Ends id change) {x : Execution} (found : w.ledger.record? id = some x) :
    Tale d w d (w.announced event change).2 := by
  by_cases cancelled : x.status = .cancelled
  · rw [World.announced, ends.cancelled found cancelled]
    exact tale_refl rfl
  · obtain ⟨y, w', _, _, _, _, _, ⟨done, journal⟩ | ⟨⟨fault, done⟩, journal⟩⟩ := ends.ends found cancelled
    · rw [World.announced, done]
      obtain ⟨about, move, moves⟩ : event.execution = id ∧ ∃ move, event.move? = some move := by
        rcases kind with rfl | rfl <;> exact ⟨rfl, _, rfl⟩
      refine .move (congrArg (_ :: ·) journal) ((if_pos about).trans moves)
        (fun other different => if_neg (about ▸ different.symm)) ?_ (.inl ⟨drives, steady.owes, free⟩) (.inl free)
      rcases kind with rfl | rfl <;> rfl
    · rw [World.announced, done]
      refine tale_still [_] journal fun h member => ?_
      obtain rfl := List.mem_singleton.mp member
      exact ⟨fun _ => rfl, rfl⟩

theorem interrupt_tale {x : Execution} (found : w.ledger.record? id = some x) :
    Tale d w { d with phase := .closing } (interrupt id w).2 := by
  have same : ({ d with phase := .closing } : Duty).step = none ∨
      ({ d with phase := .closing } : Duty).step = d.step ∧
        ∀ id, Duty.Serves { d with phase := .closing } id → d.Serves id :=
    .inr ⟨rfl, fun _ serves => serves⟩
  unfold interrupt
  split
  · obtain ⟨y, _, status, _, done | ⟨fault, done⟩⟩ := finish_spec found
      (fun x => { x with error := .text "Execution task was cancelled" })
      ⟨rfl, rfl, rfl, rfl, rfl, rfl, rfl, rfl⟩ .cancelled
    · rw [done]
      exact .still [] rfl (fun _ member => nomatch member) same
    · rw [done]
      refine .still [_] rfl (fun h member => ?_) same
      obtain rfl := List.mem_singleton.mp member
      exact ⟨fun _ => rfl, rfl⟩
  · exact .still [] rfl (fun _ member => nomatch member) same

theorem retire_tale (e : Engine σ) (id : String) : Tale d w {} (e.retire id w) := by
  unfold retire
  split
  · refine .still [_] rfl (fun h member => ?_) (.inl rfl)
    obtain rfl := List.mem_singleton.mp member
    exact ⟨fun _ => rfl, rfl⟩
  · exact .still [] rfl (fun _ member => nomatch member) (.inl rfl)

theorem withdraw_tale (orderly : w.ledger.Orderly) (id : String) :
    Tale d w d (w.announced (.cancelled id) (e.withdraw id)).2 := by
  cases active : w.ledger.isActive id with
  | false =>
    rw [World.announced, withdraw_inactive e active]
    exact tale_refl rfl
  | true =>
    obtain ⟨x, found⟩ := orderly.recorded id active
    obtain ⟨y, w', _, _, _, ⟨done, _, journal⟩ | ⟨⟨fault, done⟩, _, journal⟩⟩ := withdraw_active e found active
    · rw [World.announced, done]
      refine tale_still [_, _, _] (congrArg (_ :: ·) journal) fun h member => ?_
      simp only [List.mem_cons, List.not_mem_nil, or_false] at member
      rcases member with rfl | rfl | rfl
      · refine ⟨fun other => ?_, rfl⟩
        simp [Happening.move?, Event.move?]
      · exact ⟨fun _ => rfl, rfl⟩
      · exact ⟨fun _ => rfl, rfl⟩
    · rw [World.announced, done]
      refine tale_still [_] journal fun h member => ?_
      obtain rfl := List.mem_singleton.mp member
      exact ⟨fun _ => rfl, rfl⟩

theorem Act.tale (act : e.Act d w d' w') (orderly : w.ledger.Orderly)
    (recorded : ∀ id, d.drives = some id → ∃ x, w.ledger.record? id = some x) : Tale d w d' w' := by
  have same {d' : Duty} (step : d'.step = d.step) (serves : ∀ id, d'.Serves id → d.Serves id)
      (journal : w'.journal = w.journal) : Tale d w d' w' :=
    .still [] journal (fun _ member => nomatch member) (.inr ⟨step, serves⟩)
  cases act with
  | stir steady stirs => exact tale_refl stirs.journal
  | note steady stirs h tells =>
    have journal := congrArg (h :: ·) stirs.journal
    cases tells with
    | aside idle =>
      refine tale_still [h] journal fun other member => ?_
      rw [List.mem_singleton.mp member]
      cases h <;> first | exact idle.elim | exact ⟨fun _ => rfl, rfl⟩
    | manual serves step body instructions token record =>
      refine .notice journal rfl (fun other => ?_) serves step
      simp [Happening.move?, Event.move?]
    | move drives free mere moves only =>
      exact .move journal moves only (Happening.notice_of_move moves) (.inl ⟨drives, steady.owes, free⟩) (.inl free)
    | enters drives free index =>
      refine .move journal (if_pos rfl) (fun other different => if_neg different.symm) rfl
        (.inl ⟨drives.1, steady.owes, free⟩) (.inr ⟨index, rfl, rfl, fun other serves => ?_⟩)
      rcases serves with drives' | works
      · exact Option.some.inj (drives'.symm.trans drives.1)
      · cases works.symm.trans drives.2
    | leaves body context outcome =>
      refine .still [_] journal (fun h member => ?_) (.inl rfl)
      obtain rfl := List.mem_singleton.mp member
      exact ⟨fun _ => rfl, rfl⟩
  | amend => exact tale_refl rfl
  | enroll steady workflow options =>
    obtain ⟨fault, refused, _, journal⟩ | ⟨id, x, granted, _, _, _, journal, _⟩ :=
      e.enroll_cases orderly workflow options
    · rw [refused]
      exact tale_refl journal
    · rw [granted]
      refine .still [_] journal (fun h member => ?_) (.inr ⟨rfl, fun _ serves => serves⟩)
      obtain rfl := List.mem_singleton.mp member
      exact ⟨fun _ => rfl, rfl⟩
  | keep => exact same rfl (fun _ serves => serves) rfl
  | begin id phase free =>
    exact .move rfl (if_pos rfl) (fun other different => if_neg different.symm) rfl (.inr phase) (.inl rfl)
  | finish steady id drives free event kind change ends =>
    obtain ⟨x, found⟩ := recorded id drives
    exact ends.tale steady drives free kind found
  | interrupt id drives =>
    obtain ⟨x, found⟩ := recorded id drives
    exact interrupt_tale found
  | retire id => exact retire_tale e id
  | withdraw steady id => exact withdraw_tale orderly id
  | opens => exact same rfl (fun _ serves => serves) rfl
  | takes => exact same rfl (fun _ serves => serves) rfl
  | gather => exact same rfl (fun _ serves => serves) (congrArg Books.journal (cancelBackground_books w))
  | clear =>
    refine tale_still [_] rfl fun h member => ?_
    obtain rfl := List.mem_singleton.mp member
    exact ⟨fun _ => rfl, rfl⟩

end Engine

/-! ## Tasks in a step -/

/-- Whoever interprets a step of an execution does so while the execution is in that step. -/
def Engaged (roster : Roster) (w : World σ) : Prop :=
  ∀ t d id index, roster t = some d → d.Serves id → d.step = some index →
    leg id w.journal = some (.within index)

/-- Only whoever tells of a move can be interpreting a step of the execution. -/
theorem Staffed.mover (staffed : Staffed roster w) (found : roster t = some d)
    (whose : d.drives = some id ∧ d.owes = [] ∧ d.step = none ∨ d.phase = .admitted id ∨ d.phase = .appointed id) :
    ∀ s d₁, roster s = some d₁ → d₁.Serves id → s = t ∧ d₁.step = none := by
  intro s d₁ found₁ serves
  rcases whose with ⟨drives, owes, free⟩ | pending
  · obtain rfl := staffed.alone found drives owes s d₁ found₁ serves
    obtain rfl : d₁ = d := Option.some.inj (found₁.symm.trans found)
    exact ⟨rfl, free⟩
  · exact absurd (staffed.serving s d₁ id found₁ serves).2.1 (staffed.pending t d id found pending).2.1

namespace Engaged

theorem act (engaged : Engaged roster w) (staffed : Staffed roster w) (found : roster t = some d)
    (tale : Engine.Tale d w d' w') (way : ∀ id, ∃ l, leg id w'.journal = some l)
    (punctual : ∀ id, Punctual id w.journal) :
    Engaged (roster.put t d') w' ∧ ∀ id, Punctual id w'.journal := by
  cases tale with
  | still new journal quiet step =>
    have same (id : String) : leg id w'.journal = leg id w.journal :=
      journal ▸ leg_still fun h member => (quiet h member).1 id
    refine ⟨fun s d₁ id index found₁ serves at₁ => ?_, fun id => ?_⟩
    · rw [same]
      rcases Roster.put_some found₁ with ⟨rfl, rfl⟩ | ⟨_, found₁⟩
      · rcases step with free | ⟨step, kept⟩
        · cases free.symm.trans at₁
        · exact engaged s d id index found (kept id serves) (step ▸ at₁)
      · exact engaged s d₁ id index found₁ serves at₁
    · rw [journal]
      exact (punctual id).append fun h member => (quiet h member).2
  | notice journal notice still serves step =>
    have same (id : String) : leg id w'.journal = leg id w.journal := journal ▸ leg_cons_none (still id)
    refine ⟨fun s d₁ id index found₁ serves₁ at₁ => ?_, fun id => ?_⟩
    · rw [same]
      rcases Roster.put_some found₁ with ⟨rfl, rfl⟩ | ⟨_, found₁⟩
      · exact engaged s _ id index found serves₁ at₁
      · exact engaged s d₁ id index found₁ serves₁ at₁
    · rw [journal]
      refine ⟨fun index told => ?_, punctual id⟩
      obtain ⟨rfl, rfl⟩ := Prod.mk.inj (Option.some.inj (notice.symm.trans told))
      exact engaged t _ _ _ found serves step
  | @move _ _ _ id h move journal moves only quiet whose step =>
    refine ⟨fun s d₁ other index found₁ serves₁ at₁ => ?_, fun id => ?_⟩
    · by_cases same : other = id
      · subst same
        rcases Roster.put_some found₁ with ⟨rfl, rfl⟩ | ⟨different, found₁⟩
        · obtain free | ⟨_, rfl, step, _⟩ := step
          · cases free.symm.trans at₁
          · obtain rfl := Option.some.inj (step.symm.trans at₁)
            obtain ⟨l, led⟩ := way other
            rw [journal] at led ⊢
            exact leg_of_enters moves led
        · exact absurd (staffed.mover found whose s d₁ found₁ serves₁).1 different
      · rw [journal, leg_cons_none (only other same)]
        rcases Roster.put_some found₁ with ⟨rfl, rfl⟩ | ⟨_, found₁⟩
        · obtain free | ⟨_, _, _, sole⟩ := step
          · cases free.symm.trans at₁
          · exact absurd (sole other serves₁) same
        · exact engaged s d₁ other index found₁ serves₁ at₁
    · rw [journal]
      refine ⟨fun index told => ?_, punctual id⟩
      cases quiet.symm.trans told

/-- A task that is created works in the step that its creator is in, or in none. -/
theorem hires (engaged : Engaged roster w) (found : roster t = some d) {child : TaskId} {given : Duty}
    (hires : d.Hires child given d') (journal : w'.journal = w.journal) :
    Engaged ((roster.put t d').put child given) w' := by
  intro s d₁ id index found₁ serves at₁
  rw [journal]
  have stays (step : d'.step = d.step) (kept : d'.Serves id → d.Serves id)
      (found₁ : roster.put t d' s = some d₁) : leg id w.journal = some (.within index) := by
    rcases Roster.put_some found₁ with ⟨rfl, rfl⟩ | ⟨_, found₁⟩
    · exact engaged s d id index found (kept serves) (step ▸ at₁)
    · exact engaged s d₁ id index found₁ serves at₁
  rcases Roster.put_some found₁ with ⟨rfl, rfl⟩ | ⟨_, found₂⟩
  · cases hires with
    | aide => cases at₁
    | driver => cases at₁
    | branch other at₀ phase mine step =>
      obtain rfl : other = id := by
        rcases serves with drives | works
        · cases drives
        · exact Option.some.inj works
      obtain rfl := Option.some.inj at₁
      exact engaged t d other at₀ found mine step
  · cases hires with
    | aide => exact stays rfl (fun serves => serves) found₂
    | driver => exact stays rfl (fun serves => serves) found₂
    | branch => exact stays rfl (fun serves => serves) found₂

theorem shift (engaged : Engaged roster w) (staffed : Staffed roster w) (shift : e.Shift roster w roster' w')
    (way : ∀ id, ∃ l, leg id w'.journal = some l) (punctual : ∀ id, Punctual id w.journal) :
    Engaged roster' w' ∧ ∀ id, Punctual id w'.journal := by
  cases shift with
  | act task d d' found ledger fit act =>
    exact engaged.act staffed found (act.tale ledger fun id => staffed.recorded found) way punctual
  | hire task d given d' found old new hires => exact ⟨engaged.hires found hires rfl, punctual⟩
  | visit =>
    refine ⟨fun s d₁ id index found₁ serves at₁ => ?_, punctual⟩
    rcases Roster.put_some found₁ with ⟨rfl, rfl⟩ | ⟨_, found₁⟩
    · cases at₁
    · exact engaged s d₁ id index found₁ serves at₁
  | rest task d found ended passes =>
    refine ⟨fun s d₁ id index found₁ serves at₁ => ?_, fun id => passes.journal ▸ punctual id⟩
    rw [passes.journal]
    rcases Roster.put_some found₁ with ⟨rfl, rfl⟩ | ⟨_, found₁⟩
    · exact engaged s d id index found serves at₁
    · exact engaged s d₁ id index found₁ serves at₁
  | quit task d found =>
    exact ⟨fun s d₁ id index found₁ => engaged s d₁ id index (Roster.drop_some found₁).2, punctual⟩
  | pass passes =>
    refine ⟨fun s d₁ id index found₁ serves at₁ => ?_, fun id => passes.journal ▸ punctual id⟩
    rw [passes.journal]
    exact engaged s d₁ id index found₁ serves at₁
  | forget => exact ⟨engaged, punctual⟩

end Engaged

/-- However an engine is used, operators are told of a manual step only while its execution is in the step. -/
theorem Machine.Arises.punctual (arises : Arises e host m) : ∀ id, Punctual id m.world.journal := by
  have holds : ∃ roster, m.Manned e roster ∧ Engaged roster m.world ∧ ∀ id, Punctual id m.world.journal := by
    refine arises.holds (I := fun roster m => Engaged roster m.world ∧ ∀ id, Punctual id m.world.journal)
      (fun m pristine => ?_) fun roster m roster' m' arises manned both step shift _ => ?_
    · exact ⟨fun _ _ _ _ found => (nomatch found), fun id => by rw [pristine.journal]; trivial⟩
    · have reachable := (arises.run (.next (.refl m) step)).reachable
      exact both.1.shift manned.staffed shift (reachable.way host.spares_nothing) both.2
  obtain ⟨_, _, _, punctual⟩ := holds
  exact punctual

end Runbook
