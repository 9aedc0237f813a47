import Runbook.Proofs.Capacity
import Runbook.Proofs.Hearing

/-! # The order of the history

The history shows executions in the order in which they were retired, newest first. That is not the order of
their ends: between the two a driver announces the end, and takes the time that the observers take. Meanwhile
another execution can run to its end and be retired, and then stands behind the one that ended first.
-/

namespace Runbook

open Machine

variable {σ : Type} {e : Engine σ} {host : Host σ} {m m' m₁ m₂ : Machine σ} {w w' : World σ} {d d' : Duty}
  {id first second : String} {journal new : List Happening}

/-! ## Two entries of a list -/

section Pairs

variable {α : Type} {a b : α} {l : List α}

/-- One of two entries comes first. -/
theorem pair_sublist_or (left : a ∈ l) (right : b ∈ l) (different : a ≠ b) :
    [a, b].Sublist l ∨ [b, a].Sublist l := by
  induction l with
  | nil => cases left
  | cons c rest ih =>
    rcases List.mem_cons.mp left with rfl | left'
    · exact .inl ((List.singleton_sublist.mpr ((List.mem_cons.mp right).resolve_left different.symm)).cons_cons a)
    · rcases List.mem_cons.mp right with rfl | right'
      · exact .inr ((List.singleton_sublist.mpr left').cons_cons b)
      · exact (ih left' right').imp (·.cons c) (·.cons c)

/-- And only one of them, if none is there twice. -/
theorem not_pair_sublist (nodup : l.Nodup) (ahead : [a, b].Sublist l) : ¬[b, a].Sublist l := by
  intro behind
  induction l with
  | nil => cases ahead
  | cons c rest ih =>
    obtain ⟨new, nodup⟩ := List.nodup_cons.mp nodup
    cases ahead with
    | cons _ ahead =>
      cases behind with
      | cons _ behind => exact ih nodup ahead behind
      | cons_cons _ behind => exact new (ahead.subset (by simp))
    | cons_cons _ ahead =>
      cases behind with
      | cons _ behind => exact new (behind.subset (by simp))
      | cons_cons _ behind => exact new (List.singleton_sublist.mp ahead)

end Pairs

/-! ## All that were ever retired -/

/-- The execution that was retired, if that is what is told. -/
def Happening.retiree? : Happening → Option String
  | .retired id => some id
  | _ => none

/-- The executions that were ever retired, newest first. -/
def retirees (journal : List Happening) : List String := journal.filterMap Happening.retiree?

theorem Happening.retiree?_eq_none {h : Happening} (keeps : h.KeepsHistory) : h.retiree? = none := by
  cases h <;> first | rfl | exact keeps.elim

theorem retirees_append (new journal : List Happening) : retirees (new ++ journal) = retirees new ++ retirees journal :=
  List.filterMap_append

theorem retirees_append_of_keeps (keeps : ∀ h ∈ new, h.KeepsHistory) :
    retirees (new ++ journal) = retirees journal := by
  have none : retirees new = [] := List.filterMap_eq_nil_iff.mpr fun h member =>
    Happening.retiree?_eq_none (keeps h member)
  rw [retirees_append, none, List.nil_append]

theorem count_retirees (id : String) (journal : List Happening) :
    (retirees journal).count id = retirements id journal := by
  rw [retirees, List.count_filterMap, retirements]
  refine List.countP_congr fun h _ => ?_
  cases h <;> simp [Happening.retiree?, Happening.isRetirement]

theorem retiredSince_sublist (journal : List Happening) : (retiredSince journal).Sublist (retirees journal) := by
  induction journal with
  | nil => exact .slnil
  | cons h rest ih =>
    cases h with
    | retired id => exact ih.cons_cons id
    | cleared => exact List.nil_sublist _
    | _ => exact ih

/-- At most one execution is retired in an act, and that one was active. -/
theorem Engine.Affair.retirees (affair : e.Affair d w d' w') :
    Runbook.retirees w'.journal = Runbook.retirees w.journal ∨ ∃ id, w.ledger.isActive id = true ∧
      Runbook.retirees w'.journal = id :: Runbook.retirees w.journal := by
  cases affair with
  | plain _ _ journal =>
    obtain ⟨new, journal, mere⟩ := journal
    exact .inl (journal ▸ retirees_append_of_keeps fun h member => (mere h member).keepsHistory)
  | admits _ _ _ _ _ _ _ _ journal | begins _ _ _ _ _ journal | ends _ _ _ _ _ _ _ _ _ journal
  | untimes _ _ _ _ _ journal | clears _ journal => exact .inl (journal ▸ rfl)
  | cuts _ _ _ _ _ _ journal => exact .inl (journal ▸ rfl)
  | retires id _ _ world =>
    rcases world with ⟨active, _, journal⟩ | ⟨_, _, journal⟩
    · exact .inr ⟨id, active, journal ▸ rfl⟩
    · exact .inl (journal ▸ rfl)
  | withdraws id active _ _ _ _ _ journal => exact .inr ⟨id, active, journal ▸ rfl⟩

namespace Machine.Arises

/-- Whoever was retired is on record and not active, and nobody else. -/
theorem mem_retirees (arises : Arises e host m) :
    id ∈ retirees m.world.journal ↔ m.world.Recorded id ∧ m.world.ledger.isActive id = false := by
  rw [← List.count_pos_iff, count_retirees]
  constructor
  · intro once
    by_contra other
    rw [not_and_or, Bool.not_eq_false] at other
    rw [arises.retired.never id other.symm] at once
    cases once
  · rintro ⟨recorded, inactive⟩
    rw [arises.retired.once id recorded inactive]
    exact Nat.one_pos

/-- An active execution was not retired yet. -/
theorem not_mem_retirees (arises : Arises e host m) (active : m.world.ledger.isActive id = true) :
    id ∉ retirees m.world.journal := by
  intro gone
  cases (arises.mem_retirees.mp gone).2.symm.trans active

/-- Whoever was retired has ended. -/
theorem hasEnded_of_mem_retirees (arises : Arises e host m) (gone : id ∈ retirees m.world.journal) :
    HasEnded id m.world.books := by
  obtain ⟨recorded, inactive⟩ := arises.mem_retirees.mp gone
  obtain ⟨x, found⟩ := Ledger.mem_admitted.mp recorded
  refine ⟨x, found, fun status => ?_⟩
  cases inactive.symm.trans ((arises.valid.sound id x found).enlisted status)

theorem retirees_nodup (arises : Arises e host m) : (retirees m.world.journal).Nodup :=
  List.nodup_iff_count_le_one.mpr fun id => count_retirees id _ ▸ arises.retired.at_most_once id

theorem history_sublist (arises : Arises e host m) :
    m.world.ledger.history.Sublist (retirees m.world.journal) := by
  rw [arises.retired.history]
  exact (Ledger.cut_sublist ..).trans (retiredSince_sublist _)

/-- At most one execution is retired in a step, and that one was active. -/
theorem retirees_step (arises : Arises e host m) (step : Machine.Step e host (fun _ => False) m m') :
    retirees m'.world.journal = retirees m.world.journal ∨ ∃ id, m.world.ledger.isActive id = true ∧
      retirees m'.world.journal = id :: retirees m.world.journal := by
  obtain ⟨roster, manned⟩ := arises.manned
  obtain ⟨_, shift, _⟩ := manned.step arises.valid step
  rcases shift.books fun t d id found => manned.staffed.recorded found with ⟨_, _, _, _, _, affair⟩ | ⟨_, journal⟩
  · exact affair.retirees
  · exact .inl (congrArg retirees journal)

/-- Whoever is retired later comes first. -/
theorem sublist_retirees (arises : Arises e host m) (run : Run e host (fun _ => False) m m')
    (gone : first ∈ retirees m.world.journal) (left : second ∉ retirees m.world.journal)
    (gone' : second ∈ retirees m'.world.journal) : [second, first].Sublist (retirees m'.world.journal) := by
  obtain ⟨new, journal⟩ := arises.reachable.grows host.spares_nothing run
  rw [journal, retirees_append] at gone' ⊢
  exact .append (List.singleton_sublist.mpr ((List.mem_append.mp gone').resolve_right left))
    (List.singleton_sublist.mpr gone)

/-- Whoever has been retired was retired in some step. -/
theorem exists_retirement (arises : Arises e host m) (run : Run e host (fun _ => False) m m')
    (left : id ∉ retirees m.world.journal) (gone : id ∈ retirees m'.world.journal) :
    ∃ m₁ m₂, Run e host (fun _ => False) m m₁ ∧ Machine.Step e host (fun _ => False) m₁ m₂ ∧
      Run e host (fun _ => False) m₂ m' ∧ m₁.world.ledger.isActive id = true ∧
      retirees m₂.world.journal = id :: retirees m₁.world.journal := by
  induction run with
  | refl => exact absurd gone left
  | @next m₂ m₃ before step ih =>
    by_cases earlier : id ∈ retirees m₂.world.journal
    · obtain ⟨m₀, m₁, first, retires, later, known⟩ := ih earlier
      exact ⟨m₀, m₁, first, retires, later.next step, known⟩
    · rcases (arises.run before).retirees_step step with same | ⟨other, active, more⟩
      · exact absurd (same ▸ gone) earlier
      · obtain rfl : id = other := (List.mem_cons.mp (more ▸ gone)).resolve_right earlier
        exact ⟨m₂, m₃, before, step, .refl m₃, active, more⟩

end Machine.Arises

/-! ## Overtaking -/

/-- On the way from one machine to the other the one execution is retired, while the other one lingers: it has
ended, and its end was told or nobody could tell how long it took. -/
def Machine.Overtakes (e : Engine σ) (host : Host σ) (second first : String) (m m' : Machine σ) : Prop :=
  ∃ m₁ m₂, Run e host (fun _ => False) m m₁ ∧ Machine.Step e host (fun _ => False) m₁ m₂ ∧
    Run e host (fun _ => False) m₂ m' ∧ m₁.world.ledger.isActive second = true ∧
    m₂.world.ledger.isActive second = false ∧ m₁.world.Lingers first ∧
    (0 < endings first m₁.world.journal ∨ .untimed first ∈ m₁.world.journal)

/-- If the next step of the machine is to retire an execution, no other one is retired in any step. -/
theorem Machine.Retires.alone (retires : m₁.Retires e host first) (active : m₁.world.ledger.isActive first = true)
    (step : Machine.Step e host (fun _ => False) m₁ m₂)
    (more : retirees m₂.world.journal = second :: retirees m₁.world.journal) : second = first := by
  have changed : m₂.world.journal ≠ m₁.world.journal := fun same => by simp [same] at more
  obtain ⟨next, taken, world⟩ := retires
  have same : m₂.world = next.world := by
    cases runs : m₁.running with
    | none => exact absurd (step.of_idle runs) changed
    | some turn =>
      obtain rfl := (step.of_running runs).resolve_right fun other => changed other.2
      rw [Option.some.inj ((step?_of_running runs).symm.trans taken)]
  rw [same, world, Engine.retire, if_pos active] at more
  exact (List.cons.inj more).1.symm

namespace Machine.Arises

theorem hasEnded_run (arises : Arises e host m) (run : Run e host (fun _ => False) m m')
    (ended : HasEnded id m.world.books) : HasEnded id m'.world.books :=
  hasEnded_lasting (e := e) id _ _ (arises.reachable.later host.spares_nothing run) ended

/-- An execution that has ended lingers until it is retired. -/
theorem lingers_or_mem_retirees (arises : Arises e host m) (ended : HasEnded id m.world.books) :
    m.world.Lingers id ∨ id ∈ retirees m.world.journal := by
  obtain ⟨x, found, status⟩ := ended
  have record : m.world.ledger.record? id = some x := found
  cases active : m.world.ledger.isActive id with
  | true => exact .inl ⟨active, by rw [Ledger.status?, record]; exact fun same => status (Option.some.inj same)⟩
  | false => exact .inr (arises.mem_retirees.mpr ⟨Ledger.mem_admitted.mpr ⟨x, record⟩, active⟩)

/-- An execution that ends after another one and is retired comes before it, or overtakes it. -/
theorem overtakes_or_sublist (arises : Arises e host m) (run : Run e host (fun _ => False) m m')
    (ended : HasEnded first m.world.books) (later : ¬HasEnded second m.world.books)
    (gone : second ∈ retirees m'.world.journal) :
    m.Overtakes e host second first m' ∨ [second, first].Sublist (retirees m'.world.journal) := by
  obtain ⟨m₁, m₂, before, step, after, active, more⟩ :=
    arises.exists_retirement run (mt arises.hasEnded_of_mem_retirees later) gone
  have arises₁ := arises.run before
  rcases arises₁.lingers_or_mem_retirees (arises.hasEnded_run before ended) with lingers | earlier
  · left
    have inactive : m₂.world.ledger.isActive second = false :=
      ((arises₁.run (.next (.refl m₁) step)).mem_retirees.mp (more ▸ List.mem_cons_self)).2
    refine ⟨m₁, m₂, before, step, after, active, inactive, lingers, ?_⟩
    rcases arises₁.lingers lingers with told | untimed | retires
    · exact .inl told
    · exact .inr untimed
    · obtain rfl := retires.alone lingers.1 step more
      exact absurd ended later
  · exact .inr (arises₁.sublist_retirees ((Run.next (.refl m₁) step).trans after) earlier
      (arises₁.not_mem_retirees active) gone)

/-- Whoever was overtaken is retired later, and comes first. -/
theorem sublist_of_overtakes (arises : Arises e host m) (different : first ≠ second)
    (overtakes : m.Overtakes e host second first m') (gone : first ∈ retirees m'.world.journal) :
    [first, second].Sublist (retirees m'.world.journal) := by
  obtain ⟨m₁, m₂, before, step, after, active, inactive, lingers, _⟩ := overtakes
  have arises₁ := arises.run before
  have arises₂ := arises₁.run (.next (.refl m₁) step)
  have kept : second ∉ retirees m₁.world.journal := arises₁.not_mem_retirees active
  have recorded : m₂.world.Recorded second :=
    arises₁.recorded (.next (.refl m₁) step) (Ledger.mem_admitted.mpr (arises₁.valid.orderly.recorded _ active))
  have retired : second ∈ retirees m₂.world.journal := arises₂.mem_retirees.mpr ⟨recorded, inactive⟩
  refine arises₂.sublist_retirees after retired (fun member => ?_) gone
  -- Only one execution is retired in the step, and the other one still lingers.
  rcases arises₁.retirees_step step with same | ⟨other, _, more⟩
  · exact kept (same ▸ retired)
  · rw [more, List.mem_cons] at retired member
    have lingering : first ∉ retirees m₁.world.journal := arises₁.not_mem_retirees lingers.1
    exact different ((member.resolve_right lingering).trans (retired.resolve_right kept).symm)

end Machine.Arises

/-! ## What the history shows -/

theorem Value.frontOf_sublist {α : Type} {xs front : List α} {limit : Value}
    (answer : Value.frontOf xs limit = .ok front) : front.Sublist xs := by
  unfold Value.frontOf at answer
  split at answer
  · cases answer
    exact .refl xs
  · split at answer
    · cases answer
      split <;> exact List.take_sublist ..
    · cases answer

namespace Machine.Arises

variable {limit : Value} {shown : List Execution} {x y : Execution}

/-- The history shows the record of each execution that it has. -/
theorem map_id_finished (arises : Arises e host m) :
    m.world.ledger.finished.map (·.id) = m.world.ledger.history.map Value.text := by
  rw [Ledger.finished, List.map_filterMap, ← List.filterMap_eq_map]
  refine List.filterMap_congr fun id kept => ?_
  obtain ⟨x, found⟩ := Ledger.mem_admitted.mp (arises.retired.of_mem_history kept).1
  rw [found, Option.map_some, (arises.valid.sound id x found).self]
  rfl

/-- The executions that are shown were retired, and stand in that order. -/
theorem shown_sublist (arises : Arises e host m) (answer : Engine.history m.world limit = .ok shown) :
    (shown.map (·.id)).Sublist ((retirees m.world.journal).map Value.text) :=
  ((Value.frontOf_sublist answer).map _).trans (arises.map_id_finished ▸ arises.history_sublist.map _)

/-- Whoever stands before another one was retired after it. -/
theorem sublist_of_shown (arises : Arises e host m) (answer : Engine.history m.world limit = .ok shown)
    (ahead : [x, y].Sublist shown) (named : x.id = .text first ∧ y.id = .text second) :
    [first, second].Sublist (retirees m.world.journal) := by
  have pair : [Value.text first, .text second].Sublist ((retirees m.world.journal).map Value.text) := by
    rw [← named.1, ← named.2]
    exact (ahead.map (·.id)).trans (arises.shown_sublist answer)
  obtain ⟨ids, listed, same⟩ := List.sublist_map_iff.mp pair
  obtain rfl : [first, second] = ids := List.map_injective_iff.mpr (fun _ _ => Value.text.inj) same
  exact listed

theorem mem_retirees_of_shown (arises : Arises e host m) (answer : Engine.history m.world limit = .ok shown)
    (listed : x ∈ shown) (named : x.id = .text id) : id ∈ retirees m.world.journal := by
  have member := (arises.shown_sublist answer).subset (List.mem_map_of_mem listed)
  obtain ⟨other, gone, same⟩ := List.mem_map.mp member
  obtain rfl := Value.text.inj (same.trans named)
  exact gone

end Machine.Arises

/-- Of two executions that the history shows, the one that ended later stands before the one that ended earlier,
unless it has overtaken it: unless it was retired while the earlier one still lingered, whose end had been told
to observers that had not all returned, or could not be timed. Then it stands behind it. -/
theorem later_end_first_unless_overtaken {limit : Value} {shown : List Execution} {x y : Execution}
    (arises : Arises e host m) (run : Run e host (fun _ => False) m m')
    (answer : Engine.history m'.world limit = .ok shown) (listed : x ∈ shown ∧ y ∈ shown)
    (named : x.id = .text second ∧ y.id = .text first)
    (ended : HasEnded first m.world.books) (later : ¬HasEnded second m.world.books) :
    ([x, y].Sublist shown ↔ ¬m.Overtakes e host second first m') ∧
    ([y, x].Sublist shown ↔ m.Overtakes e host second first m') := by
  have arises' := arises.run run
  have different : first ≠ second := by
    rintro rfl
    exact later ended
  have order : [x, y].Sublist shown ∨ [y, x].Sublist shown := by
    refine pair_sublist_or listed.1 listed.2 ?_
    rintro rfl
    exact different (Value.text.inj (named.2.symm.trans named.1))
  have misplaced (overtakes : m.Overtakes e host second first m') : ¬[x, y].Sublist shown := fun ahead =>
    not_pair_sublist arises'.retirees_nodup (arises'.sublist_of_shown answer ahead named)
      (arises.sublist_of_overtakes different overtakes (arises'.mem_retirees_of_shown answer listed.2 named.2))
  have only (behind : [y, x].Sublist shown) : m.Overtakes e host second first m' :=
    (arises.overtakes_or_sublist run ended later (arises'.mem_retirees_of_shown answer listed.1 named.1)).resolve_right
      (not_pair_sublist arises'.retirees_nodup (arises'.sublist_of_shown answer behind named.symm))
  exact ⟨⟨fun ahead overtakes => misplaced overtakes ahead, fun timely => order.resolve_right (mt only timely)⟩,
    only, fun overtakes => order.resolve_left (misplaced overtakes)⟩

/-- The observer of its completion takes a second for the first execution, and no time for any other one. -/
def holdingHost : Host Unit where
  tool _ _ := .done (.ok .null)
  observer _ event :=
    if event.execution = Engine.executionId 1 then .ask (.pause 1) fun _ => .done (.ok ()) else .done (.ok ())

/-- The machine while the observer takes its second. -/
def heldCompletion : Machine Unit :=
  (Machine.blank () (({} : Bus).subscribe .executionCompleted "watch")).executing openEngine holdingHost
    emptyWorkflow .null 30

/-- Meanwhile another execution has run to its end, and then the second is over. -/
def overtaken : Machine Unit :=
  let m := heldCompletion.executing openEngine holdingHost emptyWorkflow .null 30
  (m.elapse?.getD m).settle (holdingHost.service openEngine) 30

theorem heldCompletion_arises : Arises openEngine holdingHost heldCompletion := arises_executing ..

theorem heldCompletion_run : Run openEngine holdingHost (fun _ => False) heldCompletion overtaken :=
  ((run_executing ..).trans (run_elapse _)).trans (run_settle ..)

/-- While the observer takes its second the first execution has ended, and there is no other one. -/
theorem heldCompletion_ended : HasEnded (Engine.executionId 1) heldCompletion.world.books ∧
    ¬HasEnded (Engine.executionId 2) heldCompletion.world.books := by
  have completed : heldCompletion.world.ledger.status? (Engine.executionId 1) = some .completed := by decide +kernel
  have unknown : heldCompletion.world.ledger.status? (Engine.executionId 2) = none := by decide +kernel
  obtain ⟨x, found, status⟩ := Option.map_eq_some_iff.mp completed
  refine ⟨⟨x, found, by simp [status]⟩, ?_⟩
  rintro ⟨y, found, _⟩
  cases (Option.map_eq_none_iff.mp unknown).symm.trans found

/-- Both executions are shown in the end, the first one at the front. -/
theorem overtaken_shown : ∃ x y, Engine.history overtaken.world .null = .ok [x, y] ∧
    x.id = .text (Engine.executionId 1) ∧ y.id = .text (Engine.executionId 2) := by
  have kept : overtaken.world.ledger.history = [Engine.executionId 1, Engine.executionId 2] := by decide +kernel
  have ids := (heldCompletion_arises.run heldCompletion_run).map_id_finished
  rw [kept] at ids
  obtain ⟨x, rest, finished, first, more⟩ := List.map_eq_cons_iff.mp ids
  obtain ⟨y, last, rfl, second, none⟩ := List.map_eq_cons_iff.mp more
  obtain rfl := List.map_eq_nil_iff.mp none
  exact ⟨x, y, congrArg Except.ok finished, first, second⟩

/-- The execution that ended first is shown first. -/
theorem earlier_end_shown_first : ∃ (m m' : Machine Unit) (x y : Execution) (first second : String),
    Arises openEngine holdingHost m ∧ Run openEngine holdingHost (fun _ => False) m m' ∧
    HasEnded first m.world.books ∧ ¬HasEnded second m.world.books ∧
    Engine.history m'.world .null = .ok [x, y] ∧ x.id = .text first ∧ y.id = .text second := by
  obtain ⟨x, y, shown, first, second⟩ := overtaken_shown
  exact ⟨heldCompletion, overtaken, x, y, _, _, heldCompletion_arises, heldCompletion_run, heldCompletion_ended.1,
    heldCompletion_ended.2, shown, first, second⟩

/-- The second execution was retired while the observer of the first one took its time. -/
theorem second_overtakes : ∃ x y, Engine.history overtaken.world .null = .ok [x, y] ∧
    x.id = .text (Engine.executionId 1) ∧ y.id = .text (Engine.executionId 2) ∧
    heldCompletion.Overtakes openEngine holdingHost (Engine.executionId 2) (Engine.executionId 1) overtaken := by
  obtain ⟨x, y, shown, first, second⟩ := overtaken_shown
  obtain ⟨_, behind⟩ := later_end_first_unless_overtaken heldCompletion_arises heldCompletion_run shown
    ⟨by simp, by simp⟩ ⟨second, first⟩ heldCompletion_ended.1 heldCompletion_ended.2
  exact ⟨x, y, shown, first, second, behind.mp (.refl _)⟩

end Runbook
