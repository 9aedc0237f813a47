import Mathlib.Logic.Hydra
import Runbook.Host
import Runbook.Proofs.Agenda

/-! # Machines come to rest

What a task does is a finite tree, and whatever it does next leaves less of it to do. It may create tasks, but
their trees are parts of its own. So if errands come to an end, a machine that is left to itself does too: whatever
its tasks do and in whatever order, they cannot go on forever, and nor can the jobs and timers that they set.
-/

namespace Runbook

open Relation

variable {σ α β : Type} {service : Service σ} {e : Engine σ} {host : Host σ} {m m' : Machine σ} {a a' : Agenda}

/-! ## Errands of routines -/

namespace Routine

/-- Whatever errands the routine runs, and the tasks that it creates, are of a sort. -/
def Runs (P : Errand → Prop) {α : Type} : Routine σ α → Prop
  | .done _ => True
  | .act _ k => ∀ b, (k b).Runs P
  | .wait _ k => ∀ wake, (k wake).Runs P
  | .call errand k => P errand ∧ ∀ r, (k r).Runs P
  | .spawn body k => (∀ id, (body id).Runs P) ∧ ∀ id, (k id).Runs P

/-- The routine runs no errands, nor do the tasks that it creates. -/
def Errandless (p : Routine σ α) : Prop := p.Runs fun _ => False

theorem runs_any (p : Routine σ α) : p.Runs fun _ => True := by
  induction p with
  | done => trivial
  | act f k ih => exact ih
  | wait cue k ih => exact ih
  | call errand k ih => exact ⟨trivial, ih⟩
  | spawn body k created ih => exact ⟨created, ih⟩

theorem Runs.bind {P : Errand → Prop} {p : Routine σ α} {f : α → Routine σ β} (first : p.Runs P)
    (next : ∀ a, (f a).Runs P) : (p.bind f).Runs P := by
  induction p with
  | done a => exact next a
  | act g k ih => exact fun b => ih b (first b) next
  | wait cue k ih => exact fun wake => ih wake (first wake) next
  | call errand k ih => exact ⟨first.1, fun r => ih r (first.2 r) next⟩
  | spawn body k _ ih => exact ⟨first.1, fun id => ih id (first.2 id) next⟩

/-! ## What is left of a routine -/

/-- What is left of a routine after its next step, or what a task does that it creates. -/
inductive Remains (service : Service σ) : Routine σ Unit → Routine σ Unit → Prop
  | act {β : Type} (f : World σ → β × World σ) (k : β → Routine σ Unit) (b : β) : Remains service (k b) (.act f k)
  | wait (cue : Cue) (k : Wake → Routine σ Unit) (wake : Wake) : Remains service (k wake) (.wait cue k)
  | call (errand : Errand) (k : Except Interrupt Value → Routine σ Unit) :
      Remains service ((service errand).bind k) (.call errand k)
  | created (body : TaskId → Routine σ Unit) (k : TaskId → Routine σ Unit) (id : TaskId) (wake : Wake) :
      Remains service (Machine.firstTurn (body id) wake) (.spawn body k)
  | creator (body : TaskId → Routine σ Unit) (k : TaskId → Routine σ Unit) (id : TaskId) :
      Remains service (k id) (.spawn body k)

theorem acc_done : Acc (Remains service) (.done ()) := by
  refine .intro _ ?_
  rintro _ ⟨⟩

/-- A routine comes to an end if its errands do, and what comes after it. -/
theorem Runs.acc_bind {P : Errand → Prop}
    (answers : ∀ errand, P errand → ∀ k : Except Interrupt Value → Routine σ Unit,
      (∀ r, Acc (Remains service) (k r)) → Acc (Remains service) ((service errand).bind k))
    {p : Routine σ α} {f : α → Routine σ Unit} (runs : p.Runs P) (next : ∀ a, Acc (Remains service) (f a)) :
    Acc (Remains service) (p.bind f) := by
  induction p with
  | done a => exact next a
  | act g k ih =>
    refine .intro _ ?_
    rintro _ ⟨⟩
    exact ih _ (runs _) next
  | wait cue k ih =>
    refine .intro _ ?_
    rintro _ ⟨⟩
    exact ih _ (runs _) next
  | call errand k ih =>
    refine .intro _ ?_
    rintro _ ⟨⟩
    exact answers errand runs.1 _ fun r => ih r (runs.2 r) next
  | spawn body k created ih =>
    refine .intro _ ?_
    rintro _ ⟨⟩
    · next id wake =>
      cases wake with
      | ready => exact bind_done (body id) ▸ created id (runs.1 id) fun _ => acc_done
      | cancelled => exact acc_done
    · exact ih _ (runs.2 _) next

/-- If errands run no errands themselves, all routines come to an end. -/
theorem acc_remains (errandless : ∀ errand, (service errand).Errandless) (p : Routine σ Unit) :
    Acc (Remains service) p := by
  rw [← bind_done p]
  refine p.runs_any.acc_bind (fun errand _ k next => ?_) fun _ => acc_done
  exact (errandless errand).acc_bind (fun _ none => none.elim) next

end Routine

/-! ## What is left of an agenda -/

/-- A moment is not before itself. -/
theorem Float.not_lt_self (x : Float) : ¬x < x := by
  intro before
  have less : x.toModel < x.toModel := of_decide_eq_true (before : Float.lt x x = true)
  have compared : x.toModel.unpack.compare x.toModel.unpack = some .lt := eq_of_beq less
  generalize x.toModel.unpack = u at compared
  cases u with
  | infinity sign | zero sign => cases sign <;> cases compared
  | notANumber => cases compared
  | finite sign mantissa exponent =>
    have same : (compare exponent exponent).then (compare mantissa mantissa) = .eq := by
      rw [Std.compare_self, Std.compare_self, Ordering.eq_then]
    cases sign with
    | positive => cases same.symm.trans (Option.some.inj compared)
    | negative => cases (congrArg Ordering.swap same).symm.trans (Option.some.inj compared)

/-- What a wait counts for: more than the job that resumes its task, and a timer also more than its turn in the
queue. -/
def Wait.weight : Wait → Nat
  | .timer _ => 4
  | _ => 2

theorem Wait.two_le_weight (wait : Wait) : 2 ≤ wait.weight := by
  cases wait <;> simp [weight]

namespace Agenda

/-- How much is left for the agenda to do without its tasks. -/
def weight (a : Agenda) : Nat := a.ready.length + (a.waits.map (·.2.weight)).sum

theorem weight_enqueue (a : Agenda) (job : Job) : (a.enqueue job).weight = a.weight + 1 := by
  simp only [weight, enqueue, List.length_append, List.length_singleton]
  omega

theorem weight_release {id : TaskId} {wait : Wait} (found : (id, wait) ∈ a.waits) (wake : Wake) :
    (a.release id wake).weight < a.weight := by
  have fewer (waits : List (TaskId × Wait)) :
      ((waits.filter (·.1 != id)).map (·.2.weight)).sum ≤ (waits.map (·.2.weight)).sum :=
    (List.filter_sublist.map _).sum_le_sum fun _ _ => Nat.zero_le _
  have heavy := wait.two_le_weight
  obtain ⟨before, after, same⟩ := List.append_of_mem found
  have least := Nat.add_le_add (fewer before) (fewer after)
  rw [release, weight_enqueue]
  simp only [weight, same, List.filter_append, List.filter_cons, bne_self_eq_false, Bool.false_eq_true, if_false,
    List.map_append, List.sum_append, List.map_cons, List.sum_cons]
  omega

theorem weight_rewait (a : Agenda) (id : TaskId) {wait : Wait} (light : wait.weight = 2) :
    (a.rewait id wait).weight ≤ a.weight := by
  unfold weight rewait
  rw [List.map_map]
  refine Nat.add_le_add_left (List.sum_le_sum fun w _ => ?_) _
  dsimp only [Function.comp_apply]
  split
  · exact light ▸ w.2.two_le_weight
  · exact Nat.le_refl _

/-- The turn of a timer, and the report of an end, make no more to do. -/
theorem weight_ring (a : Agenda) (id : TaskId) : (a.ring id).weight ≤ a.weight := by
  unfold ring
  split
  · next found => exact Nat.le_of_lt (weight_release (mem_waits_of_wait? found) .ready)
  · exact Nat.le_refl _

theorem weight_hear (a : Agenda) (id : TaskId) : (a.hear id).weight ≤ a.weight := by
  unfold hear
  split
  · next found =>
    split
    · exact Nat.le_of_lt (weight_release (mem_waits_of_wait? found) _)
    · exact a.weight_rewait id rfl
  · exact Nat.le_refl _

/-- The waits after the timers of some tasks went off. -/
def rung (ids : List TaskId) (waits : List (TaskId × Wait)) : List (TaskId × Wait) :=
  waits.map fun w => if w.1 ∈ ids then (w.1, .ringing) else w

/-- The timers of these tasks go off. -/
theorem ringing_foldl (timers : List (Float × TaskId)) (a : Agenda) :
    timers.foldl (fun a timer => (a.rewait timer.2 .ringing).enqueue (.ring timer.2)) a = { a with
      ready := a.ready ++ timers.map fun timer => .ring timer.2
      waits := rung (timers.map (·.2)) a.waits } := by
  induction timers generalizing a with
  | nil => simp [rung]
  | cons timer rest ih =>
    rw [List.foldl_cons, ih]
    simp only [enqueue, rewait, rung, List.map_map, List.map_cons, List.mem_cons, List.append_assoc, List.singleton_append]
    congr 1
    refine List.map_congr_left fun w _ => ?_
    by_cases same : w.1 = timer.2
    · simp [same]
    · have stays : (if (w.1 == timer.2) = true then (timer.2, Wait.ringing) else w) = w := if_neg (by simpa using same)
      simp only [Function.comp_apply, stays, same, false_or]

/-- The timer that a wait is for, if it is due at a moment. -/
def timer? (now : Float) (w : TaskId × Wait) : Option (Float × TaskId) :=
  match w.2 with
  | .timer due => if now < due then none else some (due, w.1)
  | _ => none

/-- In whatever order, all the timers go off that are due. -/
theorem exists_ringDue (a : Agenda) : ∃ timers : List (Float × TaskId), timers.Perm (a.waits.filterMap (timer? a.now)) ∧
    a.ringDue = timers.foldl (fun a timer => (a.rewait timer.2 .ringing).enqueue (.ring timer.2)) a :=
  ⟨_, List.mergeSort_perm _ _, rfl⟩

theorem timer?_eq_some {now : Float} {w : TaskId × Wait} {timer : Float × TaskId} (due : timer? now w = some timer) :
    timer.2 = w.1 ∧ w.2.weight = 4 := by
  unfold timer? at due
  split at due
  · next same =>
    split at due <;> cases due
    exact ⟨rfl, by rw [same, Wait.weight]⟩
  · cases due

/-- A timer that goes off weighs less, although it is put into the queue. -/
theorem weight_rung {now : Float} {ids : List TaskId} {waits : List (TaskId × Wait)}
    (named : ∀ w ∈ waits, ∀ timer, timer? now w = some timer → w.1 ∈ ids) :
    (waits.filterMap (timer? now)).length + ((rung ids waits).map (·.2.weight)).sum ≤
      (waits.map (·.2.weight)).sum := by
  induction waits with
  | nil => exact Nat.le_refl _
  | cons w rest ih =>
    obtain ⟨mine, others⟩ := List.forall_mem_cons.mp named
    have less := ih others
    simp only [rung, List.map_cons, List.sum_cons] at less ⊢
    cases due : timer? now w with
    | none =>
      have lighter : (if w.1 ∈ ids then (w.1, Wait.ringing) else w).2.weight ≤ w.2.weight := by
        split
        · exact w.2.two_le_weight
        · exact Nat.le_refl _
      rw [List.filterMap_cons_none due]
      omega
    | some timer =>
      have ringing : (w.1, Wait.ringing).2.weight = 2 := rfl
      rw [List.filterMap_cons_some due, List.length_cons, if_pos (mine timer due), ringing, (timer?_eq_some due).2]
      omega

/-- If a timer is due, less is left to do after it has gone off. -/
theorem weight_ringDue {w : TaskId × Wait} {timer : Float × TaskId} (found : w ∈ a.waits)
    (due : timer? a.now w = some timer) : a.ringDue.weight < a.weight := by
  obtain ⟨timers, perm, same⟩ := a.exists_ringDue
  have named (w : TaskId × Wait) (found : w ∈ a.waits) (timer : Float × TaskId) (due : timer? a.now w = some timer) :
      w.1 ∈ timers.map (·.2) := by
    have listed : timer ∈ timers := perm.mem_iff.mpr (List.mem_filterMap.mpr ⟨w, found, due⟩)
    exact (timer?_eq_some due).1 ▸ List.mem_map_of_mem listed
  rw [same, ringing_foldl, weight, weight]
  dsimp only
  -- The wait itself is two lighter, and one job heavier.
  obtain ⟨before, after, split⟩ := List.append_of_mem found
  rw [split] at named
  have first := weight_rung fun w listed => named w (List.mem_append_left _ listed)
  have later := weight_rung fun w listed => named w (List.mem_append_right _ (List.mem_cons_of_mem _ listed))
  have mine := named w (List.mem_append_right _ List.mem_cons_self) timer due
  have ringing : Wait.ringing.weight = 2 := rfl
  have heavy := (timer?_eq_some due).2
  rw [List.length_append, List.length_map, perm.length_eq, split]
  simp only [rung, List.filterMap_append, List.filterMap_cons_some due, List.map_append, List.map_cons, if_pos mine,
    List.sum_append, List.sum_cons, List.length_append, List.length_cons] at first later ⊢
  omega

/-- The next moment at which a timer is due is that of one of the timers. -/
theorem exists_due {next : Float} (found : a.nextDue? = some next) : ∃ id, (id, .timer next) ∈ a.waits := by
  have earliest (due : Float) (rest : List Float) : rest.foldl earlier due ∈ due :: rest := by
    induction rest generalizing due with
    | nil => exact List.mem_singleton_self due
    | cons other rest ih =>
      rcases List.mem_cons.mp (ih (earlier due other)) with same | listed
      · rw [List.foldl_cons, same, earlier]
        split <;> simp
      · exact List.mem_cons_of_mem _ (List.mem_cons_of_mem _ listed)
  have listed : next ∈ a.waits.filterMap (due? ·.2) := by
    unfold nextDue? at found
    split at found
    · cases found
    · next due rest same =>
      cases found
      exact same ▸ earliest due rest
  obtain ⟨⟨id, wait⟩, waits, due⟩ := List.mem_filterMap.mp listed
  cases wait with
  | timer moment =>
    cases due
    exact ⟨id, waits⟩
  | _ => cases due

/-- If a timer is set, the clock can move on. -/
theorem elapse?_isSome {id : TaskId} {due : Float} (waits : (id, .timer due) ∈ a.waits) : a.elapse?.isSome := by
  have listed : due ∈ a.waits.filterMap (due? ·.2) := List.mem_filterMap.mpr ⟨_, waits, rfl⟩
  rw [elapse?, Option.isSome_map, nextDue?]
  split
  · next none => exact absurd (none ▸ listed) List.not_mem_nil
  · rfl

/-- Whenever the clock moves on to the next timer, less is left to do. -/
theorem weight_elapse (elapsed : a.elapse? = some a') : a'.weight < a.weight := by
  obtain ⟨next, found, rfl⟩ := Option.map_eq_some_iff.mp elapsed
  obtain ⟨id, waits⟩ := exists_due found
  have past : ¬(if a.now < next then next else a.now) < next := by
    split
    · exact Float.not_lt_self next
    · assumption
  exact weight_ringDue (a := { a with now := if a.now < next then next else a.now }) waits (if_neg past)

end Agenda

/-! ## What is left of a machine -/

/-- With fewer heads a hydra is closer to its end. -/
theorem transGen_cutExpand_of_lt {κ : Type*} {r : κ → κ → Prop} {s s' : Multiset κ} (less : s' < s) :
    TransGen (CutExpand r) s' s := by
  have cut (x : κ) (s : Multiset κ) : CutExpand r s (x ::ₘ s) :=
    ⟨0, x, by simp, by rw [add_zero, ← Multiset.singleton_add, add_comm]⟩
  obtain ⟨x, most⟩ := Multiset.lt_iff_cons_le.mp less
  obtain ⟨others, rfl⟩ := Multiset.le_iff_exists_add.mp most
  clear less most
  induction others using Multiset.induction with
  | empty => exact .single ((add_zero (x ::ₘ s')).symm ▸ cut x s')
  | cons y others ih => exact ih.tail ((Multiset.add_cons y _ _).symm ▸ cut y _)

namespace Machine

/-- What parked tasks have still to do, whichever way their waits end. -/
def chores (parked : List (TaskId × (Wake → Routine σ Unit))) : List (Routine σ Unit) :=
  parked.flatMap fun task => [task.2 .ready, task.2 .cancelled]

/-- What the tasks of a machine have still to do. -/
def work (m : Machine σ) : Multiset (Routine σ Unit) := ↑(m.running.toList.map (·.2) ++ chores m.parked)

/-- The machine goes on by itself: a task does its next step or a job is done, or the clock moves on to the next
timer. -/
def Goes (service : Service σ) (m' m : Machine σ) : Prop := m.step? service = some m' ∨ m.elapse? = some m'

/-- The machine does not go on by itself. -/
def Spent (service : Service σ) (m : Machine σ) : Prop := ∀ m' : Machine σ, ¬m'.Goes service m

/-- The machine cannot go on by itself forever. -/
def WindsDown (service : Service σ) (m : Machine σ) : Prop := Acc (Goes service) m

/-- A machine does not go on if no task is running, no job is in the queue and no timer is set. -/
theorem spent_iff : m.Spent service ↔ m.running = none ∧ m.world.agenda.ready = [] ∧
    ∀ id due, (id, .timer due) ∉ m.world.agenda.waits := by
  constructor
  · intro spent
    have stops : m.step? service = none := Option.eq_none_iff_forall_ne_some.mpr fun m' taken => spent m' (.inl taken)
    obtain ⟨idle, ready⟩ := step?_eq_none.mp stops
    refine ⟨idle, ready, fun id due waits => ?_⟩
    obtain ⟨agenda, moved⟩ := Option.isSome_iff_exists.mp (Agenda.elapse?_isSome waits)
    exact spent _ (.inr (congrArg (Option.map _) moved))
  · rintro ⟨idle, ready, untimed⟩ m' (taken | elapsed)
    · cases (step?_eq_none.mpr ⟨idle, ready⟩).symm.trans taken
    · obtain ⟨agenda, moved, -⟩ := Option.map_eq_some_iff.mp elapsed
      obtain ⟨due, found, -⟩ := Option.map_eq_some_iff.mp moved
      obtain ⟨id, waits⟩ := Agenda.exists_due found
      exact untimed id due waits

/-- Less is left to do: less work of tasks, or as much and less of the agenda. -/
def Less (service : Service σ) (m' m : Machine σ) : Prop :=
  Prod.Lex (TransGen (CutExpand (Routine.Remains service))) (· < ·) (m'.work, m'.world.agenda.weight)
    (m.work, m.world.agenda.weight)

theorem wellFounded_less (errandless : ∀ errand, (service errand).Errandless) : WellFounded (Less service) := by
  have remains : WellFounded (Routine.Remains service) := ⟨Routine.acc_remains errandless⟩
  exact InvImage.wf (fun m : Machine σ => (m.work, m.world.agenda.weight))
    (remains.cutExpand.transGen.prod_lex Nat.lt_wfRel.wf)

/-- Of the work of one task other work is left that remains of it. -/
theorem Less.of_remains {p : Routine σ Unit} {others : List (Routine σ Unit)} (left : List (Routine σ Unit))
    (before : m.work = ↑(p :: others)) (after : m'.work = ↑(left ++ others))
    (remains : ∀ q ∈ left, q.Remains service p) : Less service m' m := by
  refine .left _ _ (.single ?_)
  rw [before, after, ← Multiset.coe_add, ← Multiset.cons_coe, ← Multiset.singleton_add]
  exact (cutExpand_add_right _).mpr (cutExpand_singleton remains)

/-- The tasks have as much work left, and the agenda has less to do. -/
theorem Less.of_weight (same : m'.work = m.work) (less : m'.world.agenda.weight < m.world.agenda.weight) :
    Less service m' m := by
  unfold Less
  rw [same]
  exact .right _ less

/-- The tasks have some of their work left and no other. -/
theorem Less.of_lt (less : m'.work < m.work) : Less service m' m := .left _ _ (transGen_cutExpand_of_lt less)

theorem park_work (m : Machine σ) (id : TaskId) (cue : Cue) (k : Wake → Routine σ Unit) :
    (m.park id cue k).work = ↑([k .ready, k .cancelled] ++ chores m.parked) := by
  have parked : (m.park id cue k).parked = m.parked ++ [(id, k)] ∧ (m.park id cue k).running = none := by
    unfold park
    dsimp only [schedule]
    split <;> exact ⟨rfl, rfl⟩
  rw [work, parked.1, parked.2, chores, List.flatMap_append]
  exact Multiset.coe_eq_coe.mpr (List.perm_append_comm : (chores m.parked ++ [k .ready, k .cancelled]).Perm _)

/-- With each step of a task less is left to do. -/
theorem advance_less {id : TaskId} {p : Routine σ Unit} (running : m.running = some (id, p)) :
    Less service (m.advance service id p) m := by
  have before : m.work = ↑(p :: chores m.parked) := by
    rw [work, running]
    rfl
  cases p with
  | done => exact .of_remains [] before rfl (List.forall_mem_nil _)
  | act f k => exact .of_remains [_] before rfl (List.forall_mem_singleton.mpr (.act f k _))
  | call errand k => exact .of_remains [_] before rfl (List.forall_mem_singleton.mpr (.call errand k))
  | spawn body k =>
    let id := m.world.agenda.created
    refine .of_remains [k id, firstTurn (body id) .ready, firstTurn (body id) .cancelled] before ?_ ?_
    · change (↑(k id :: chores (m.parked ++ [(id, firstTurn (body id))])) : Multiset (Routine σ Unit)) = _
      rw [chores, List.flatMap_append]
      exact Multiset.coe_eq_coe.mpr (List.perm_append_comm.cons _)
    · simp only [List.forall_mem_cons]
      exact ⟨.creator body k id, .created body k id .ready, .created body k id .cancelled, List.forall_mem_nil _⟩
  | wait cue k =>
    rw [advance]
    split
    · next wake _ => exact .of_remains [_] before rfl (List.forall_mem_singleton.mpr (.wait cue k wake))
    · refine .of_remains _ before (m.park_work id cue k) ?_
      simp only [List.forall_mem_cons]
      exact ⟨.wait cue k .ready, .wait cue k .cancelled, List.forall_mem_nil _⟩

/-- A task that is resumed will not do what it would have done if its wait had ended in another way. -/
theorem resumed_lt {id key : TaskId} {k : Wake → Routine σ Unit} (idle : m.running = none)
    (found : m.parked.find? (·.1 == id) = some (key, k)) (wake : Wake) :
    (↑(k wake :: chores (m.parked.filter (·.1 != id))) : Multiset (Routine σ Unit)) < m.work := by
  obtain ⟨named, before, after, same, -⟩ := List.find?_eq_some_iff_append.mp found
  have fewer : (chores (m.parked.filter (·.1 != id))).Sublist (chores before ++ chores after) := by
    rw [same, List.filter_append, List.filter_cons_of_neg (by simpa using named), chores, List.flatMap_append]
    exact (List.filter_sublist.flatMap _).append (List.filter_sublist.flatMap _)
  have all : m.work = ↑([k .ready, k .cancelled] ++ (chores before ++ chores after)) := by
    rw [work, idle, same, chores, List.flatMap_append, List.flatMap_cons]
    exact Multiset.coe_eq_coe.mpr (List.perm_append_comm_assoc (chores before) _ _)
  rw [all]
  cases wake with
  | ready =>
    refine Multiset.lt_iff_cons_le.mpr ⟨k .cancelled, Multiset.coe_le.mpr ?_⟩
    exact (List.Perm.swap ..).subperm.trans ((fewer.cons_cons _).cons_cons _).subperm
  | cancelled =>
    refine Multiset.lt_iff_cons_le.mpr ⟨k .ready, Multiset.coe_le.mpr ?_⟩
    exact ((fewer.cons_cons _).cons_cons _).subperm

/-- With each job less is left to do. -/
theorem execute_less {job : Job} {ready : List Job} (idle : m.running = none)
    (queue : m.world.agenda.ready = job :: ready) :
    Less service ((m.schedule ({ · with ready })).execute job) m := by
  have taken : ({ m.world.agenda with ready } : Agenda).weight < m.world.agenda.weight := by
    rw [Agenda.weight, Agenda.weight, queue]
    exact Nat.add_lt_add_right (Nat.lt_succ_self _) _
  cases job with
  | resume id wake =>
    change Less service ((m.schedule ({ · with ready })).resume id wake) m
    unfold resume
    split
    · exact .of_weight rfl taken
    · next key k found => exact .of_lt (resumed_lt idle found _)
  | ring id => exact .of_weight rfl (Nat.lt_of_le_of_lt (Agenda.weight_ring _ id) taken)
  | report id => exact .of_weight rfl (Nat.lt_of_le_of_lt (Agenda.weight_hear _ id) taken)
  | forget execution => exact .of_weight rfl taken

theorem less_of_goes (goes : Goes service m' m) : Less service m' m := by
  rcases goes with taken | elapsed
  · rcases step?_cases taken with ⟨id, p, running, rfl⟩ | ⟨job, ready, idle, queue, rfl⟩
    · exact advance_less running
    · exact execute_less idle queue
  · obtain ⟨agenda, moved, rfl⟩ := Option.map_eq_some_iff.mp elapsed
    exact .of_weight rfl (Agenda.weight_elapse moved)

/-- If errands run no errands themselves, no machine can go on forever. -/
theorem windsDown (errandless : ∀ errand, (service errand).Errandless) (m : Machine σ) : m.WindsDown service :=
  Subrelation.accessible less_of_goes ((wellFounded_less errandless).apply m)

end Machine

/-! ## Those around the engine -/

/-- No execution is to be started, and none is to be cancelled. -/
def Ask.Frugal {β : Type} : Ask σ β → Prop
  | .start _ _ => False
  | .cancel _ => False
  | _ => True

/-- The script has no execution started or cancelled. -/
def Script.Frugal : Script σ α → Prop
  | .done _ => True
  | .ask question k => question.Frugal ∧ ∀ b, (k b).Frugal

/-- Tools and observers give an engine nothing to do that would call tools and observers. -/
structure Host.Frugal (host : Host σ) : Prop where
  tool : ∀ name parameters, (host.tool name parameters).Frugal
  observer : ∀ callback event, (host.observer callback event).Frugal

namespace Host

theorem answer_errandless {question : Ask σ β} (frugal : question.Frugal) : (answer e question).Errandless := by
  cases question with
  | start | cancel => exact frugal.elim
  | acknowledge id decision token => exact ⟨fun _ _ => trivial, fun _ => trivial⟩
  | _ => exact fun _ => trivial

theorem follow_errandless {script : Script σ α} (frugal : script.Frugal) : (follow e script).Errandless := by
  induction script with
  | done => trivial
  | ask question k ih => exact (answer_errandless frugal.1).bind fun b => ih b (frugal.2 b)

/-- Whatever a machine is about, it comes to an end if tools and observers have no executions started. -/
theorem Frugal.windsDown (frugal : host.Frugal) (e : Engine σ) (m : Machine σ) : m.WindsDown (host.service e) := by
  refine m.windsDown fun errand => ?_
  cases errand with
  | tool name parameters => exact follow_errandless (frugal.tool name parameters)
  | observer callback event => exact (follow_errandless (frugal.observer callback event)).bind fun _ => trivial

end Host

end Runbook
