import Mathlib.Data.List.Induction
import Mathlib.Data.List.Sort
import Runbook.Event.Announcement

/-! # Registrations and the functions that take them back

Whoever registers a callback is given a function that takes the registration back. The bus cannot tell two
registrations of one callback from each other: whichever of them the function came with, the earliest one goes. So
the registrations of a callback that are left are always the latest ones. They are those whose functions have not
been called if every call came in its turn: that of a registration that was there, after those of all earlier
registrations of its callback.
-/

namespace Runbook

/-- Something that is done about registrations, which are numbered in the order in which they are made. -/
inductive Subscribing where
  | register (kind : EventKind) (callback : String)
  /-- The function is called that a registration came with. -/
  | takeBack (number : Nat)

/-- A bus, and what has become of the registrations. -/
structure Subscriptions where
  bus : Bus := {}
  /-- All registrations that were made, in order. -/
  made : List (EventKind × String) := []
  /-- The numbers of those that the bus still has. -/
  kept : List Nat := []
  /-- The numbers of those whose functions have not been called. -/
  uncalled : List Nat := []

variable {σ : Type} {s : Subscriptions} {act : Subscribing} {acts : List Subscribing} {n n' : Nat}

namespace Subscriptions

/-- The earliest registration of the callback that a registration is for. -/
def drop (s : Subscriptions) (number : Nat) (numbers : List Nat) : List Nat :=
  numbers.eraseP (s.made[·]? == s.made[number]?)

/-- What an act comes to. A function that nobody was given cannot be called. -/
def step (s : Subscriptions) : Subscribing → Subscriptions
  | .register kind callback =>
    { bus := s.bus.subscribe kind callback
      made := s.made ++ [(kind, callback)]
      kept := s.kept ++ [s.made.length]
      uncalled := s.uncalled ++ [s.made.length] }
  | .takeBack number => match s.made[number]? with
    | none => s
    | some (kind, callback) =>
      { s with
        bus := (s.bus.unsubscribe kind callback).1
        kept := s.drop number s.kept
        uncalled := s.uncalled.erase number }

/-- What becomes of a bus without registrations. -/
def after (acts : List Subscribing) : Subscriptions := acts.foldl step {}

/-- The callbacks of some registrations that are for a kind of event. -/
def callbacks (s : Subscriptions) (kind : EventKind) (numbers : List Nat) : List String :=
  ((numbers.filterMap (s.made[·]?)).filter (·.1 == kind)).map (·.2)

/-- A call of the function that a registration came with comes in its turn: it is the first one, and those of all
earlier registrations of the callback have been called. -/
def InTurn (s : Subscriptions) (number : Nat) : Prop :=
  ∀ k ∈ s.uncalled, s.made[k]? = s.made[number]? → number ∈ s.uncalled ∧ number ≤ k

instance : Decidable (s.InTurn n) := inferInstanceAs (Decidable (∀ k ∈ s.uncalled, _ → _))

@[simp] theorem after_nil : after [] = {} := rfl

@[simp] theorem after_append_singleton (acts : List Subscribing) (act : Subscribing) :
    after (acts ++ [act]) = (after acts).step act := by
  simp [after]

theorem step_takeBack_of_some {kind : EventKind} {callback : String} (made : s.made[n]? = some (kind, callback)) :
    s.step (.takeBack n) = { s with
      bus := (s.bus.unsubscribe kind callback).1
      kept := s.drop n s.kept
      uncalled := s.uncalled.erase n } := by
  simp [step, made]

theorem step_takeBack_of_none (unmade : s.made[n]? = none) : s.step (.takeBack n) = s := by
  simp [step, unmade]

/-! ## What is left of the registrations -/

/-- A number is left once the first with a property is taken out of a rising list if it has not got the property
or stands behind another that has. -/
theorem mem_eraseP_iff {p : Nat → Bool} {numbers : List Nat} (rising : numbers.Pairwise (· < ·)) {k : Nat} :
    k ∈ numbers.eraseP p ↔ k ∈ numbers ∧ (p k → ∃ j ∈ numbers, p j ∧ j < k) := by
  induction numbers with
  | nil => simp
  | cons j numbers ih =>
    obtain ⟨above, rising⟩ := List.pairwise_cons.1 rising
    by_cases found : p j
    · rw [List.eraseP_cons_of_pos found]
      constructor
      · exact fun later => ⟨.tail _ later, fun _ => ⟨j, .head _, found, above k later⟩⟩
      · rintro ⟨_ | ⟨_, later⟩, behind⟩
        · obtain ⟨i, _ | ⟨_, member⟩, _, less⟩ := behind found
          · exact absurd less (Nat.lt_irrefl _)
          · exact absurd less (Nat.not_lt.2 (above i member).le)
        · exact later
    · rw [List.eraseP_cons_of_neg found, List.mem_cons, ih rising]
      grind

theorem mem_drop_iff {numbers : List Nat} (rising : numbers.Pairwise (· < ·)) {k : Nat} :
    k ∈ s.drop n numbers ↔
      k ∈ numbers ∧ (s.made[k]? = s.made[n]? → ∃ j ∈ numbers, s.made[j]? = s.made[n]? ∧ j < k) := by
  simp [drop, mem_eraseP_iff rising]

/-- The numbers of some registrations, in order, out of as many as there are. -/
structure Numbering (count : Nat) (numbers : List Nat) : Prop where
  rising : numbers.Pairwise (· < ·)
  within : ∀ k ∈ numbers, k < count

namespace Numbering

variable {numbers part : List Nat}

theorem next (numbering : Numbering n numbers) : Numbering (n + 1) (numbers ++ [n]) where
  rising := List.pairwise_append.2 ⟨numbering.rising, List.pairwise_singleton _ _, fun k member _ last =>
    List.mem_singleton.1 last ▸ numbering.within k member⟩
  within k member := by
    rcases List.mem_append.1 member with before | last
    · exact (numbering.within k before).trans (Nat.lt_succ_self n)
    · exact List.mem_singleton.1 last ▸ Nat.lt_succ_self n

theorem sublist (numbering : Numbering n numbers) (taken : part.Sublist numbers) : Numbering n part :=
  ⟨numbering.rising.sublist taken, fun k member => numbering.within k (taken.mem member)⟩

theorem filterMap_append {made more : List (EventKind × String)} (numbering : Numbering made.length numbers) :
    numbers.filterMap ((made ++ more)[·]?) = numbers.filterMap (made[·]?) :=
  List.filterMap_congr fun k member => List.getElem?_append_left (numbering.within k member)

end Numbering

/-- What the numbers say of the bus. -/
structure Orderly (s : Subscriptions) : Prop where
  kept : Numbering s.made.length s.kept
  uncalled : Numbering s.made.length s.uncalled
  registered : s.bus.registrations = s.kept.filterMap (s.made[·]?)
  /-- The bus has the latest registrations of each callback. -/
  latest : ∀ k ∈ s.kept, ∀ k', k < k' → s.made[k']? = s.made[k]? → k' ∈ s.kept

theorem Orderly.register (orderly : s.Orderly) (kind : EventKind) (callback : String) :
    (s.step (.register kind callback)).Orderly where
  kept := by simpa [step] using orderly.kept.next
  uncalled := by simpa [step] using orderly.uncalled.next
  registered := by simp [step, Bus.subscribe, orderly.registered, orderly.kept.filterMap_append]
  latest := by
    intro k member k' later same
    simp only [step, List.mem_append, List.mem_singleton] at member same ⊢
    rcases member with member | rfl
    · have within := orderly.kept.within k member
      rcases Nat.lt_trichotomy k' s.made.length with within' | new | beyond
      · rw [List.getElem?_append_left within, List.getElem?_append_left within'] at same
        exact .inl (orderly.latest k member k' later same)
      · exact .inr new
      · rw [List.getElem?_append_left within, List.getElem?_eq_getElem within,
          List.getElem?_eq_none (by simp; omega)] at same
        cases same
    · rw [List.getElem?_eq_none (by simp; omega)] at same
      simp at same

theorem filterMap_erase {f : Nat → Option (EventKind × String)} {key : EventKind × String} {numbers : List Nat} :
    (numbers.filterMap f).erase key = (numbers.eraseP (f · == some key)).filterMap f := by
  induction numbers with
  | nil => rfl
  | cons k numbers ih =>
    cases reads : f k with
    | none => simp [reads, ih]
    | some other =>
      by_cases same : other = key
      · simp [reads, same]
      · simp [reads, same, ih]

theorem unsubscribe_registrations (bus : Bus) (kind : EventKind) (callback : String) :
    (bus.unsubscribe kind callback).1.registrations = bus.registrations.erase (kind, callback) := by
  unfold Bus.unsubscribe
  split
  · rfl
  · next absent => exact (List.erase_of_not_mem (by simpa using absent)).symm

theorem Orderly.takeBack (orderly : s.Orderly) (n : Nat) : (s.step (.takeBack n)).Orderly := by
  rcases made : s.made[n]? with _ | ⟨kind, callback⟩
  · rwa [step_takeBack_of_none made]
  rw [step_takeBack_of_some made]
  exact
    { kept := orderly.kept.sublist List.eraseP_sublist
      uncalled := orderly.uncalled.sublist List.erase_sublist
      registered := by
        simp [unsubscribe_registrations, orderly.registered, filterMap_erase, drop, made]
      latest := fun k member k' later same => by
        rw [mem_drop_iff orderly.kept.rising] at member ⊢
        refine ⟨orderly.latest k member.1 k' later same, fun taken => ⟨k, member.1, ?_, later⟩⟩
        exact same.symm.trans taken }

theorem orderly_after (acts : List Subscribing) : (after acts).Orderly := by
  induction acts using List.reverseRecOn with
  | nil => exact ⟨⟨.nil, by simp⟩, ⟨.nil, by simp⟩, rfl, by simp⟩
  | append_singleton acts act ih =>
    rw [after_append_singleton]
    cases act with
    | register kind callback => exact ih.register kind callback
    | takeBack number => exact ih.takeBack number

/-! ## Calls in their turn -/

/-- As long as the bus has had exactly the registrations whose functions have not been called, it goes on to have
them if the next call comes in its turn, and only then. -/
theorem Orderly.kept_eq_uncalled_iff (orderly : s.Orderly) (exact : s.kept = s.uncalled) (n : Nat) :
    (s.step (.takeBack n)).kept = (s.step (.takeBack n)).uncalled ↔ s.InTurn n := by
  rcases made : s.made[n]? with _ | ⟨kind, callback⟩
  · rw [step_takeBack_of_none made]
    refine iff_of_true exact fun k member same => ?_
    rw [made, List.getElem?_eq_none_iff] at same
    exact absurd (orderly.uncalled.within k member) (Nat.not_lt.2 same)
  have rising := orderly.uncalled.rising
  rw [step_takeBack_of_some made]
  change s.drop n s.kept = s.uncalled.erase n ↔ s.InTurn n
  rw [exact]
  constructor
  · -- the first one left of the callback is the one that goes, so it is the one whose function is called
    intro equal k
    induction k using Nat.strong_induction_on with
    | _ k ih =>
      intro member same
      by_cases goes : k = n
      · exact goes ▸ ⟨member, Nat.le_refl _⟩
      · have left : k ∈ s.drop n s.uncalled := equal ▸ (List.mem_erase_of_ne goes).2 member
        obtain ⟨j, earlier, same', less⟩ := ((mem_drop_iff rising).1 left).2 same
        obtain ⟨there, least⟩ := ih j less earlier same'
        exact ⟨there, least.trans less.le⟩
  · intro turn
    refine List.Pairwise.eq_of_mem_iff (r := (· < ·)) (rising.sublist List.eraseP_sublist)
      (rising.sublist List.erase_sublist) fun k => ?_
    rw [mem_drop_iff rising, List.Nodup.mem_erase_iff (rising.imp Nat.ne_of_lt), and_comm]
    refine and_congr_left fun member => ⟨?_, ?_⟩
    · rintro behind rfl
      obtain ⟨j, earlier, same, less⟩ := behind rfl
      exact absurd (turn j earlier same).2 (Nat.not_le.2 less)
    · intro other same
      obtain ⟨there, least⟩ := turn k member same
      exact ⟨n, there, rfl, lt_of_le_of_ne least (Ne.symm other)⟩

theorem made_step (s : Subscriptions) (act : Subscribing) : s.made <+: (s.step act).made := by
  cases act with
  | register kind callback => exact List.prefix_append _ _
  | takeBack number =>
    have same : (s.step (.takeBack number)).made = s.made := by
      rcases made : s.made[number]? with _ | ⟨kind, callback⟩
      · rw [step_takeBack_of_none made]
      · rw [step_takeBack_of_some made]
    exact same.symm ▸ List.prefix_rfl

theorem made_after {before : List Subscribing} (part : before <+: acts) :
    (after before).made <+: (after acts).made := by
  obtain ⟨more, rfl⟩ := part
  induction more using List.reverseRecOn with
  | nil => simp
  | append_singleton more act ih =>
    rw [← List.append_assoc, after_append_singleton]
    exact ih.trans (made_step _ act)

theorem kept_eq_uncalled_throughout_iff :
    (∀ i, (after (acts.take i)).kept = (after (acts.take i)).uncalled) ↔
      ∀ i number, acts[i]? = some (.takeBack number) → (after (acts.take i)).InTurn number := by
  constructor
  · intro exact i number called
    have next := exact (i + 1)
    rw [List.take_add_one, called, Option.toList_some, after_append_singleton] at next
    exact ((orderly_after _).kept_eq_uncalled_iff (exact i) number).1 next
  · intro turns i
    induction i with
    | zero => rfl
    | succ i ih =>
      rw [List.take_add_one]
      rcases called : acts[i]? with _ | ⟨kind, callback⟩ | number
      · simpa using ih
      · simp [step, ih]
      · rw [Option.toList_some, after_append_singleton]
        exact ((orderly_after _).kept_eq_uncalled_iff ih number).2 (turns i number called)

/-- Where every callback is registered once for a kind of event, all calls come in their turn. -/
theorem inTurn_of_nodup (orderly : s.Orderly) (once : s.made.Nodup) (n : Nat) : s.InTurn n := by
  intro k member same
  have within := orderly.uncalled.within k member
  obtain rfl := (List.getElem?_inj within once).1 same
  exact ⟨member, Nat.le_refl _⟩

end Subscriptions

open Subscriptions

/-- An event goes to the callbacks of the registrations that are left, in the order in which they were made.
Those left of a callback are the latest ones, whichever functions were called. They have at every moment been those
whose functions had not been called if every call came in its turn, and only then; so it is whatever is called as
long as no callback is registered twice for a kind of event. -/
theorem registrations_taken_back (acts : List Subscribing) :
    (∀ (event : Event) (w : World σ), (World.announcement event { w with bus := (after acts).bus }).1 =
      (after acts).callbacks event.kind (after acts).kept) ∧
    (after acts).kept.Pairwise (· < ·) ∧
    (∀ k ∈ (after acts).kept, ∀ k', k < k' → (after acts).made[k']? = (after acts).made[k]? →
      k' ∈ (after acts).kept) ∧
    ((∀ i, (after (acts.take i)).kept = (after (acts.take i)).uncalled) ↔
      ∀ i number, acts[i]? = some (.takeBack number) → (after (acts.take i)).InTurn number) ∧
    ((after acts).made.Nodup → (after acts).kept = (after acts).uncalled) := by
  have orderly := orderly_after acts
  refine ⟨fun event w => ?_, orderly.kept.rising, orderly.latest, kept_eq_uncalled_throughout_iff, fun once => ?_⟩
  · simp [World.announcement, Bus.callbacks, callbacks, orderly.registered]
  · have throughout := kept_eq_uncalled_throughout_iff.2 fun i number _ =>
      inTurn_of_nodup (orderly_after (acts.take i)) (once.sublist (made_after (List.take_prefix i acts)).sublist) number
    simpa using throughout acts.length

/-- Of two registrations of a callback, made before and after that of another, the first is taken back. -/
def changingMinds : List Subscribing :=
  [.register .executionStarted "a", .register .executionStarted "b", .register .executionStarted "a", .takeBack 0]

theorem first_taken_back :
    (after changingMinds).kept = (after changingMinds).uncalled ∧
    (World.announcement (.started "") { memory := (), bus := (after changingMinds).bus }).1 = ["b", "a"] := by
  obtain ⟨heard, _, _, throughout, _⟩ := registrations_taken_back (σ := Unit) changingMinds
  refine ⟨throughout.2 (fun i number called => ?_) 4, heard (.started "") { memory := () }⟩
  rcases i with _ | _ | _ | _ | i <;> cases called
  decide

/-- The function of a registration takes an earlier one of its callback back. -/
theorem another_taken_back :
    ¬ ∀ (acts : List Subscribing) (event : Event) (w : World Unit),
      (World.announcement event { w with bus := (after acts).bus }).1 =
        (after acts).callbacks event.kind (after acts).uncalled := by
  intro own
  have := own [.register .executionStarted "a", .register .executionStarted "b", .register .executionStarted "a",
    .takeBack 2] (.started "") { memory := () }
  revert this
  decide

-- called once more, it takes back the registration of somebody else
example : (after [.register .executionStarted "a", .register .executionStarted "a", .takeBack 0,
    .takeBack 0]).bus.callbacks .executionStarted = [] := rfl

end Runbook
