import Runbook.Proofs.Drift
import Runbook.Proofs.Punctuality

/-! # The posts of tasks

What is settled about each of the tasks that have not ended fits together: a branch ends when its creator expects
it to, and has left behind by then what it was to leave; nobody else collects that; and at most one task owns the
ledger, which is left as it was to be left when its owner has ended.
-/

namespace Runbook

/-- The posts of the tasks that have not ended. -/
abbrev Posts := TaskId → Option Post

variable {posts posts' : Posts} {a a' : Agenda} {x y : Moment} {l l' final : Ledger} {s t : TaskId} {b c b' : Post}
  {branch : Branch} {outcome : Outcome}

/-! ## Outcomes -/

namespace Agenda

theorem left?_leave (none : a.left? t = none) (outcome : Outcome) (s : TaskId) :
    ({ a with outcomes := a.outcomes ++ [(t, outcome)] } : Agenda).left? s =
      if s = t then some outcome else a.left? s := by
  simp only [left?, List.find?_append, Option.map_eq_none_iff] at none ⊢
  by_cases same : s = t
  · subst same
    simp [none]
  · simp [same, Ne.symm same]

theorem left?_collect (a : Agenda) (ids : List TaskId) (s : TaskId) :
    ({ a with outcomes := a.outcomes.filter fun o => !ids.contains o.1 } : Agenda).left? s =
      if s ∈ ids then none else a.left? s := by
  simp only [left?, List.find?_filter]
  split
  · next listed =>
    simp only [Option.map_eq_none_iff, List.find?_eq_none]
    intro o _ both
    obtain ⟨unlisted, named⟩ : o.1 ∉ ids ∧ o.1 = s := by simpa using both
    exact unlisted (named ▸ listed)
  · next unlisted =>
    congr 2
    funext o
    by_cases named : o.1 = s
    · simp [named, unlisted]
    · simp [named]

end Agenda

/-! ## Tasks and their branches -/

/-- What a task can count on about a branch that it has not collected. -/
structure Posts.Holds (posts : Posts) (a : Agenda) (x : Moment) (t : TaskId) (branch : Branch) : Prop where
  later : t < branch.id
  created : branch.id < a.created
  term : ∀ c, posts branch.id = some c → c.term = branch.term
  ended : posts branch.id = none → branch.term ≤ x
  promise : (∃ c, posts branch.id = some c ∧ c.owes = some branch.outcome) ∨ a.left? branch.id = some branch.outcome

/-- Every task has a post, and branches come to what their creators expect. -/
structure Posts.Kept (posts : Posts) (a : Agenda) (x : Moment) : Prop where
  enlisted : ∀ t, t ∈ a.alive ↔ ∃ b, posts t = some b
  branches : ∀ t b, posts t = some b → ∀ branch ∈ b.branches, posts.Holds a x t branch
  apart : ∀ s t b c, posts s = some b → posts t = some c → ∀ branch ∈ b.branches, ∀ branch' ∈ c.branches,
    branch.id = branch'.id → s = t
  owing : ∀ t b outcome, posts t = some b → b.owes = some outcome → a.left? t = none
  left : ∀ t outcome, a.left? t = some outcome → t < a.created

namespace Posts

namespace Kept

variable (kept : posts.Kept a x)

include kept

theorem alive (found : posts t = some b) : t ∈ a.alive := (kept.enlisted t).mpr ⟨b, found⟩

theorem unposted (ended : t ∉ a.alive) : posts t = none := by
  cases found : posts t with
  | none => rfl
  | some b => exact absurd (kept.alive found) ended

/-- Only the tasks and what they left behind matter. -/
theorem congr (alive : ∀ t, t ∈ a'.alive ↔ t ∈ a.alive) (created : a'.created = a.created)
    (outcomes : a'.outcomes = a.outcomes) : posts.Kept a' x := by
  have left (t : TaskId) : a'.left? t = a.left? t := by rw [Agenda.left?, outcomes, Agenda.left?]
  refine ⟨fun t => (alive t).trans (kept.enlisted t), fun t b found branch member => ?_, kept.apart,
    fun t b outcome found owes => ?_, fun t outcome found => ?_⟩
  · have holds := kept.branches t b found branch member
    exact { holds with
      created := created ▸ holds.created
      promise := (left branch.id).symm ▸ holds.promise }
  · rw [left]
    exact kept.owing t b outcome found owes
  · rw [left] at found
    rw [created]
    exact kept.left t outcome found

/-- Branches that have ended go on having ended. -/
theorem later (after : x ≤ y) : posts.Kept a y :=
  { kept with
    branches := fun t b found branch member =>
      let holds := kept.branches t b found branch member
      { holds with ended := fun none => (holds.ended none).trans after } }

/-- The post of a task changes, and perhaps what is left behind, but not when the task ends. -/
theorem turns (found : posts t = some b) (b' : Post) {outcomes : List (TaskId × Outcome)} (term : b'.term = b.term)
    (fewer : ∀ branch ∈ b'.branches, branch ∈ b.branches)
    (promise : ∀ s c branch, posts s = some c → branch ∈ c.branches → (s = t → branch ∈ b'.branches) →
      ((∃ d, posts branch.id = some d ∧ d.owes = some branch.outcome) ∨ a.left? branch.id = some branch.outcome) →
      (∃ d, Function.update posts t (some b') branch.id = some d ∧ d.owes = some branch.outcome) ∨
        ({ a with outcomes } : Agenda).left? branch.id = some branch.outcome)
    (owing : ∀ s c outcome, Function.update posts t (some b') s = some c → c.owes = some outcome →
      ({ a with outcomes } : Agenda).left? s = none)
    (left : ∀ s outcome, ({ a with outcomes } : Agenda).left? s = some outcome → s < a.created) :
    Posts.Kept (Function.update posts t (some b')) { a with outcomes } x := by
  have before {s : TaskId} {c : Post} (known : Function.update posts t (some b') s = some c) :
      ∃ d, posts s = some d ∧ c.term = d.term ∧ (∀ branch ∈ c.branches, branch ∈ d.branches) ∧
        (s = t → c.branches = b'.branches) := by
    rcases noted_cases known with ⟨rfl, ⟨⟩⟩ | ⟨different, known⟩
    · exact ⟨b, found, term, fewer, fun _ => rfl⟩
    · exact ⟨c, known, rfl, fun _ member => member, fun same => absurd same different⟩
  refine ⟨fun s => (kept.enlisted s).trans ?_, fun s c known branch member => ?_,
    fun s s' c c' known known' branch member branch' member' same => ?_, owing, left⟩
  · rcases eq_or_ne s t with rfl | different
    · rw [Function.update_self, found]
      simp
    · rw [Function.update_of_ne different]
  · obtain ⟨d, known', -, listed, mine⟩ := before known
    have holds := kept.branches s d known' branch (listed branch member)
    refine { holds with
      term := fun c' held => ?_
      ended := fun none => holds.ended ?_
      promise := promise s d branch known' (listed branch member) (fun same => mine same ▸ member) holds.promise }
    · obtain ⟨d', held', same, -⟩ := before held
      exact same.trans (holds.term d' held')
    · exact noted_none none
  · obtain ⟨d, held, -, listed, -⟩ := before known
    obtain ⟨d', held', -, listed', -⟩ := before known'
    exact kept.apart s s' d d' held held' branch (listed branch member) branch' (listed' branch' member') same

/-- The post of a task changes in what does not concern branches. -/
theorem amends (found : posts t = some b) (b' : Post) (term : b'.term = b.term) (owes : b'.owes = b.owes)
    (branches : b'.branches = b.branches) : Posts.Kept (Function.update posts t (some b')) a x := by
  refine kept.turns found b' term (fun _ member => branches ▸ member) (fun _ _ branch _ _ _ promise => ?_)
    (fun s c outcome known owed => ?_) kept.left
  · refine promise.imp_left fun owing => noted_update owing fun d held owed => ?_
    cases held.symm.trans found
    exact owes.trans owed
  · rcases noted_cases known with ⟨rfl, ⟨⟩⟩ | ⟨-, known⟩
    · exact kept.owing s b outcome found (owes.symm.trans owed)
    · exact kept.owing s c outcome known owed

/-- A task leaves behind what it owes. -/
theorem leaves (found : posts t = some b) (owes : b.owes = some outcome) (old : t < a.created) :
    Posts.Kept (Function.update posts t (some { b with owes := none }))
      { a with outcomes := a.outcomes ++ [(t, outcome)] } x := by
  have none := kept.owing t b outcome found owes
  have left := Agenda.left?_leave none outcome
  refine kept.turns found { b with owes := .none } rfl (fun _ member => member) (fun _ _ branch _ _ _ promise => ?_)
    (fun s c outcome' known owed => ?_) fun s outcome' known => ?_
  · rw [left]
    rcases eq_or_ne branch.id t with named | different
    · rw [if_pos named]
      rw [named] at promise
      rcases promise with ⟨d, held, owed⟩ | ended
      · cases held.symm.trans found
        exact .inr (owes.symm.trans owed)
      · cases none.symm.trans ended
    · rwa [if_neg different, Function.update_of_ne different]
  · rcases noted_cases known with ⟨rfl, ⟨⟩⟩ | ⟨different, known⟩
    · cases owed
    · rw [left, if_neg different]
      exact kept.owing s c outcome' known owed
  · rw [left] at known
    split at known
    · next same => exact same ▸ old
    · exact kept.left s outcome' known

/-- A task takes what its branches left behind. -/
theorem collects (found : posts t = some b) :
    Posts.Kept (Function.update posts t (some { b with branches := [], joined := false }))
      { a with outcomes := a.outcomes.filter fun o => !(b.branches.map (·.id)).contains o.1 } x := by
  have left := a.left?_collect (b.branches.map (·.id))
  refine kept.turns found { b with branches := [], joined := false } rfl (fun _ member => nomatch member)
    (fun s c branch known member mine promise => ?_) (fun s c outcome known owed => ?_) fun s outcome known => ?_
  · have different : branch.id ∉ b.branches.map (·.id) := by
      intro listed
      obtain ⟨branch', member', same⟩ := List.mem_map.mp listed
      exact absurd (mine (kept.apart s t c b known found branch member branch' member' same.symm)) List.not_mem_nil
    rw [left, if_neg different]
    refine promise.imp_left fun owing => noted_update owing fun d held owed => ?_
    cases held.symm.trans found
    exact owed
  · rw [left]
    split
    · rfl
    · rcases noted_cases known with ⟨rfl, ⟨⟩⟩ | ⟨-, known⟩
      · exact kept.owing s b outcome found owed
      · exact kept.owing s c outcome known owed
  · rw [left] at known
    split at known
    · cases known
    · exact kept.left s outcome known

/-- A task ends when it is to, and has left behind what it was to leave. -/
theorem finishes (found : posts t = some b) (punctual : b.term ≤ x) (owes : b.owes = none)
    (alive : ∀ s, s ∈ a'.alive ↔ s ∈ a.alive ∧ s ≠ t) (retains : a.Retains a') :
    Posts.Kept (Function.update posts t none) a' x := by
  have left (t : TaskId) : a'.left? t = a.left? t := by rw [Agenda.left?, retains.outcomes, Agenda.left?]
  have before {s : TaskId} {c : Post} (known : Function.update posts t none s = some c) : posts s = some c :=
    (noted_cases known).elim (fun same => nomatch same.2) (·.2)
  refine ⟨fun s => (alive s).trans ?_, fun s c known branch member => ?_,
    fun s s' c c' known known' => kept.apart s s' c c' (before known) (before known'),
    fun s c outcome known owed => ?_, fun s outcome known => ?_⟩
  · rcases eq_or_ne s t with rfl | different
    · rw [Function.update_self]
      simp
    · rw [Function.update_of_ne different, kept.enlisted]
      simp [different]
  · have holds := kept.branches s c (before known) branch member
    refine ⟨holds.later, retains.created ▸ holds.created, fun d held => holds.term d (before held), fun none => ?_, ?_⟩
    · rcases eq_or_ne branch.id t with named | different
      · rw [← holds.term b (named ▸ found)]
        exact punctual
      · rw [Function.update_of_ne different] at none
        exact holds.ended none
    · rw [left]
      refine holds.promise.imp_left ?_
      rintro ⟨d, held, owed⟩
      have different : branch.id ≠ t := by
        intro named
        cases (named ▸ held).symm.trans found
        rw [owes] at owed
        cases owed
      exact ⟨d, (Function.update_of_ne different ..).trans held, owed⟩
  · rw [left]
    exact kept.owing s c outcome (before known) owed
  · rw [left] at known
    rw [retains.created]
    exact kept.left s outcome known

/-- There is one more task, which has no branches yet. -/
theorem begins (post : Post) (none : post.branches = []) :
    Posts.Kept (Function.update posts a.created (some post)) a.create.1 x := by
  have left (t : TaskId) : a.create.1.left? t = a.left? t := rfl
  have vacant : a.left? a.created = .none := by
    cases left : a.left? a.created with
    | none => rfl
    | some outcome => exact absurd (kept.left _ _ left) (Nat.lt_irrefl _)
  have before {s : TaskId} {c : Post} {branch : Branch} (known : Function.update posts a.created (some post) s = some c)
      (member : branch ∈ c.branches) : posts s = some c := by
    rcases noted_cases known with ⟨-, ⟨⟩⟩ | ⟨-, known⟩
    · rw [none] at member
      cases member
    · exact known
  refine ⟨fun s => (a.mem_alive_create s).trans ?_, fun s c known branch member => ?_,
    fun s s' c c' known known' branch member branch' member' =>
      kept.apart s s' c c' (before known member) (before known' member') branch member branch' member',
    fun s c outcome known owed => ?_, fun s outcome known => Nat.lt_succ_of_lt (kept.left s outcome known)⟩
  · rcases eq_or_ne s a.created with rfl | different
    · rw [Function.update_self]
      simp
    · rw [Function.update_of_ne different, kept.enlisted]
      simp [different]
  · have holds := kept.branches s c (before known member) branch member
    have same : Function.update posts a.created (some post) branch.id = posts branch.id :=
      Function.update_of_ne (Nat.ne_of_lt holds.created) ..
    exact ⟨holds.later, Nat.lt_succ_of_lt holds.created, same ▸ holds.term, same ▸ holds.ended,
      same ▸ holds.promise⟩
  · rcases noted_cases known with ⟨rfl, -⟩ | ⟨-, known⟩
    · exact vacant
    · exact kept.owing s c outcome known owed

/-- A task has one more branch, which nobody else has. -/
theorem expects (found : posts t = some b) (holds : posts.Holds a x t branch)
    (fresh : ∀ s c, posts s = some c → ∀ branch' ∈ c.branches, branch'.id ≠ branch.id) :
    Posts.Kept (Function.update posts t (some { b with branches := b.branches ++ [branch] })) a x := by
  have before {s : TaskId} {c : Post}
      (known : Function.update posts t (some { b with branches := b.branches ++ [branch] }) s = some c) :
      ∃ d, posts s = some d ∧ c.term = d.term ∧ c.owes = d.owes ∧
        ∀ branch' ∈ c.branches, branch' ∈ d.branches ∨ s = t ∧ branch' = branch := by
    rcases noted_cases known with ⟨rfl, ⟨⟩⟩ | ⟨-, known⟩
    · refine ⟨b, found, rfl, rfl, fun branch' member => ?_⟩
      exact (List.mem_append.mp member).imp_right fun last => ⟨rfl, List.mem_singleton.mp last⟩
    · exact ⟨c, known, rfl, rfl, fun _ member => .inl member⟩
  have still {s : TaskId} {branch' : Branch} (holds : posts.Holds a x s branch') :
      Posts.Holds (Function.update posts t (some { b with branches := b.branches ++ [branch] })) a x s branch' := by
    refine { holds with
      term := fun c held => ?_
      ended := fun none => holds.ended ?_
      promise := holds.promise.imp_left ?_ }
    · obtain ⟨d, held', same, -⟩ := before held
      exact same.trans (holds.term d held')
    · exact noted_none none
    · refine fun owing => noted_update owing fun d held owed => ?_
      cases held.symm.trans found
      exact owed
  refine ⟨fun s => (kept.enlisted s).trans ?_, fun s c known branch' member => ?_,
    fun s s' c c' known known' branch₁ member₁ branch₂ member₂ same => ?_, fun s c outcome known owed => ?_, kept.left⟩
  · rcases eq_or_ne s t with rfl | different
    · rw [Function.update_self, found]
      simp
    · rw [Function.update_of_ne different]
  · obtain ⟨d, held, -, -, listed⟩ := before known
    rcases listed branch' member with member | ⟨rfl, rfl⟩
    · exact still (kept.branches s d held branch' member)
    · exact still holds
  · obtain ⟨d₁, held₁, -, -, listed₁⟩ := before known
    obtain ⟨d₂, held₂, -, -, listed₂⟩ := before known'
    rcases listed₁ branch₁ member₁ with member₁ | ⟨rfl, rfl⟩ <;> rcases listed₂ branch₂ member₂ with member₂ | ⟨rfl, rfl⟩
    · exact kept.apart s s' d₁ d₂ held₁ held₂ branch₁ member₁ branch₂ member₂ same
    · exact absurd same (fresh s d₁ held₁ branch₁ member₁)
    · exact absurd same.symm (fresh s' d₂ held₂ branch₂ member₂)
    · rfl
  · obtain ⟨d, held, -, same, -⟩ := before known
    exact kept.owing s d outcome held (same.symm.trans owed)

/-- A task creates a branch. -/
theorem spawns (found : posts t = some b) (old : ∀ t ∈ a.alive, t < a.created) (term : Moment) (outcome : Outcome) :
    Posts.Kept (Function.update (Function.update posts a.created (some { term, owes := some outcome })) t
      (some { b with branches := b.branches ++ [⟨a.created, outcome, term⟩] })) a.create.1 x := by
  have begun := kept.begins { term, owes := some outcome } rfl
  have mine : t < a.created := old t (kept.alive found)
  apply begun.expects ((Function.update_of_ne (Nat.ne_of_lt mine) ..).trans found)
  · refine ⟨mine, Nat.lt_succ_self _, fun c held => ?_, fun none => ?_, .inl ⟨_, Function.update_self .., rfl⟩⟩
    · rw [Function.update_self] at held
      cases held
      rfl
    · rw [Function.update_self] at none
      cases none
  · intro s c known branch' member
    rcases noted_cases known with ⟨-, ⟨⟩⟩ | ⟨-, known⟩
    · cases member
    · exact Nat.ne_of_lt (kept.branches s c known branch' member).created

end Kept

/-! ## The owner of the ledger -/

/-- The task owns the ledger. -/
def Owns (posts : Posts) (t : TaskId) (l : Ledger) : Prop := ∃ b, posts t = some b ∧ b.ledger = some l

/-- At most one task owns the ledger, and when none does it is what it was to become. -/
structure Booked (posts : Posts) (l final : Ledger) : Prop where
  single : ∀ s t l₁ l₂, posts.Owns s l₁ → posts.Owns t l₂ → s = t
  owned : ∀ t l', posts.Owns t l' → l = l'
  final : (∀ t l', ¬posts.Owns t l') → l = final

/-- The same task owns the same ledger. -/
theorem Booked.congr (booked : posts.Booked l final) (same : ∀ t l, posts'.Owns t l ↔ posts.Owns t l) :
    posts'.Booked l final where
  single s t l₁ l₂ mine yours := booked.single s t l₁ l₂ ((same s l₁).mp mine) ((same t l₂).mp yours)
  owned t l' mine := booked.owned t l' ((same t l').mp mine)
  final none := booked.final fun t l' mine => none t l' ((same t l').mpr mine)

theorem owns_update (posts : Posts) (t : TaskId) (post : Option Post) (s : TaskId) (l : Ledger) :
    Posts.Owns (Function.update posts t post) s l ↔
      if s = t then ∃ b, post = some b ∧ b.ledger = some l else posts.Owns s l := by
  unfold Owns
  split
  · next same =>
    subst same
    rw [Function.update_self]
  · next different => rw [Function.update_of_ne different]

/-- The post of a task changes in what does not concern the ledger. -/
theorem Booked.amends (booked : posts.Booked l final) (found : posts t = some b) (same : b'.ledger = b.ledger) :
    Posts.Booked (Function.update posts t (some b')) l final := by
  refine booked.congr fun s l => ?_
  rw [owns_update]
  split
  · next mine =>
    subst mine
    simp [Owns, found, same]
  · exact Iff.rfl

/-- A task has a post that had none, and does not own the ledger. -/
theorem Booked.begins (booked : posts.Booked l final) (none : posts t = none) (other : b.ledger = .none) :
    Posts.Booked (Function.update posts t (some b)) l final := by
  refine booked.congr fun s l => ?_
  rw [owns_update]
  split
  · next mine =>
    subst mine
    simp [Owns, none, other]
  · exact Iff.rfl

/-- The owner changes the ledger. -/
theorem Booked.writes (booked : posts.Booked l final) (found : posts t = some b) (owns : b.ledger ≠ none) (l' : Ledger) :
    Posts.Booked (Function.update posts t (some { b with ledger := some l' })) l' final := by
  obtain ⟨mine, owned⟩ := Option.ne_none_iff_exists'.mp owns
  have only {s : TaskId} {l₁ : Ledger}
      (yours : Posts.Owns (Function.update posts t (some { b with ledger := some l' })) s l₁) :
      s = t ∧ l₁ = l' := by
    rw [owns_update] at yours
    split at yours
    · next same =>
      obtain ⟨_, ⟨⟩, ⟨⟩⟩ := yours
      exact ⟨same, rfl⟩
    · next different => exact absurd (booked.single s t l₁ mine yours ⟨b, found, owned⟩) different
  refine ⟨fun s t l₁ l₂ first second => (only first).1.trans (only second).1.symm, fun s l₁ first => (only first).2.symm,
    fun none => absurd ?_ (none t l')⟩
  exact ⟨_, Function.update_self .., rfl⟩

/-- A task ends, and if it owns the ledger, that is what it was to become. -/
theorem Booked.finishes (booked : posts.Booked l final) (found : posts t = some b)
    (ready : ∀ l', b.ledger = some l' → l' = final) : Posts.Booked (Function.update posts t none) l final := by
  have before {s : TaskId} {l₁ : Ledger} (owns : Posts.Owns (Function.update posts t none) s l₁) : posts.Owns s l₁ := by
    obtain ⟨c, known, mine⟩ := owns
    exact ⟨c, (noted_cases known).elim (fun same => nomatch same.2) (·.2), mine⟩
  refine ⟨fun s t l₁ l₂ first second => booked.single s t l₁ l₂ (before first) (before second),
    fun s l₁ first => booked.owned s l₁ (before first), fun none => ?_⟩
  cases owns : b.ledger with
  | none =>
    refine booked.final fun s l₁ ⟨c, known, mine⟩ => ?_
    rcases eq_or_ne s t with rfl | different
    · cases known.symm.trans found
      cases owns.symm.trans mine
    · exact none s l₁ ⟨c, (Function.update_of_ne different ..).trans known, mine⟩
  | some l' => exact (booked.owned t l' ⟨b, found, owns⟩).trans (ready l' owns)

end Posts

end Runbook
