import Runbook.Proofs.Custody

/-! # Requests and those who wait for them

A request that a task still tends is pending, and belongs to an execution that the task serves. As long as
nobody has settled it the execution is active, or else it was cancelled before the request was opened. So
whoever waits for an operator can be answered, or has come too late to be released.
-/

namespace Runbook

variable {σ : Type}

/-! ## Tokens -/

namespace Gate

variable {g g' : Gate} {token : String} {r : Request}

theorem tokenOf_injective : Function.Injective tokenOf := by
  intro n n' same
  simp only [tokenOf, String.append_left_inj, String.append_right_inj] at same
  exact Workflow.serial_injective same

/-- The tokens of the requests, in order. -/
def tokens (g : Gate) : List String := g.requests.map (·.token)

/-- The requests have the tokens that they were given in order. -/
def Numbered (g : Gate) : Prop := g.tokens = (List.range g.requests.length).map fun n => tokenOf (n + 1)

theorem Numbered.nodup (numbered : g.Numbered) : g.tokens.Nodup := by
  rw [numbered]
  refine List.nodup_range.map fun n n' same => ?_
  exact Nat.succ.inj (tokenOf_injective same)

theorem find?_mem (found : g.find? token = some r) : r ∈ g.requests ∧ r.token = token :=
  ⟨List.mem_of_find?_eq_some found, by simpa using List.find?_some found⟩

theorem Numbered.find? (numbered : g.Numbered) (member : r ∈ g.requests) : g.find? r.token = some r := by
  obtain ⟨r', chosen⟩ : ∃ r', g.requests.find? (·.token == r.token) = some r' :=
    Option.isSome_iff_exists.mp (List.find?_isSome.mpr ⟨r, member, by simp⟩)
  have same : r' = r := List.inj_on_of_nodup_map numbered.nodup (List.mem_of_find?_eq_some chosen) member
    (by simpa using List.find?_some chosen)
  rw [Gate.find?, chosen, same]

/-- The next token is new. -/
theorem Numbered.fresh (numbered : g.Numbered) : g.find? (tokenOf (g.requests.length + 1)) = none := by
  refine List.find?_eq_none.mpr fun r member => ?_
  have listed : r.token ∈ g.tokens := List.mem_map_of_mem member
  rw [numbered] at listed
  obtain ⟨n, bound, same⟩ := List.mem_map.mp listed
  intro equal
  have number : n + 1 = g.requests.length + 1 :=
    tokenOf_injective (same.trans (by simpa using equal))
  rw [List.mem_range] at bound
  omega

theorem Settles.tokens (settles : g.Settles g') : g'.tokens = g.tokens := by
  obtain ⟨f, becomes, requests⟩ := settles
  rw [Gate.tokens, requests, List.map_map]
  exact List.map_congr_left fun r _ => (becomes r).token

theorem Settles.numbered (settles : g.Settles g') (numbered : g.Numbered) : g'.Numbered := by
  have tokens := settles.tokens
  obtain ⟨f, _, requests⟩ := settles
  rw [Numbered, tokens, requests, List.length_map]
  exact numbered

theorem Numbered.request (numbered : g.Numbered) (execution : String) (stepIndex : Int) :
    (g.request execution stepIndex).1.Numbered := by
  have tokens : (g.request execution stepIndex).1.tokens = g.tokens ++ [tokenOf (g.requests.length + 1)] := by
    simp [Gate.tokens, Gate.request]
  rw [Numbered, tokens, numbered]
  simp [Gate.request, List.range_succ]

theorem find?_request_old (found : g.find? token = some r) (execution : String) (stepIndex : Int) :
    (g.request execution stepIndex).1.find? token = some r := by
  rw [Gate.find?] at found
  rw [Gate.request, Gate.find?, List.find?_append, found]
  rfl

theorem Numbered.find?_request (numbered : g.Numbered) (execution : String) (stepIndex : Int) :
    (g.request execution stepIndex).1.find? (g.request execution stepIndex).2 =
      some { token := tokenOf (g.requests.length + 1), execution, stepIndex } := by
  have fresh : g.requests.find? (·.token == tokenOf (g.requests.length + 1)) = none := numbered.fresh
  simp [Gate.request, Gate.find?, List.find?_append, fresh]

theorem tokens_withdraw (g : Gate) (token : String) : (g.withdraw token).tokens = g.tokens := by
  simp only [tokens, withdraw, amend, List.map_map]
  refine List.map_congr_left fun r _ => ?_
  simp only [Function.comp_apply]
  split <;> rfl

theorem Numbered.withdraw (numbered : g.Numbered) (token : String) : (g.withdraw token).Numbered := by
  rw [Numbered, tokens_withdraw, Gate.withdraw, Gate.amend, List.length_map]
  exact numbered

theorem find?_withdraw_other {other : String} (different : other ≠ token)
    (found : g.find? other = some r) : (g.withdraw token).find? other = some r := by
  obtain ⟨_, named⟩ := find?_mem found
  have keys : (fun r : Request => r.token == other) ∘
      (fun r : Request => if r.token == token then { r with listed := false } else r) =
        fun r => r.token == other := by
    funext r
    simp only [Function.comp_apply]
    split <;> rfl
  rw [Gate.find?] at found
  rw [Gate.find?, Gate.withdraw, Gate.amend, List.find?_map, keys, found, Option.map_some,
    if_neg (by simpa [named] using different)]

end Gate

/-! ## The invariant -/

variable {e : Engine σ} {roster roster' : Roster} {w w' : World σ} {t : TaskId} {d d' : Duty}
  {id token : String} {late late' : String → String → Prop}

/-- The requests that tasks tend are pending. Which requests of an execution came too late is left open. -/
structure Tended (roster : Roster) (w : World σ) (late : String → String → Prop) : Prop where
  numbered : w.gate.Numbered
  tended : ∀ t d token, roster t = some d → d.tends = some token →
    ∃ r, w.gate.find? token = some r ∧ r.listed = true ∧ d.Serves r.execution ∧
      (r.isOpen = true → w.ledger.isActive r.execution = true ∨ late r.execution token)
  single : ∀ s t d d' token, roster s = some d → roster t = some d' → d.tends = some token →
    d'.tends = some token → s = t

/-- What a move can do to the activity of an execution that had been active: it stays active, its driver
lets go of it, or its pending requests are settled. -/
theorem Engine.Affair.active (affair : e.Affair d w d' w') (active : w.ledger.isActive id = true) :
    w'.ledger.isActive id = true ∨ (d.drives = some id ∧ d.owes = [] ∧ d' = {}) ∨
      ∀ r ∈ w'.gate.requests, r.listed = true → r.execution = id → r.isOpen = false := by
  have same (ledger : w'.ledger.active = w.ledger.active) : w'.ledger.isActive id = true := by
    rwa [Ledger.isActive, ledger]
  cases affair with
  | plain alike ledger _ => exact .inl (same ledger.active)
  | admits _ other _ _ x _ _ ledger =>
    refine .inl ?_
    rw [ledger, Ledger.isActive_iff, Ledger.enroll]
    exact List.mem_append_left _ (Ledger.isActive_iff.mp active)
  | begins _ _ _ ledger => exact .inl (ledger ▸ active)
  | ends _ _ _ _ _ ledger | cuts _ _ _ _ _ ledger | untimes _ _ _ _ ledger =>
    exact .inl (same (by rw [ledger]; rfl))
  | retires other drives owes world =>
    by_cases named : id = other
    · subst named
      exact .inr (.inl ⟨drives, owes, rfl⟩)
    · rcases world with ⟨listed, ledger, _⟩ | ⟨_, ledger, _⟩
      · exact .inl (by rwa [ledger, Ledger.isActive_retire_other _ listed named])
      · exact .inl (by rwa [ledger])
  | withdraws other listed settled y _ ledger =>
    by_cases named : id = other
    · subst named
      exact .inr (.inr settled)
    · left
      rw [ledger, Ledger.isActive_retire_other (l := w.ledger.amend other fun _ => y) _ listed named]
      exact active
  | clears ledger => exact .inl (same (by rw [ledger]; rfl))

namespace Tended

/-- Requests are settled, and whoever tends one did so before. -/
theorem frame (tended : Tended roster w late) (gate : w.gate.Settles w'.gate)
    (origin : ∀ t d' token, roster' t = some d' → d'.tends = some token →
      ∃ d, roster t = some d ∧ d.tends = some token ∧ ∀ id, d.Serves id → d'.Serves id)
    (active : ∀ t d' r, roster' t = some d' → d'.Serves r.execution → r ∈ w'.gate.requests →
      r.listed = true → r.isOpen = true → w.ledger.isActive r.execution = true →
        w'.ledger.isActive r.execution = true)
    (later : ∀ id token, late id token → late' id token) : Tended roster' w' late' where
  numbered := gate.numbered tended.numbered
  tended t d' token found' tends' := by
    obtain ⟨d, found, tends, serves⟩ := origin t d' token found' tends'
    obtain ⟨r, known, listed, served, opened⟩ := tended.tended t d token found tends
    rcases gate.find? token with ⟨none, _⟩ | ⟨r₀, r', before, after, becomes⟩
    · cases none.symm.trans known
    obtain rfl := Option.some.inj (before.symm.trans known)
    have serves' : d'.Serves r'.execution := becomes.execution ▸ serves _ served
    have listed' : r'.listed = true := becomes.listed.trans listed
    refine ⟨r', after, listed', serves', fun still => ?_⟩
    obtain rfl := becomes.isOpen still
    refine (opened still).imp (fun listing => ?_) (later _ _)
    exact active t d' r' found' serves' (Gate.find?_mem after).1 listed' still listing
  single s t d₁ d₂ token found₁ found₂ tends₁ tends₂ := by
    obtain ⟨d₃, found₃, tends₃, _⟩ := origin s d₁ token found₁ tends₁
    obtain ⟨d₄, found₄, tends₄, _⟩ := origin t d₂ token found₂ tends₂
    exact tended.single s t d₃ d₄ token found₃ found₄ tends₃ tends₄

/-- A task opens a request for an execution that it serves, which is active or was cancelled before. -/
theorem opens (tended : Tended roster w late) (staffed : Staffed roster w) (found : roster t = some d)
    (context : Context) (serves : d.Serves context.execution)
    (later : ∀ id token, late id token → late' id token)
    (lateness : ∀ id token, .cancelled id ∈ w.journal → w.gate.find? token = none → late' id token) :
    Tended (roster.put t { d with tends := some (Interpreter.openRequest context w).1 })
      (Interpreter.openRequest context w).2 late' := by
  have fresh : w.gate.find? (Interpreter.openRequest context w).1 = none := tended.numbered.fresh
  have untended {s : TaskId} {d₁ : Duty} (found₁ : roster s = some d₁) :
      d₁.tends ≠ some (Interpreter.openRequest context w).1 := by
    intro tends
    obtain ⟨r, known, _⟩ := tended.tended s d₁ _ found₁ tends
    cases fresh.symm.trans known
  exact {
    numbered := tended.numbered.request context.execution context.stepIndex
    tended := fun s d₁ token found₁ tends₁ => by
      rcases Roster.put_some found₁ with ⟨rfl, rfl⟩ | ⟨_, old₁⟩
      · obtain rfl := Option.some.inj tends₁
        refine ⟨_, tended.numbered.find?_request context.execution context.stepIndex, rfl, serves, fun _ => ?_⟩
        rcases (staffed.serving s d _ found serves).2.2 with active | cancelled
        · exact .inl active
        · exact .inr (lateness _ _ cancelled fresh)
      · obtain ⟨r, known, listed, served, opened⟩ := tended.tended s d₁ token old₁ tends₁
        exact ⟨r, Gate.find?_request_old known _ _, listed, served, fun still => (opened still).imp_right (later _ _)⟩
    single := fun s s' d₁ d₂ token found₁ found₂ tends₁ tends₂ => by
      rcases Roster.put_some found₁ with ⟨rfl, rfl⟩ | ⟨_, old₁⟩ <;>
        rcases Roster.put_some found₂ with ⟨rfl, rfl⟩ | ⟨_, old₂⟩
      · rfl
      · exact absurd (tends₂.trans tends₁.symm) (untended old₂)
      · exact absurd (tends₁.trans tends₂.symm) (untended old₁)
      · exact tended.single s s' d₁ d₂ token old₁ old₂ tends₁ tends₂ }

/-- A task takes its request off the gate. -/
theorem takes (tended : Tended roster w late) (found : roster t = some d) (tends : d.tends = some token)
    (later : ∀ id token, late id token → late' id token) :
    Tended (roster.put t { d with tends := none }) (Interpreter.takeAnswer token w).2 late' where
  numbered := tended.numbered.withdraw token
  tended s d₁ other found₁ tends₁ := by
    rcases Roster.put_some found₁ with ⟨rfl, rfl⟩ | ⟨different, old₁⟩
    · cases tends₁
    · obtain ⟨r, known, listed, served, opened⟩ := tended.tended s d₁ other old₁ tends₁
      have apart : other ≠ token := by
        rintro rfl
        exact different (tended.single s t d₁ d other old₁ found tends₁ tends)
      exact ⟨r, Gate.find?_withdraw_other apart known, listed, served,
        fun still => (opened still).imp_right (later _ _)⟩
  single s s' d₁ d₂ other found₁ found₂ tends₁ tends₂ := by
    rcases Roster.put_some found₁ with ⟨rfl, rfl⟩ | ⟨_, old₁⟩
    · cases tends₁
    rcases Roster.put_some found₂ with ⟨rfl, rfl⟩ | ⟨_, old₂⟩
    · cases tends₂
    · exact tended.single s s' d₁ d₂ other old₁ old₂ tends₁ tends₂

theorem act (tended : Tended roster w late) (staffed : Staffed roster w) (found : roster t = some d)
    (ledger : w.ledger.Orderly) (orderly : w.agenda.Orderly) (act : e.Act d w d' w')
    (later : ∀ id token, late id token → late' id token)
    (lateness : ∀ id token, .cancelled id ∈ w.journal → w.gate.find? token = none → late' id token) :
    Tended (roster.put t d') w' late' := by
  have affair := act.affair ledger fun id => staffed.recorded found
  -- Whoever serves an active execution after the act finds it active, or its requests settled.
  have active (gate : w.gate.Settles w'.gate)
      (tends : ∀ token, d'.tends = some token → d.tends = some token ∧ ∀ id, d.Serves id → d'.Serves id) :
      Tended (roster.put t d') w' late' := by
    refine tended.frame gate (fun s d₁ token found₁ tends₁ => ?_) (fun s d₁ r found₁ serves member listed still
      active => ?_) later
    · rcases Roster.put_some found₁ with ⟨rfl, rfl⟩ | ⟨_, old₁⟩
      · exact ⟨d, found, tends token tends₁⟩
      · exact ⟨d₁, old₁, tends₁, fun _ serves => serves⟩
    · rcases affair.active active with active | ⟨drives, owes, free⟩ | settled
      · exact active
      · rcases Roster.put_some found₁ with ⟨rfl, rfl⟩ | ⟨different, old₁⟩
        · rw [free] at serves
          exact absurd serves (Duty.not_serves_of_free ⟨rfl, rfl⟩)
        · exact absurd (staffed.alone found drives owes s d₁ old₁ serves) different
      · cases still.symm.trans (settled r member listed rfl)
  rcases act.setting orderly with ⟨wakes, tends⟩ | ⟨id, driver, _, kept, world⟩ |
    ⟨context, serves, opened, world⟩ | ⟨token, tends, taken, world⟩
  · exact active wakes.gate tends
  · refine active (by rw [world]; exact .refl _) fun token tends => ?_
    rw [kept] at tends ⊢
    exact ⟨tends, fun _ serves => serves⟩
  · rw [opened, world]
    exact tended.opens staffed found context serves later lateness
  · rw [taken, world]
    exact tended.takes found tends later

/-- Whatever happens, the requests that tasks tend stay pending. -/
theorem shift (tended : Tended roster w late) (staffed : Staffed roster w) (shift : e.Shift roster w roster' w')
    (later : ∀ id token, late id token → late' id token)
    (lateness : ∀ id token, .cancelled id ∈ w.journal → w.gate.find? token = none → late' id token) :
    Tended roster' w' late' := by
  have quiet (gate : w.gate.Settles w'.gate) (ledger : w'.ledger = w.ledger)
      (origin : ∀ t d' token, roster' t = some d' → d'.tends = some token →
        ∃ d, roster t = some d ∧ d.tends = some token ∧ ∀ id, d.Serves id → d'.Serves id) :
      Tended roster' w' late' :=
    tended.frame gate origin (fun _ _ _ _ _ _ _ _ active => ledger ▸ active) later
  have same {t : TaskId} {d : Duty} {token : String} (found : roster t = some d) (tends : d.tends = some token) :
      ∃ d₀, roster t = some d₀ ∧ d₀.tends = some token ∧ ∀ id, d₀.Serves id → d.Serves id :=
    ⟨d, found, tends, fun _ serves => serves⟩
  cases shift with
  | act task d d' found ledger fit act => exact tended.act staffed found ledger fit.orderly act later lateness
  | hire task d given d' found old new hires =>
    refine quiet (.refl _) rfl fun t d₁ token found₁ tends₁ => ?_
    rcases Roster.put_some found₁ with ⟨rfl, rfl⟩ | ⟨_, found₁⟩
    · cases hires <;> cases tends₁
    rcases Roster.put_some found₁ with ⟨rfl, rfl⟩ | ⟨_, found₁⟩
    · cases hires with
      | aide => exact same found tends₁
      | driver => exact same (d := d) found tends₁
      | branch => exact same (d := d) found tends₁
    · exact same found₁ tends₁
  | visit =>
    refine quiet (.refl _) rfl fun t d₁ token found₁ tends₁ => ?_
    rcases Roster.put_some found₁ with ⟨rfl, rfl⟩ | ⟨_, found₁⟩
    · cases tends₁
    · exact same found₁ tends₁
  | rest task d found ended passes =>
    refine quiet passes.gate passes.ledger fun t d₁ token found₁ tends₁ => ?_
    rcases Roster.put_some found₁ with ⟨rfl, rfl⟩ | ⟨_, found₁⟩
    · exact same (d := d) found tends₁
    · exact same found₁ tends₁
  | quit =>
    exact quiet (.refl _) rfl fun _ _ _ found₁ tends₁ => same (Roster.drop_some found₁).2 tends₁
  | pass passes => exact quiet passes.gate passes.ledger fun _ _ _ found₁ tends₁ => same found₁ tends₁
  | forget => exact quiet (.refl _) rfl fun _ _ _ found₁ tends₁ => same found₁ tends₁

end Tended

/-! ## Requests that nobody tends -/

/-- The request was opened, and nobody tends it. -/
structure Untended (roster : Roster) (w : World σ) (token : String) : Prop where
  opened : token ∈ w.gate.tokens
  tends : ∀ t d, roster t = some d → d.tends ≠ some token

/-- Requests stay on record. -/
theorem Engine.Shift.opened (shift : e.Shift roster w roster' w') (opened : token ∈ w.gate.tokens) :
    token ∈ w'.gate.tokens := by
  cases shift with
  | act t d d' found ledger fit act =>
    rcases act.setting fit.orderly with ⟨wakes, _⟩ | ⟨_, _, _, _, kept⟩ | ⟨_, _, _, asked⟩ | ⟨_, _, _, taken⟩
    · rwa [wakes.gate.tokens]
    · rwa [kept]
    · rw [asked, Interpreter.openRequest, Gate.request, Gate.tokens, List.map_append]
      exact List.mem_append_left _ opened
    · rw [taken, Interpreter.takeAnswer]
      simpa only [Gate.tokens_withdraw] using opened
  | hire | visit | quit | forget => exact opened
  | rest _ _ _ _ passes => rwa [passes.gate.tokens]
  | pass passes => rwa [passes.gate.tokens]

/-- Nobody comes to tend a request that was opened before. -/
theorem Untended.shift (untended : Untended roster w token) (numbered : w.gate.Numbered)
    (shift : e.Shift roster w roster' w') : Untended roster' w' token where
  opened := shift.opened untended.opened
  tends t d' found' tends' := by
    have old {t : TaskId} {d : Duty} (found : roster t = some d) : d.tends ≠ some token :=
      untended.tends t d found
    cases shift.origin found' with
    | same found => exact old found tends'
    | act d found ledger fit act =>
      rcases act.setting fit.orderly with ⟨_, tends⟩ | ⟨_, _, _, kept, _⟩ | ⟨context, _, asked, _⟩ |
        ⟨_, _, taken, _⟩
      · exact old found (tends token tends').1
      · rw [kept] at tends'
        exact old found tends'
      · rw [asked] at tends'
        have fresh := numbered.fresh
        rw [Gate.find?, List.find?_eq_none] at fresh
        obtain ⟨r, member, named⟩ := List.mem_map.mp untended.opened
        refine fresh r member ?_
        rw [beq_iff_eq, named]
        exact (Option.some.inj tends').symm
      · rw [taken] at tends'
        cases tends'
    | rested d found rested =>
      subst rested
      exact old (d := d) found tends'
    | hires d given found hires =>
      cases hires with
      | aide => exact old found tends'
      | driver => exact old (d := d) found tends'
      | branch => exact old (d := d) found tends'
    | hired s d given found hires => cases hires <;> cases tends'
    | visitor free =>
      subst free
      cases tends'

end Runbook
