import Runbook.Proofs.Tending

/-! # Whom an answer reaches

An operator's answer goes to the request that was opened earliest among those that it is meant for and that
nobody has settled, and to no other. A release answers all requests of an execution that nobody has settled.
The gate looks for them among the requests that are listed, which leaves none out as long as a request goes
off the list only when it is settled.
-/

namespace Runbook

variable {σ : Type} {w : World σ} {g g' : Gate} {r : Gate.Request} {token : String}

namespace Gate

/-- An answer for an execution is meant for the request: for whichever comes first, or for the one with a given
token. -/
def Request.isMeant (r : Request) (execution : String) (token : Value) : Bool :=
  r.execution == execution && (token.isNull || token.equal (.text r.token))

/-- The request with its resolution, unless it had one. -/
def Request.settled (r : Request) (resolution : Resolution) : Request :=
  if r.isOpen then { r with resolution } else r

@[simp] theorem Request.settled_token (r : Request) (resolution : Resolution) :
    (r.settled resolution).token = r.token := by
  unfold settled
  split <;> rfl

@[simp] theorem Request.settled_execution (r : Request) (resolution : Resolution) :
    (r.settled resolution).execution = r.execution := by
  unfold settled
  split <;> rfl

theorem Request.isOpen_iff : r.isOpen = true ↔ r.resolution = .unsettled := by
  obtain ⟨_, _, _, resolution, _⟩ := r
  cases resolution <;> simp [isOpen]

theorem Request.settled_of_open (opened : r.isOpen = true) (resolution : Resolution) :
    r.settled resolution = { r with resolution } := by
  rw [settled, if_pos opened]

/-- A settled request keeps its resolution. -/
theorem Request.settled_of_closed (closed : r.isOpen = false) (resolution : Resolution) :
    r.settled resolution = r := by
  rw [settled, closed]
  rfl

/-- Requests that nobody has settled are listed. -/
def Kept (g : Gate) : Prop := ∀ r ∈ g.requests, r.isOpen = true → r.listed = true

theorem Settles.kept (settles : g.Settles g') (kept : g.Kept) : g'.Kept := by
  obtain ⟨f, becomes, requests⟩ := settles
  intro r' member opened
  rw [requests] at member
  obtain ⟨r, old, rfl⟩ := List.mem_map.mp member
  rw [(becomes r).listed]
  rw [(becomes r).isOpen opened] at opened
  exact kept r old opened

theorem Kept.request (kept : g.Kept) (execution : String) (stepIndex : Int) :
    (g.request execution stepIndex).1.Kept := by
  intro r member opened
  rcases List.mem_append.mp member with old | new
  · exact kept r old opened
  · rw [List.mem_singleton.mp new]

/-- A request that is settled goes off the list. -/
theorem Kept.withdraw (kept : g.Kept) (settled : ∀ r ∈ g.requests, r.token = token → r.isOpen = false) :
    (g.withdraw token).Kept := by
  intro r' member opened
  obtain ⟨r, old, rfl⟩ := List.mem_map.mp member
  by_cases named : r.token = token
  · rw [if_pos (beq_iff_eq.mpr named)] at opened
    cases (settled r old named).symm.trans opened
  · rw [if_neg (by simpa using named)] at opened ⊢
    exact kept r old opened

/-- The answer goes to the earliest request that it is meant for and that nobody has settled. -/
theorem Kept.addressee? (kept : g.Kept) (execution : String) (token : Value) :
    g.addressee? execution token = g.requests.find? fun r => r.isMeant execution token && r.isOpen := by
  rw [Gate.addressee?, pending, ← List.head?_filter, List.filter_filter, ← List.head?_filter]
  refine congrArg List.head? (List.filter_congr fun r member => ?_)
  cases opened : r.isOpen with
  | false => simp
  | true => simp [Request.isMeant, kept r member opened, Bool.and_comm]

/-- A release is for the requests of an execution that nobody has settled. -/
theorem Kept.unsettled (kept : g.Kept) (execution : String) :
    g.unsettled execution = g.requests.filter fun r => r.execution == execution && r.isOpen := by
  rw [Gate.unsettled, pending, List.filter_filter]
  refine List.filter_congr fun r member => ?_
  cases opened : r.isOpen with
  | false => simp
  | true => simp [kept r member opened]

/-- Among requests with different tokens exactly one is settled under a token. -/
theorem settle_split (nodup : g.tokens.Nodup) {before after : List Request}
    (split : g.requests = before ++ r :: after) (resolution : Resolution) :
    (g.settle r.token resolution).requests = before ++ r.settled resolution :: after := by
  have tokens : (before.map (·.token) ++ r.token :: after.map (·.token)).Nodup := by
    rw [tokens, split, List.map_append, List.map_cons] at nodup
    exact nodup
  have other (q : Request) (different : q.token ≠ r.token) :
      (if q.token == r.token then q.settled resolution else q) = q := if_neg (by simpa using different)
  have unlike (q : Request) (member : q ∈ before ∨ q ∈ after) : q.token ≠ r.token := by
    intro same
    rw [List.nodup_middle, List.nodup_cons, ← List.map_append] at tokens
    exact tokens.1 (same ▸ List.mem_map_of_mem (List.mem_append.mpr member))
  change g.requests.map (fun q => if q.token == r.token then q.settled resolution else q) = _
  rw [split, List.map_append, List.map_cons, if_pos (beq_self_eq_true _),
    List.map_congr_left fun q member => other q (unlike q (.inl member)),
    List.map_congr_left fun q member => other q (unlike q (.inr member)), List.map_id', List.map_id']

/-- A request after one was settled is as it was before, or it is the one and was open. -/
theorem mem_settle {resolution : Resolution} {r' : Request} (member : r' ∈ (g.settle token resolution).requests) :
    ∃ r ∈ g.requests, r' = r ∨ r.token = token ∧ r.isOpen = true ∧ r' = { r with resolution } := by
  obtain ⟨r, old, rfl⟩ := List.mem_map.mp member
  refine ⟨r, old, ?_⟩
  simp only
  split
  · next named =>
    split
    · next opened => exact .inr ⟨beq_iff_eq.mp named, opened, rfl⟩
    · exact .inl rfl
  · exact .inl rfl

/-- Under its token a request is found as all of them were changed. -/
theorem find?_map {f : Request → Request} (same : ∀ r, (f r).token = r.token) (g : Gate) (token : String) :
    (g.requests.map f).find? (·.token == token) = (g.find? token).map f := by
  have keys : (fun r : Request => r.token == token) ∘ f = fun r => r.token == token := by
    funext r
    rw [Function.comp_apply, same]
  rw [List.find?_map, keys, Gate.find?]

/-- Under its token a request is found as it was changed. -/
theorem find?_amend {f : Request → Request} (same : ∀ r, (f r).token = r.token) (g : Gate) (token other : String) :
    (g.amend token f).find? other = (g.find? other).map fun r => if other = token then f r else r := by
  refine (find?_map (fun r => ?_) g other).trans ?_
  · split
    · exact same r
    · rfl
  · cases found : g.find? other with
    | none => rfl
    | some r =>
      obtain rfl : r.token = other := (find?_mem found).2
      simp only [Option.map_some, beq_iff_eq]

theorem find?_settle (g : Gate) (token other : String) (resolution : Resolution) :
    (g.settle token resolution).find? other =
      (g.find? other).map fun r => if other = token then r.settled resolution else r :=
  find?_amend (f := (·.settled resolution)) (fun r => r.settled_token resolution) g token other

theorem find?_withdraw (g : Gate) (token other : String) :
    (g.withdraw token).find? other =
      (g.find? other).map fun r => if other = token then { r with listed := false } else r :=
  find?_amend (f := ({ · with listed := false })) (fun _ => rfl) g token other

/-! ### Requests that get no decision -/

/-- A request gets no decision, though whoever waits for it may give it up. -/
structure Request.Lingers (r r' : Request) : Prop where
  token : r'.token = r.token
  execution : r'.execution = r.execution
  resolution : r'.resolution = r.resolution ∨ r.isOpen = true ∧ r'.resolution = .abandoned

/-- No request gets a decision. -/
def Lingers (g g' : Gate) : Prop := ∀ token : String, Option.Rel Request.Lingers (g.find? token) (g'.find? token)

theorem lingers_refl (g : Gate) : g.Lingers g := fun token => by
  cases g.find? token with
  | none => exact .none
  | some r => exact .some ⟨rfl, rfl, .inl rfl⟩

theorem lingers_withdraw (g : Gate) (token : String) : g.Lingers (g.withdraw token) := fun other => by
  rw [find?_withdraw]
  cases g.find? other with
  | none => exact .none
  | some r =>
    refine .some ?_
    split <;> exact ⟨rfl, rfl, .inl rfl⟩

theorem lingers_abandon (g : Gate) (token : String) : g.Lingers (g.settle token .abandoned) := fun other => by
  rw [find?_settle]
  cases g.find? other with
  | none => exact .none
  | some r =>
    refine .some ?_
    simp only
    split
    · cases opened : r.isOpen with
      | true => rw [Request.settled_of_open opened]; exact ⟨rfl, rfl, .inr ⟨opened, rfl⟩⟩
      | false => rw [Request.settled_of_closed opened]; exact ⟨rfl, rfl, .inl rfl⟩
    · exact ⟨rfl, rfl, .inl rfl⟩

end Gate

namespace World

/-- A decision is told to the earliest request that it is meant for and that nobody has settled. -/
theorem acknowledge_eq (kept : w.gate.Kept) (execution : String) (decision : Decision) (token : Value) :
    w.acknowledge execution decision token =
      match w.gate.requests.find? fun r => r.isMeant execution token && r.isOpen with
      | some r => (w.settle r.token (.decided decision), true)
      | none => (w, false) := by
  rw [← kept.addressee?]
  rfl

/-- A decision reaches a request if there is one that it is meant for and that nobody has settled. -/
theorem acknowledge_reaches (kept : w.gate.Kept) (execution : String) (decision : Decision) (token : Value) :
    (w.acknowledge execution decision token).2 = true ↔
      ∃ r ∈ w.gate.requests, r.isMeant execution token = true ∧ r.isOpen = true := by
  rw [acknowledge_eq kept]
  cases found : w.gate.requests.find? fun r => r.isMeant execution token && r.isOpen with
  | none =>
    refine ⟨nofun, fun ⟨r, member, meant, opened⟩ => ?_⟩
    have other := List.find?_eq_none.mp found r member
    exact absurd (Bool.and_eq_true_iff.mpr ⟨meant, opened⟩) other
  | some r =>
    have fits := List.find?_some found
    exact ⟨fun _ => ⟨r, List.mem_of_find?_eq_some found, Bool.and_eq_true_iff.mp fits⟩, fun _ => rfl⟩

/-- It is the earliest of them that is settled, and no other request changes. -/
theorem acknowledge_requests (numbered : w.gate.Numbered) (kept : w.gate.Kept) {execution : String} {token : Value}
    (decision : Decision) {before after : List Gate.Request} (split : w.gate.requests = before ++ r :: after)
    (meant : r.isMeant execution token = true) (opened : r.isOpen = true)
    (earlier : ∀ q ∈ before, q.isMeant execution token = true → q.isOpen = false) :
    (w.acknowledge execution decision token).1.gate.requests =
      before ++ { r with resolution := .decided decision } :: after := by
  have found : (w.gate.requests.find? fun r => r.isMeant execution token && r.isOpen) = some r := by
    refine List.find?_eq_some_iff_append.mpr ⟨Bool.and_eq_true_iff.mpr ⟨meant, opened⟩, before, after, split, ?_⟩
    intro q member
    cases other : q.isMeant execution token with
    | false => rfl
    | true => simp [earlier q member other]
  rw [acknowledge_eq kept, found]
  change (w.gate.settle r.token (.decided decision)).requests = _
  rw [Gate.settle_split numbered.nodup split, Gate.Request.settled_of_open opened]

/-- Requests that are settled one after another, all in the same way. -/
theorem settleAll_requests (chosen : List Gate.Request) (decision : Decision) (w : World σ) :
    (chosen.foldl (fun w r => w.settle r.token (.decided decision)) w).gate.requests =
      w.gate.requests.map fun r =>
        if r.token ∈ chosen.map (·.token) then r.settled (.decided decision) else r := by
  induction chosen generalizing w with
  | nil => simp
  | cons c rest ih =>
    rw [List.foldl_cons, ih]
    change (w.gate.requests.map fun r => if r.token == c.token then r.settled (.decided decision) else r).map _ = _
    rw [List.map_map]
    refine List.map_congr_left fun r _ => ?_
    have twice : (r.settled (.decided decision)).settled (.decided decision) = r.settled (.decided decision) := by
      refine Gate.Request.settled_of_closed ?_ _
      unfold Gate.Request.settled
      split
      · rfl
      · next closed => simpa using closed
    simp only [Function.comp_apply, beq_iff_eq, List.map_cons, List.mem_cons]
    by_cases first : r.token = c.token
    · rw [if_pos first, twice, ite_self, if_pos (.inl first)]
    · rw [if_neg first]
      simp [first]

/-- A release tells all requests of an execution that nobody has settled, and counts them. -/
theorem releaseGate_spec (numbered : w.gate.Numbered) (kept : w.gate.Kept) (execution : String) (note : Value) :
    (w.releaseGate execution note).1.gate.requests = w.gate.requests.map (fun r =>
      if r.execution == execution && r.isOpen then { r with resolution := .decided (Gate.released note) } else r) ∧
    (w.releaseGate execution note).2 = w.gate.requests.countP fun r => r.execution == execution && r.isOpen := by
  have chosen := kept.unsettled execution
  constructor
  · dsimp only [releaseGate]
    rw [settleAll_requests, chosen]
    refine List.map_congr_left fun r member => ?_
    cases opened : r.isOpen with
    | false => simp [Gate.Request.settled_of_closed opened]
    | true =>
      have named : r.token ∈ ((w.gate.requests.filter fun r => r.execution == execution && r.isOpen).map (·.token)) ↔
          r.execution = execution := by
        constructor
        · intro listed
          obtain ⟨q, found, same⟩ := List.mem_map.mp listed
          obtain ⟨old, fits⟩ := List.mem_filter.mp found
          obtain rfl : q = r := List.inj_on_of_nodup_map numbered.nodup old member same
          exact beq_iff_eq.mp (Bool.and_eq_true_iff.mp fits).1
        · intro belongs
          exact List.mem_map_of_mem (List.mem_filter.mpr ⟨member, by simp [belongs, opened]⟩)
      simp only [named, beq_iff_eq, Bool.and_true, Gate.Request.settled, opened, if_true]
  · dsimp only [releaseGate]
    rw [chosen, List.countP_eq_length_filter]

end World

end Runbook
