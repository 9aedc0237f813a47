import Runbook.Proofs.Finality
import Runbook.Proofs.Manning

/-! # Retirement and the history

Two different acts retire an execution: the last one of its driver, and a cancellation. Whichever of them
finds it active puts it into the history, so that it leaves the active executions once and is put into the
history once. The history is made of those that were retired since it was last cleared.
-/

namespace Runbook

open Machine

variable {σ : Type} {e : Engine σ} {host : Host σ} {m m' : Machine σ} {w w' : World σ} {d d' : Duty}
  {id : String}

/-! ## What the journal tells of retirements -/

/-- It tells that the execution was retired. -/
def Happening.isRetirement (id : String) : Happening → Bool
  | .retired other => other == id
  | _ => false

/-- It tells nothing about the history. -/
def Happening.KeepsHistory : Happening → Prop
  | .retired _ | .cleared => False
  | _ => True

/-- How often an execution was retired. -/
def retirements (id : String) (journal : List Happening) : Nat := journal.countP (·.isRetirement id)

/-- The executions that were retired since the history was last cleared, newest first. -/
def retiredSince : List Happening → List String
  | [] => []
  | .retired id :: rest => id :: retiredSince rest
  | .cleared :: _ => []
  | _ :: rest => retiredSince rest

/-- As many executions as a limit lets the history keep. -/
def Ledger.cut (limit : Option Nat) (ids : List String) : List String :=
  match limit with
  | some n => ids.take n
  | none => ids

theorem Happening.Mere.keepsHistory {h : Happening} (mere : h.Mere) : h.KeepsHistory := by
  cases h <;> trivial

section Journal

variable {h : Happening} {new journal : List Happening}

theorem retiredSince_cons (keeps : h.KeepsHistory) : retiredSince (h :: journal) = retiredSince journal := by
  cases h <;> first | rfl | exact keeps.elim

theorem retirements_cons (keeps : h.KeepsHistory) (id : String) :
    retirements id (h :: journal) = retirements id journal := by
  have other : h.isRetirement id = false := by
    cases h <;> first | rfl | exact keeps.elim
  simp [retirements, other]

theorem retiredSince_append (keeps : ∀ h ∈ new, h.KeepsHistory) :
    retiredSince (new ++ journal) = retiredSince journal := by
  induction new with
  | nil => rfl
  | cons h rest ih =>
    rw [List.cons_append, retiredSince_cons (keeps h List.mem_cons_self)]
    exact ih fun h member => keeps h (List.mem_cons_of_mem _ member)

theorem retirements_append (keeps : ∀ h ∈ new, h.KeepsHistory) (id : String) :
    retirements id (new ++ journal) = retirements id journal := by
  induction new with
  | nil => rfl
  | cons h rest ih =>
    rw [List.cons_append, retirements_cons (keeps h List.mem_cons_self)]
    exact ih fun h member => keeps h (List.mem_cons_of_mem _ member)

theorem retirements_retired (id other : String) :
    retirements id (.retired other :: journal) = retirements id journal + if other = id then 1 else 0 := by
  simp [retirements, List.countP_cons, Happening.isRetirement]

/-- Each of those retired since then was retired. -/
theorem count_retiredSince_le (id : String) (journal : List Happening) :
    (retiredSince journal).count id ≤ retirements id journal := by
  induction journal with
  | nil => exact Nat.le_refl _
  | cons h rest ih =>
    cases h with
    | retired other =>
      rw [retiredSince, retirements_retired, List.count_cons]
      simp only [beq_iff_eq]
      exact Nat.add_le_add_right ih _
    | cleared => exact Nat.zero_le _
    | _ => exact ih

end Journal

namespace Ledger

variable {limit : Option Nat} {ids : List String}

theorem cut_sublist (limit : Option Nat) (ids : List String) : (cut limit ids).Sublist ids := by
  cases limit with
  | none => exact .refl ids
  | some n => exact List.take_sublist n ids

/-- To cut what was cut before makes no difference. -/
theorem cut_cons_cut (limit : Option Nat) (id : String) (ids : List String) :
    cut limit (id :: cut limit ids) = cut limit (id :: ids) := by
  cases limit with
  | none => rfl
  | some n =>
    cases n with
    | zero => rfl
    | succ n => simp [cut, List.take_take]

theorem history_retire {l : Ledger} (limit : Option Nat) (active : l.isActive id = true) :
    (l.retire limit id).history = cut limit (id :: l.history) := by
  rw [retire, if_pos active]
  cases limit <;> rfl

end Ledger

/-! ## The invariant -/

/-- Whoever is not active any more was retired once, and the history consists of those retired last. -/
structure Retired (e : Engine σ) (w : World σ) : Prop where
  once : ∀ id, w.Recorded id → w.ledger.isActive id = false → retirements id w.journal = 1
  never : ∀ id, w.ledger.isActive id = true ∨ ¬w.Recorded id → retirements id w.journal = 0
  history : w.ledger.history = Ledger.cut e.config.historyLimit (retiredSince w.journal)

namespace Retired

/-- Nothing happens to the active executions or to the history. -/
theorem congr (retired : Retired e w) (new : List Happening) (lists : w.ledger.SameLists w'.ledger)
    (history : w'.ledger.history = w.ledger.history) (journal : w'.journal = new ++ w.journal)
    (keeps : ∀ h ∈ new, h.KeepsHistory) : Retired e w' where
  once id recorded inactive := by
    rw [World.Recorded, lists.admitted] at recorded
    rw [Ledger.isActive, lists.active] at inactive
    rw [journal, retirements_append keeps]
    exact retired.once id recorded inactive
  never id known := by
    rw [World.Recorded, lists.admitted, Ledger.isActive, lists.active] at known
    rw [journal, retirements_append keeps]
    exact retired.never id known
  history := by rw [history, journal, retiredSince_append keeps, retired.history]

/-- A new execution is active and was never retired. -/
theorem admits (retired : Retired e w) (fresh : w.ledger.record? id = none) {x : Execution} {h : Happening}
    (ledger : w'.ledger = ({ w.ledger with generated := w.ledger.generated + 1 } : Ledger).enroll id x)
    (journal : w'.journal = h :: w.journal) (keeps : h.KeepsHistory) : Retired e w' where
  once other recorded inactive := by
    rw [journal, retirements_cons keeps]
    have different : other ≠ id := by
      rintro rfl
      rw [ledger, Ledger.isActive_enroll_self] at inactive
      cases inactive
    rw [ledger, Ledger.isActive_enroll_other _ _ different] at inactive
    refine retired.once other ?_ inactive
    simpa [World.Recorded, ledger, Ledger.admitted, Ledger.enroll, different] using recorded
  never other known := by
    rw [journal, retirements_cons keeps]
    by_cases same : other = id
    · refine retired.never other (.inr fun recorded => ?_)
      obtain ⟨y, found⟩ := Ledger.mem_admitted.mp recorded
      cases fresh.symm.trans (same ▸ found)
    · refine retired.never other (known.imp (fun active => ?_) fun unknown recorded => ?_)
      · rwa [ledger, Ledger.isActive_enroll_other _ _ same] at active
      · refine unknown ?_
        rw [World.Recorded, ledger, Ledger.admitted, Ledger.enroll, List.map_append]
        exact List.mem_append_left _ recorded
  history := by
    rw [journal, retiredSince_cons keeps, ← retired.history, ledger]
    rfl

/-- An active execution is retired. -/
theorem retire (retired : Retired e w) (orderly : w.ledger.Orderly) (new : List Happening)
    (active : w.ledger.isActive id = true) (admitted : w'.ledger.admitted = w.ledger.admitted)
    (self : w'.ledger.isActive id = false)
    (others : ∀ other, other ≠ id → w'.ledger.isActive other = w.ledger.isActive other)
    (history : w'.ledger.history = Ledger.cut e.config.historyLimit (id :: w.ledger.history))
    (journal : w'.journal = new ++ .retired id :: w.journal) (keeps : ∀ h ∈ new, h.KeepsHistory) :
    Retired e w' where
  once other recorded inactive := by
    rw [journal, retirements_append keeps, retirements_retired]
    by_cases same : id = other
    · subst same
      rw [if_pos rfl, retired.never id (.inl active)]
    · rw [if_neg same]
      rw [others other fun named => same named.symm] at inactive
      rw [World.Recorded, admitted] at recorded
      exact retired.once other recorded inactive
  never other known := by
    have different : id ≠ other := by
      rintro rfl
      obtain ⟨x, found⟩ := orderly.recorded id active
      rcases known with listed | unknown
      · cases self.symm.trans listed
      · exact unknown (by rw [World.Recorded, admitted]; exact Ledger.mem_admitted.mpr ⟨x, found⟩)
    rw [journal, retirements_append keeps, retirements_retired, if_neg different]
    rw [others other different.symm, World.Recorded, admitted] at known
    exact retired.never other known
  history := by
    rw [history, journal, retiredSince_append keeps, retired.history, Ledger.cut_cons_cut]
    rfl

/-- The history is cleared. -/
theorem clear (retired : Retired e w) (ledger : w'.ledger = w.ledger.clear)
    (journal : w'.journal = .cleared :: w.journal) : Retired e w' where
  once id recorded inactive := by
    rw [journal, retirements, List.countP_cons_of_neg (by simp [Happening.isRetirement])]
    rw [ledger] at inactive
    exact retired.once id (by rwa [World.Recorded, ledger] at recorded) inactive
  never id known := by
    rw [journal, retirements, List.countP_cons_of_neg (by simp [Happening.isRetirement])]
    rw [World.Recorded, ledger] at known
    exact retired.never id known
  history := by
    rw [ledger, journal]
    cases limit : e.config.historyLimit <;> simp [Ledger.clear, Ledger.cut, retiredSince]

theorem affair (retired : Retired e w) (orderly : w.ledger.Orderly) (affair : e.Affair d w d' w') :
    Retired e w' := by
  cases affair with
  | plain alike ledger journal =>
    obtain ⟨new, journal, mere⟩ := journal
    exact retired.congr new ledger.toSameLists ledger.history journal fun h member => (mere h member).keepsHistory
  | admits steady id workflow options x fresh running ledger journal =>
    exact retired.admits fresh ledger journal trivial
  | begins id phase free ledger record journal =>
    exact retired.congr [_] (ledger ▸ .refl _) (by rw [ledger]) journal (by simp [Happening.KeepsHistory])
  | ends steady id drives y status ledger event kind record journal =>
    exact retired.congr [_] (ledger ▸ Ledger.sameLists_amend ..) (by rw [ledger]; rfl) journal
      (by simp [Happening.KeepsHistory])
  | cuts owes id drives y status ledger journal =>
    exact retired.congr [] (ledger ▸ Ledger.sameLists_amend ..) (by rw [ledger]; rfl) journal (by simp)
  | untimes alike id y status ledger journal =>
    exact retired.congr [_] (ledger ▸ Ledger.sameLists_amend ..) (by rw [ledger]; rfl) journal
      (by simp [Happening.KeepsHistory])
  | retires id drives owes world =>
    rcases world with ⟨active, ledger, journal⟩ | ⟨inactive, ledger, journal⟩
    · exact retired.retire orderly [] active (by rw [ledger, Ledger.admitted_retire])
        (by rw [ledger, Ledger.isActive_retire_self orderly.nodup _ active])
        (fun other different => by rw [ledger, Ledger.isActive_retire_other _ active different])
        (by rw [ledger, Ledger.history_retire _ active]) journal (by simp)
    · exact retired.congr [] (ledger ▸ .refl _) (by rw [ledger]) journal (by simp)
  | withdraws id active settled y status ledger record journal =>
    have listed : (w.ledger.amend id fun _ => y).isActive id = true := active
    exact retired.retire orderly [_, _] active (by rw [ledger, Ledger.admitted_retire, Ledger.admitted_amend])
      (by rw [ledger, Ledger.isActive_retire_self (orderly.amend id _).nodup _ listed])
      (fun other different => by rw [ledger, Ledger.isActive_retire_other _ listed different]; rfl)
      (by rw [ledger, Ledger.history_retire _ listed]; rfl) journal (by simp [Happening.KeepsHistory])
  | clears ledger journal => exact retired.clear ledger journal

theorem at_most_once (retired : Retired e w) (id : String) : retirements id w.journal ≤ 1 := by
  by_cases gone : w.Recorded id ∧ w.ledger.isActive id = false
  · exact Nat.le_of_eq (retired.once id gone.1 gone.2)
  · rw [not_and_or, Bool.not_eq_false] at gone
    rw [retired.never id gone.symm]
    exact Nat.zero_le 1

/-- Whatever is in the history is on record and not active any more. -/
theorem of_mem_history (retired : Retired e w) (kept : id ∈ w.ledger.history) :
    w.Recorded id ∧ w.ledger.isActive id = false := by
  rw [retired.history] at kept
  have once : 0 < retirements id w.journal :=
    Nat.lt_of_lt_of_le (List.count_pos_iff.mpr ((Ledger.cut_sublist ..).mem kept)) (count_retiredSince_le id _)
  by_contra other
  rw [not_and_or, Bool.not_eq_false] at other
  rw [retired.never id other.symm] at once
  cases once

end Retired

namespace Machine

/-- Before anything happens nobody was retired. -/
theorem Pristine.retired (pristine : m.Pristine) : Retired e m.world where
  once id known := by
    rw [World.Recorded, Ledger.admitted, pristine.records] at known
    cases known
  never id _ := by
    rw [pristine.journal]
    rfl
  history := by
    rw [pristine.history, pristine.journal]
    cases e.config.historyLimit <;> simp [Ledger.cut, retiredSince]

theorem Arises.retired (arises : Arises e host m) : Retired e m.world :=
  arises.affairs (fun _ pristine => pristine.retired) (fun orderly retired => retired.affair orderly)
    fun retired ledger journal => retired.congr [] (ledger ▸ .refl _) (by rw [ledger]) journal (by simp)

end Machine

/-! ## Retirement happens once -/

/-- At any time an execution that is on record is either active, and was never retired, or was retired once
and is active never again. The history holds each of those retired since it was last cleared, newest first
and as many as it may, each of them once and none that is active. -/
theorem retired_exactly_once (arises : Arises e host m) :
    (∀ id, m.world.ledger.isActive id = true →
      retirements id m.world.journal = 0 ∧ id ∉ m.world.ledger.history) ∧
    (∀ id, m.world.Recorded id → m.world.ledger.isActive id = false → retirements id m.world.journal = 1 ∧
      ∀ m', Run e host (fun _ => False) m m' → m'.world.ledger.isActive id = false ∧
        retirements id m'.world.journal = 1) ∧
    (∀ id, retirements id m.world.journal ≤ 1) ∧
    m.world.ledger.active.Nodup ∧ m.world.ledger.history.Nodup ∧
    m.world.ledger.history = Ledger.cut e.config.historyLimit (retiredSince m.world.journal) := by
  have retired := arises.retired
  have counted (id : String) : m.world.ledger.history.count id ≤ retirements id m.world.journal := by
    rw [retired.history]
    exact Nat.le_trans ((Ledger.cut_sublist _ _).count_le id) (count_retiredSince_le id _)
  refine ⟨fun id active => ⟨retired.never id (.inl active), fun listed => ?_⟩, fun id recorded inactive =>
    ⟨retired.once id recorded inactive, fun m' run => ?_⟩, retired.at_most_once, arises.valid.orderly.nodup,
    List.nodup_iff_count_le_one.mpr fun id => Nat.le_trans (counted id) (retired.at_most_once id), retired.history⟩
  · have positive := List.count_pos_iff.mpr listed
    have none := retired.never id (.inl active)
    have few := counted id
    omega
  · have retired' := (arises.run run).retired
    obtain ⟨new, journal⟩ := (arises.reachable.later host.spares_nothing run).journal
    have before : retirements id m.world.journal ≤ retirements id m'.world.journal := by
      rw [show m'.world.journal = new ++ m.world.journal from journal, retirements, retirements,
        List.countP_append]
      exact Nat.le_add_left _ _
    rw [retired.once id recorded inactive] at before
    have inactive' : m'.world.ledger.isActive id = false := by
      cases active : m'.world.ledger.isActive id with
      | false => rfl
      | true =>
        rw [retired'.never id (.inl active)] at before
        omega
    exact ⟨inactive', retired'.once id (arises.recorded run recorded) inactive'⟩

/-- An engine that has run an empty workflow to its end. -/
def finishedEmpty : Machine Unit :=
  (Machine.blank () {}).executing openEngine idleHost emptyWorkflow .null 20

/-- An execution that has ended is retired, and stays so whatever happens. -/
theorem finishedEmpty_retired : finishedEmpty.world.ledger.history = [Engine.executionId 1] ∧
    retiredSince finishedEmpty.world.journal = [Engine.executionId 1] ∧
    ∀ m', Run openEngine idleHost (fun _ => False) finishedEmpty m' →
      m'.world.ledger.isActive (Engine.executionId 1) = false ∧
        retirements (Engine.executionId 1) m'.world.journal = 1 := by
  have arises : Arises openEngine idleHost finishedEmpty := arises_executing ..
  obtain ⟨_, gone, _⟩ := retired_exactly_once arises
  exact ⟨by decide +kernel, by decide +kernel, (gone _ (by decide +kernel) (by decide +kernel)).2⟩

end Runbook
