import Runbook.Proofs.Account
import Runbook.Proofs.Chronicle
import Runbook.Proofs.Ledger
import Runbook.Proofs.Run

/-! # Where executions stand

The invariants of an engine's books, one execution at a time: `Sound` relates its record to what the
journal tells about it, `Evolves` says how a record can have changed since, and `Cleared` says what has
to come before a tool is called on its behalf. Executions that are spared have variables that nobody
but their own driver changes.
-/

namespace Runbook

variable {σ : Type}

/-! ## One execution -/

/-- The records agree but for the variables, and in those as well if the execution is spared. -/
def Agree (spared : String → Prop) (id : String) (x y : Execution) : Prop :=
  ∃ scope, y = { x with scope } ∧ (spared id → scope = x.scope)

/-- The record of an execution fits what the journal tells about it. -/
structure Sound (e : Engine σ) (spared : String → Prop) (id : String) (x : Execution)
    (active : Bool) (journal : List Happening) : Prop where
  chronicle : Chronicle id journal
  self : x.id = .text id
  enlisted : x.status = .running → active = true
  requested : x.cancelRequested = true → x.status = .cancelled
  running : x.status = .running → endings id journal = 0
  /-- It has not ended by itself without telling so, unless its duration could not be told. -/
  told : x.status ≠ .running → x.status ≠ .cancelled →
    0 < endings id journal ∨ .untimed id ∈ journal
  withdrawn : .cancelled id ∈ journal ∨ 0 < farewells id journal →
    active = false ∧ x.cancelRequested = true
  tally : x.status ≠ .cancelled → ∀ workflow options, .admitted id workflow options ∈ journal →
    Tally e workflow options x ∧ (x.status ≠ .running →
      Stopped id workflow x journal ∧ (.untimed id ∈ journal ∨ Judged id workflow x journal))
  replays : spared id → ∀ workflow options,
    .admitted id workflow options ∈ journal → Replays e id workflow options x journal

/-- What can become of a record: it keeps what it was admitted with and the keys of its variables, it does
not run again, and an execution that was cancelled and retired does not change at all. -/
structure Evolves (spared : String → Prop) (id : String) (x : Execution) (active : Bool)
    (x' : Execution) (active' : Bool) (journal : List Happening) : Prop where
  metadata : x'.metadata = x.metadata
  keys : x.scope.keys <+: x'.scope.keys
  requested : x.cancelRequested = true → x'.cancelRequested = true
  ended : x.status ≠ .running → x'.status ≠ .running ∧
    (x'.status = x.status ∨ .untimed id ∈ journal ∨ Belated id journal)
  frozen : x.cancelRequested = true → active = false → active' = false ∧ Agree spared id x x'

variable {e : Engine σ} {spared : String → Prop} {id : String} {x x' x'' y : Execution}
  {active active' active'' : Bool} {journal new : List Happening}

theorem Agree.refl (spared : String → Prop) (id : String) (x : Execution) : Agree spared id x x :=
  ⟨x.scope, rfl, fun _ => rfl⟩

theorem Agree.trans (first : Agree spared id x x') (second : Agree spared id x' x'') :
    Agree spared id x x'' := by
  obtain ⟨scope, rfl, same⟩ := first
  obtain ⟨scope', rfl, same'⟩ := second
  exact ⟨scope', rfl, fun spares => (same' spares).trans (same spares)⟩

/-- Spared records that agree are equal. -/
theorem Agree.eq (agree : Agree spared id x y) (spares : spared id) : y = x := by
  obtain ⟨scope, rfl, same⟩ := agree
  rw [same spares]

theorem Sound.append (sound : Sound e spared id x active journal) (silent : Silent id new) :
    Sound e spared id x active (new ++ journal) where
  chronicle := sound.chronicle.append silent
  self := sound.self
  enlisted := sound.enlisted
  requested := sound.requested
  running running := silent.endings.trans (sound.running running)
  told notRunning notCancelled := by
    rw [silent.endings]
    rcases sound.told notRunning notCancelled with ended | untimed
    · exact .inl ended
    · exact .inr (List.mem_append_right new untimed)
  withdrawn cancelled := by
    rw [silent.farewells, silent.mem_iff (by simp [Happening.concerns])] at cancelled
    exact sound.withdrawn cancelled
  tally notCancelled workflow options admitted := by
    rw [silent.mem_iff (by simp [Happening.concerns])] at admitted
    obtain ⟨tally, ended⟩ := sound.tally notCancelled workflow options admitted
    refine ⟨tally, fun notRunning => ⟨(ended notRunning).1.append new, ?_⟩⟩
    exact (ended notRunning).2.imp (List.mem_append_right new) fun judged => judged.append new
  replays spares workflow options admitted := by
    rw [silent.mem_iff (by simp [Happening.concerns])] at admitted
    exact (sound.replays spares workflow options admitted).append new

/-- The record of a spared execution accounts for all that came of its steps, and at its end for why there
was no more. -/
theorem Sound.account (sound : Sound e spared id x active journal) (spares : spared id)
    (notCancelled : x.status ≠ .cancelled) (workflow : Workflow) (options : Options)
    (admitted : .admitted id workflow options ∈ journal) : Account e id workflow options x journal ∧
      (x.status ≠ .running → Stopped id workflow x journal) := by
  obtain ⟨tally, ended⟩ := sound.tally notCancelled workflow options admitted
  exact ⟨⟨tally, sound.replays spares workflow options admitted⟩,
    fun notRunning => (ended notRunning).1⟩

theorem Sound.notRequested (sound : Sound e spared id x active journal)
    (notCancelled : x.status ≠ .cancelled) : x.cancelRequested = false := by
  cases requested : x.cancelRequested with
  | false => rfl
  | true => exact absurd (sound.requested requested) notCancelled

/-- Nothing was told of a cancellation that was not requested. -/
theorem Sound.untold (sound : Sound e spared id x active journal)
    (notRequested : x.cancelRequested = false) :
    .cancelled id ∉ journal ∧ farewells id journal = 0 := by
  have none : ¬(.cancelled id ∈ journal ∨ 0 < farewells id journal) := by
    intro told
    have requested := (sound.withdrawn told).2
    rw [notRequested] at requested
    cases requested
  refine ⟨fun told => none (.inl told), ?_⟩
  have noFarewell : ¬0 < farewells id journal := fun told => none (.inr told)
  omega

theorem Evolves.refl (spared : String → Prop) (id : String) (x : Execution) (active : Bool)
    (journal : List Happening) : Evolves spared id x active x active journal :=
  ⟨rfl, List.prefix_rfl, fun requested => requested, fun notRunning => ⟨notRunning, .inl rfl⟩,
    fun _ inactive => ⟨inactive, .refl spared id x⟩⟩

theorem Evolves.trans (first : Evolves spared id x active x' active' journal)
    (second : Evolves spared id x' active' x'' active'' (new ++ journal)) :
    Evolves spared id x active x'' active'' (new ++ journal) where
  metadata := second.metadata.trans first.metadata
  keys := first.keys.trans second.keys
  requested requested := second.requested (first.requested requested)
  ended notRunning := by
    obtain ⟨notRunning', earlier⟩ := first.ended notRunning
    obtain ⟨notRunning'', later⟩ := second.ended notRunning'
    refine ⟨notRunning'', ?_⟩
    rcases earlier with same | untimed | belated
    · rw [← same]
      exact later
    · exact .inr (.inl (List.mem_append_right new untimed))
    · exact .inr (.inr (belated.append new))
  frozen requested inactive := by
    obtain ⟨inactive', agree⟩ := first.frozen requested inactive
    obtain ⟨inactive'', agree'⟩ := second.frozen (first.requested requested) inactive'
    exact ⟨inactive'', agree.trans agree'⟩

/-! ## Calls of tools -/

/-- The answers that have to come directly before a call, newest first. -/
def answersBefore (e : Engine σ) (id name : String) (parameters : Entries) (mode : Value) :
    List Happening :=
  match e.authority.permits with
  | none => [.asked id name true]
  | some _ => [.judged id name parameters mode (.ok true), .asked id name true]

/-- A tool may be called on behalf of an execution: the tool was found to be known, and to be allowed
with these parameters in the mode on record. -/
def Cleared (e : Engine σ) (l : Ledger) (id name : String) (parameters : Entries)
    (journal : List Happening) : Prop :=
  ∃ x earlier, l.record? id = some x ∧
    journal = answersBefore e id name parameters x.mode ++ earlier

/-- Every call was cleared. -/
def Licensed (e : Engine σ) (l : Ledger) : List Happening → Prop
  | [] => True
  | .called id name parameters :: earlier =>
    Cleared e l id name parameters earlier ∧ Licensed e l earlier
  | _ :: earlier => Licensed e l earlier

theorem Licensed.cons {l : Ledger} {h : Happening} (licensed : Licensed e l journal)
    (noCall : h.isCall = false) : Licensed e l (h :: journal) := by
  cases h with
  | called id name parameters => cases noCall
  | _ => exact licensed

theorem Licensed.append {l : Ledger} (licensed : Licensed e l journal)
    (noCalls : ∀ h ∈ new, h.isCall = false) : Licensed e l (new ++ journal) := by
  induction new with
  | nil => exact licensed
  | cons h rest ih =>
    exact (ih fun h' member => noCalls h' (List.mem_cons_of_mem h member)).cons
      (noCalls h List.mem_cons_self)

/-- Calls stay licensed as long as records keep their modes. -/
theorem Licensed.mono {l l' : Ledger} (licensed : Licensed e l journal)
    (keep : ∀ id x, l.record? id = some x → ∃ x', l'.record? id = some x' ∧ x'.mode = x.mode) :
    Licensed e l' journal := by
  induction journal with
  | nil => trivial
  | cons h earlier ih =>
    cases h with
    | called id name parameters =>
      obtain ⟨⟨x, before, found, cleared⟩, rest⟩ := licensed
      obtain ⟨x', found', mode⟩ := keep id x found
      exact ⟨⟨x', before, found', by rw [mode]; exact cleared⟩, ih rest⟩
    | _ => exact ih licensed

/-- A call is licensed wherever the journal tells of it. -/
theorem Licensed.cleared {l : Ledger} {id name : String} {parameters : Entries}
    {later earlier : List Happening}
    (licensed : Licensed e l (later ++ .called id name parameters :: earlier)) :
    Cleared e l id name parameters earlier := by
  induction later with
  | nil => exact licensed.1
  | cons h rest ih =>
    cases h with
    | called id name parameters => exact ih licensed.2
    | _ => exact ih licensed

end Runbook
