import Runbook.Engine

/-! # What the ledger remembers

Records are found under the identifier they were enrolled with. In an orderly ledger the identifiers
are those that have been generated, so that the next one is new, and nobody is active twice.
-/

namespace Runbook

namespace Ledger

variable {l : Ledger} {id other : String}

theorem record?_amend (l : Ledger) (id other : String) (f : Execution → Execution) :
    (l.amend id f).record? other =
      if other = id then (l.record? id).map f else l.record? other := by
  have keys : (fun r : String × Execution => r.1 == other) ∘
      (fun r : String × Execution => if r.1 == id then (r.1, f r.2) else r) =
      fun r => r.1 == other := by
    funext r
    simp only [Function.comp_apply]
    split <;> rfl
  simp only [record?, amend, List.find?_map, keys, Option.map_map]
  cases found : l.records.find? (·.1 == other) with
  | none =>
    by_cases same : other = id
    · subst same
      simp [found]
    · simp [same]
  | some r =>
    have named : r.1 = other := by simpa using List.find?_some found
    by_cases same : other = id
    · subst same
      simp [found, named]
    · simp [named, same]

theorem record?_amend_self (l : Ledger) (id : String) (f : Execution → Execution) :
    (l.amend id f).record? id = (l.record? id).map f := by
  rw [record?_amend, if_pos rfl]

theorem record?_amend_other (l : Ledger) (f : Execution → Execution) (different : other ≠ id) :
    (l.amend id f).record? other = l.record? other := by
  rw [record?_amend, if_neg different]

/-- Of two changes only the second shows, if it does not look at the record. -/
theorem amend_amend (l : Ledger) (id : String) (f : Execution → Execution) (y : Execution) :
    (l.amend id f).amend id (fun _ => y) = l.amend id fun _ => y := by
  simp only [amend, List.map_map]
  congr 2
  funext r
  simp only [Function.comp_apply]
  by_cases same : (r.1 == id) = true <;> simp [same]

theorem record?_enroll_self (fresh : l.record? id = none) (x : Execution) :
    (l.enroll id x).record? id = some x := by
  have absent : l.records.find? (·.1 == id) = none := by simpa [record?] using fresh
  simp [record?, enroll, List.find?_append, absent]

theorem record?_enroll_other (l : Ledger) (x : Execution) (different : other ≠ id) :
    (l.enroll id x).record? other = l.record? other := by
  have unequal : (id == other) = false := by simpa using fun same => different same.symm
  simp [record?, enroll, List.find?_append, unequal]

theorem isActive_iff : l.isActive id = true ↔ id ∈ l.active := by simp [isActive]

theorem isActive_enroll_self (l : Ledger) (id : String) (x : Execution) :
    (l.enroll id x).isActive id = true := by
  simp [isActive, enroll]

theorem isActive_enroll_other (l : Ledger) (x : Execution) (different : other ≠ id) :
    (l.enroll id x).isActive other = l.isActive other := by
  simp [isActive, enroll, different]

@[simp] theorem record?_retire (l : Ledger) (limit : Option Nat) (id other : String) :
    (l.retire limit id).record? other = l.record? other := by
  unfold retire
  split <;> rfl

theorem active_retire (limit : Option Nat) (active : l.isActive id = true) :
    (l.retire limit id).active = l.active.erase id := by
  unfold retire
  rw [if_pos active]

theorem isActive_retire_self (nodup : l.active.Nodup) (limit : Option Nat)
    (active : l.isActive id = true) : (l.retire limit id).isActive id = false := by
  have gone : id ∉ l.active.erase id := nodup.not_mem_erase
  simpa [isActive, active_retire limit active] using gone

theorem isActive_retire_other (limit : Option Nat) (active : l.isActive id = true)
    (different : other ≠ id) : (l.retire limit id).isActive other = l.isActive other := by
  simp [isActive, active_retire limit active, List.mem_erase_of_ne different]

end Ledger

/-! ## Identifiers -/

/-- The number can be read off its serial text again. -/
theorem Workflow.serial_injective : Function.Injective Workflow.serial := by
  intro m n same
  have digits : Number.padLeft 9 (Number.digitsOf m) = Number.padLeft 9 (Number.digitsOf n) :=
    String.ofList_injective same
  have value (k : Nat) : Nat.ofDigitChars 10 (Number.padLeft 9 (Number.digitsOf k)) 0 = k := by
    rw [Number.padLeft, Nat.ofDigitChars_append, Nat.ofDigitChars_replicate_zero, Nat.mul_zero]
    exact Nat.ofDigitChars_ten_toDigits
  calc m = Nat.ofDigitChars 10 (Number.padLeft 9 (Number.digitsOf m)) 0 := (value m).symm
    _ = Nat.ofDigitChars 10 (Number.padLeft 9 (Number.digitsOf n)) 0 := by rw [digits]
    _ = n := value n

theorem Engine.executionId_injective : Function.Injective Engine.executionId := by
  intro m n same
  unfold Engine.executionId at same
  exact Workflow.serial_injective ((String.append_right_inj _).mp same)

/-! ## Orderly ledgers -/

namespace Ledger

/-- Every record has a generated identifier, and the active executions are on record, each once. -/
structure Orderly (l : Ledger) : Prop where
  named : ∀ id x, l.record? id = some x → ∃ n ≤ l.generated, id = Engine.executionId n
  nodup : l.active.Nodup
  recorded : ∀ id, l.isActive id = true → ∃ x, l.record? id = some x

namespace Orderly

variable {l : Ledger} {id other : String}

/-- The next identifier is new. -/
theorem fresh (orderly : l.Orderly) : l.record? (Engine.executionId (l.generated + 1)) = none := by
  cases found : l.record? (Engine.executionId (l.generated + 1)) with
  | none => rfl
  | some x =>
    obtain ⟨n, bound, same⟩ := orderly.named _ x found
    have number := Engine.executionId_injective same
    omega

theorem inactive (orderly : l.Orderly) (absent : l.record? id = none) : l.isActive id = false := by
  cases active : l.isActive id with
  | false => rfl
  | true =>
    obtain ⟨x, found⟩ := orderly.recorded id active
    rw [absent] at found
    cases found

theorem amend (orderly : l.Orderly) (id : String) (f : Execution → Execution) :
    (l.amend id f).Orderly where
  named other x found := by
    rw [record?_amend] at found
    split at found
    · next same =>
      subst same
      obtain ⟨y, known, _⟩ := Option.map_eq_some_iff.mp found
      exact orderly.named other y known
    · exact orderly.named other x found
  nodup := orderly.nodup
  recorded other active := by
    obtain ⟨x, known⟩ := orderly.recorded other active
    rw [record?_amend]
    split
    · next same =>
      subst same
      exact ⟨f x, by rw [known]; rfl⟩
    · exact ⟨x, known⟩

theorem generate (orderly : l.Orderly) : ({ l with generated := l.generated + 1 } : Ledger).Orderly where
  named other x found := by
    obtain ⟨n, bound, same⟩ := orderly.named other x found
    exact ⟨n, Nat.le_succ_of_le bound, same⟩
  nodup := orderly.nodup
  recorded := orderly.recorded

theorem clear (orderly : l.Orderly) : l.clear.Orderly where
  named := orderly.named
  nodup := orderly.nodup
  recorded := orderly.recorded

theorem retire (orderly : l.Orderly) (limit : Option Nat) (active : l.isActive id = true) :
    (l.retire limit id).Orderly where
  named other x found := by
    have same : (l.retire limit id).generated = l.generated := by
      unfold Ledger.retire
      split <;> rfl
    rw [same]
    rw [record?_retire] at found
    exact orderly.named other x found
  nodup := by
    rw [active_retire limit active]
    exact orderly.nodup.erase id
  recorded other left := by
    rw [record?_retire]
    rw [isActive_iff, active_retire limit active] at left
    exact orderly.recorded other (isActive_iff.mpr (List.mem_of_mem_erase left))

/-- A newly admitted execution has the next identifier. -/
theorem enroll (orderly : l.Orderly) (x : Execution) :
    (({ l with generated := l.generated + 1 } : Ledger).enroll
      (Engine.executionId (l.generated + 1)) x).Orderly where
  named other y found := by
    by_cases same : other = Engine.executionId (l.generated + 1)
    · exact ⟨l.generated + 1, Nat.le_refl _, same⟩
    · rw [record?_enroll_other _ _ same] at found
      exact orderly.generate.named other y found
  nodup := by
    have inactive := orderly.inactive orderly.fresh
    refine List.nodup_append.mpr ⟨orderly.nodup, by simp, ?_⟩
    rintro a old b new rfl
    obtain rfl := List.mem_singleton.mp new
    have active : l.isActive (Engine.executionId (l.generated + 1)) = true := isActive_iff.mpr old
    rw [inactive] at active
    cases active
  recorded other active := by
    by_cases same : other = Engine.executionId (l.generated + 1)
    · subst same
      exact ⟨x, record?_enroll_self orderly.fresh x⟩
    · rw [isActive_enroll_other _ _ same] at active
      rw [record?_enroll_other _ _ same]
      exact orderly.recorded other active

end Orderly

end Ledger

end Runbook
