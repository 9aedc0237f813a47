import Runbook.Number.Text
import Runbook.Proofs.Rounding

/-! # Integers that are written and read

The text of an integer is read back as a number, the one that the integer itself is rounded to; the text of an integer
beyond the numbers is read as an infinite one.
-/

namespace Runbook.Number

/-! ## Digits -/

variable {c : Char} {cs : List Char}

theorem toNat_of_isDigit (digit : c.isDigit = true) : 48 ≤ c.toNat ∧ c.toNat ≤ 57 := by
  simp only [Char.isDigit, Bool.and_eq_true, decide_eq_true_eq, ge_iff_le] at digit
  exact digit

theorem digitValue?_of_isDigit (digit : c.isDigit = true) : Text.digitValue? c = some (c.toNat - 48) := by
  obtain ⟨low, high⟩ := toNat_of_isDigit digit
  have few : c.toNat < 0x80 := by omega
  simp only [Text.digitValue?, if_pos few, decide_eq_true low, decide_eq_true high, Bool.and_self, if_true]

theorem not_isBlank (low : 33 ≤ c.toNat) (high : c.toNat < 128) : Text.isBlank c = false := by
  simp only [Text.isBlank, Bool.or_eq_false_iff, Bool.and_eq_false_iff, beq_eq_false_iff_ne, decide_eq_false_iff_not]
  omega

/-- Digits are read to the end. -/
theorem spanDigits_of_digits (digits : ∀ c ∈ cs, c.isDigit = true) (afterDigit : Bool) :
    spanDigits afterDigit cs = (cs.map (·.toNat - 48), []) := by
  induction cs generalizing afterDigit with
  | nil => rfl
  | cons c rest ih =>
    rw [List.forall_mem_cons] at digits
    rw [spanDigits, digitValue?_of_isDigit digits.1]
    simp only [ih digits.2, List.map_cons]

theorem isDigit_of_mem_digitsOf {n : Nat} (member : c ∈ digitsOf n) : c.isDigit = true :=
  Nat.isDigit_of_mem_toDigits (by decide) (by decide) member

theorem ofDigits_digitsOf (n : Nat) : ofDigits ((digitsOf n).map (·.toNat - 48)) = n := by
  rw [ofDigits, List.foldl_map]
  exact Nat.ofDigitChars_ten_toDigits

/-- A word for infinity or for no number is none of digits. -/
theorem readLiteral?_of_digits (digits : ∀ c ∈ cs, c.isDigit = true) :
    readLiteral? cs = (readDecimal? cs).map .decimal := by
  have same : cs.map Char.toLower = cs := by
    conv_rhs => rw [← List.map_id cs]
    apply List.map_congr_left
    intro c member
    have ⟨_, high⟩ := toNat_of_isDigit (digits c member)
    refine dif_neg ?_
    rintro ⟨capital, _⟩
    have : 65 ≤ c.toNat := capital
    omega
  have letter {w : String} {l : Char} (among : l ∈ w.toList) (other : l.isDigit = false) : String.ofList cs ≠ w := by
    rintro rfl
    rw [String.toList_ofList] at among
    rw [digits l among] at other
    contradiction
  rw [readLiteral?, same]
  split
  · next word => exact absurd word (letter (l := 'i') (by decide) rfl)
  · next word => exact absurd word (letter (l := 'i') (by decide) rfl)
  · next word => exact absurd word (letter (l := 'n') (by decide) rfl)
  · rfl

theorem trim_eq (plain : ∀ c ∈ cs, Text.isBlank c = false) : Text.trim (String.ofList cs) = String.ofList cs := by
  have kept {l : List Char} (plain : ∀ c ∈ l, Text.isBlank c = false) : l.dropWhile Text.isBlank = l := by
    cases l with
    | nil => rfl
    | cons c rest => rw [List.dropWhile_cons_of_neg (Bool.not_eq_true _ ▸ plain c List.mem_cons_self)]
  have back : ∀ c ∈ cs.reverse, Text.isBlank c = false := fun c member => plain c (List.mem_reverse.mp member)
  rw [Text.trim, Text.trimChars, String.toList_ofList, kept plain, kept back, List.reverse_reverse]

/-! ## Texts of integers -/

theorem tooLarge_le : tooLarge ≤ 10 ^ 400 := by decide +kernel

/-- Digits without point and exponent are read as the number that they are rounded to. -/
theorem stands_floatOfDecimal (n : Nat) : Stands (floatOfDecimal n 0) (roundNat n) := by
  have magnitude : 0 ≤ ((Nat.toDigits 10 n).length : Int) + 0 := by omega
  rw [floatOfDecimal]
  simp only [Bool.or_eq_true, beq_iff_eq, decide_eq_true_eq]
  split_ifs with none long
  · obtain rfl : n = 0 := by omega
    exact stands_ofNat 0
  · have large : 10 ^ 400 ≤ n := by
      rw [← Nat.not_lt, ← Nat.length_toDigits_le_iff (by decide) (by decide)]
      omega
    exact stands_infinity (ceiling_le_roundNat_iff.mpr (tooLarge_le.trans large))
  · exact stands_ofNat n

theorem readLiteral?_digitsOf (n : Nat) : readLiteral? (digitsOf n) = some (.decimal ⟨n, 0⟩) := by
  have digits : ∀ c ∈ digitsOf n, c.isDigit = true := fun c => isDigit_of_mem_digitsOf
  have span := spanDigits_of_digits digits false
  have value := ofDigits_digitsOf n
  have some : (digitsOf n).map (·.toNat - 48) ≠ [] := mt List.map_eq_nil_iff.mp Nat.toDigits_ne_nil
  rw [readLiteral?_of_digits digits, readDecimal?, span]
  generalize (digitsOf n).map (·.toNat - 48) = ds at value some ⊢
  cases ds with
  | nil => contradiction
  | cons d ds =>
    change Option.some (Literal.decimal ⟨ofDigits (d :: ds ++ []), 0 - 0⟩) = _
    rw [List.append_nil, value, Int.sub_zero]

theorem readFloat?_intText (n : Int) : ∃ x, readFloat? (Text.trim (intText n)) = some x ∧ Stands x (roundInt n) := by
  have digits (n : Nat) : ∀ c ∈ digitsOf n, c.isDigit = true := fun c => isDigit_of_mem_digitsOf
  have plain (n : Nat) : ∀ c ∈ digitsOf n, Text.isBlank c = false := by
    intro c member
    obtain ⟨low, high⟩ := toNat_of_isDigit (digits n c member)
    exact not_isBlank (by omega) (by omega)
  cases n with
  | ofNat n =>
    have unsigned : splitSign (digitsOf n) = (false, digitsOf n) := by
      unfold splitSign
      split
      · next rest minus => exact absurd (digits n '-' (minus ▸ List.mem_cons_self)) (by decide)
      · next rest plus => exact absurd (digits n '+' (plus ▸ List.mem_cons_self)) (by decide)
      · rfl
    refine ⟨floatOfDecimal n 0, ?_, roundInt_ofNat n ▸ stands_floatOfDecimal n⟩
    rw [intText, trim_eq (plain n), readFloat?, String.toList_ofList, unsigned]
    simp [readLiteral?_digitsOf, Literal.toFloat]
  | negSucc n =>
    have plain' : ∀ c ∈ '-' :: digitsOf (n + 1), Text.isBlank c = false :=
      List.forall_mem_cons.mpr ⟨by decide, plain (n + 1)⟩
    refine ⟨-floatOfDecimal (n + 1) 0, ?_, roundInt_negSucc n ▸ (stands_floatOfDecimal (n + 1)).neg⟩
    rw [intText, trim_eq plain', readFloat?, String.toList_ofList, splitSign]
    simp [readLiteral?_digitsOf, Literal.toFloat]

end Runbook.Number
