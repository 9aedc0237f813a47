import Mathlib.Algebra.Group.Int.Defs
import Mathlib.Order.Compare
import Runbook.Condition
import Runbook.Proofs.Moments

/-! # Integers as floating-point numbers

A floating-point number has 53 binary digits, so an integer with more of them is rounded to the nearest one that there
is, a half to the even neighbour. Rounding never turns the order of two integers around, but it may make them equal.
An integer that would be rounded to `2 ^ 1024` or beyond has no number near it.
-/

namespace Runbook.Number

/-! ## Rounding -/

/-- A natural number rounded to 53 binary digits. -/
def roundNat (n : Nat) : Nat := roundHalfEven n (2 ^ (n.log2 - 52)) * 2 ^ (n.log2 - 52)

variable {m n k c d : Nat}

theorem roundHalfEven_mul_right (positive : 0 < c) : roundHalfEven (m * c) (d * c) = roundHalfEven m d := by
  have less (x y : Nat) : x * c < y * c ↔ x < y := Nat.mul_lt_mul_right positive
  simp only [roundHalfEven, Nat.mul_mod_mul_right, Nat.mul_div_mul_right _ _ positive, ← Nat.mul_assoc, less]

theorem roundHalfEven_bounds (m d : Nat) : m / d ≤ roundHalfEven m d ∧ roundHalfEven m d ≤ m / d + 1 := by
  simp only [roundHalfEven]
  split_ifs <;> omega

theorem roundHalfEven_exact (positive : 0 < d) : roundHalfEven (k * d) d = k := by
  simp only [roundHalfEven, Nat.mul_mod_left, Nat.mul_zero, if_pos positive]
  exact Nat.mul_div_cancel k positive

theorem roundHalfEven_mono (less : m ≤ n) (d : Nat) : roundHalfEven m d ≤ roundHalfEven n d := by
  rcases Nat.lt_or_eq_of_le (Nat.div_le_div_right (c := d) less) with below | same
  · calc roundHalfEven m d ≤ m / d + 1 := (roundHalfEven_bounds m d).2
      _ ≤ n / d := below
      _ ≤ roundHalfEven n d := (roundHalfEven_bounds n d).1
  · have parts := Nat.div_add_mod m d
    have parts' := Nat.div_add_mod n d
    rw [same] at parts
    simp only [roundHalfEven, same, beq_iff_eq]
    split_ifs <;> omega

theorem roundNat_of_lt (small : n < 2 ^ 53) : roundNat n = n := by
  have place : n.log2 - 52 = 0 := by
    rcases Nat.eq_zero_or_pos n with rfl | positive
    · simp
    · have := (Nat.log2_lt (Nat.ne_of_gt positive)).mpr small
      omega
  have exact := roundHalfEven_exact (k := n) Nat.one_pos
  rw [Nat.mul_one] at exact
  rw [roundNat, place, Nat.pow_zero, Nat.mul_one, exact]

theorem roundNat_two_mul (n : Nat) : roundNat (2 * n) = 2 * roundNat n := by
  rcases Nat.lt_or_ge n (2 ^ 52) with small | large
  · rw [roundNat_of_lt (by omega), roundNat_of_lt (by omega)]
  · have positive : n ≠ 0 := by omega
    have digits : 52 ≤ n.log2 := (Nat.le_log2 positive).mpr large
    have place : (2 * n).log2 - 52 = n.log2 - 52 + 1 := by
      rw [Nat.log2_two_mul positive]
      omega
    rw [roundNat, roundNat, place, Nat.pow_succ, Nat.mul_comm 2 n, roundHalfEven_mul_right Nat.two_pos]
    rw [← Nat.mul_assoc, Nat.mul_comm]

theorem roundNat_mul_two_pow (n k : Nat) : roundNat (n * 2 ^ k) = roundNat n * 2 ^ k := by
  induction k with
  | zero => simp
  | succ k ih =>
    rw [Nat.pow_succ, ← Nat.mul_assoc, Nat.mul_comm (n * 2 ^ k) 2, roundNat_two_mul, ih]
    rw [Nat.mul_comm 2, Nat.mul_assoc]

/-- A quotient of at least 53 digits has 53 digits after rounding, if it is not the next power of two. -/
theorem roundHalfEven_quotient (positive : 0 < d) (full : 2 ^ 52 ≤ n / d) :
    2 ^ 52 ≤ roundHalfEven n (d * 2 ^ ((n / d).log2 - 52)) ∧
      roundHalfEven n (d * 2 ^ ((n / d).log2 - 52)) ≤ 2 ^ 53 := by
  have nonzero : n / d ≠ 0 := by omega
  have digits : 52 ≤ (n / d).log2 := (Nat.le_log2 nonzero).mpr full
  have place : 0 < d * 2 ^ ((n / d).log2 - 52) := Nat.mul_pos positive (Nat.two_pow_pos _)
  have low : 2 ^ 52 * 2 ^ ((n / d).log2 - 52) ≤ n / d := by
    rw [← Nat.pow_add, Nat.add_sub_cancel' digits]
    exact Nat.log2_self_le nonzero
  have high : n / d < 2 ^ 53 * 2 ^ ((n / d).log2 - 52) := by
    rw [← Nat.pow_add, show 53 + ((n / d).log2 - 52) = (n / d).log2 + 1 by omega]
    exact Nat.lt_log2_self
  rw [Nat.le_div_iff_mul_le positive, Nat.mul_assoc, Nat.mul_comm _ d] at low
  rw [Nat.div_lt_iff_lt_mul positive, Nat.mul_assoc, Nat.mul_comm _ d] at high
  constructor
  · rw [← roundHalfEven_exact (k := 2 ^ 52) place]
    exact roundHalfEven_mono low _
  · rw [← roundHalfEven_exact (k := 2 ^ 53) place]
    exact roundHalfEven_mono high.le _

theorem roundHalfEven_digits (full : 2 ^ 52 ≤ n) :
    2 ^ 52 ≤ roundHalfEven n (2 ^ (n.log2 - 52)) ∧ roundHalfEven n (2 ^ (n.log2 - 52)) ≤ 2 ^ 53 := by
  have quotient := roundHalfEven_quotient (n := n) Nat.one_pos (by rwa [Nat.div_one])
  rwa [Nat.div_one, Nat.one_mul] at quotient

/-- The digits of a number that is rounded begin with the same power of two, if they do not become the next one. -/
theorem roundNat_bounds (nonzero : n ≠ 0) : 2 ^ n.log2 ≤ roundNat n ∧ roundNat n ≤ 2 ^ (n.log2 + 1) := by
  rcases Nat.lt_or_ge n (2 ^ 52) with small | large
  · rw [roundNat_of_lt (by omega)]
    exact ⟨Nat.log2_self_le nonzero, Nat.le_of_lt Nat.lt_log2_self⟩
  · have digits : 52 ≤ n.log2 := (Nat.le_log2 nonzero).mpr large
    obtain ⟨low, high⟩ := roundHalfEven_digits large
    constructor
    · calc 2 ^ n.log2 = 2 ^ 52 * 2 ^ (n.log2 - 52) := by rw [← Nat.pow_add, Nat.add_sub_cancel' digits]
        _ ≤ roundNat n := Nat.mul_le_mul_right _ low
    · calc roundNat n ≤ 2 ^ 53 * 2 ^ (n.log2 - 52) := Nat.mul_le_mul_right _ high
        _ = 2 ^ (n.log2 + 1) := by rw [← Nat.pow_add, show 53 + (n.log2 - 52) = n.log2 + 1 by omega]

/-- Rounding turns no order around. -/
theorem roundNat_mono (less : m ≤ n) : roundNat m ≤ roundNat n := by
  rcases Nat.eq_zero_or_pos m with rfl | positive
  · exact Nat.zero_le _
  have nonzero : m ≠ 0 := by omega
  have nonzero' : n ≠ 0 := by omega
  have digits : m.log2 ≤ n.log2 := (Nat.le_log2 nonzero').mpr ((Nat.log2_self_le nonzero).trans less)
  rcases Nat.lt_or_eq_of_le digits with fewer | same
  · calc roundNat m ≤ 2 ^ (m.log2 + 1) := (roundNat_bounds nonzero).2
      _ ≤ 2 ^ n.log2 := Nat.pow_le_pow_right Nat.two_pos fewer
      _ ≤ roundNat n := (roundNat_bounds nonzero').1
  · rw [roundNat, roundNat, same]
    exact Nat.mul_le_mul_right _ (roundHalfEven_mono less _)

/-- The least power of two that is no number any more. -/
def ceiling : Nat := 2 ^ 1024

theorem ceiling_eq : 2 ^ 1024 = ceiling := ceiling.eq_1.symm

theorem ceiling_le_pow (large : 1024 ≤ k) : ceiling ≤ 2 ^ k := by
  unfold ceiling
  -- a power with a numeral for its exponent would be computed
  generalize 1024 = e at large ⊢
  exact Nat.pow_le_pow_right Nat.two_pos large

/-- The least natural number that is rounded to the ceiling. -/
@[irreducible]
def tooLarge : Nat := 2 ^ 1024 - 2 ^ 970

theorem ceiling_le_roundNat_iff : ceiling ≤ roundNat n ↔ tooLarge ≤ n := by
  have above : roundNat tooLarge = ceiling := by decide +kernel
  have below : roundNat (tooLarge - 1) < ceiling := by decide +kernel
  constructor
  · intro beyond
    by_contra less
    have := roundNat_mono (show n ≤ tooLarge - 1 by omega)
    omega
  · intro beyond
    rw [← above]
    exact roundNat_mono beyond

/-! ## What the arithmetic of numbers rounds to -/

section Arithmetic

open Float.Model Float.Model.UnpackedFloat

theorem ofMantissaAndAccuracy_parts (n : Nat) (accuracy : Accuracy) :
    (ExtendedMantissa.ofMantissaAndAccuracy n accuracy).mantissa = n ∧
      (ExtendedMantissa.ofMantissaAndAccuracy n accuracy).accuracy = accuracy := by
  cases accuracy with
  | exact => exact ⟨rfl, rfl⟩
  | inexact order => cases order <;> exact ⟨rfl, rfl⟩

/-- Shifting a mantissa keeps the quotient, and of the remainder how it compares with one half. -/
theorem shiftRight_quotient (n : Nat) (positive : 0 < d) (k : Nat) :
    let shifted := ExtendedMantissa.ofMantissaAndAccuracy (n / d) (accuracyOfFraction (n % d) d) >>> k
    shifted.mantissa = n / (d * 2 ^ k) ∧ shifted.accuracy = accuracyOfFraction (n % (d * 2 ^ k)) (d * 2 ^ k) := by
  induction k with
  | zero =>
    rw [Nat.pow_zero, Nat.mul_one]
    exact ofMantissaAndAccuracy_parts ..
  | succ k ih =>
    change (ExtendedMantissa.shiftRightOne
      (ExtendedMantissa.ofMantissaAndAccuracy (n / d) (accuracyOfFraction (n % d) d) >>> k)).mantissa = _ ∧
      (ExtendedMantissa.shiftRightOne
        (ExtendedMantissa.ofMantissaAndAccuracy (n / d) (accuracyOfFraction (n % d) d) >>> k)).accuracy = _
    dsimp only at ih
    generalize ExtendedMantissa.ofMantissaAndAccuracy (n / d) (accuracyOfFraction (n % d) d) >>> k = shifted at ih
    obtain ⟨q, half, less⟩ := shifted
    obtain ⟨rfl, accuracy⟩ := ih
    rw [Nat.pow_succ, ← Nat.mul_assoc]
    have place : 0 < d * 2 ^ k := Nat.mul_pos positive (Nat.two_pow_pos k)
    generalize d * 2 ^ k = p at *
    constructor
    · rw [← Nat.div_div_eq_div_mul]
      rfl
    · have rest : n % p < p := Nat.mod_lt _ place
      have lost : (half || less) = true ↔ n % p ≠ 0 := by
        unfold accuracyOfFraction at accuracy
        split at accuracy <;> cases half <;> cases less <;> simp_all [ExtendedMantissa.accuracy]
      rw [Nat.mod_mul]
      unfold ExtendedMantissa.shiftRightOne accuracyOfFraction
      generalize n / p = q at *
      generalize n % p = r at *
      rcases Nat.mod_two_eq_zero_or_one q with even | odd <;> rcases Nat.eq_zero_or_pos r with rfl | some
      · have none : (half || less) = false := by simpa using lost
        simp [even, none, ExtendedMantissa.accuracy]
      · have below : compare (2 * r) (p * 2) = .lt := compare_lt_iff_lt.mpr (by omega)
        simp [even, lost.mpr (Nat.ne_of_gt some), below, Nat.ne_of_gt some, ExtendedMantissa.accuracy]
      · have none : (half || less) = false := by simpa using lost
        have equal : compare (2 * p) (p * 2) = .eq := compare_eq_iff_eq.mpr (Nat.mul_comm 2 p)
        simp [odd, none, equal, Nat.ne_of_gt rest, ExtendedMantissa.accuracy]
      · have above : compare (2 * (r + p)) (p * 2) = .gt := compare_gt_iff_gt.mpr (by omega)
        simp [odd, lost.mpr (Nat.ne_of_gt some), above, Nat.ne_of_gt some, ExtendedMantissa.accuracy]

theorem roundedMantissa_quotient (n : Nat) (positive : 0 < d) (k : Nat) :
    (ExtendedMantissa.ofMantissaAndAccuracy (n / d) (accuracyOfFraction (n % d) d) >>> k).roundedMantissa =
      roundHalfEven n (d * 2 ^ k) := by
  obtain ⟨quotient, accuracy⟩ := shiftRight_quotient n positive k
  rw [ExtendedMantissa.roundedMantissa, quotient, accuracy, accuracyOfFraction]
  have place : 0 < d * 2 ^ k := Nat.mul_pos positive (Nat.two_pow_pos k)
  generalize d * 2 ^ k = p at *
  simp only [roundHalfEven, beq_iff_eq]
  split
  · next exact =>
    rw [exact, Nat.mul_zero, if_pos place]
    rfl
  · rcases lt_trichotomy (2 * (n % p)) p with less | same | more
    · rw [compare_lt_iff_lt.mpr less, if_pos less]
      rfl
    · rw [compare_eq_iff_eq.mpr same, same, if_neg (Nat.lt_irrefl _), if_neg (Nat.lt_irrefl _)]
      change n / p + n / p % 2 = _
      split_ifs <;> omega
    · rw [compare_gt_iff_gt.mpr more, if_neg (Nat.lt_asymm more), if_pos more]
      rfl

/-- A natural number is a quotient by one. -/
theorem ofMantissaAndAccuracy_exact (n : Nat) : ExtendedMantissa.ofMantissaAndAccuracy n .exact =
    .ofMantissaAndAccuracy (n / 1) (accuracyOfFraction (n % 1) 1) := by
  rw [Nat.div_one, Nat.mod_one]
  rfl

theorem shiftRight_exact (n k : Nat) :
    (ExtendedMantissa.ofMantissaAndAccuracy n .exact >>> k).mantissa = n / 2 ^ k := by
  rw [ofMantissaAndAccuracy_exact, (shiftRight_quotient n Nat.one_pos k).1, Nat.one_mul]

theorem targetExponent_binary64 (n : Nat) (e : Int) :
    Format.binary64.targetExponent (totalExponent n e) = max (n.log2 + e - 52) (-1074) := by
  change max ((n.log2 : Int) + 1 + e - (53 : Nat)) (-1074) = _
  omega

theorem shiftToTargetExponent_eq {e t : Int} (accuracy : Accuracy)
    (target : Format.binary64.targetExponent (totalExponent n e) = t) :
    shiftToTargetExponent Format.binary64 n e accuracy =
      (ExtendedMantissa.ofMantissaAndAccuracy n accuracy >>> (t - e).toNat, e + (t - e).toNat) := by
  rw [shiftToTargetExponent, target]
  rfl

/-- A quotient that has become the next power of two is halved, and its exponent grows by one. -/
theorem shiftToTargetExponent_carry {q : Nat} {t : Int} (low : 2 ^ 52 ≤ q) (high : q ≤ 2 ^ 53) (normal : -1074 ≤ t) :
    let carried := shiftToTargetExponent Format.binary64 q t .exact
    2 ^ 52 ≤ carried.1.mantissa ∧ carried.1.mantissa < 2 ^ 53 ∧ t ≤ carried.2 ∧
      carried.1.mantissa * 2 ^ (carried.2 - t).toNat = q := by
  have nonzero : q ≠ 0 := by omega
  rcases Nat.lt_or_eq_of_le high with less | rfl
  · have digits : q.log2 = 52 := (Nat.log2_eq_iff nonzero).mpr ⟨low, less⟩
    rw [shiftToTargetExponent_eq (n := q) (e := t) (t := t) .exact (by rw [targetExponent_binary64, digits]; omega)]
    have none : (t - t).toNat = 0 := by omega
    have none' : (t + (0 : Nat) - t).toNat = 0 := by omega
    simp only [none, shiftRight_exact, none', Nat.pow_zero, Nat.div_one, Nat.mul_one]
    exact ⟨low, less, by omega, trivial⟩
  · have digits : (2 ^ 53).log2 = 53 := Nat.log2_two_pow
    rw [shiftToTargetExponent_eq (n := 2 ^ 53) (e := t) (t := t + 1) .exact (by
      rw [targetExponent_binary64, digits]
      omega)]
    have one : t + 1 - t = 1 := by omega
    have one' : t + (1 : Nat) - t = 1 := by omega
    simp only [one, Int.toNat_one, shiftRight_exact, one']
    exact ⟨by decide, by decide, by omega, by decide⟩

/-- A quotient of at least 53 digits is rounded to 53 digits. -/
theorem roundWithAccuracy_quotient (sign : Sign) {e : Int} (positive : 0 < d) (full : 2 ^ 52 ≤ n / d)
    (normal : -1074 ≤ (n / d).log2 + e - 52) :
    ∃ (m : Nat) (t : Int) (more : 0 < m),
      roundWithAccuracy Format.binary64 sign (n / d) e (accuracyOfFraction (n % d) d) = .finite sign m t more ∧
        2 ^ 52 ≤ m ∧ m < 2 ^ 53 ∧ e ≤ t ∧ m * 2 ^ (t - e).toNat =
          roundHalfEven n (d * 2 ^ ((n / d).log2 - 52)) * 2 ^ ((n / d).log2 - 52) := by
  have digits : 52 ≤ (n / d).log2 := (Nat.le_log2 (by omega)).mpr full
  have target : Format.binary64.targetExponent (totalExponent (n / d) e) = e + ((n / d).log2 - 52 : Nat) := by
    rw [targetExponent_binary64]
    omega
  have shift : (e + ((n / d).log2 - 52 : Nat) - e).toNat = (n / d).log2 - 52 := by omega
  have first := shiftToTargetExponent_eq (accuracyOfFraction (n % d) d) target
  rw [shift] at first
  obtain ⟨low, high⟩ := roundHalfEven_quotient positive full
  obtain ⟨least, most, later, same⟩ :=
    shiftToTargetExponent_carry (t := e + ((n / d).log2 - 52 : Nat)) low high (by omega)
  rw [roundWithAccuracy, first]
  dsimp only
  rw [roundedMantissa_quotient n positive]
  have nonzero := Nat.ne_of_gt (Nat.lt_of_lt_of_le (Nat.two_pow_pos 52) least)
  refine ⟨_, _, Nat.pos_of_ne_zero nonzero, dif_neg nonzero, least, most, by omega, ?_⟩
  conv_rhs => rw [← same, Nat.mul_assoc, ← Nat.pow_add]
  congr 2
  omega

/-- A mantissa of at least 53 digits is rounded to 53 digits. -/
theorem roundWithAccuracy_exact (sign : Sign) {e : Int} (full : 2 ^ 52 ≤ n) (normal : -1074 ≤ n.log2 + e - 52) :
    ∃ (m : Nat) (t : Int) (more : 0 < m),
      roundWithAccuracy Format.binary64 sign n e .exact = .finite sign m t more ∧ 2 ^ 52 ≤ m ∧ m < 2 ^ 53 ∧
        e ≤ t ∧ m * 2 ^ (t - e).toNat = roundNat n := by
  have quotient := roundWithAccuracy_quotient (n := n) sign (e := e) Nat.one_pos (by rwa [Nat.div_one])
    (by rwa [Nat.div_one])
  rwa [Nat.div_one, Nat.mod_one, Nat.one_mul] at quotient

/-! ## Numbers that are packed and unpacked again -/

theorem unpackSign_packComponents (sign : Sign) (exponent : BitVec 11) (mantissa : BitVec 52) :
    @unpackSign Format.binary64 (packComponents Format.binary64 sign exponent mantissa) = sign.toBitVec := by
  change (sign.toBitVec ++ exponent ++ mantissa).extractLsb 63 63 = _
  apply BitVec.eq_of_toNat_eq
  simp only [BitVec.extractLsb_toNat, BitVec.toNat_append]
  rw [← Nat.shiftLeft_add_eq_or_of_lt exponent.isLt, ← Nat.shiftLeft_add_eq_or_of_lt mantissa.isLt]
  have := exponent.isLt
  have := mantissa.isLt
  have := sign.toBitVec.isLt
  simp only [Nat.shiftLeft_eq, Nat.shiftRight_eq_div_pow]
  omega

theorem ofBitVec_toBitVec (sign : Sign) : Sign.ofBitVec sign.toBitVec = sign := by
  cases sign <;> rfl

theorem finite_congr {s s' : Sign} {m m' : Nat} {e e' : Int} {more : 0 < m} {more' : 0 < m'} (sign : s = s')
    (mantissa : m = m') (exponent : e = e') : UnpackedFloat.finite s m e more = .finite s' m' e' more' := by
  subst sign mantissa exponent
  rfl

/-- A mantissa keeps its last 52 digits when it is packed, and its exponent if it has 53 of them. -/
theorem pack_finite (sign : Sign) {m : Nat} {t : Int} (more : 0 < m) :
    UnpackedFloat.pack Format.binary64 (.finite sign m t more) =
      if 2 ^ 11 ≤ (t + (1023 : Nat) + (52 : Nat)).toNat + 1 then packComponents Format.binary64 sign (-1#11) 0#52
      else if m.log2 + 1 = 53 then
        packComponents Format.binary64 sign (BitVec.ofNat 11 (t + (1023 : Nat) + (52 : Nat)).toNat) (BitVec.ofNat 52 m)
      else packComponents Format.binary64 sign 0#11 (BitVec.ofNat 52 m) := rfl

theorem pack_of_digits (sign : Sign) {m : Nat} {t : Int} (more : 0 < m) (low : 2 ^ 52 ≤ m) (high : m < 2 ^ 53) :
    UnpackedFloat.pack Format.binary64 (.finite sign m t more) =
      if 972 ≤ t then packedInfinity Format.binary64 sign
      else packComponents Format.binary64 sign (BitVec.ofNat 11 (t + 1075).toNat) (BitVec.ofNat 52 m) := by
  have digits : m.log2 = 52 := (Nat.log2_eq_iff (by omega)).mpr ⟨low, high⟩
  rw [pack_finite, show t + (1023 : Nat) + (52 : Nat) = t + 1075 by omega, if_pos (show m.log2 + 1 = 53 by omega)]
  exact if_congr (by omega) rfl rfl

/-- A number of 53 digits whose exponent is too large is infinite. -/
theorem unpack_pack_infinite (sign : Sign) {m : Nat} {t : Int} (more : 0 < m) (low : 2 ^ 52 ≤ m) (high : m < 2 ^ 53)
    (beyond : 972 ≤ t) : (pack (.finite sign m t more)).unpack = .infinity sign := by
  change UnpackedFloat.unpack Format.binary64 (UnpackedFloat.pack Format.binary64 _) = _
  rw [pack_of_digits sign more low high, if_pos beyond]
  cases sign <;> rfl

/-- A number of 53 digits is kept if its exponent is small enough. -/
theorem unpack_pack_finite (sign : Sign) {m : Nat} {t : Int} (more : 0 < m) (low : 2 ^ 52 ≤ m) (high : m < 2 ^ 53)
    (least : -1074 ≤ t) (most : t ≤ 971) : (pack (.finite sign m t more)).unpack = .finite sign m t more := by
  have field : (BitVec.ofNat 11 (t + 1075).toNat).toNat = (t + 1075).toNat := by
    rw [BitVec.toNat_ofNat]
    exact Nat.mod_eq_of_lt (by omega)
  have number : BitVec.ofNat 11 (t + 1075).toNat ≠ -1#11 := by
    intro same
    rw [same] at field
    change 2047 = _ at field
    omega
  have normal : BitVec.ofNat 11 (t + 1075).toNat ≠ 0#11 := by
    intro same
    rw [same] at field
    change 0 = _ at field
    omega
  have mantissa : (1#1 ++ BitVec.ofNat 52 m).toNat = m := by
    rw [BitVec.toNat_append, ← Nat.shiftLeft_add_eq_or_of_lt (BitVec.isLt _), BitVec.toNat_ofNat]
    change 1 <<< 52 + m % 2 ^ 52 = m
    rw [Nat.shiftLeft_eq]
    omega
  change UnpackedFloat.unpack Format.binary64 (UnpackedFloat.pack Format.binary64 _) = _
  rw [pack_of_digits sign more low high, if_neg (by omega)]
  unfold UnpackedFloat.unpack
  dsimp only
  rw [unpackExponent_packComponents, if_neg number, if_neg normal]
  refine finite_congr ?_ ?_ ?_
  · rw [unpackSign_packComponents, ofBitVec_toBitVec]
  · rw [unpackMantissa_packComponents, mantissa]
  · rw [field]
    change ((t + 1075).toNat : Int) - ((1023 : Nat) + (52 : Nat)) = t
    omega

/-! ## Numbers in order -/

/-- A number that an integer can be rounded to, and what it counts as in units of `2 ^ -52`. -/
inductive Tidy : UnpackedFloat → Int → Prop
  | zero (sign : Sign) : Tidy (.zero sign) 0
  | finite (sign : Sign) {m v : Nat} {t : Int} {more : 0 < m} (low : 2 ^ 52 ≤ m) (high : m < 2 ^ 53) (least : -52 ≤ t)
      (value : m * 2 ^ (t + 52).toNat = v) (some : 0 < v) (less : v < ceiling * 2 ^ 52) :
      Tidy (.finite sign m t more) (sign.apply v)
  | infinity (sign : Sign) : Tidy (.infinity sign) (sign.apply (ceiling * 2 ^ 52 : Nat))

/-- A number of 53 digits with a smaller exponent is smaller. -/
theorem scaled_lt {m m' k k' : Nat} (high : m < 2 ^ 53) (low : 2 ^ 52 ≤ m') (less : k < k') :
    m * 2 ^ k < m' * 2 ^ k' :=
  calc m * 2 ^ k < 2 ^ 53 * 2 ^ k := Nat.mul_lt_mul_of_pos_right high (Nat.two_pow_pos k)
    _ = 2 ^ 52 * 2 ^ (k + 1) := by rw [← Nat.pow_add, ← Nat.pow_add, show 53 + k = 52 + (k + 1) by omega]
    _ ≤ m' * 2 ^ k' := Nat.mul_le_mul low (Nat.pow_le_pow_right Nat.two_pos less)

theorem compare_scaled {m m' : Nat} {t t' : Int} (low : 2 ^ 52 ≤ m) (high : m < 2 ^ 53) (low' : 2 ^ 52 ≤ m')
    (high' : m' < 2 ^ 53) (least : -52 ≤ t) (least' : -52 ≤ t') :
    (compare t t').then (compare m m') = compare (m * 2 ^ (t + 52).toNat) (m' * 2 ^ (t' + 52).toNat) := by
  rcases lt_trichotomy t t' with less | rfl | more
  · rw [compare_lt_iff_lt.mpr less, Ordering.lt_then, eq_comm, compare_lt_iff_lt]
    exact scaled_lt high low' (by omega)
  · have place : 0 < 2 ^ (t + 52).toNat := Nat.two_pow_pos _
    rw [compare_eq_iff_eq.mpr rfl, Ordering.eq_then]
    rcases lt_trichotomy m m' with less | rfl | more
    · rw [compare_lt_iff_lt.mpr less, eq_comm, compare_lt_iff_lt]
      exact Nat.mul_lt_mul_of_pos_right less place
    · rw [compare_eq_iff_eq.mpr rfl, compare_eq_iff_eq.mpr rfl]
    · rw [compare_gt_iff_gt.mpr more, eq_comm, compare_gt_iff_gt]
      exact Nat.mul_lt_mul_of_pos_right more place
  · rw [compare_gt_iff_gt.mpr more, Ordering.gt_then, eq_comm, compare_gt_iff_gt]
    exact scaled_lt high' low (by omega)

private theorem some_lt_eq {k k' : Int} (less : k < k') : some Ordering.lt = some (compare k k') := by
  rw [compare_lt_iff_lt.mpr less]

private theorem some_gt_eq {k k' : Int} (more : k' < k) : some Ordering.gt = some (compare k k') := by
  rw [compare_gt_iff_gt.mpr more]

private theorem compare_natCast (v v' : Nat) : compare (v : Int) v' = compare v v' := by
  rcases lt_trichotomy v v' with less | rfl | more
  · rw [compare_lt_iff_lt.mpr less, compare_lt_iff_lt.mpr (Int.ofNat_lt.mpr less)]
  · rw [compare_eq_iff_eq.mpr rfl, compare_eq_iff_eq.mpr rfl]
  · rw [compare_gt_iff_gt.mpr more, compare_gt_iff_gt.mpr (Int.ofNat_lt.mpr more)]

private theorem compare_neg_natCast (v v' : Nat) : compare (-v : Int) (-v') = (compare v v').swap := by
  rcases lt_trichotomy v v' with less | rfl | more
  · rw [compare_lt_iff_lt.mpr less, Ordering.swap, compare_gt_iff_gt]
    omega
  · rw [compare_eq_iff_eq.mpr rfl, compare_eq_iff_eq.mpr rfl, Ordering.swap]
  · rw [compare_gt_iff_gt.mpr more, Ordering.swap, compare_lt_iff_lt]
    omega

/-- Numbers are ordered as what they count as. -/
theorem Tidy.compare {u u' : UnpackedFloat} {k k' : Int} (tidy : Tidy u k) (tidy' : Tidy u' k') :
    u.compare u' = some (compare k k') := by
  have bounded : 0 < ceiling := by decide +kernel
  cases tidy with
  | zero s =>
    cases tidy' with
    | zero s' => rfl
    | finite s' | infinity s' =>
      cases s' with
      | negative => exact some_gt_eq (by simp only [Sign.apply]; omega)
      | positive => exact some_lt_eq (by simp only [Sign.apply]; omega)
  | infinity s =>
    cases tidy' with
    | zero s' | finite s' =>
      cases s with
      | negative => exact some_lt_eq (by cases s' <;> simp only [Sign.apply] <;> omega)
      | positive => exact some_gt_eq (by cases s' <;> simp only [Sign.apply] <;> omega)
    | infinity s' =>
      cases s <;> cases s' <;> first
        | exact congrArg some (compare_eq_iff_eq.mpr rfl).symm
        | exact some_lt_eq (by simp only [Sign.apply]; omega)
        | exact some_gt_eq (by simp only [Sign.apply]; omega)
  | finite s low high least value =>
    cases tidy' with
    | zero s' =>
      cases s with
      | negative => exact some_lt_eq (by simp only [Sign.apply]; omega)
      | positive => exact some_gt_eq (by simp only [Sign.apply]; omega)
    | infinity s' =>
      cases s' with
      | negative => exact some_gt_eq (by cases s <;> simp only [Sign.apply] <;> omega)
      | positive => exact some_lt_eq (by cases s <;> simp only [Sign.apply] <;> omega)
    | finite s' low' high' least' value' =>
      have order := compare_scaled low high low' high' least least'
      rw [value, value'] at order
      cases s with
      | negative =>
        cases s' with
        | negative =>
          change some ((Ord.compare _ _).then (Ord.compare _ _)).swap = some (Ord.compare (-_ : Int) (-_ : Int))
          rw [order, compare_neg_natCast]
        | positive => exact some_lt_eq (by simp only [Sign.apply]; omega)
      | positive =>
        cases s' with
        | negative => exact some_gt_eq (by simp only [Sign.apply]; omega)
        | positive =>
          change some ((Ord.compare _ _).then (Ord.compare _ _)) = some (Ord.compare (_ : Int) (_ : Int))
          rw [order]
          exact congrArg some (compare_natCast _ _).symm

/-- The digits that a natural number is rounded to. -/
structure Digits (n m : Nat) (t : Int) : Prop where
  more : 0 < m
  low : 2 ^ 52 ≤ m
  high : m < 2 ^ 53
  least : -52 ≤ t
  value : m * 2 ^ (t + 52).toNat = roundNat n * 2 ^ 52

variable {t : Int}

/-- A number with the digits that a natural number is rounded to, or infinity in its place. -/
theorem Digits.tidy (digits : Digits n m t) (sign : Sign) :
    Tidy (pack (.finite sign m t digits.more)).unpack (sign.apply (min (roundNat n) ceiling * 2 ^ 52 : Nat)) := by
  obtain ⟨more, low, high, least, value⟩ := digits
  have positive : 0 < m * 2 ^ (t + 52).toNat := Nat.mul_pos more (Nat.two_pow_pos _)
  have place : 0 < 2 ^ 52 := Nat.two_pow_pos 52
  rcases lt_or_ge t 972 with small | large
  · have less := scaled_lt high (Nat.le_refl (2 ^ 52)) (show (t + 52).toNat < 1024 by omega)
    rw [value, ceiling_eq, Nat.mul_comm (2 ^ 52)] at less
    rw [unpack_pack_finite sign more low high (by omega) (by omega),
      Nat.min_eq_left (Nat.le_of_lt (Nat.lt_of_mul_lt_mul_right less))]
    exact .finite sign low high least value (value ▸ positive) less
  · have beyond := Nat.mul_le_mul low (ceiling_le_pow (k := (t + 52).toNat) (by omega))
    rw [value, Nat.mul_comm (2 ^ 52)] at beyond
    rw [unpack_pack_infinite sign more low high large, Nat.min_eq_right (Nat.le_of_mul_le_mul_right beyond place)]
    exact .infinity sign

/-- However many zeros a mantissa ends in, the digits that it is rounded to are those of the number that it stands
for. -/
theorem digits_of_scaled (sign : Sign) {j : Nat} (nonzero : n ≠ 0) (full : 2 ^ 52 ≤ n * 2 ^ j) (less : j ≤ 1000) :
    ∃ (m : Nat) (t : Int) (digits : Digits n m t),
      roundWithAccuracy Format.binary64 sign (n * 2 ^ j) (-j) .exact = .finite sign m t digits.more := by
  have digits : 52 ≤ (n * 2 ^ j).log2 := (Nat.le_log2 (by omega)).mpr full
  obtain ⟨m, t, more, rounded, low, high, later, value⟩ := roundWithAccuracy_exact sign (e := -j) full (by omega)
  rw [roundNat_mul_two_pow, show t - -(j : Int) = t + j by omega] at value
  have some : 0 < roundNat n := Nat.lt_of_lt_of_le (Nat.two_pow_pos _) (roundNat_bounds nonzero).1
  have least : -52 ≤ t := by
    by_contra fewer
    have : m * 2 ^ (t + j).toNat < 2 ^ 52 * 2 ^ (j - 52) := scaled_lt high (Nat.le_refl _) (by omega)
    rw [value, ← Nat.pow_add, Nat.add_sub_cancel' (by omega)] at this
    exact Nat.not_lt.mpr (Nat.le_mul_of_pos_left _ some) this
  refine ⟨m, t, ⟨more, low, high, least, ?_⟩, rounded⟩
  apply Nat.eq_of_mul_eq_mul_right (Nat.two_pow_pos j)
  calc m * 2 ^ (t + 52).toNat * 2 ^ j = m * 2 ^ (t + j).toNat * 2 ^ 52 := by
        rw [Nat.mul_assoc, Nat.mul_assoc, ← Nat.pow_add, ← Nat.pow_add]
        congr 2
        omega
    _ = roundNat n * 2 ^ 52 * 2 ^ j := by rw [value, Nat.mul_right_comm]

/-- A natural number of more than 53 digits is rounded when it is read. -/
theorem digits_of_large (large : 2 ^ 53 ≤ n) : ∃ (m : Nat) (t : Int) (digits : Digits n m t),
    (Float.ofNat n).toModel = pack (.finite .positive m t digits.more) := by
  have nonzero : n ≠ 0 := by omega
  obtain ⟨m, t, digits, rounded⟩ := digits_of_scaled .positive (j := 53) nonzero (by omega) (by omega)
  refine ⟨m, t, digits, ?_⟩
  rw [← rounded]
  change (Float.ofScientific n false 0).toModel = _
  rw [Float.ofScientific, dif_neg (by omega)]
  change pack (UnpackedFloat.ofScientific Format.binary64 n 0) = _
  have some : ¬(0 : Int) < -(2 ^ Format.binary64.exponentBits + n.log2) := by
    change ¬(0 : Int) < -(2 ^ 11 + n.log2)
    omega
  rw [UnpackedFloat.ofScientific, dif_neg nonzero, if_neg (by decide), if_neg some, if_pos (Int.le_refl 0)]
  change pack (roundWithAccuracy Format.binary64 .positive (n <<< 53 * 1) (-53) .exact) = _
  rw [Nat.mul_one, Nat.shiftLeft_eq]
  rfl

/-- A machine word of at most 53 digits is not rounded when it is taken as a number. -/
theorem digits_of_word (nonzero : n ≠ 0) (small : n < 2 ^ 53) : ∃ (m : Nat) (t : Int) (digits : Digits n m t),
    n.toUInt64.toFloat.toModel = pack (.finite .positive m t digits.more) ∧ t ≤ 0 := by
  have fewer : n.log2 < 53 := (Nat.log2_lt nonzero).mpr small
  have filled : 2 ^ 52 ≤ n * 2 ^ (52 - n.log2) :=
    calc 2 ^ 52 = 2 ^ n.log2 * 2 ^ (52 - n.log2) := by rw [← Nat.pow_add, Nat.add_sub_cancel' (by omega)]
      _ ≤ n * 2 ^ (52 - n.log2) := Nat.mul_le_mul_right _ (Nat.log2_self_le nonzero)
  obtain ⟨m, t, digits, rounded⟩ := digits_of_scaled .positive nonzero filled (by omega)
  refine ⟨m, t, digits, ?_, ?_⟩
  · change pack (UnpackedFloat.normalize Format.binary64 (n % 2 ^ 64 : Nat) 0 .positive) = _
    rw [Nat.mod_eq_of_lt (by omega), UnpackedFloat.normalize, Int.compare_eq_gt.mpr (by omega)]
    change pack (UnpackedFloat.round Format.binary64 .positive n 0) = _
    have shift : (-max ((n.log2 : Int) + 0 - 52) (-1074)).toNat = 52 - n.log2 := by omega
    have filledUp : UnpackedFloat.round Format.binary64 .positive n 0 = roundWithAccuracy Format.binary64 .positive
        (n * 2 ^ (52 - n.log2)) (-(52 - n.log2 : Nat)) .exact := by
      simp only [UnpackedFloat.round, decreaseExponent, targetExponent_binary64, Nat.shiftLeft_eq, Int.zero_sub, shift]
    rw [filledUp, rounded]
  · have value := digits.value
    rw [roundNat_of_lt small] at value
    by_contra positive
    have := scaled_lt (k := 52) small digits.low (show 52 < (t + 52).toNat by omega)
    omega

/-- A natural number of at most 53 digits is taken as a machine word, and multiplied by one. -/
theorem digits_of_small (nonzero : n ≠ 0) (small : n < 2 ^ 53) : ∃ (m : Nat) (t : Int) (digits : Digits n m t),
    (Float.ofNat n).toModel = pack (.finite .positive m t digits.more) := by
  obtain ⟨m, t, digits, word, whole⟩ := digits_of_word nonzero small
  have least := digits.least
  have value := digits.value
  rw [roundNat_of_lt small] at value
  have exact : m = n * 2 ^ (-t).toNat := by
    apply Nat.eq_of_mul_eq_mul_right (Nat.two_pow_pos (t + 52).toNat)
    rw [value, Nat.mul_assoc, ← Nat.pow_add, show (-t).toNat + (t + 52).toNat = 52 by omega]
  have doubled : m * 2 ^ 52 = n * 2 ^ (52 - t).toNat := by
    rw [exact, Nat.mul_assoc, ← Nat.pow_add, show (-t).toNat + 52 = (52 - t).toNat by omega]
  have full : 2 ^ 52 ≤ n * 2 ^ (52 - t).toNat := by
    have := digits.low
    omega
  obtain ⟨m', t', digits', rounded'⟩ := digits_of_scaled .positive nonzero full (by omega)
  have one : (Float.ofBits 0x3FF0000000000000).toModel.unpack = .finite .positive (2 ^ 52) (-52) (by decide) := rfl
  refine ⟨m', t', digits', ?_⟩
  rw [← rounded', ← doubled]
  change (Float.ofScientific n false 0).toModel = _
  rw [Float.ofScientific, dif_pos ⟨small, by omega⟩]
  change pack (UnpackedFloat.mul _ n.toUInt64.toFloat.toModel.unpack
    (Float.ofBits 0x3FF0000000000000).toModel.unpack) = _
  rw [word, one, unpack_pack_finite .positive digits.more digits.low digits.high (by omega) (by omega)]
  change pack (roundWithAccuracy _ .positive (m * 2 ^ 52) (t + -52) .exact) = _
  rw [show t + -52 = -((52 - t).toNat : Int) by omega]

/-- A number that is tidy is the same when it is packed and unpacked again. -/
theorem Tidy.unpack_pack {u : UnpackedFloat} {v : Int} (tidy : Tidy u v) : (pack u).unpack = u := by
  cases tidy with
  | zero sign => cases sign <;> rfl
  | finite sign low high least value some less =>
    rename_i m _ t more
    refine unpack_pack_finite sign more low high (by omega) ?_
    by_contra large
    have beyond := Nat.mul_le_mul low (ceiling_le_pow (k := (t + 52).toNat) (by omega))
    rw [value, Nat.mul_comm (2 ^ 52)] at beyond
    exact Nat.not_lt.mpr beyond less
  | infinity sign => cases sign <;> rfl

theorem Tidy.neg {u : UnpackedFloat} {v : Int} (tidy : Tidy u v) : Tidy u.neg (-v) := by
  cases tidy with
  | zero sign => exact .zero _
  | finite sign low high least value some less =>
    cases sign with
    | negative => exact (Int.neg_neg _).symm ▸ .finite .positive low high least value some less
    | positive => exact .finite .negative low high least value some less
  | infinity sign =>
    cases sign with
    | negative => exact (Int.neg_neg _).symm ▸ .infinity .positive
    | positive => exact .infinity .negative

theorem Tidy.isFinite {u : UnpackedFloat} {v : Int} (tidy : Tidy u v) :
    u.isFinite = true ↔ v.natAbs < ceiling * 2 ^ 52 := by
  have bounded : 0 < ceiling := by decide +kernel
  cases tidy with
  | zero sign => exact iff_of_true rfl (by omega)
  | finite sign low high least value some less =>
    exact iff_of_true rfl (by cases sign <;> simp only [Sign.apply] <;> omega)
  | infinity sign => exact iff_of_false Bool.false_ne_true (by cases sign <;> simp only [Sign.apply] <;> omega)

/-- A number is finite unless it has the largest exponent. -/
theorem isFinite_unpack_iff (b : BitVec 64) :
    (UnpackedFloat.unpack Format.binary64 b).isFinite = true ↔ @unpackExponent Format.binary64 b ≠ -1#11 := by
  unfold UnpackedFloat.unpack
  dsimp only
  by_cases most : @unpackExponent Format.binary64 b = -1#11
  · refine iff_of_false ?_ (not_not_intro most)
    rw [if_pos most]
    by_cases none : @unpackMantissa Format.binary64 b = 0#52
    · rw [if_pos none]
      exact Bool.false_ne_true
    · rw [if_neg none]
      exact Bool.false_ne_true
  · refine iff_of_true ?_ most
    rw [if_neg most]
    by_cases least : @unpackExponent Format.binary64 b = 0#11
    · rw [if_pos least]
      by_cases none : @unpackMantissa Format.binary64 b = 0#52
      · rw [dif_pos none]
        rfl
      · rw [dif_neg none]
        rfl
    · rw [if_neg least]
      rfl

theorem isFinite_iff_bits (x : Float) : x.isFinite = true ↔ x.toBits.toNat / fractions % exponents ≠ 2047 := by
  change (UnpackedFloat.unpack Format.binary64 x.toModel.toBits.toBitVec).isFinite = true ↔ _
  rw [isFinite_unpack_iff, not_iff_not, ← BitVec.toNat_inj, unpackExponent_toNat]
  rfl

end Arithmetic

/-- An integer rounded to 53 binary digits. -/
def roundInt (n : Int) : Int := n.sign * roundNat n.natAbs

theorem roundInt_ofNat (n : Nat) : roundInt (Int.ofNat n) = roundNat n := by
  cases n with
  | zero => rfl
  | succ n => exact Int.one_mul _

theorem roundInt_negSucc (n : Nat) : roundInt (Int.negSucc n) = -roundNat (n + 1) := Int.neg_one_mul _

theorem natAbs_roundInt (n : Int) : (roundInt n).natAbs = roundNat n.natAbs := by
  cases n with
  | ofNat n => rw [roundInt_ofNat, Int.natAbs_natCast, Int.ofNat_eq_natCast, Int.natAbs_natCast]
  | negSucc n => rw [roundInt_negSucc, Int.natAbs_neg, Int.natAbs_natCast, Int.natAbs_negSucc]

theorem roundInt_mono {a b : Int} (less : a ≤ b) : roundInt a ≤ roundInt b := by
  cases a with
  | ofNat a =>
    cases b with
    | ofNat b =>
      rw [roundInt_ofNat, roundInt_ofNat]
      exact Int.ofNat_le.mpr (roundNat_mono (Int.ofNat_le.mp less))
    | negSucc b => exact absurd less (Int.not_le.mpr (Int.negSucc_lt_zero b |>.trans_le (Int.natCast_nonneg a)))
  | negSucc a =>
    cases b with
    | ofNat b =>
      rw [roundInt_ofNat, roundInt_negSucc]
      omega
    | negSucc b =>
      have fewer : b + 1 ≤ a + 1 := by omega
      rw [roundInt_negSucc, roundInt_negSucc]
      exact Int.neg_le_neg (Int.ofNat_le.mpr (roundNat_mono fewer))

/-- An integer of at most 53 binary digits is not changed, nor is `2 ^ 53`. -/
theorem roundInt_of_natAbs_le {a : Int} (small : a.natAbs ≤ 2 ^ 53) : roundInt a = a := by
  have same : roundNat a.natAbs = a.natAbs := by
    rcases Nat.lt_or_eq_of_le small with less | most
    · exact roundNat_of_lt less
    · rw [most]
      decide +kernel
  rw [roundInt, same, Int.sign_mul_natAbs]

/-- An integer as far as floating-point numbers go, the infinite ones being `2 ^ 1024` away. -/
def clamp (n : Int) : Int := max (-ceiling) (min ceiling n)

/-- The floating-point number is the integer, or infinite for an integer of that size. -/
def Stands (x : Float) (n : Int) : Prop := Tidy x.toModel.unpack (clamp n * 2 ^ 52)

variable {x y : Float} {a b : Int}

theorem clamp_natCast (n : Nat) : clamp n * 2 ^ 52 = (min n ceiling * 2 ^ 52 : Nat) := by
  unfold clamp
  omega

theorem Stands.neg (stands : Stands x a) : Stands (-x) (-a) := by
  have negated := Tidy.neg stands
  have clamped : clamp (-a) = -clamp a := by
    unfold clamp
    omega
  rw [Stands, clamped, Int.neg_mul]
  change Tidy (Float.Model.pack x.toModel.unpack.neg).unpack _
  rwa [negated.unpack_pack]

/-- The order of numbers is that of the integers, unless both are infinite. -/
theorem Stands.lt_iff (stands : Stands x a) (stands' : Stands y b) (near : a.natAbs < ceiling ∨ b.natAbs < ceiling) :
    x < y ↔ a < b := by
  rw [lt_iff_unpack, Tidy.compare stands stands', beq_iff_eq, Option.some.injEq, compare_lt_iff_lt]
  unfold clamp
  omega

theorem Stands.beq_iff (stands : Stands x a) (stands' : Stands y b) (near : a.natAbs < ceiling ∨ b.natAbs < ceiling) :
    (x == y) = true ↔ a = b := by
  change (x.toModel.unpack.compare y.toModel.unpack == some .eq) = true ↔ _
  rw [Tidy.compare stands stands', beq_iff_eq, Option.some.injEq, compare_eq_iff_eq]
  unfold clamp
  omega

theorem stands_ofNat (n : Nat) : Stands (Float.ofNat n) (roundNat n) := by
  rw [Stands, clamp_natCast]
  rcases Nat.eq_zero_or_pos n with rfl | positive
  · rw [show roundNat 0 = 0 from rfl, Nat.zero_min, Nat.zero_mul]
    exact .zero .positive
  · have digits : ∃ (m : Nat) (t : Int) (digits : Digits n m t),
        (Float.ofNat n).toModel = .pack (.finite .positive m t digits.more) := by
      rcases Nat.lt_or_ge n (2 ^ 53) with small | large
      · exact digits_of_small (Nat.ne_of_gt positive) small
      · exact digits_of_large large
    obtain ⟨m, t, digits, same⟩ := digits
    rw [same]
    exact digits.tidy .positive

/-- An integer is taken as the number that it is rounded to. -/
theorem stands_ofInt (n : Int) : Stands (Float.ofInt n) (roundInt n) := by
  cases n with
  | ofNat n =>
    rw [roundInt_ofNat]
    exact stands_ofNat n
  | negSucc n =>
    rw [roundInt_negSucc]
    exact (stands_ofNat (n + 1)).neg

/-- Infinity is taken for every integer that is beyond the numbers. -/
theorem stands_infinity (beyond : ceiling ≤ n) : Stands infinity n := by
  have unpacked : infinity.toModel.unpack = .infinity .positive := rfl
  rw [Stands, clamp_natCast, Nat.min_eq_right beyond, unpacked]
  exact .infinity .positive

theorem floatOfInt?_eq (n : Int) :
    floatOfInt? n = if (Float.ofInt n).isFinite then some (Float.ofInt n) else none := by
  have bits := isFinite_iff_bits (Float.ofInt n)
  simp only [floatOfInt?, Binary.ofFloat, Binary.ofBits, beq_iff_eq]
  by_cases largest : (Float.ofInt n).toBits.toNat / fractions % exponents = 2047
  · rw [if_neg (fun finite => bits.mp finite largest), if_pos largest]
    split_ifs <;> rfl
  · rw [if_pos (bits.mpr largest), if_neg largest]
    split_ifs <;> rfl

theorem Stands.isFinite (stands : Stands x a) : x.isFinite = true ↔ a.natAbs < ceiling := by
  have finite := Tidy.isFinite stands
  unfold clamp at finite
  exact finite.trans (by omega)

/-- There is a number near an integer unless it is rounded to the ceiling. -/
theorem floatOfInt?_eq_none_iff (n : Int) : floatOfInt? n = none ↔ tooLarge ≤ n.natAbs := by
  rw [floatOfInt?_eq, ← ceiling_le_roundNat_iff, ← natAbs_roundInt, ← Nat.not_lt, ← (stands_ofInt n).isFinite]
  split_ifs with finite <;> simp [finite]

end Runbook.Number
