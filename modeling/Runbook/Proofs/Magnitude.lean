import Runbook.Proofs.Numerals

/-! # Decimals as floating-point numbers

A decimal is rounded to the nearest number that is not negative. It is rounded to infinity exactly if it is at least as
large as the least integer that has no number near it.
-/

namespace Runbook.Number

open Float.Model Float.Model.UnpackedFloat

variable {n d j : Nat} {e : Int}

/-! ## Quotients beyond the numbers -/

/-- A mantissa is packed to a finite number if its exponent is small enough. -/
theorem isFinite_unpack_pack_iff (sign : Sign) {m : Nat} {t : Int} (more : 0 < m) :
    (pack (.finite sign m t more)).unpack.isFinite = true ↔ t < 972 := by
  change (UnpackedFloat.unpack Format.binary64 (UnpackedFloat.pack Format.binary64 _)).isFinite = true ↔ _
  rw [isFinite_unpack_iff, pack_finite]
  rcases Int.lt_or_le t 972 with less | more
  · refine iff_of_true ?_ less
    rw [if_neg (by omega)]
    split
    · rw [unpackExponent_packComponents, Ne, ← BitVec.toNat_inj, BitVec.toNat_ofNat]
      change ¬(t + (1023 : Nat) + (52 : Nat)).toNat % 2 ^ 11 = 2047
      omega
    · rw [unpackExponent_packComponents]
      decide
  · refine iff_of_false ?_ (Int.not_lt.mpr more)
    rw [if_pos (by omega), unpackExponent_packComponents]
    exact not_not_intro rfl

theorem isFinite_of_early (sign : Sign) (m : Nat) {t : Int} (early : t < 972) :
    (pack (if h : m = 0 then .zero sign
      else .finite sign m t (Nat.pos_of_ne_zero h))).unpack.isFinite = true := by
  by_cases none : m = 0
  · rw [dif_pos none]
    cases sign <;> rfl
  · rw [dif_neg none]
    exact (isFinite_unpack_pack_iff sign _).mpr early

/-- A half of the last digit is rounded up from the last number. -/
theorem le_roundHalfEven_iff (positive : 0 < d) : 2 ^ 53 ≤ roundHalfEven n (d * 2) ↔ (2 ^ 54 - 1) * d ≤ n := by
  have parts := Nat.div_add_mod n (d * 2)
  have rest : n % (d * 2) < d * 2 := Nat.mod_lt _ (by omega)
  rcases Nat.lt_trichotomy (n / (d * 2)) (2 ^ 53 - 1) with less | same | more
  · have low : n < (2 ^ 53 - 1) * (d * 2) := (Nat.div_lt_iff_lt_mul (by omega)).mp less
    have high := (roundHalfEven_bounds n (d * 2)).2
    simp only [Nat.reducePow, Nat.reduceSub] at low high less ⊢
    omega
  · have odd : ¬(2 ^ 53 - 1) % 2 = 0 := by decide
    rw [same] at parts
    simp only [roundHalfEven, same, beq_iff_eq, if_neg odd]
    generalize n % (d * 2) = r at parts rest ⊢
    simp only [Nat.reducePow, Nat.reduceSub] at parts ⊢
    split_ifs <;> omega
  · have high : 2 ^ 53 * (d * 2) ≤ n := (Nat.le_div_iff_mul_le (by omega)).mp (by omega)
    have low := (roundHalfEven_bounds n (d * 2)).1
    simp only [Nat.reducePow, Nat.reduceSub] at low high more ⊢
    omega

theorem log2_le_of_lt {k : Nat} (less : n < 2 ^ (k + 1)) : n.log2 ≤ k := by
  rcases Nat.eq_zero_or_pos n with rfl | positive
  · simp
  · exact Nat.le_of_lt_succ ((Nat.log2_lt (Nat.ne_of_gt positive)).mpr less)

/-- A quotient that is far from the largest number is finite after rounding. -/
theorem isFinite_of_small (sign : Sign) (positive : 0 < d) (early : e ≤ 970) (small : (n / d).log2 + e ≤ 1022) :
    (pack (roundWithAccuracy Format.binary64 sign (n / d) e
      (accuracyOfFraction (n % d) d))).unpack.isFinite = true := by
  have target := targetExponent_binary64 (n / d) e
  have first := shiftToTargetExponent_eq (accuracyOfFraction (n % d) d) target
  have place : (n / d).log2 ≤ 52 + (max ((n / d).log2 + e - 52) (-1074) - e).toNat := by omega
  have start : e + (max ((n / d).log2 + e - 52) (-1074) - e).toNat ≤ 970 := by omega
  generalize (max ((n / d).log2 + e - 52) (-1074) - e).toNat = k at first place start
  -- the quotient has 53 digits at most, or it is the next power of two
  have digits : (roundHalfEven n (d * 2 ^ k)).log2 ≤ 53 := by
    have less : n / d < 2 ^ 53 * 2 ^ k := by
      rw [← Nat.pow_add]
      exact Nat.lt_log2_self.trans_le (Nat.pow_le_pow_right Nat.two_pos (by omega))
    have quotient := (Nat.div_lt_iff_lt_mul (Nat.two_pow_pos k)).mpr less
    rw [Nat.div_div_eq_div_mul] at quotient
    have bound := (roundHalfEven_bounds n (d * 2 ^ k)).2
    exact log2_le_of_lt (by omega)
  have second := shiftToTargetExponent_eq (n := roundHalfEven n (d * 2 ^ k)) (e := e + k) .exact
    (targetExponent_binary64 _ _)
  rw [roundWithAccuracy, first]
  dsimp only
  rw [roundedMantissa_quotient n positive, second]
  dsimp only
  exact isFinite_of_early sign _ (by omega)

theorem tooLarge_eq : tooLarge = (2 ^ 54 - 1) * 2 ^ 970 := by decide +kernel

theorem tooLarge_pos : 0 < tooLarge := by decide +kernel

theorem two_pow_le_tooLarge : 2 ^ 1023 ≤ tooLarge := by decide +kernel

theorem tooLarge_le_two_pow : tooLarge ≤ 2 ^ 1024 := by decide +kernel

theorem two_pow_mul (d a j : Nat) : 2 ^ (a + j) * d = 2 ^ a * (d * 2 ^ j) := by
  rw [Nat.pow_add, Nat.mul_assoc, Nat.mul_comm (2 ^ j) d]

/-- The exponent of a number of 53 digits is small enough if the number is less than the ceiling. -/
theorem lt_of_scaled_iff {m : Nat} {t : Int} (low : 2 ^ 52 ≤ m) (high : m < 2 ^ 53) (later : -j ≤ t) :
    t < 972 ↔ m * 2 ^ (t - -j).toNat < 2 ^ 53 * 2 ^ (971 + j) := by
  constructor
  · intro less
    calc m * 2 ^ (t - -j).toNat < 2 ^ 53 * 2 ^ (t - -j).toNat := Nat.mul_lt_mul_of_pos_right high (Nat.two_pow_pos _)
      _ ≤ 2 ^ 53 * 2 ^ (971 + j) := Nat.mul_le_mul_left _ (Nat.pow_le_pow_right Nat.two_pos (by omega))
  · intro less
    by_contra large
    have beyond : 2 ^ 53 * 2 ^ (971 + j) ≤ m * 2 ^ (t - -j).toNat :=
      calc 2 ^ 53 * 2 ^ (971 + j) = 2 ^ 52 * 2 ^ (972 + j) := by
            rw [← Nat.pow_add, ← Nat.pow_add, show 53 + (971 + j) = 52 + (972 + j) by omega]
        _ ≤ m * 2 ^ (t - -j).toNat := Nat.mul_le_mul low (Nat.pow_le_pow_right Nat.two_pos (by omega))
    exact Nat.not_lt.mpr beyond less

/-- A quotient of natural numbers is finite after rounding exactly if it is less than the least integer that has no
number near it. -/
theorem isFinite_quotient_iff (sign : Sign) (positive : 0 < d) (j : Nat) :
    (pack (roundWithAccuracy Format.binary64 sign (n / d) (-j)
      (accuracyOfFraction (n % d) d))).unpack.isFinite = true ↔ n < tooLarge * (d * 2 ^ j) := by
  rcases Nat.lt_or_ge (n / d).log2 (1023 + j) with small | large
  · refine iff_of_true (isFinite_of_small sign positive (by omega) (by omega)) ?_
    have less : n / d < 2 ^ (1023 + j) := Nat.lt_log2_self.trans_le (Nat.pow_le_pow_right Nat.two_pos small)
    calc n < 2 ^ (1023 + j) * d := (Nat.div_lt_iff_lt_mul positive).mp less
      _ = 2 ^ 1023 * (d * 2 ^ j) := two_pow_mul ..
      _ ≤ tooLarge * (d * 2 ^ j) := Nat.mul_le_mul_right _ two_pow_le_tooLarge
  · have nonzero : n / d ≠ 0 := by
      intro none
      rw [none] at large
      simp at large
    have full : 2 ^ 52 ≤ n / d := (Nat.le_log2 nonzero).mp (by omega)
    obtain ⟨m, t, more, rounded, low, high, later, value⟩ :=
      roundWithAccuracy_quotient sign (e := -j) positive full (by omega)
    rw [rounded, isFinite_unpack_pack_iff, lt_of_scaled_iff low high later, value]
    rcases Nat.lt_or_eq_of_le large with more | last
    · refine iff_of_false (Nat.not_lt.mpr ?_) (Nat.not_lt.mpr ?_)
      · calc 2 ^ 53 * 2 ^ (971 + j) = 2 ^ 52 * 2 ^ (972 + j) := by
              rw [← Nat.pow_add, ← Nat.pow_add, show 53 + (971 + j) = 52 + (972 + j) by omega]
          _ ≤ _ := Nat.mul_le_mul (roundHalfEven_quotient positive full).1
            (Nat.pow_le_pow_right Nat.two_pos (by omega))
      · calc tooLarge * (d * 2 ^ j) ≤ 2 ^ 1024 * (d * 2 ^ j) := Nat.mul_le_mul_right _ tooLarge_le_two_pow
          _ = 2 ^ (1024 + j) * d := (two_pow_mul ..).symm
          _ ≤ n := (Nat.le_div_iff_mul_le positive).mp
            ((Nat.pow_le_pow_right Nat.two_pos (by omega)).trans (Nat.log2_self_le nonzero))
    · have place : (n / d).log2 - 52 = 970 + j + 1 := by omega
      have half := le_roundHalfEven_iff (n := n) (d := d * 2 ^ (970 + j)) (Nat.mul_pos positive (Nat.two_pow_pos _))
      have same : (2 ^ 54 - 1) * (d * 2 ^ (970 + j)) = tooLarge * (d * 2 ^ j) := by
        rw [tooLarge_eq, Nat.mul_assoc, ← two_pow_mul, Nat.mul_comm d]
      rw [place, show 971 + j = 970 + j + 1 by omega, Nat.mul_lt_mul_right (Nat.two_pow_pos _), Nat.pow_succ,
        ← Nat.mul_assoc, ← Nat.not_le, half, same, Nat.not_le]

/-! ## Arithmetic on positive numbers -/

theorem counts_unpack_pack {u : UnpackedFloat} (counts : Counts u) : Counts (pack u).unpack :=
  (reads_unpack _ counts.pack).counts

theorem counts_roundWithAccuracy (m : Nat) (e : Int) (accuracy : Accuracy) :
    Counts (roundWithAccuracy Format.binary64 .positive m e accuracy) := by
  unfold roundWithAccuracy
  dsimp only
  generalize (shiftToTargetExponent ..).1.mantissa = rounded
  by_cases none : rounded = 0
  · rw [dif_pos none]
    exact .zero
  · rw [dif_neg none]
    exact .finite ..

/-- A power of ten that is a number, taken apart. -/
theorem power_of_ten {k : Nat} (less : k < Float.exactlyRepresentablePowersOfTen.size) :
    ∃ (m : Nat) (e : Int) (more : 0 < m),
      Float.exactlyRepresentablePowersOfTen[k].toModel.unpack = .finite .positive m e more ∧
        m < 2 ^ 53 ∧ -52 ≤ e ∧ e ≤ 21 := by
  have bits : ∀ k : Fin 23, 1023 * 2 ^ 52 ≤ Float.exactlyRepresentablePowersOfTen[k].toModel.toBits.toNat ∧
      Float.exactlyRepresentablePowersOfTen[k].toModel.toBits.toNat < 1097 * 2 ^ 52 := by decide +kernel
  obtain ⟨low, high⟩ := bits ⟨k, less⟩
  change 1023 * 2 ^ 52 ≤ Float.exactlyRepresentablePowersOfTen[k].toModel.toBits.toBitVec.toNat at low
  change Float.exactlyRepresentablePowersOfTen[k].toModel.toBits.toBitVec.toNat < 1097 * 2 ^ 52 at high
  have reads := reads_unpack Float.exactlyRepresentablePowersOfTen[k].toModel.toBits.toBitVec (by omega)
  change Reads _ Float.exactlyRepresentablePowersOfTen[k].toModel.unpack at reads
  generalize Float.exactlyRepresentablePowersOfTen[k].toModel.unpack = u at reads ⊢
  cases reads with
  | zero none => omega
  | small mantissa less => omega
  | infinity most => omega
  | large more less mantissa exponent => exact ⟨_, _, _, rfl, by omega, by omega, by omega⟩

/-- The product or the quotient of a machine word of 53 digits and a power of ten that is a number is far from the
largest number. -/
theorem isFinite_mul (m m' : Nat) {e e' : Int} (more : 0 < m) (more' : 0 < m') (less : m < 2 ^ 53) (less' : m' < 2 ^ 53)
    (early : e ≤ 0) (early' : e' ≤ 21) :
    (pack (UnpackedFloat.mul Format.binary64 (.finite .positive m e more)
      (.finite .positive m' e' more'))).unpack.isFinite = true := by
  have small : m * m' < 2 ^ (105 + 1) :=
    calc m * m' < 2 ^ 53 * 2 ^ 53 := Nat.mul_lt_mul'' less less'
      _ = 2 ^ (105 + 1) := by rw [← Nat.pow_add]
  have digits := log2_le_of_lt small
  have finite := isFinite_of_small (n := m * m') (e := e + e') .positive Nat.one_pos (by omega)
    (by rw [Nat.div_one]; omega)
  rwa [Nat.div_one, Nat.mod_one] at finite

/-- The dividend is given more digits before it is divided. -/
theorem div_eq (m m' : Nat) (e e' : Int) (more : 0 < m) (more' : 0 < m') : ∃ s : Nat,
    UnpackedFloat.div Format.binary64 (.finite .positive m e more) (.finite .positive m' e' more') =
      roundWithAccuracy Format.binary64 .positive (m * 2 ^ s / m') (e - e' - s)
        (accuracyOfFraction (m * 2 ^ s % m') m') := by
  let target := min (e - e') (Format.binary64.targetExponent (totalExponent m e - totalExponent m' e'))
  refine ⟨(e - e' - target).toNat, ?_⟩
  have least : target ≤ e - e' := Int.min_le_left ..
  rw [← Nat.shiftLeft_eq, show e - e' - ((e - e' - target).toNat : Int) = target by omega]
  rfl

theorem isFinite_div (m m' : Nat) {e e' : Int} (more : 0 < m) (more' : 0 < m') (less : m < 2 ^ 53)
    (early : e ≤ 0) (late' : -52 ≤ e') :
    (pack (UnpackedFloat.div Format.binary64 (.finite .positive m e more)
      (.finite .positive m' e' more'))).unpack.isFinite = true := by
  obtain ⟨s, divided⟩ := div_eq m m' e e' more more'
  have small : m * 2 ^ s / m' < 2 ^ (52 + s + 1) :=
    calc m * 2 ^ s / m' ≤ m * 2 ^ s := Nat.div_le_self ..
      _ < 2 ^ 53 * 2 ^ s := Nat.mul_lt_mul_of_pos_right less (Nat.two_pow_pos s)
      _ = 2 ^ (52 + s + 1) := by rw [← Nat.pow_add, show 53 + s = 52 + s + 1 by omega]
  have digits := log2_le_of_lt small
  rw [divided]
  exact isFinite_of_small .positive more' (by omega) (by omega)

/-! ## Negation -/

/-- A number is read off its three parts, so with another sign it is negated. -/
theorem unpack_of_sign {b b' : BitVec 64}
    (exponent : @unpackExponent Format.binary64 b = @unpackExponent Format.binary64 b')
    (mantissa : @unpackMantissa Format.binary64 b = @unpackMantissa Format.binary64 b')
    (sign : Sign.ofBitVec (@unpackSign Format.binary64 b) = -Sign.ofBitVec (@unpackSign Format.binary64 b')) :
    UnpackedFloat.unpack Format.binary64 b = (UnpackedFloat.unpack Format.binary64 b').neg := by
  unfold UnpackedFloat.unpack
  dsimp only
  by_cases most : @unpackExponent Format.binary64 b' = -1#11
  · rw [if_pos (exponent.trans most), if_pos most]
    by_cases none : @unpackMantissa Format.binary64 b' = 0#52
    · rw [if_pos (mantissa.trans none), if_pos none, sign]
      rfl
    · rw [if_neg (mantissa ▸ none), if_neg none]
      rfl
  · rw [if_neg (exponent ▸ most), if_neg most]
    by_cases least : @unpackExponent Format.binary64 b' = 0#11
    · rw [if_pos (exponent.trans least), if_pos least]
      by_cases none : @unpackMantissa Format.binary64 b' = 0#52
      · rw [dif_pos (mantissa.trans none), dif_pos none, sign]
        rfl
      · rw [dif_neg (mantissa ▸ none), dif_neg none]
        exact finite_congr sign (by rw [mantissa]) (by rw [exponent])
    · rw [if_neg (exponent ▸ least), if_neg least]
      exact finite_congr sign (by rw [mantissa]) (by rw [exponent])

theorem unpack_packComponents_neg (sign : Sign) (exponent : BitVec 11) (mantissa : BitVec 52) :
    UnpackedFloat.unpack Format.binary64 (packComponents Format.binary64 (-sign) exponent mantissa) =
      (UnpackedFloat.unpack Format.binary64 (packComponents Format.binary64 sign exponent mantissa)).neg := by
  apply unpack_of_sign
  · rw [unpackExponent_packComponents, unpackExponent_packComponents]
  · rw [unpackMantissa_packComponents, unpackMantissa_packComponents]
  · rw [unpackSign_packComponents, unpackSign_packComponents, ofBitVec_toBitVec, ofBitVec_toBitVec]

/-- Only the sign is changed when a number is negated. -/
theorem unpack_pack_neg (u : UnpackedFloat) : (pack u.neg).unpack = (pack u).unpack.neg := by
  cases u with
  | notANumber => rfl
  | infinity sign | zero sign => cases sign <;> rfl
  | finite sign m e more =>
    change UnpackedFloat.unpack Format.binary64 (UnpackedFloat.pack Format.binary64 (.finite (-sign) m e more)) =
      (UnpackedFloat.unpack Format.binary64 (UnpackedFloat.pack Format.binary64 _)).neg
    rw [pack_finite, pack_finite]
    split_ifs
    · exact unpack_packComponents_neg ..
    · exact unpack_packComponents_neg ..
    · exact unpack_packComponents_neg ..

/-- A number that is not negative is negated to one that is not positive. -/
theorem Counts.neg {x : Float} (counts : Counts x.toModel.unpack) :
    ∃ u, (-x).toModel.unpack = u.neg ∧ Counts u :=
  ⟨_, unpack_pack_neg x.toModel.unpack, counts_unpack_pack counts⟩

/-! ## Decimals -/

/-- A decimal of few digits with a small exponent is the product or the quotient of two numbers. -/
theorem ofScientific_small (nonzero : n ≠ 0) (less : n < 2 ^ 53) {k : Nat} (few : k ≤ 22) (s : Bool) :
    Counts (Float.ofScientific n s k).toModel.unpack ∧ (Float.ofScientific n s k).isFinite = true := by
  obtain ⟨m, t, digits, word, whole⟩ := digits_of_word nonzero less
  have inside : k < Float.exactlyRepresentablePowersOfTen.size := Nat.lt_succ_of_le few
  obtain ⟨m', t', more', power, less', late, early⟩ := power_of_ten inside
  have least := digits.least
  have first := unpack_pack_finite (t := t) .positive digits.more digits.low digits.high (by omega) (by omega)
  rw [Float.ofScientific, dif_pos ⟨less, few⟩]
  cases s with
  | true =>
    change Counts (pack (UnpackedFloat.div _ n.toUInt64.toFloat.toModel.unpack
      Float.exactlyRepresentablePowersOfTen[k].toModel.unpack)).unpack ∧
      (pack (UnpackedFloat.div _ n.toUInt64.toFloat.toModel.unpack
        Float.exactlyRepresentablePowersOfTen[k].toModel.unpack)).unpack.isFinite = true
    rw [word, first, power]
    refine ⟨counts_unpack_pack ?_, isFinite_div m m' digits.more more' digits.high whole late⟩
    obtain ⟨s, divided⟩ := div_eq m m' t t' digits.more more'
    rw [divided]
    exact counts_roundWithAccuracy ..
  | false =>
    change Counts (pack (UnpackedFloat.mul _ n.toUInt64.toFloat.toModel.unpack
      Float.exactlyRepresentablePowersOfTen[k].toModel.unpack)).unpack ∧
      (pack (UnpackedFloat.mul _ n.toUInt64.toFloat.toModel.unpack
        Float.exactlyRepresentablePowersOfTen[k].toModel.unpack)).unpack.isFinite = true
    rw [word, first, power]
    exact ⟨counts_unpack_pack (counts_roundWithAccuracy ..),
      isFinite_mul m m' digits.more more' digits.high less' whole early⟩

/-- A decimal whose last digit stands before the point is the product of a mantissa and a power of ten. -/
theorem ofScientific_whole (nonzero : n ≠ 0) {k : Nat} (slow : ¬(n < 2 ^ 53 ∧ k ≤ 22)) (near : k ≤ 2 ^ 11) :
    Counts (Float.ofScientific n false k).toModel.unpack ∧
      ((Float.ofScientific n false k).isFinite = true ↔ n * 10 ^ k < tooLarge) := by
  have product : (Float.ofScientific n false k).toModel = pack (roundWithAccuracy Format.binary64 .positive
      (n * 2 ^ 53 * 10 ^ k / 1) (-(53 : Nat)) (accuracyOfFraction (n * 2 ^ 53 * 10 ^ k % 1) 1)) := by
    rw [Float.ofScientific, dif_neg slow, Nat.div_one, Nat.mod_one]
    change pack (UnpackedFloat.ofScientific Format.binary64 n k) = _
    have close : ¬(k : Int) > 2 ^ Format.binary64.exponentBits := by
      change ¬(k : Int) > 2 ^ 11
      omega
    have some : ¬(k : Int) < -(2 ^ Format.binary64.exponentBits + n.log2) := by
      change ¬(k : Int) < -(2 ^ 11 + n.log2)
      omega
    rw [UnpackedFloat.ofScientific, dif_neg nonzero, if_neg close, if_neg some, if_pos (Int.natCast_nonneg k),
      ← Nat.shiftLeft_eq]
    rfl
  have finite := isFinite_quotient_iff (n := n * 2 ^ 53 * 10 ^ k) .positive Nat.one_pos 53
  rw [Nat.one_mul, Nat.mul_right_comm, Nat.mul_lt_mul_right (Nat.two_pow_pos 53)] at finite
  change Counts (Float.ofScientific n false k).toModel.unpack ∧
    ((Float.ofScientific n false k).toModel.unpack.isFinite = true ↔ _)
  rw [product, ← finite, Nat.mul_right_comm]
  exact ⟨counts_unpack_pack (counts_roundWithAccuracy ..), Iff.rfl⟩

/-- A decimal with digits behind the point is the quotient of its digits and a power of ten. -/
theorem ofScientific_fraction (nonzero : n ≠ 0) {k : Nat} (slow : ¬(n < 2 ^ 53 ∧ k ≤ 22)) (behind : 0 < k) :
    Counts (Float.ofScientific n true k).toModel.unpack ∧
      ((Float.ofScientific n true k).isFinite = true ↔ n < tooLarge * 10 ^ k) := by
  have positive := Nat.pos_of_ne_zero nonzero
  have place : 0 < 10 ^ k := Nat.pow_pos (by decide)
  have sign : Int.negOfNat k = -k := Int.negOfNat_eq
  have close : ¬-(k : Int) > 2 ^ Format.binary64.exponentBits := by
    change ¬-(k : Int) > 2 ^ 11
    omega
  have model : (Float.ofScientific n true k).toModel = pack (UnpackedFloat.ofScientific Format.binary64 n (-k)) := by
    rw [Float.ofScientific, dif_neg slow, ← sign]
    rfl
  change _ ∧ ((Float.ofScientific n true k).toModel.unpack.isFinite = true ↔ _)
  rw [model, UnpackedFloat.ofScientific, dif_neg nonzero, if_neg close]
  by_cases none : -(k : Int) < -(2 ^ Format.binary64.exponentBits + n.log2)
  · rw [if_pos none]
    refine ⟨counts_unpack_pack .zero, iff_of_true rfl ?_⟩
    change -(k : Int) < -(2 ^ 11 + n.log2) at none
    calc n < 2 ^ (n.log2 + 1) := Nat.lt_log2_self
      _ ≤ 2 ^ k := Nat.pow_le_pow_right Nat.two_pos (by omega)
      _ ≤ 10 ^ k := Nat.pow_le_pow_left (by decide) k
      _ ≤ tooLarge * 10 ^ k := Nat.le_mul_of_pos_left _ tooLarge_pos
  · have part : ¬0 ≤ -(k : Int) := by omega
    obtain ⟨s, divided⟩ := div_eq n (10 ^ (- -(k : Int)).toNat) 0 0 positive (Nat.pow_pos (by decide))
    rw [if_neg none, if_neg part, divided, show (- -(k : Int)).toNat = k by omega,
      show (0 : Int) - 0 - s = -s by omega, isFinite_quotient_iff .positive place s, ← Nat.mul_assoc,
      Nat.mul_lt_mul_right (Nat.two_pow_pos s)]
    exact ⟨counts_unpack_pack (counts_roundWithAccuracy ..), Iff.rfl⟩

/-- The digits of a natural number begin with the largest power of ten that is not above it. -/
theorem pow_length_bounds (nonzero : n ≠ 0) :
    10 ^ ((Nat.toDigits 10 n).length - 1) ≤ n ∧ n < 10 ^ (Nat.toDigits 10 n).length := by
  have some : 0 < (Nat.toDigits 10 n).length := List.length_pos_iff.mpr Nat.toDigits_ne_nil
  refine ⟨?_, (Nat.length_toDigits_le_iff (by decide) some).mp (Nat.le_refl _)⟩
  rcases Nat.eq_zero_or_pos ((Nat.toDigits 10 n).length - 1) with none | more
  · rw [none]
    exact Nat.pos_of_ne_zero nonzero
  · rw [← Nat.not_lt, ← Nat.length_toDigits_le_iff (by decide) more]
    omega

theorem Decimal.ratio_eq (d : Decimal) :
    d.ratio = (d.digits * 10 ^ d.exponent.toNat, 10 ^ (-d.exponent).toNat) := by
  obtain ⟨n, e⟩ := d
  cases e with
  | ofNat k => simp [ratio]
  | negSucc k => simp [ratio]

/-- A decimal that is beyond the numbers: it is at least as large as the least integer that has no number near it. -/
def Decimal.beyond (d : Decimal) : Bool := tooLarge * d.ratio.2 ≤ d.ratio.1

theorem Decimal.beyond_eq_false_iff (d : Decimal) :
    d.beyond = false ↔ d.digits * 10 ^ d.exponent.toNat < tooLarge * 10 ^ (-d.exponent).toNat := by
  rw [beyond, decide_eq_false_iff_not, Nat.not_le, ratio_eq]

/-- A decimal whose digits are all far behind the point is not beyond the numbers. -/
theorem Decimal.not_beyond {d : Decimal} (nonzero : d.digits ≠ 0)
    (small : ((Nat.toDigits 10 d.digits).length : Int) + d.exponent < 0) : d.beyond = false := by
  rw [beyond_eq_false_iff, show d.exponent.toNat = 0 by omega, Nat.pow_zero, Nat.mul_one]
  calc d.digits < 10 ^ (Nat.toDigits 10 d.digits).length := (pow_length_bounds nonzero).2
    _ ≤ 10 ^ (-d.exponent).toNat := Nat.pow_le_pow_right (by decide) (by omega)
    _ ≤ tooLarge * 10 ^ (-d.exponent).toNat := Nat.le_mul_of_pos_left _ tooLarge_pos

theorem Decimal.beyond_of_long {d : Decimal} (nonzero : d.digits ≠ 0)
    (large : 400 < ((Nat.toDigits 10 d.digits).length : Int) + d.exponent) : d.beyond = true := by
  rw [← Bool.not_eq_false, beyond_eq_false_iff, Nat.not_lt]
  calc tooLarge * 10 ^ (-d.exponent).toNat ≤ 10 ^ 400 * 10 ^ (-d.exponent).toNat := Nat.mul_le_mul_right _ tooLarge_le
    _ ≤ 10 ^ ((Nat.toDigits 10 d.digits).length - 1) * 10 ^ d.exponent.toNat := by
      rw [← Nat.pow_add, ← Nat.pow_add]
      exact Nat.pow_le_pow_right (by decide) (by omega)
    _ ≤ d.digits * 10 ^ d.exponent.toNat := Nat.mul_le_mul_right _ (pow_length_bounds nonzero).1

/-- A decimal is taken as a number that is not negative, and that is finite unless the decimal is beyond the numbers. -/
theorem floatOfDecimal_spec (d : Decimal) :
    Counts (floatOfDecimal d.digits d.exponent).toModel.unpack ∧
      ((floatOfDecimal d.digits d.exponent).isFinite = true ↔ d.beyond = false) := by
  have zero : Counts (0.0 : Float).toModel.unpack ∧ (0.0 : Float).isFinite = true := ⟨.zero, rfl⟩
  have infinite : Counts infinity.toModel.unpack ∧ infinity.isFinite = false := ⟨.infinity, rfl⟩
  rw [floatOfDecimal]
  simp only [Bool.or_eq_true, beq_iff_eq, decide_eq_true_eq]
  split_ifs with none long
  · refine ⟨zero.1, iff_of_true zero.2 ?_⟩
    by_cases nothing : d.digits = 0
    · rw [Decimal.beyond_eq_false_iff, nothing, Nat.zero_mul]
      exact Nat.mul_pos tooLarge_pos (Nat.pow_pos (by decide))
    · exact Decimal.not_beyond nothing (by omega)
  · rw [infinite.2, Decimal.beyond_of_long (by omega) long]
    exact ⟨infinite.1, by decide⟩
  · have nonzero : d.digits ≠ 0 := fun nothing => none (.inl nothing)
    have some : 0 < (Nat.toDigits 10 d.digits).length := List.length_pos_iff.mpr Nat.toDigits_ne_nil
    by_cases fast : d.digits < 2 ^ 53 ∧ d.exponent.natAbs ≤ 22
    · obtain ⟨counts, finite⟩ := ofScientific_small nonzero fast.1 fast.2 (d.exponent < 0)
      refine ⟨counts, iff_of_true finite ((Decimal.beyond_eq_false_iff d).mpr ?_)⟩
      calc d.digits * 10 ^ d.exponent.toNat < 2 ^ 53 * 10 ^ 22 :=
            Nat.mul_lt_mul_of_lt_of_le fast.1 (Nat.pow_le_pow_right (by decide) (by omega)) (by decide)
        _ ≤ tooLarge := by decide +kernel
        _ ≤ tooLarge * 10 ^ (-d.exponent).toNat := Nat.le_mul_of_pos_right _ (Nat.pow_pos (by decide))
    rw [Decimal.beyond_eq_false_iff]
    rcases Int.lt_or_le d.exponent 0 with behind | whole
    · have spec := ofScientific_fraction nonzero fast (by omega)
      rw [decide_eq_true behind, show d.exponent.toNat = 0 by omega,
        show (-d.exponent).toNat = d.exponent.natAbs by omega, Nat.pow_zero, Nat.mul_one]
      exact spec
    · have spec := ofScientific_whole nonzero fast (by omega)
      rw [decide_eq_false (Int.not_lt.mpr whole), show (-d.exponent).toNat = 0 by omega,
        show d.exponent.toNat = d.exponent.natAbs by omega, Nat.pow_zero, Nat.mul_one]
      exact spec

end Runbook.Number
