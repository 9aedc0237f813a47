import Mathlib.Algebra.Group.Nat.Defs
import Mathlib.Order.Lattice
import Runbook.Fault

/-! # Moments

A clock shows zero, positive numbers of seconds, or infinity. These are ordered as their bits are, and a wait for some
time leads from one of them to another, never back. So moments make a linear order, although numbers in general do not.
-/

namespace Runbook

open Float.Model

/-! ## Bits of numbers that are not negative -/

private theorem unpackMantissa_toNat (b : BitVec 64) :
    (@UnpackedFloat.unpackMantissa Format.binary64 b).toNat = b.toNat % 2 ^ 52 := by
  change (b.extractLsb 51 0).toNat = _
  simp

theorem unpackExponent_toNat (b : BitVec 64) :
    (@UnpackedFloat.unpackExponent Format.binary64 b).toNat = b.toNat / 2 ^ 52 % 2 ^ 11 := by
  change (b.extractLsb 62 52).toNat = _
  simp [Nat.shiftRight_eq_div_pow]

private theorem unpackSign_toNat (b : BitVec 64) :
    (@UnpackedFloat.unpackSign Format.binary64 b).toNat = b.toNat / 2 ^ 63 % 2 := by
  change (b.extractLsb 63 63).toNat = _
  simp [Nat.shiftRight_eq_div_pow]

/-- What the bits of a number that is not negative stand for: zero, infinity, or a mantissa and an exponent that
together grow with them. -/
inductive Reads (n : Nat) : UnpackedFloat → Prop
  | zero (none : n = 0) : Reads n (.zero .positive)
  | small {m : Nat} {some : 0 < m} (mantissa : m = n) (less : n < 2 ^ 52) : Reads n (.finite .positive m (-1074) some)
  | large {m : Nat} {e : Int} {some : 0 < m} (more : 2 ^ 52 ≤ n) (less : n < 2047 * 2 ^ 52)
      (mantissa : m = 2 ^ 52 + n % 2 ^ 52) (exponent : e = (n / 2 ^ 52 : Nat) - 1075) :
      Reads n (.finite .positive m e some)
  | infinity (most : n = 2047 * 2 ^ 52) : Reads n (.infinity .positive)

theorem reads_unpack (b : BitVec 64) (bounded : b.toNat ≤ 2047 * 2 ^ 52) :
    Reads b.toNat (UnpackedFloat.unpack Format.binary64 b) := by
  have mantissa := unpackMantissa_toNat b
  have exponent := unpackExponent_toNat b
  have sign : @UnpackedFloat.unpackSign Format.binary64 b = 0#1 := by
    apply BitVec.eq_of_toNat_eq
    rw [unpackSign_toNat]
    simp; omega
  unfold UnpackedFloat.unpack
  rw [sign]
  dsimp only
  by_cases most : @UnpackedFloat.unpackExponent Format.binary64 b = -1#_
  · have e : b.toNat / 2 ^ 52 % 2 ^ 11 = 2047 := by rw [← exponent, most]; rfl
    have none : @UnpackedFloat.unpackMantissa Format.binary64 b = 0#_ := by
      apply BitVec.eq_of_toNat_eq
      rw [mantissa]
      simp; omega
    rw [if_pos most, if_pos none]
    exact .infinity (by omega)
  · have e : b.toNat / 2 ^ 52 % 2 ^ 11 ≠ 2047 := by
      intro e
      apply most
      apply BitVec.eq_of_toNat_eq
      rw [exponent, e]
      rfl
    rw [if_neg most]
    by_cases least : @UnpackedFloat.unpackExponent Format.binary64 b = 0#_
    · have e' : b.toNat / 2 ^ 52 % 2 ^ 11 = 0 := by rw [← exponent, least]; rfl
      rw [if_pos least]
      by_cases none : @UnpackedFloat.unpackMantissa Format.binary64 b = 0#_
      · have m : b.toNat % 2 ^ 52 = 0 := by rw [← mantissa, none]; rfl
        rw [dif_pos none]
        exact .zero (by omega)
      · rw [dif_neg none, least]
        exact .small (by rw [mantissa]; omega) (by omega)
    · have e' : b.toNat / 2 ^ 52 % 2 ^ 11 ≠ 0 := by
        intro e'
        apply least
        apply BitVec.eq_of_toNat_eq
        rw [exponent, e']
        rfl
      rw [if_neg least]
      refine .large (by omega) (by omega) ?_ ?_
      · rw [BitVec.toNat_append, mantissa, ← Nat.shiftLeft_add_eq_or_of_lt (by omega)]
        rfl
      · rw [exponent, Nat.mod_eq_of_lt (by omega)]
        rfl

private theorem compare_finite {m m' : Nat} {e e' : Int} {more : 0 < m} {more' : 0 < m'} :
    (UnpackedFloat.finite .positive m e more).compare (.finite .positive m' e' more') = some .lt ↔
      e < e' ∨ e = e' ∧ m < m' := by
  change some ((compare e e').then (compare m m')) = some .lt ↔ _
  simp [Ordering.then_eq_lt, compare_lt_iff_lt]

/-- Numbers that are not negative are compared as their bits are. -/
theorem Reads.compare {n n' : Nat} {u u' : UnpackedFloat} (reads : Reads n u) (reads' : Reads n' u') :
    u.compare u' = some .lt ↔ n < n' := by
  cases reads <;> cases reads' <;> first
    | rw [compare_finite]; omega
    | change some Ordering.lt = some .lt ↔ _; simp; omega
    | change some Ordering.eq = some .lt ↔ _; simp; omega
    | change some Ordering.gt = some .lt ↔ _; simp; omega

/-- The number is zero, positive or infinite. -/
inductive Counts : UnpackedFloat → Prop
  | zero : Counts (.zero .positive)
  | finite (mantissa : Nat) (exponent : Int) (more : 0 < mantissa) : Counts (.finite .positive mantissa exponent more)
  | infinity : Counts (.infinity .positive)

theorem Reads.counts {n : Nat} {u : UnpackedFloat} (reads : Reads n u) : Counts u := by
  cases reads with
  | zero => exact .zero
  | small | large => exact .finite ..
  | infinity => exact .infinity

private theorem Counts.of_dite {c : Prop} [Decidable c] {f : c → UnpackedFloat} {g : ¬c → UnpackedFloat}
    (yes : ∀ h, Counts (f h)) (no : ∀ h, Counts (g h)) : Counts (if h : c then f h else g h) := by
  by_cases h : c
  · rw [dif_pos h]
    exact yes h
  · rw [dif_neg h]
    exact no h

/-- Rounding makes no number negative. -/
theorem counts_normalize (mantissa : Nat) (exponent : Int) :
    Counts (UnpackedFloat.normalize Format.binary64 mantissa exponent .positive) := by
  unfold UnpackedFloat.normalize
  split
  · next below => exact absurd (Int.compare_eq_lt.mp below) (by omega)
  · exact .zero
  · exact .of_dite (fun _ => .zero) fun _ => .finite ..

theorem Counts.add {u v : UnpackedFloat} (counts : Counts u) (counts' : Counts v) :
    Counts (UnpackedFloat.add Format.binary64 u v) := by
  cases counts <;> cases counts' <;> first
    | exact .zero
    | exact .infinity
    | exact .finite ..
    | exact counts_normalize (_ + _) _

private theorem packComponents_toNat (exponent : BitVec 11) (mantissa : BitVec 52) :
    (UnpackedFloat.packComponents Format.binary64 .positive exponent mantissa).toNat =
      exponent.toNat * 2 ^ 52 + mantissa.toNat := by
  have less := mantissa.isLt
  unfold UnpackedFloat.packComponents
  rw [BitVec.toNat_append, BitVec.toNat_append, ← Nat.shiftLeft_add_eq_or_of_lt (by omega)]
  simp [UnpackedFloat.Sign.toBitVec, Nat.shiftLeft_eq]

/-- The bits of a number that is not negative are at most those of infinity. -/
theorem Counts.pack {u : UnpackedFloat} (counts : Counts u) :
    (UnpackedFloat.pack Format.binary64 u).toNat ≤ 2047 * 2 ^ 52 := by
  cases counts with
  | zero => decide
  | infinity => decide
  | finite mantissa exponent more =>
    unfold UnpackedFloat.pack
    simp only
    split
    · decide
    · next less =>
      split
      · rw [packComponents_toNat, BitVec.toNat_ofNat]
        omega
      · rw [packComponents_toNat, BitVec.toNat_ofNat]
        simp
        omega

/-! ## Comparisons of numbers taken apart -/

theorem lt_iff_unpack (x y : Float) : x < y ↔ (x.toModel.unpack.compare y.toModel.unpack == some .lt) = true := by
  change Float.lt x y = true ↔ _
  rw [Float.lt, decide_eq_true_iff]
  rfl

theorem le_iff_unpack (x y : Float) : x ≤ y ↔ (x.toModel.unpack.compare y.toModel.unpack).any (·.isLE) = true := by
  change Float.le x y = true ↔ _
  rw [Float.le, decide_eq_true_iff]
  rfl

theorem unpack_zero : (0.0 : Float).toModel.unpack = .zero .positive := rfl

/-- A number that is above zero. -/
theorem counts_of_positive {s : Float} (number : s.isNaN = false) (positive : ¬s ≤ 0.0) : Counts s.toModel.unpack := by
  rw [le_iff_unpack, unpack_zero] at positive
  change s.toModel.unpack.isNaN = false at number
  generalize s.toModel.unpack = u at positive number
  cases u with
  | notANumber => cases number
  | zero sign => exact absurd rfl positive
  | infinity sign | finite sign =>
    cases sign with
    | negative => exact absurd rfl positive
    | positive => constructor

/-! ## Moments -/

/-- A moment that a clock can show: zero, a positive number of seconds, or infinity. -/
structure Moment where
  seconds : Float
  bounded : seconds.toModel.toBits.toNat ≤ 2047 * 2 ^ 52

namespace Moment

/-- The bits of a moment. -/
def bits (x : Moment) : Nat := x.seconds.toModel.toBits.toNat

theorem bits_injective : Function.Injective bits := by
  rintro ⟨⟨⟨x, _⟩⟩, _⟩ ⟨⟨⟨y, _⟩⟩, _⟩ same
  obtain rfl : x = y := UInt64.toNat_inj.mp same
  rfl

/-- Moments are ordered as their bits are. -/
instance : LinearOrder Moment := LinearOrder.lift' bits bits_injective

theorem lt_iff_bits (x y : Moment) : x < y ↔ x.bits < y.bits := Iff.rfl

theorem reads (x : Moment) : Reads x.bits x.seconds.toModel.unpack := reads_unpack _ x.bounded

/-- The earlier of two moments is the smaller number. -/
theorem lt_iff (x y : Moment) : x < y ↔ x.seconds < y.seconds := by
  rw [lt_iff_bits, ← x.reads.compare y.reads, lt_iff_unpack, beq_iff_eq]

theorem reading_injective : Function.Injective seconds := by
  rintro ⟨x, _⟩ ⟨y, _⟩ same
  obtain rfl : x = y := same
  rfl

/-- The moment at which a clock begins. -/
def zero : Moment := ⟨0.0, by decide⟩

/-- The moment so many seconds after another one. -/
def plus (x : Moment) {seconds : Float} (number : seconds.isNaN = false) (positive : ¬seconds ≤ 0.0) : Moment where
  seconds := x.seconds + seconds
  bounded := (x.reads.counts.add (counts_of_positive number positive)).pack

/-- The moment at which a wait is over that began at another one. A wait for no positive time takes none. -/
def after (x : Moment) (seconds : Float) : Moment :=
  if h : seconds.isNaN = false ∧ ¬seconds ≤ 0.0 then max x (x.plus h.1 h.2) else x

theorem le_after (x : Moment) (seconds : Float) : x ≤ x.after seconds := by
  unfold after
  split
  · exact le_max_left ..
  · exact le_refl x

theorem after_of_le (x : Moment) {seconds : Float} (none : seconds ≤ 0.0) : x.after seconds = x :=
  dif_neg fun positive => positive.2 none

theorem after_of_positive (x : Moment) {seconds : Float} (number : seconds.isNaN = false)
    (positive : ¬seconds ≤ 0.0) : x.after seconds = max x (x.plus number positive) :=
  dif_pos ⟨number, positive⟩

/-- The moment at which some waits are over, one after the other. -/
def afterAll (x : Moment) (pauses : List Float) : Moment := pauses.foldl after x

theorem le_afterAll (x : Moment) (pauses : List Float) : x ≤ x.afterAll pauses := by
  induction pauses generalizing x with
  | nil => exact le_refl x
  | cons seconds rest ih => exact le_trans (x.le_after seconds) (ih _)

/-- The latest of some moments and one that there is in any case. -/
def latest (x : Moment) (moments : List Moment) : Moment := moments.foldl max x

theorem le_latest (x : Moment) (moments : List Moment) : x ≤ x.latest moments := by
  induction moments generalizing x with
  | nil => exact le_refl x
  | cons y rest ih => exact le_trans (le_max_left x y) (ih _)

theorem le_latest_of_mem {y : Moment} {moments : List Moment} (member : y ∈ moments) (x : Moment) :
    y ≤ x.latest moments := by
  induction moments generalizing x with
  | nil => cases member
  | cons first rest ih =>
    rcases List.mem_cons.mp member with rfl | later
    · exact le_trans (le_max_right x y) (le_latest _ rest)
    · exact ih later _

theorem latest_cases (x : Moment) (moments : List Moment) : x.latest moments = x ∨ x.latest moments ∈ moments := by
  induction moments generalizing x with
  | nil => exact .inl rfl
  | cons y rest ih =>
    rcases ih (max x y) with same | member
    · rcases le_total y x with first | second
      · exact .inl (same.trans (max_eq_left first))
      · exact .inr (List.mem_cons.mpr (.inl (same.trans (max_eq_right second))))
    · exact .inr (List.mem_cons_of_mem y member)

end Moment

end Runbook
