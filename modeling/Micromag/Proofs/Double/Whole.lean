import Micromag.Proofs.Double.Text
import Micromag.Proofs.Exact

/-!
# Whole doubles

A double that is unpacked to a number has the parts of this number. Differences of finite doubles and
quotients by a finite double other than zero are numbers, if infinite ones. A double that is not below
one after rounding is positive, and as a count it is the nearest whole number of its value, as far as
counts go.
-/

namespace Micromag

open Float.Model (Format)
open Float.Model.UnpackedFloat

/-! ## Parts -/

namespace Double

variable {x y : Float} {mantissa n : ℕ} {exponent : ℤ} {sign : Sign}

/-- A double that is unpacked to a finite number other than zero has the parts of this number. -/
theorem parts_of_finite {filled : 0 < mantissa}
    (parts : x.toModel.unpack = .finite sign mantissa exponent filled) :
    x.isFinite = true ∧ signOf x = sign ∧ (Magnitude.ofFloat x).mantissa = mantissa ∧
      (Magnitude.ofFloat x).exponent = exponent := by
  have finite : x.isFinite = true := congrArg Float.Model.UnpackedFloat.isFinite parts
  rcases Nat.eq_zero_or_pos (Magnitude.ofFloat x).mantissa with empty | some
  · cases (unpack_of_zero finite empty).symm.trans parts
  · injection (unpack_of_filled finite some).symm.trans parts with signs mantissas exponents
    exact ⟨finite, signs, mantissas, exponents⟩

/-- The mantissa of a double has at most 53 digits. -/
theorem mantissa_lt (x : Float) : (Magnitude.ofFloat x).mantissa < 2 ^ 53 := by
  rcases Nat.eq_zero_or_pos (Magnitude.ofFloat x).mantissa with empty | filled
  · rw [empty]
    decide
  · exact (canonical_ofFloat filled).short

/-- A double without a mantissa has the least exponent. -/
theorem exponent_of_empty (empty : (Magnitude.ofFloat x).mantissa = 0) :
    (Magnitude.ofFloat x).exponent = -1074 := by
  rw [ofFloat_eq] at empty ⊢
  split at empty
  · rename_i low
    rw [if_pos low]
  · exact absurd empty (Nat.add_pos_left (by decide) _).ne'

/-- The sign of a double with a set sign bit is negative. -/
theorem signOf_eq_negative_iff : signOf x = .negative ↔ isNegative x = true := by
  unfold signOf
  cases isNegative x <;> simp

/-- The sign of a double without a set sign bit is positive. -/
theorem signOf_eq_positive_iff : signOf x = .positive ↔ isNegative x = false := by
  unfold signOf
  cases isNegative x <;> simp

/-- What is packed from a number is a number. -/
theorem isNaN_pack {parts : Float.Model.UnpackedFloat} (number : parts.isNaN = false) :
    (Float.ofModel (.pack parts)).isNaN = false := by
  have whole {field : BitVec 11} (sign : Sign) (fraction : BitVec 52)
      (number : field = -1#11 → fraction = 0#52) :
      (unpack Format.binary64 (packComponents Format.binary64 sign field fraction)).isNaN = false := by
    unfold unpack
    dsimp only
    split
    · rename_i special
      rw [unpackExponent_packComponents] at special
      rw [if_pos (unpackMantissa_packComponents.trans (number special))]
      rfl
    · split
      · split <;> rfl
      · rfl
  show (unpack Format.binary64 (pack Format.binary64 parts)).isNaN = false
  cases parts with
  | notANumber => cases number
  | infinity sign => exact whole sign 0 fun _ => rfl
  | zero sign => exact whole sign 0 fun _ => rfl
  | finite sign mantissa exponent filled =>
    unfold pack
    dsimp only
    split
    · exact whole sign 0 fun _ => rfl
    · rename_i inside
      split
      · refine whole sign _ fun special => absurd (congrArg BitVec.toNat special) ?_
        have bound : ¬2 ^ 11 ≤ (exponent + 1023 + 52).toNat + 1 := inside
        have full : (-1#11).toNat = 2047 := rfl
        have field : (BitVec.ofNat 11 (exponent + 1023 + 52).toNat).toNat =
            (exponent + 1023 + 52).toNat % 2 ^ 11 := BitVec.toNat_ofNat _ _
        show ¬(BitVec.ofNat 11 (exponent + 1023 + 52).toNat).toNat = _
        rw [field, full]
        omega
      · exact whole sign _ fun special => absurd special (by decide)

/-- A rounded number is a number. -/
theorem isNaN_roundWithAccuracy (sign : Sign) (mantissa : ℕ) (exponent : ℤ) (accuracy : Accuracy) :
    (roundWithAccuracy Format.binary64 sign mantissa exponent accuracy).isNaN = false := by
  unfold roundWithAccuracy
  dsimp only
  split <;> rfl

/-- A whole number of units is rounded to a number. -/
theorem isNaN_normalize (mantissa : ℤ) (exponent : ℤ) (sign : Sign) :
    (Float.Model.UnpackedFloat.normalize Format.binary64 mantissa exponent sign).isNaN = false := by
  unfold Float.Model.UnpackedFloat.normalize
  split
  · exact isNaN_roundWithAccuracy _ _ _ _
  · rfl
  · exact isNaN_roundWithAccuracy _ _ _ _

/-- The difference of two finite doubles is a number. -/
theorem isNaN_sub (first : x.isFinite = true) (second : y.isFinite = true) :
    (x - y).isNaN = false := by
  have first : x.toModel.unpack.isFinite = true := first
  have second : y.toModel.unpack.isFinite = true := second
  refine isNaN_pack ?_
  cases left : x.toModel.unpack with
  | notANumber | infinity =>
    rw [left] at first
    cases first
  | zero sign =>
    cases right : y.toModel.unpack with
    | notANumber | infinity =>
      rw [right] at second
      cases second
    | zero other =>
      unfold sub
      dsimp only
      split <;> rfl
    | finite => rfl
  | finite sign mantissa exponent filled =>
    cases right : y.toModel.unpack with
    | notANumber | infinity =>
      rw [right] at second
      cases second
    | zero => rfl
    | finite => exact isNaN_normalize _ _ _

/-- The quotient of a number by a finite double other than zero is a number. -/
theorem isNaN_div (number : x.isNaN = false) (finite : y.isFinite = true)
    (filled : 0 < (Magnitude.ofFloat y).mantissa) : (x / y).isNaN = false := by
  have number : x.toModel.unpack.isNaN = false := number
  refine isNaN_pack ?_
  rw [unpack_of_filled finite filled]
  cases left : x.toModel.unpack with
  | notANumber =>
    rw [left] at number
    cases number
  | infinity => rfl
  | zero => rfl
  | finite => exact isNaN_roundWithAccuracy _ _ _ _

/-- A number with a set sign bit is less than one. -/
theorem lt_one_of_negative (number : x.isNaN = false) (negative : isNegative x = true) :
    x < (1.0 : Float) := by
  have sign := signOf_eq_negative_iff.mpr negative
  have one : (1.0 : Float).toModel.unpack = .finite .positive (2 ^ 52) (-52) (by decide) := by rfl
  refine decide_eq_true (?_ : x.toModel < (1.0 : Float).toModel)
  show x.toModel.unpack.lt (1.0 : Float).toModel.unpack = true
  rw [one]
  by_cases finite : x.isFinite = true
  · rcases Nat.eq_zero_or_pos (Magnitude.ofFloat x).mantissa with empty | some
    · rw [unpack_of_zero finite empty]
      rfl
    · rw [unpack_of_filled finite some, sign]
      rfl
  · rw [unpack_of_infinite (by simpa using finite) number, sign]
    rfl

/-- A finite double above zero has a mantissa. -/
theorem filled_of_pos (finite : x.isFinite = true) (positive : (0.0 : Float) < x) :
    0 < (Magnitude.ofFloat x).mantissa := by
  refine Nat.pos_of_ne_zero fun empty => ?_
  have zero : (0.0 : Float).toModel.unpack = .zero .positive := by rfl
  have order : (0.0 : Float).toModel.unpack.lt x.toModel.unpack = true := of_decide_eq_true positive
  rw [zero, unpack_of_zero finite empty] at order
  cases order

/-- The parts of one. -/
theorem unpack_one :
    (1 : Float).toModel.unpack = .finite .positive (2 ^ 52) (-52) (Nat.two_pow_pos 52) := by rfl

/-- A sign does not change when it is taken positively. -/
theorem mul_positive (sign : Sign) : sign * .positive = sign := by
  cases sign <;> rfl

/-- A finite double is itself when it is taken once. -/
theorem mul_one_of_finite (finite : x.isFinite = true) : x * 1 = x := by
  have product : mul Format.binary64 x.toModel.unpack (1 : Float).toModel.unpack =
      x.toModel.unpack := by
    rw [unpack_one]
    rcases Nat.eq_zero_or_pos (Magnitude.ofFloat x).mantissa with empty | filled
    · rw [unpack_of_zero finite empty]
      exact congrArg Float.Model.UnpackedFloat.zero (mul_positive _)
    · have double := canonical_ofFloat filled
      have covers : (Magnitude.ofFloat x).Covers ((Magnitude.ofFloat x).mantissa *
          2 ^ (Magnitude.ofFloat x).exponent * ((2 ^ 52 : ℕ) * 2 ^ (-52 : ℤ))) := by
        have unit : ((2 ^ 52 : ℕ) : ℚ) * 2 ^ (-52 : ℤ) = 1 := by norm_num
        rw [unit, mul_one]
        exact Magnitude.covers_value filled
      have wide : 52 ≤ ((Magnitude.ofFloat x).mantissa * 2 ^ 52).log2 := by
        rw [Nat.mul_comm]
        exact wide_of_full le_rfl filled
      rw [unpack_of_filled finite filled, mul_eq double covers wide, mul_positive]
  show Float.ofModel (.pack (mul Format.binary64 x.toModel.unpack (1 : Float).toModel.unpack)) = x
  rw [product, ofModel_unpack]

/-- A double that compares equal to one is one. -/
theorem eq_one_of_beq (same : (x == 1) = true) : x = 1 := by
  have order : x.toModel.unpack.compare (1 : Float).toModel.unpack = some .eq :=
    beq_iff_eq.mp (same : (x.toModel.unpack.compare (1 : Float).toModel.unpack == some .eq) = true)
  have parts : x.toModel.unpack = (1 : Float).toModel.unpack := by
    rw [unpack_one] at order ⊢
    cases left : x.toModel.unpack with
    | notANumber =>
      rw [left] at order
      cases order
    | infinity sign =>
      rw [left] at order
      cases sign <;> cases order
    | zero sign =>
      rw [left] at order
      cases order
    | finite sign mantissa exponent filled =>
      rw [left] at order
      cases sign with
      | negative => cases order
      | positive =>
        have both := Ordering.then_eq_eq.mp (Option.some.inj order)
        exact finite_congr rfl (Nat.compare_eq_eq.mp both.2) (Int.compare_eq_eq.mp both.1)
  rw [← ofModel_unpack x, parts, ofModel_unpack]

/-! ## Whole numbers -/

/-- The magnitude of a natural number of at most 53 digits. -/
def natural (n : ℕ) : Magnitude :=
  ⟨n * 2 ^ (52 - n.log2), n.log2 - 52, decide (n * 2 ^ (52 - n.log2) = 2 ^ 52)⟩

/-- The magnitude of a natural number is canonical. -/
theorem canonical_natural (positive : 0 < n) (short : n < 2 ^ 53) : (natural n).Canonical where
  positive := Nat.mul_pos positive (Nat.two_pow_pos _)
  short := (filled_bounds positive short).2
  least := by
    show (-1074 : ℤ) ≤ n.log2 - 52
    omega
  full := .inl (filled_bounds positive short).1
  narrow := by
    show decide _ = true ↔ _ ∧ (-1074 : ℤ) < n.log2 - 52
    rw [decide_eq_true_eq, and_iff_left (by omega)]
    rfl

/-- A natural number of at most 53 digits is a double with its magnitude. -/
theorem unpack_ofNat (positive : 0 < n) (short : n < 2 ^ 53) :
    (Float.ofNat n).toModel.unpack = .finite .positive (natural n).mantissa (natural n).exponent
      (canonical_natural positive short).positive := by
  have double := canonical_natural positive short
  have few : n.log2 < 53 := (Nat.log2_lt positive.ne').mpr short
  have covers : (natural n).Covers (n * 10 ^ (0 : ℤ)) := by
    have own := Magnitude.covers_value double.positive
    have value : (natural n).value = n :=
      natural_value positive short
    rw [value] at own
    rwa [zpow_zero, mul_one]
  have exact := float_ofScientific double positive (by decide) (by omega) covers
  show (Float.ofScientific n false 0).toModel.unpack = _
  rw [show Float.ofScientific n false 0 = _ from exact]
  have most : (natural n).exponent ≤ 971 := by
    show (n.log2 : ℤ) - 52 ≤ 971
    omega
  exact unpack_pack _ double.positive double.short double.full double.least most

end Double

/-! ## Rounding -/

namespace Magnitude

variable {x : Magnitude}

/-- The nearest whole number of a magnitude is that of the number it stands for. -/
theorem nearest_eq : x.nearest = ⌊x.toReal + 1 / 2⌋₊ := by
  have unit : (2 : ℝ) ^ (-x.exponent).toNat ≠ 0 := pow_ne_zero _ two_ne_zero
  have parts := zpow_parts (two_ne_zero : (2 : ℝ) ≠ 0) x.exponent
  have value : x.toReal + 1 / 2 =
      ((2 * (x.mantissa * 2 ^ x.exponent.toNat) + 2 ^ (-x.exponent).toNat : ℕ) : ℝ) /
        ((2 * 2 ^ (-x.exponent).toNat : ℕ) : ℝ) := by
    unfold toReal
    push_cast
    rw [← parts]
    field_simp
  rw [value, Nat.floor_div_eq_div]
  rfl

/-- Without a fraction the whole part is the nearest whole number. -/
theorem floor_eq_nearest (whole : 0 ≤ x.exponent) : x.floor = x.nearest := by
  have none : (-x.exponent).toNat = 0 := by omega
  unfold floor nearest
  dsimp only
  rw [none, pow_zero, Nat.div_one]
  omega

/-- A fraction of at most 53 digits is near to a whole number of at most 53 digits. -/
theorem nearest_lt (short : x.mantissa < 2 ^ 53) (fraction : x.exponent < 0) :
    x.nearest < 2 ^ 53 := by
  have none : x.exponent.toNat = 0 := by omega
  have unit : 2 ≤ 2 ^ (-x.exponent).toNat := Nat.le_self_pow (by omega) 2
  unfold nearest
  dsimp only
  rw [none, pow_zero, mul_one, Nat.div_lt_iff_lt_mul (by omega)]
  omega

end Magnitude

namespace Binary64

open Double Magnitude

variable {x : Float} {n : ℕ}

/-- A whole number of at most 53 digits as a double is counted by the number. -/
theorem toCount_ofNat (short : n < 2 ^ 53) : toCount (Float.ofNat n) = n := by
  rcases Nat.eq_zero_or_pos n with rfl | positive
  · decide +kernel
  · obtain ⟨finite, sign, mantissa, exponent⟩ := parts_of_finite (unpack_ofNat positive short)
    have number : (Float.ofNat n).isNaN = false :=
      congrArg Float.Model.UnpackedFloat.isNaN (unpack_ofNat positive short)
    have plus := signOf_eq_positive_iff.mp sign
    have whole : (Magnitude.ofFloat (Float.ofNat n)).floor = n := by
      unfold Magnitude.floor
      rw [mantissa, exponent]
      have few : n.log2 < 53 := (Nat.log2_lt positive.ne').mpr short
      show n * 2 ^ (52 - n.log2) * 2 ^ ((n.log2 : ℤ) - 52).toNat / 2 ^ (-((n.log2 : ℤ) - 52)).toNat = n
      rw [show ((n.log2 : ℤ) - 52).toNat = 0 by omega,
        show (-((n.log2 : ℤ) - 52)).toNat = 52 - n.log2 by omega, pow_zero, mul_one,
        Nat.mul_div_cancel _ (Nat.two_pow_pos _)]
    unfold toCount
    rw [number, plus, finite, whole]
    exact min_eq_left (by unfold Scalar.maxCount; omega)

/-- The negation of a whole number of at most 53 digits is less than one. -/
theorem neg_ofNat_lt_one (short : n < 2 ^ 53) : -Float.ofNat n < (1.0 : Float) := by
  rcases Nat.eq_zero_or_pos n with rfl | positive
  · decide +kernel
  · have double := canonical_natural positive short
    have most : (natural n).exponent ≤ 971 := by
      have few : n.log2 < 53 := (Nat.log2_lt positive.ne').mpr short
      show (n.log2 : ℤ) - 52 ≤ 971
      omega
    have parts : (-Float.ofNat n).toModel.unpack =
        .finite .negative (natural n).mantissa (natural n).exponent double.positive := by
      show unpack Format.binary64 (pack Format.binary64 (Float.ofNat n).toModel.unpack.neg) = _
      rw [unpack_ofNat positive short]
      exact unpack_pack _ double.positive double.short double.full double.least most
    have number : (-Float.ofNat n).isNaN = false := congrArg Float.Model.UnpackedFloat.isNaN parts
    exact lt_one_of_negative number (signOf_eq_negative_iff.mp (parts_of_finite parts).2.1)

/-- What rounding does to a finite double with a fraction, and to any other double. -/
theorem round_cases (x : Float) :
    (x.isFinite = true ∧ (Magnitude.ofFloat x).exponent < 0 ∧
        (Magnitude.ofFloat x).nearest < 2 ^ 53 ∧
        round x = withSignOf x (Magnitude.ofFloat x).nearest) ∨
      ((x.isFinite = true → 0 ≤ (Magnitude.ofFloat x).exponent) ∧ round x = x) := by
  unfold round
  dsimp only
  by_cases fraction : x.isFinite = true ∧ (Magnitude.ofFloat x).exponent < 0
  · have cut := nearest_lt (mantissa_lt x) fraction.2
    refine .inl ⟨fraction.1, fraction.2, cut, if_neg ?_⟩
    rw [fraction.1]
    simpa using fraction.2
  · have whole : x.isFinite = true → 0 ≤ (Magnitude.ofFloat x).exponent := fun finite =>
      not_lt.mp fun below => fraction ⟨finite, below⟩
    refine .inr ⟨whole, if_pos ?_⟩
    cases finite : x.isFinite with
    | false => rfl
    | true => exact decide_eq_true (whole finite)

variable (number : x.isNaN = false) (least : ¬round x < (1.0 : Float))

include number least

/-- A number that is not rounded to less than one has no sign. -/
theorem isNegative_of_round : isNegative x = false := by
  refine Bool.eq_false_iff.mpr fun negative => least ?_
  rcases round_cases x with ⟨-, -, short, same⟩ | ⟨-, same⟩
  · rw [same]
    unfold withSignOf
    rw [if_pos negative]
    exact neg_ofNat_lt_one short
  · rw [same]
    exact lt_one_of_negative number negative

/-- The count of a finite double that is not rounded to less than one is the nearest whole number,
unless there are not so many counts. -/
theorem toCount_round (finite : x.isFinite = true) :
    toCount (round x) = min (Magnitude.ofFloat x).nearest Scalar.maxCount := by
  have plus := isNegative_of_round number least
  rcases round_cases x with ⟨-, -, short, same⟩ | ⟨whole, same⟩
  · rw [same]
    unfold withSignOf
    rw [plus, if_neg Bool.false_ne_true, toCount_ofNat short, min_eq_left]
    unfold Scalar.maxCount
    omega
  · rw [same]
    unfold toCount
    rw [number, plus, finite, Magnitude.floor_eq_nearest (whole finite)]
    rfl

/-- The count of an infinite double that is not rounded to less than one is the largest one. -/
theorem toCount_round_of_infinite (infinite : x.isFinite = false) :
    toCount (round x) = Scalar.maxCount := by
  have plus := isNegative_of_round number least
  rcases round_cases x with ⟨finite, -⟩ | ⟨-, same⟩
  · exact absurd (infinite.symm.trans finite) Bool.false_ne_true
  · rw [same]
    unfold toCount
    rw [number, plus, infinite]
    rfl

/-- The nearest whole number to a finite double that is not rounded to less than one is positive. -/
theorem nearest_pos (finite : x.isFinite = true) : 0 < (Magnitude.ofFloat x).nearest := by
  have plus := isNegative_of_round number least
  refine Nat.pos_of_ne_zero fun zero => least ?_
  rcases round_cases x with ⟨-, -, short, same⟩ | ⟨whole, same⟩
  · rw [same, zero]
    unfold withSignOf
    rw [plus]
    decide +kernel
  · have none := whole finite
    rcases Nat.eq_zero_or_pos (Magnitude.ofFloat x).mantissa with empty | filled
    · rw [exponent_of_empty empty] at none
      exact absurd none (by decide)
    · rw [← floor_eq_nearest none] at zero
      have unit : (-(Magnitude.ofFloat x).exponent).toNat = 0 := by omega
      unfold Magnitude.floor at zero
      rw [unit, pow_zero, Nat.div_one] at zero
      exact absurd zero (Nat.mul_pos filled (Nat.two_pow_pos _)).ne'

end Binary64

end Micromag
