import Mathlib
import Micromag.Decimal.Basic

/-!
# Rounding to doubles

A double is chosen for an exact number by cutting its binary digits off and looking at what was cut:
nothing, less than half of a unit, one half, or more. The number that lies nearest to a double, or
on a midpoint beside one with an even mantissa, gets this double.
-/

namespace Micromag

/-- A magnitude that a double other than zero stands for in one way only. -/
structure Magnitude.Canonical (x : Magnitude) : Prop where
  /-- It is not zero. -/
  positive : 0 < x.mantissa
  /-- The mantissa has at most 53 digits. -/
  short : x.mantissa < 2 ^ 53
  /-- The exponent is not too small. -/
  least : -1074 ≤ x.exponent
  /-- The mantissa has 53 digits unless the exponent is the least. -/
  full : 2 ^ 52 ≤ x.mantissa ∨ x.exponent = -1074
  /-- The gap below is narrow where the exponent changes. -/
  narrow : x.narrowBelow = true ↔ x.mantissa = 2 ^ 52 ∧ -1074 < x.exponent

/-- Whether a number lies between the midpoints beside a magnitude, or on one of them if the mantissa
is even. -/
structure Magnitude.Covers (x : Magnitude) (number : ℚ) : Prop where
  /-- It is not below the lower midpoint. -/
  above : x.lowerMidpoint * 2 ^ (x.exponent - 2) ≤ number
  /-- It is the lower midpoint only if the mantissa is even. -/
  evenAbove : number = x.lowerMidpoint * 2 ^ (x.exponent - 2) → x.mantissa % 2 = 0
  /-- It is not above the upper midpoint. -/
  below : number ≤ x.upperMidpoint * 2 ^ (x.exponent - 2)
  /-- It is the upper midpoint only if the mantissa is even. -/
  evenBelow : number = x.upperMidpoint * 2 ^ (x.exponent - 2) → x.mantissa % 2 = 0

namespace Double

open Float.Model (Format totalExponent)
open Float.Model.UnpackedFloat

/-- What an accuracy says of the fraction of a unit that was cut off. -/
def Describes (fraction : ℚ) : Accuracy → Prop
  | .exact => fraction = 0
  | .inexact .lt => 0 < fraction ∧ fraction < 1 / 2
  | .inexact .eq => fraction = 1 / 2
  | .inexact .gt => 1 / 2 < fraction ∧ fraction < 1

/-- Whether a whole number is nearest to a number, a half going to the even one. -/
structure Nearest (x : ℚ) (n : ℕ) : Prop where
  /-- It is at most one half away. -/
  near : |x - n| ≤ 1 / 2
  /-- It is even if it is one half away. -/
  even : |x - n| = 1 / 2 → n % 2 = 0

variable {fraction : ℚ} {accuracy : Accuracy}

/-- What was cut off is less than a unit. -/
theorem Describes.bounds (describes : Describes fraction accuracy) :
    0 ≤ fraction ∧ fraction < 1 := by
  unfold Describes at describes
  split at describes <;> constructor <;> linarith

/-- Whole numbers less than one apart are the same. -/
theorem eq_of_lt_add_one {a b : ℕ} (above : (a : ℚ) < b + 1) (below : (b : ℚ) < a + 1) : a = b := by
  have above : a < b + 1 := by exact_mod_cast above
  have below : b < a + 1 := by exact_mod_cast below
  omega

/-- The accuracy and the digits that were kept tell the nearest whole number. -/
theorem Describes.round (describes : Describes fraction accuracy) {kept n : ℕ}
    (nearest : Nearest (kept + fraction) n) : accuracy.roundToNearestEven kept = n := by
  obtain ⟨low, high⟩ := abs_le.mp nearest.near
  unfold Describes at describes
  split at describes
  · have same : kept = n := eq_of_lt_add_one (by linarith) (by linarith)
    exact same
  · have same : kept = n := eq_of_lt_add_one (by linarith) (by linarith)
    exact same
  · have least : kept ≤ n := by
      have least : (kept : ℚ) ≤ n := by linarith
      exact_mod_cast least
    have most : n ≤ kept + 1 := by
      have most : (n : ℚ) ≤ kept + 1 := by linarith
      exact_mod_cast most
    have half : |(kept : ℚ) + fraction - n| = 1 / 2 := by
      obtain rfl | rfl : n = kept ∨ n = kept + 1 := by omega
      · rw [describes, add_sub_cancel_left, abs_of_pos one_half_pos]
      · push_cast
        rw [describes, abs_of_neg] <;> linarith
    have even := nearest.even half
    show kept + kept % 2 = n
    omega
  · have next : kept + 1 = n := by
      refine eq_of_lt_add_one ?_ ?_
      · push_cast
        linarith
      · push_cast
        linarith
    exact next

/-- When one more digit is cut off, the fraction grows by this digit and is halved. -/
theorem Describes.shiftRightOne {extended : ExtendedMantissa}
    (describes : Describes fraction extended.accuracy) :
    Describes (((extended.mantissa % 2 : ℕ) + fraction) / 2) extended.shiftRightOne.accuracy := by
  obtain ⟨mantissa, half, rest⟩ := extended
  have digit : mantissa % 2 = 0 ∨ mantissa % 2 = 1 := by omega
  have one : ((1 : ℕ) != 0) = true := rfl
  unfold ExtendedMantissa.shiftRightOne
  dsimp only
  rcases digit with digit | digit <;> rw [digit] <;> cases half <;> cases rest <;>
    simp only [ExtendedMantissa.accuracy, Describes, bne_self_eq_false, Bool.or_false,
      Bool.or_true, Bool.or_self, Nat.cast_zero, Nat.cast_one, one] at describes ⊢ <;>
    first | linarith | exact ⟨by linarith, by linarith⟩

/-- The digits that are kept and the fraction make up the number of units when digits are cut
off. -/
theorem Describes.shiftRight {extended : ExtendedMantissa}
    (describes : Describes fraction extended.accuracy) (places : ℕ) :
    ∃ rest, Describes rest (extended >>> places).accuracy ∧
      ((extended >>> places).mantissa + rest) * 2 ^ places = extended.mantissa + fraction := by
  induction places with
  | zero => exact ⟨fraction, describes, by rw [pow_zero, mul_one]; rfl⟩
  | succ places ih =>
    obtain ⟨rest, kept, whole⟩ := ih
    have step : extended >>> (places + 1) = (extended >>> places).shiftRightOne := rfl
    refine ⟨_, step ▸ kept.shiftRightOne, ?_⟩
    have digits : (extended >>> places).mantissa =
        2 * (extended >>> (places + 1)).mantissa + (extended >>> places).mantissa % 2 := by
      rw [step]
      exact (Nat.div_add_mod _ 2).symm
    rw [← whole]
    have digits := congrArg (Nat.cast : ℕ → ℚ) digits
    push_cast at digits ⊢
    rw [pow_succ]
    linear_combination (-(2 : ℚ) ^ places) * digits

variable {x : Magnitude} {number units : ℚ}

/-- A unit is four quarters. -/
theorem quarter_units (exponent : ℤ) : (2 : ℚ) ^ (exponent - 2) = 2 ^ exponent / 4 := by
  rw [zpow_sub₀ two_ne_zero]
  norm_num

/-- The lower midpoint is half a unit below the magnitude, or a quarter where the gap is narrow. -/
theorem lowerMidpoint_eq (positive : 0 < x.mantissa) :
    (x.lowerMidpoint : ℚ) = 4 * x.mantissa - if x.narrowBelow then 1 else 2 := by
  unfold Magnitude.lowerMidpoint
  split
  · rw [Nat.cast_sub (by omega)]
    push_cast
    rfl
  · rw [Nat.cast_sub (by omega)]
    push_cast
    rfl

/-- The upper midpoint is half a unit above the magnitude. -/
theorem upperMidpoint_eq : (x.upperMidpoint : ℚ) = 4 * x.mantissa + 2 := by
  unfold Magnitude.upperMidpoint
  push_cast
  rfl

/-- A number that is covered is at most half a unit away. -/
theorem near_of_covers (double : x.Canonical) (covers : x.Covers number) :
    (x.mantissa - 1 / 2) * 2 ^ x.exponent ≤ number ∧
      number ≤ (x.mantissa + 1 / 2) * 2 ^ x.exponent := by
  have unit : (0 : ℚ) < 2 ^ x.exponent := zpow_pos two_pos _
  have above := covers.above
  have below := covers.below
  rw [quarter_units] at above below
  rw [lowerMidpoint_eq double.positive] at above
  rw [upperMidpoint_eq] at below
  constructor
  · split at above <;> nlinarith
  · nlinarith

/-- The mantissa is the nearest number of units. -/
theorem nearest_of_covers (double : x.Canonical)
    (covers : x.Covers (units * 2 ^ x.exponent)) : Nearest units x.mantissa := by
  have unit : (0 : ℚ) < 2 ^ x.exponent := zpow_pos two_pos _
  obtain ⟨low, high⟩ := near_of_covers double covers
  have low := le_of_mul_le_mul_right low unit
  have high := le_of_mul_le_mul_right high unit
  refine ⟨abs_le.mpr ⟨by linarith, by linarith⟩, fun half => ?_⟩
  rcases (abs_eq one_half_pos.le).mp half with up | down
  · refine covers.evenBelow ?_
    rw [quarter_units, upperMidpoint_eq]
    linear_combination (2 : ℚ) ^ x.exponent * up
  · refine covers.evenAbove ?_
    have above := covers.above
    rw [quarter_units, lowerMidpoint_eq double.positive] at above ⊢
    by_cases narrow : x.narrowBelow = true
    · rw [if_pos narrow] at above
      nlinarith
    · rw [if_neg narrow]
      linear_combination (2 : ℚ) ^ x.exponent * down

/-- Below a power of two, the nearest number of half units is that of the power. -/
theorem nearest_of_narrow (double : x.Canonical) (narrow : x.narrowBelow = true)
    (covers : x.Covers (units * 2 ^ (x.exponent - 1))) (less : units < 2 ^ 53) :
    Nearest units (2 ^ 53) := by
  have unit : (0 : ℚ) < 2 ^ x.exponent := zpow_pos two_pos _
  have half : (2 : ℚ) ^ (x.exponent - 1) = 2 ^ x.exponent / 2 := by
    rw [zpow_sub₀ two_ne_zero, zpow_one]
  have above := covers.above
  rw [quarter_units, lowerMidpoint_eq double.positive, if_pos narrow,
    (double.narrow.mp narrow).1, half] at above
  push_cast at above
  refine ⟨abs_le.mpr ?_, fun _ => rfl⟩
  push_cast
  constructor <;> nlinarith

/-- The exponent at which digits are cut off. -/
theorem targetExponent_eq (mantissa : ℕ) (exponent : ℤ) :
    Format.binary64.targetExponent (totalExponent mantissa exponent) =
      max (mantissa.log2 + exponent - 52) (-1074) := by
  have width : (Format.binary64.mantissaBits : ℤ) = 53 := rfl
  have least : Format.binary64.minExponent = -1074 := rfl
  unfold Format.targetExponent totalExponent
  rw [width, least]
  congr 1
  ring

variable {mantissa : ℕ} {exponent : ℤ}

/-- A number has 53 digits in front of the place where digits are cut off, or fewer at the least
exponent. -/
theorem bounds_of_target (describes : Describes fraction accuracy)
    (enough : exponent ≤ max (mantissa.log2 + exponent - 52) (-1074)) {target : ℤ}
    (same : target = max (mantissa.log2 + exponent - 52) (-1074)) :
    (mantissa + fraction) * 2 ^ exponent < 2 ^ (target + 53) ∧
      (target = -1074 ∨ 2 ^ (target + 52) ≤ (mantissa + fraction) * 2 ^ exponent) := by
  obtain ⟨least, most⟩ := describes.bounds
  have unit : (0 : ℚ) < 2 ^ exponent := zpow_pos two_pos _
  rcases Nat.eq_zero_or_pos mantissa with rfl | positive
  · have low : target = -1074 := by
      rw [Nat.log2_zero] at same enough
      omega
    refine ⟨?_, .inl low⟩
    rw [Nat.cast_zero, zero_add]
    calc fraction * 2 ^ exponent < 1 * 2 ^ exponent := by
          exact mul_lt_mul_of_pos_right most unit
      _ = 2 ^ exponent := one_mul _
      _ ≤ 2 ^ (target + 53) := zpow_le_zpow_right₀ one_le_two (by omega)
  · have low : (2 : ℚ) ^ mantissa.log2 ≤ mantissa := by
      exact_mod_cast Nat.log2_self_le positive.ne'
    have high : (mantissa : ℚ) + 1 ≤ 2 ^ (mantissa.log2 + 1) := by
      exact_mod_cast Nat.lt_log2_self
    constructor
    · calc (mantissa + fraction) * 2 ^ exponent < 2 ^ (mantissa.log2 + 1) * 2 ^ exponent :=
            mul_lt_mul_of_pos_right (by linarith) unit
        _ = 2 ^ ((mantissa.log2 + 1 : ℕ) + exponent) := by
            rw [zpow_add₀ two_ne_zero, zpow_natCast]
        _ ≤ 2 ^ (target + 53) := zpow_le_zpow_right₀ one_le_two (by omega)
    · rcases max_choice ((mantissa.log2 : ℤ) + exponent - 52) (-1074) with kept | floor
      · refine .inr ?_
        have place : target + 52 = mantissa.log2 + exponent := by omega
        rw [place, zpow_add₀ two_ne_zero, zpow_natCast]
        exact mul_le_mul_of_nonneg_right (by linarith) unit.le
      · exact .inl (same.trans floor)

/-- Digits are cut off at the exponent of the double that covers the number, or one place behind
where the gap is narrow. -/
theorem target_of_covers (double : x.Canonical) (covers : x.Covers number) {target : ℤ}
    (least : -1074 ≤ target) (less : number < 2 ^ (target + 53))
    (more : target = -1074 ∨ 2 ^ (target + 52) ≤ number) :
    target = x.exponent ∨
      target = x.exponent - 1 ∧ x.narrowBelow = true ∧ number < 2 ^ (x.exponent + 52) := by
  have unit : (0 : ℚ) < 2 ^ x.exponent := zpow_pos two_pos _
  obtain ⟨low, high⟩ := near_of_covers double covers
  have short : (x.mantissa : ℚ) + 1 ≤ 2 ^ 53 := by exact_mod_cast double.short
  have places (n : ℕ) : (2 : ℚ) ^ (x.exponent + n) = 2 ^ n * 2 ^ x.exponent := by
    rw [zpow_add₀ two_ne_zero, zpow_natCast, mul_comm]
  rcases lt_trichotomy target x.exponent with before | same | behind
  · have full : 2 ^ 52 ≤ x.mantissa := double.full.resolve_right (by omega)
    have filled : (2 : ℚ) ^ 52 ≤ x.mantissa := by exact_mod_cast full
    have close : x.exponent + 51 < target + 53 := by
      refine (zpow_lt_zpow_iff_right₀ (one_lt_two (α := ℚ))).mp (lt_of_le_of_lt ?_ less)
      have place := places 51
      push_cast at place
      rw [place]
      nlinarith
    have next : target = x.exponent - 1 := by omega
    have under : number < 2 ^ (x.exponent + 52) := by
      have place : target + 53 = x.exponent + 52 := by omega
      rwa [place] at less
    refine .inr ⟨next, double.narrow.mpr ⟨?_, by omega⟩, under⟩
    by_contra other
    have beyond : (2 : ℚ) ^ 52 + 1 ≤ x.mantissa := by
      have beyond : 2 ^ 52 + 1 ≤ x.mantissa := by omega
      exact_mod_cast beyond
    have place := places 52
    push_cast at place
    rw [place] at under
    nlinarith
  · exact .inl same
  · have bound := more.resolve_left (by have := double.least; omega)
    have apart : target + 52 < x.exponent + 53 := by
      refine (zpow_lt_zpow_iff_right₀ (one_lt_two (α := ℚ))).mp (lt_of_le_of_lt bound ?_)
      have place := places 53
      push_cast at place
      rw [place]
      nlinarith
    omega

/-- A mantissa with an accuracy is extended by digits that say the same. -/
theorem accuracy_ofMantissaAndAccuracy (mantissa : ℕ) (accuracy : Accuracy) :
    (ExtendedMantissa.ofMantissaAndAccuracy mantissa accuracy).accuracy = accuracy := by
  cases accuracy with
  | exact => rfl
  | inexact order => cases order <;> rfl

/-- A mantissa with an accuracy keeps its digits. -/
theorem mantissa_ofMantissaAndAccuracy (mantissa : ℕ) (accuracy : Accuracy) :
    (ExtendedMantissa.ofMantissaAndAccuracy mantissa accuracy).mantissa = mantissa := by
  cases accuracy with
  | exact => rfl
  | inexact order => cases order <;> rfl

/-- Digits are cut off up to the target exponent, if they reach further down. -/
theorem shiftToTargetExponent_eq {target : ℤ} {places : ℕ}
    (same : target = max (mantissa.log2 + exponent - 52) (-1074))
    (reaches : exponent + places = target) (accuracy : Accuracy) :
    shiftToTargetExponent Format.binary64 mantissa exponent accuracy =
      (ExtendedMantissa.ofMantissaAndAccuracy mantissa accuracy >>> places, target) := by
  have shift : (target - exponent).toNat = places := by omega
  unfold shiftToTargetExponent shiftToExponent
  dsimp only
  rw [targetExponent_eq, ← same, shift, reaches]

/-- A mantissa of 53 digits is not cut off again. -/
theorem shift_short (short : mantissa < 2 ^ 53) (least : -1074 ≤ exponent) :
    shiftToTargetExponent Format.binary64 mantissa exponent .exact =
      (⟨mantissa, false, false⟩, exponent) := by
  have few : mantissa.log2 ≤ 52 := by
    rcases Nat.eq_zero_or_pos mantissa with rfl | positive
    · exact Nat.zero_le _
    · have few := (Nat.log2_lt positive.ne').mpr short
      omega
  have none : (max ((mantissa.log2 : ℤ) + exponent - 52) (-1074) - exponent).toNat = 0 := by omega
  unfold shiftToTargetExponent shiftToExponent
  dsimp only
  rw [targetExponent_eq, none]
  simp only [Nat.cast_zero, add_zero]
  rfl

/-- A mantissa that was rounded up to the next power of two is cut off by one more digit. -/
theorem shift_carry (least : -1074 ≤ exponent) :
    shiftToTargetExponent Format.binary64 (2 ^ 53) exponent .exact =
      (⟨2 ^ 52, false, false⟩, exponent + 1) := by
  have digits : (2 ^ 53 : ℕ).log2 = 53 := Nat.log2_two_pow
  have target : exponent + 1 = max (((2 ^ 53 : ℕ).log2 : ℤ) + exponent - 52) (-1074) := by
    rw [digits]
    omega
  have reaches : exponent + (1 : ℕ) = exponent + 1 := by rw [Nat.cast_one]
  rw [shiftToTargetExponent_eq target reaches]
  rfl

/-- The double that covers a number is the one to which the number is rounded. -/
theorem roundWithAccuracy_eq (double : x.Canonical) (describes : Describes fraction accuracy)
    (enough : exponent ≤ max (mantissa.log2 + exponent - 52) (-1074))
    (covers : x.Covers ((mantissa + fraction) * 2 ^ exponent)) (sign : Sign) :
    roundWithAccuracy Format.binary64 sign mantissa exponent accuracy =
      .finite sign x.mantissa x.exponent double.positive := by
  obtain ⟨target, same⟩ : ∃ target, target = max ((mantissa.log2 : ℤ) + exponent - 52) (-1074) :=
    ⟨_, rfl⟩
  obtain ⟨places, reaches⟩ : ∃ places : ℕ, exponent + places = target :=
    ⟨(target - exponent).toNat, by omega⟩
  obtain ⟨less, more⟩ := bounds_of_target describes enough same
  rw [← accuracy_ofMantissaAndAccuracy mantissa accuracy] at describes
  obtain ⟨rest, kept, whole⟩ := describes.shiftRight places
  rw [mantissa_ofMantissaAndAccuracy] at whole
  unfold roundWithAccuracy
  rw [shiftToTargetExponent_eq same reaches]
  dsimp only
  generalize ExtendedMantissa.ofMantissaAndAccuracy mantissa accuracy >>> places = extended
    at kept whole ⊢
  have number : (mantissa + fraction) * 2 ^ exponent = (extended.mantissa + rest) * 2 ^ target := by
    rw [← whole, ← reaches, zpow_add₀ two_ne_zero, zpow_natCast]
    ring
  rw [number] at covers less more
  rcases target_of_covers double covers (by omega) less more with rfl | ⟨next, narrow, under⟩
  · have rounded : extended.roundedMantissa = x.mantissa :=
      kept.round (nearest_of_covers double covers)
    rw [rounded, shift_short double.short double.least]
    exact dif_neg double.positive.ne'
  · obtain ⟨power, above⟩ := double.narrow.mp narrow
    have few : (extended.mantissa : ℚ) + rest < 2 ^ 53 := by
      have place : x.exponent + 52 = 53 + target := by omega
      rw [place, zpow_add₀ two_ne_zero] at under
      exact lt_of_mul_lt_mul_right under (zpow_pos two_pos _).le
    rw [next] at covers
    have rounded : extended.roundedMantissa = 2 ^ 53 :=
      kept.round (nearest_of_narrow double narrow covers few)
    have exponent : target + 1 = x.exponent := by omega
    rw [rounded, shift_carry (by omega)]
    simp only [exponent, ← power]
    exact dif_neg double.positive.ne'

end Double

end Micromag
