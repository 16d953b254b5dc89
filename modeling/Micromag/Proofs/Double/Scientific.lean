import Micromag.Decimal.Reading
import Micromag.Proofs.Decimal.Shortest
import Micromag.Proofs.Double.Packing
import Micromag.Proofs.Double.Unpacking

/-!
# Decimals as doubles

A decimal is read as the double that covers it: of few digits and places by one product or quotient
with an exact power of ten, of others by one with a natural number of any size.
-/

namespace Micromag

namespace Double

open Float.Model (Format)
open Float.Model.UnpackedFloat

variable {x : Magnitude} {digits places : ℕ} {exponent : ℤ}

/-- The powers of ten in the table are exact. -/
theorem unpack_power (few : places < 23) :
    ∃ mantissa exponent, ∃ filled : 0 < mantissa,
      (Float.exactlyRepresentablePowersOfTen[places]).toModel.unpack =
        .finite .positive mantissa exponent filled ∧
      2 ^ 52 ≤ mantissa ∧ (mantissa : ℚ) * 2 ^ exponent = 10 ^ places := by
  have all : ∀ places, (few : places < 23) →
      let x := Float.exactlyRepresentablePowersOfTen[places]
      x.isFinite = true ∧ isNegative x = false ∧ 2 ^ 52 ≤ (Magnitude.ofFloat x).mantissa ∧
        (Magnitude.ofFloat x).mantissa * 2 ^ (Magnitude.ofFloat x).exponent.toNat =
          10 ^ places * 2 ^ (-(Magnitude.ofFloat x).exponent).toNat := by
    decide +kernel
  obtain ⟨finite, sign, full, whole⟩ := all places few
  generalize Float.exactlyRepresentablePowersOfTen[places] = x at finite sign full whole ⊢
  have filled : 0 < (Magnitude.ofFloat x).mantissa := (Nat.two_pow_pos 52).trans_le full
  have plus : signOf x = .positive := by
    unfold signOf
    rw [sign]
    rfl
  refine ⟨_, _, filled, plus ▸ unpack_of_filled finite filled, full, ?_⟩
  have unit : (2 : ℚ) ^ (-(Magnitude.ofFloat x).exponent).toNat ≠ 0 := pow_ne_zero _ two_ne_zero
  have whole := congrArg (Nat.cast : ℕ → ℚ) whole
  push_cast at whole
  rw [← zpow_parts two_ne_zero, ← mul_assoc] at whole
  exact mul_right_cancel₀ unit whole

/-- A product with a full mantissa has enough digits. -/
theorem wide_of_full {first second : ℕ} (full : 2 ^ 52 ≤ first) (filled : 0 < second) :
    52 ≤ (first * second).log2 := by
  have large : 2 ^ 52 ≤ first * second := full.trans (Nat.le_mul_of_pos_right _ filled)
  rwa [Nat.le_log2 ((Nat.two_pow_pos 52).trans_le large).ne']

/-- A decimal of any size is rounded to the double that covers it. -/
theorem ofScientific_eq (double : x.Canonical) (positive : 0 < digits)
    (low : exponent ≤ 2048) (high : -(2048 + digits.log2) ≤ exponent)
    (covers : x.Covers (digits * 10 ^ exponent)) :
    ofScientific Format.binary64 digits exponent =
      .finite .positive x.mantissa x.exponent double.positive := by
  have zero : (2 : ℚ) ^ (0 : ℤ) = 1 := zpow_zero _
  unfold ofScientific
  rw [dif_neg positive.ne', if_neg (by exact not_lt.mpr low), if_neg (by exact not_lt.mpr high)]
  by_cases large : 0 ≤ exponent
  · rw [if_pos large]
    have product : (digits : ℚ) * 10 ^ exponent =
        (digits <<< 53 : ℕ) * 2 ^ (-53 : ℤ) * ((10 ^ exponent.toNat : ℕ) * 2 ^ (0 : ℤ)) := by
      have whole : exponent = exponent.toNat := by omega
      have unit : (2 : ℚ) ^ 53 * 2 ^ (-53 : ℤ) = 1 := by norm_num
      rw [zero, Nat.shiftLeft_eq]
      nth_rewrite 1 [whole]
      push_cast
      rw [zpow_natCast]
      linear_combination (-(digits : ℚ) * 10 ^ exponent.toNat) * unit
    have full : 2 ^ 52 ≤ digits <<< 53 := by
      rw [Nat.shiftLeft_eq]
      omega
    exact mul_eq double (product ▸ covers) (wide_of_full full (Nat.pow_pos (by decide)))
  · rw [if_neg large]
    have quotient : (digits : ℚ) * 10 ^ exponent =
        digits * 2 ^ (0 : ℤ) / ((10 ^ (-exponent).toNat : ℕ) * 2 ^ (0 : ℤ)) := by
      have whole : exponent = -(-exponent).toNat := by omega
      rw [zero]
      nth_rewrite 1 [whole]
      push_cast
      rw [zpow_neg, zpow_natCast]
      ring
    exact div_eq double (quotient ▸ covers)

/-- The product of a small number and a power of ten in the table is the double that covers it. -/
theorem product_eq (double : x.Canonical) (positive : 0 < digits) (short : digits < 2 ^ 53)
    (few : places < 23) (covers : x.Covers (digits * 10 ^ places)) :
    digits.toUInt64.toFloat * Float.exactlyRepresentablePowersOfTen[places] =
      .ofModel (.pack (.finite .positive x.mantissa x.exponent double.positive)) := by
  obtain ⟨mantissa, exponent, filled, power, -, exact⟩ := unpack_power few
  rw [← natural_value positive short, ← exact] at covers
  show Float.ofModel (.pack (mul Format.binary64 digits.toUInt64.toFloat.toModel.unpack
    (Float.exactlyRepresentablePowersOfTen[places]).toModel.unpack)) = _
  rw [unpack_natural positive short, power,
    mul_eq double covers (wide_of_full (filled_bounds positive short).1 filled)]
  rfl

/-- The quotient of a small number by a power of ten in the table is the double that covers it. -/
theorem quotient_eq (double : x.Canonical) (positive : 0 < digits) (short : digits < 2 ^ 53)
    (few : places < 23) (covers : x.Covers (digits / 10 ^ places)) :
    digits.toUInt64.toFloat / Float.exactlyRepresentablePowersOfTen[places] =
      .ofModel (.pack (.finite .positive x.mantissa x.exponent double.positive)) := by
  obtain ⟨mantissa, exponent, filled, power, -, exact⟩ := unpack_power few
  rw [← natural_value positive short, ← exact] at covers
  show Float.ofModel (.pack (div Format.binary64 digits.toUInt64.toFloat.toModel.unpack
    (Float.exactlyRepresentablePowersOfTen[places]).toModel.unpack)) = _
  rw [unpack_natural positive short, power, div_eq double covers]
  rfl

/-- A decimal in the range of doubles is read as the double that covers it. -/
theorem float_ofScientific (double : x.Canonical) (positive : 0 < digits)
    (low : exponent ≤ 2048) (high : -(2048 + digits.log2) ≤ exponent)
    (covers : x.Covers (digits * 10 ^ exponent)) :
    Float.ofScientific digits (exponent < 0) exponent.natAbs =
      .ofModel (.pack (.finite .positive x.mantissa x.exponent double.positive)) := by
  unfold Float.ofScientific
  by_cases small : digits < 2 ^ 53 ∧ exponent.natAbs ≤ 22
  · obtain ⟨short, few⟩ := small
    have few : exponent.natAbs < 23 := by omega
    rw [dif_pos ⟨short, Nat.le_of_lt_succ few⟩]
    dsimp only
    by_cases fraction : exponent < 0
    · have whole : exponent = -exponent.natAbs := by omega
      rw [whole, zpow_neg, zpow_natCast, ← div_eq_mul_inv] at covers
      rw [if_pos (decide_eq_true fraction)]
      exact quotient_eq double positive short few covers
    · have whole : exponent = exponent.natAbs := by omega
      rw [whole, zpow_natCast] at covers
      rw [if_neg (by simpa using fraction)]
      exact product_eq double positive short few covers
  · have signed : (if decide (exponent < 0) = true then Int.negOfNat exponent.natAbs
        else Int.ofNat exponent.natAbs) = exponent := by
      split
      · rename_i fraction
        have fraction := of_decide_eq_true fraction
        rw [Int.negOfNat_eq]
        show -(exponent.natAbs : ℤ) = exponent
        omega
      · rename_i whole
        have whole : ¬exponent < 0 := by simpa using whole
        show (exponent.natAbs : ℤ) = exponent
        omega
    rw [dif_neg small]
    dsimp only
    rw [signed]
    exact congrArg (fun parts => Float.ofModel (.pack parts))
      (ofScientific_eq double positive low high covers)

variable {d : Decimal}

/-- A number that a double covers has digits. -/
theorem digits_pos (double : x.Canonical) (covers : x.Covers d.value) : 0 < d.digits := by
  have unit : (0 : ℚ) < 2 ^ x.exponent := zpow_pos two_pos _
  have some : (1 : ℚ) ≤ x.mantissa := by exact_mod_cast double.positive
  obtain ⟨low, -⟩ := near_of_covers double covers
  refine Nat.pos_of_ne_zero fun none => ?_
  unfold Decimal.value at low
  rw [none, Nat.cast_zero, zero_mul] at low
  nlinarith

/-- A power of ten beyond the doubles; its inverse is next to zero. -/
theorem two_lt_ten : (2 : ℚ) ^ (1076 : ℤ) < 10 ^ (401 : ℤ) := by
  have eight : (2 : ℚ) ^ (3 : ℤ) ≤ 10 := by norm_num
  calc (2 : ℚ) ^ (1076 : ℤ) < 2 ^ ((3 : ℤ) * 401) := zpow_lt_zpow_right₀ one_lt_two (by decide)
    _ = (2 ^ (3 : ℤ)) ^ (401 : ℤ) := zpow_mul _ _ _
    _ ≤ 10 ^ (401 : ℤ) := zpow_le_zpow_left₀ (by decide) (zpow_pos two_pos _).le eight

/-- A decimal with an exponent that is too large is beyond all doubles. -/
theorem exponent_le_of_covers (double : x.Canonical) (most : x.exponent ≤ 971)
    (covers : x.Covers d.value) : d.exponent ≤ 400 := by
  by_contra large
  have some : (1 : ℚ) ≤ d.digits := by exact_mod_cast digits_pos double covers
  have short : (x.mantissa : ℚ) + 1 ≤ 2 ^ 53 := by exact_mod_cast double.short
  have unit : (0 : ℚ) < 2 ^ x.exponent := zpow_pos two_pos _
  obtain ⟨-, high⟩ := near_of_covers double covers
  have bound : (10 : ℚ) ^ (401 : ℤ) ≤ 2 ^ (1024 : ℤ) :=
    calc (10 : ℚ) ^ (401 : ℤ) ≤ 10 ^ d.exponent :=
          zpow_le_zpow_right₀ (by norm_num) (by omega)
      _ = 1 * 10 ^ d.exponent := (one_mul _).symm
      _ ≤ d.value := mul_le_mul_of_nonneg_right some (by positivity)
      _ ≤ (x.mantissa + 1 / 2) * 2 ^ x.exponent := high
      _ ≤ 2 ^ 53 * 2 ^ x.exponent := mul_le_mul_of_nonneg_right (by linarith) unit.le
      _ ≤ 2 ^ 53 * 2 ^ (971 : ℤ) :=
          mul_le_mul_of_nonneg_left (zpow_le_zpow_right₀ one_le_two most) (by positivity)
      _ = 2 ^ (1024 : ℤ) := by rw [← zpow_natCast, ← zpow_add₀ two_ne_zero]; rfl
  have less : (2 : ℚ) ^ (1024 : ℤ) ≤ 2 ^ (1076 : ℤ) :=
    zpow_le_zpow_right₀ one_le_two (by decide)
  exact absurd (bound.trans less) (not_le.mpr two_lt_ten)

/-- A decimal with an exponent that is too small is next to zero. -/
theorem le_exponent_of_covers (double : x.Canonical) (covers : x.Covers d.value) :
    -400 ≤ d.exponent + d.digits.log2 := by
  by_contra small
  have some : (1 : ℚ) ≤ x.mantissa := by exact_mod_cast double.positive
  have few : (d.digits : ℚ) ≤ 2 ^ (d.digits.log2 + 1) := by
    exact_mod_cast Nat.lt_log2_self.le
  have unit : (0 : ℚ) < 2 ^ x.exponent := zpow_pos two_pos _
  have ten : (10 : ℚ) ≠ 0 := by norm_num
  obtain ⟨low, -⟩ := near_of_covers double covers
  have tiny : (10 : ℚ) ^ (-401 : ℤ) < 2 ^ (-1076 : ℤ) := by
    rw [zpow_neg, zpow_neg]
    exact inv_strictAnti₀ (zpow_pos two_pos _) two_lt_ten
  have bound : 2 * (2 : ℚ) ^ (-1076 : ℤ) ≤ 2 * 10 ^ (-401 : ℤ) :=
    calc 2 * (2 : ℚ) ^ (-1076 : ℤ) = 1 / 2 * 2 ^ (-1074 : ℤ) := by
          have places : (-1074 : ℤ) = -1076 + 2 := rfl
          rw [places, zpow_add₀ two_ne_zero]
          ring
      _ ≤ 1 / 2 * 2 ^ x.exponent :=
          mul_le_mul_of_nonneg_left (zpow_le_zpow_right₀ one_le_two double.least) (by norm_num)
      _ ≤ (x.mantissa - 1 / 2) * 2 ^ x.exponent :=
          mul_le_mul_of_nonneg_right (by linarith) unit.le
      _ ≤ d.value := low
      _ ≤ 2 ^ (d.digits.log2 + 1) * 10 ^ d.exponent :=
          mul_le_mul_of_nonneg_right few (by positivity)
      _ = 2 * (2 ^ d.digits.log2 * 10 ^ d.exponent) := by ring
      _ ≤ 2 * (10 ^ d.digits.log2 * 10 ^ d.exponent) := by gcongr; norm_num
      _ = 2 * 10 ^ (d.exponent + d.digits.log2) := by
          rw [zpow_add₀ ten, zpow_natCast, mul_comm ((10 : ℚ) ^ _)]
      _ ≤ 2 * 10 ^ (-401 : ℤ) :=
          mul_le_mul_of_nonneg_left (zpow_le_zpow_right₀ (by norm_num) (by omega)) two_pos.le
  linarith

/-- The double nearest to a decimal is the one that covers it. -/
theorem nearestFloat_eq (double : x.Canonical) (most : x.exponent ≤ 971)
    (covers : x.Covers d.value) :
    nearestFloat d = .ofModel (.pack (.finite .positive x.mantissa x.exponent double.positive)) := by
  have positive := digits_pos double covers
  have high := exponent_le_of_covers double most covers
  have low := le_exponent_of_covers double covers
  unfold nearestFloat
  rw [if_neg positive.ne', if_neg (by omega), if_neg (by omega)]
  exact float_ofScientific double positive (by omega) (by omega) covers

end Double

end Micromag
