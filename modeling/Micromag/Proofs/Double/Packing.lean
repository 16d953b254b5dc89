import Micromag.Proofs.Bytes.Double
import Micromag.Proofs.Double.Unpacking

/-!
# Doubles from their parts

A sign, a mantissa and an exponent in the range of doubles are packed into a double from which they
are unpacked again. Small natural numbers are packed exactly.
-/

namespace Micromag.Double

open Float.Model (Format totalExponent)
open Float.Model.UnpackedFloat

variable {mantissa : ℕ} {exponent : ℤ}

/-- The sign of the components that are packed. -/
theorem unpackSign_packComponents (sign : Sign) (field : BitVec 11) (fraction : BitVec 52) :
    unpackSign (packComponents Format.binary64 sign field fraction) = sign.toBitVec := by
  apply BitVec.eq_of_getLsbD_eq
  intro place inside
  obtain rfl : place = 0 := by omega
  unfold unpackSign packComponents
  rw [BitVec.getLsbD_cast, BitVec.getLsbD_extractLsb, BitVec.getLsbD_append, BitVec.getLsbD_append]
  rfl

/-- A sign is the sign of its bit. -/
theorem ofBitVec_toBitVec (sign : Sign) : Sign.ofBitVec sign.toBitVec = sign := by
  cases sign <;> rfl

/-- The components of a subnormal double are unpacked with the least exponent. -/
theorem unpack_subnormal (sign : Sign) {fraction : BitVec 52} (positive : 0 < fraction.toNat) :
    unpack Format.binary64 (packComponents Format.binary64 sign 0#_ fraction) =
      .finite sign fraction.toNat (-1074) positive := by
  have nonzero : ¬fraction = 0#52 := by
    rintro rfl
    exact lt_irrefl _ positive
  unfold unpack
  dsimp only
  rw [if_neg (by rw [unpackExponent_packComponents]; decide),
    if_pos unpackExponent_packComponents,
    dif_neg (by rw [unpackMantissa_packComponents]; exact nonzero)]
  refine finite_congr ?_ ?_ ?_
  · rw [unpackSign_packComponents, ofBitVec_toBitVec]
  · rw [unpackMantissa_packComponents]
  · rw [unpackExponent_packComponents]
    rfl

/-- The components of a normal double are unpacked with a leading one. -/
theorem unpack_normal (sign : Sign) {field : BitVec 11} {fraction : BitVec 52}
    (some : field ≠ 0#11) (finite : field ≠ -1#11) (positive : 0 < 2 ^ 52 + fraction.toNat) :
    unpack Format.binary64 (packComponents Format.binary64 sign field fraction) =
      .finite sign (2 ^ 52 + fraction.toNat) (field.toNat - 1075) positive := by
  unfold unpack
  dsimp only
  rw [if_neg (by rw [unpackExponent_packComponents]; exact finite),
    if_neg (by rw [unpackExponent_packComponents]; exact some)]
  refine finite_congr ?_ ?_ ?_
  · rw [unpackSign_packComponents, ofBitVec_toBitVec]
  · rw [unpackMantissa_packComponents]
    exact toNat_normal fraction
  · rw [unpackExponent_packComponents]
    rfl

/-- The parts of a finite double are unpacked as they were packed. -/
theorem unpack_pack (sign : Sign) (positive : 0 < mantissa) (short : mantissa < 2 ^ 53)
    (full : 2 ^ 52 ≤ mantissa ∨ exponent = -1074) (least : -1074 ≤ exponent)
    (most : exponent ≤ 971) :
    unpack Format.binary64 (pack Format.binary64 (.finite sign mantissa exponent positive)) =
      .finite sign mantissa exponent positive := by
  by_cases normal : 2 ^ 52 ≤ mantissa
  · obtain ⟨fraction, parts⟩ : ∃ fraction : BitVec 52, mantissa = 2 ^ 52 + fraction.toNat := by
      refine ⟨BitVec.ofNat 52 (mantissa - 2 ^ 52), ?_⟩
      rw [BitVec.toNat_ofNat]
      omega
    obtain ⟨field, biased⟩ : ∃ field : BitVec 11, exponent = field.toNat - 1075 := by
      refine ⟨BitVec.ofNat 11 (exponent + 1075).toNat, ?_⟩
      rw [BitVec.toNat_ofNat]
      omega
    have whole := toNat_normal fraction
    have same : Float.Model.UnpackedFloat.finite sign mantissa exponent positive =
        .finite sign (1#1 ++ fraction).toNat exponent (by omega) :=
      finite_congr rfl (parts.trans whole.symm) rfl
    have some : field ≠ 0#11 := by
      rintro rfl
      rw [BitVec.toNat_ofNat] at biased
      omega
    have finite : field ≠ -1#11 := by
      rintro rfl
      have field : (-1#11).toNat = 2047 := rfl
      omega
    rw [same, pack_normal sign field fraction exponent biased (by omega),
      unpack_normal sign some finite (by omega)]
    exact finite_congr rfl whole.symm biased.symm
  · obtain ⟨fraction, parts⟩ : ∃ fraction : BitVec 52, mantissa = fraction.toNat := by
      refine ⟨BitVec.ofNat 52 mantissa, ?_⟩
      rw [BitVec.toNat_ofNat]
      omega
    subst parts
    obtain rfl : exponent = -1074 := full.resolve_left normal
    rw [pack_subnormal sign fraction _ rfl, unpack_subnormal]

/-- A double is packed from what it is unpacked to. -/
theorem ofModel_unpack (x : Float) : Float.ofModel (.pack x.toModel.unpack) = x :=
  ofBits_toBits x

/-- A mantissa of 53 digits is rounded to itself. -/
theorem roundWithAccuracy_short (sign : Sign) (positive : 0 < mantissa) (short : mantissa < 2 ^ 53)
    (least : -1074 ≤ exponent) :
    roundWithAccuracy Format.binary64 sign mantissa exponent .exact =
      .finite sign mantissa exponent positive := by
  have rounded : (⟨mantissa, false, false⟩ : ExtendedMantissa).roundedMantissa = mantissa := rfl
  unfold roundWithAccuracy
  rw [shift_short short least]
  dsimp only
  rw [rounded, shift_short short least]
  exact dif_neg positive.ne'

/-- The mantissa of a natural number that is filled up to 53 digits. -/
theorem filled_bounds (positive : 0 < mantissa) (short : mantissa < 2 ^ 53) :
    2 ^ 52 ≤ mantissa * 2 ^ (52 - mantissa.log2) ∧
      mantissa * 2 ^ (52 - mantissa.log2) < 2 ^ 53 := by
  have few : mantissa.log2 < 53 := (Nat.log2_lt positive.ne').mpr short
  have places : mantissa.log2 + (52 - mantissa.log2) = 52 := by omega
  have carried : mantissa.log2 + 1 + (52 - mantissa.log2) = 53 := by omega
  constructor
  · calc 2 ^ 52 = 2 ^ mantissa.log2 * 2 ^ (52 - mantissa.log2) := by rw [← Nat.pow_add, places]
      _ ≤ mantissa * 2 ^ (52 - mantissa.log2) :=
        Nat.mul_le_mul_right _ (Nat.log2_self_le positive.ne')
  · calc mantissa * 2 ^ (52 - mantissa.log2)
        < 2 ^ (mantissa.log2 + 1) * 2 ^ (52 - mantissa.log2) :=
          Nat.mul_lt_mul_of_pos_right Nat.lt_log2_self (Nat.two_pow_pos _)
      _ = 2 ^ 53 := by rw [← Nat.pow_add, carried]

/-- A mantissa that is filled up is scaled down again. -/
theorem natural_value (positive : 0 < mantissa) (short : mantissa < 2 ^ 53) :
    ((mantissa * 2 ^ (52 - mantissa.log2) : ℕ) : ℚ) * 2 ^ ((mantissa.log2 : ℤ) - 52) = mantissa := by
  have few : mantissa.log2 < 53 := (Nat.log2_lt positive.ne').mpr short
  have places : ((52 - mantissa.log2 : ℕ) : ℤ) + (mantissa.log2 - 52) = 0 := by omega
  push_cast
  rw [mul_assoc, ← zpow_natCast, ← zpow_add₀ two_ne_zero, places, zpow_zero, mul_one]

/-- A natural number of at most 53 digits is a double. -/
theorem unpack_natural (positive : 0 < mantissa) (short : mantissa < 2 ^ 53) :
    mantissa.toUInt64.toFloat.toModel.unpack =
      .finite .positive (mantissa * 2 ^ (52 - mantissa.log2)) (mantissa.log2 - 52)
        (Nat.mul_pos positive (Nat.two_pow_pos _)) := by
  obtain ⟨full, narrow⟩ := filled_bounds positive short
  have few : mantissa.log2 < 53 := (Nat.log2_lt positive.ne').mpr short
  have word : mantissa.toUInt64.toNat = mantissa :=
    UInt64.toNat_ofNat_of_lt' (short.trans (by decide))
  have target : Format.binary64.targetExponent (totalExponent mantissa 0) = mantissa.log2 - 52 := by
    rw [targetExponent_eq]
    omega
  have places : (0 - ((mantissa.log2 : ℤ) - 52)).toNat = 52 - mantissa.log2 := by omega
  have moved : (0 : ℤ) - (52 - mantissa.log2 : ℕ) = mantissa.log2 - 52 := by omega
  have exact : ofUInt64 Format.binary64 mantissa.toUInt64 =
      .finite .positive (mantissa * 2 ^ (52 - mantissa.log2)) (mantissa.log2 - 52)
        (Nat.mul_pos positive (Nat.two_pow_pos _)) := by
    unfold ofUInt64 ofNat ofInt Float.Model.UnpackedFloat.normalize
    rw [word, Int.compare_eq_gt.mpr (by omega)]
    dsimp only
    unfold Float.Model.UnpackedFloat.round decreaseExponent
    rw [Int.toNat_natCast, target]
    dsimp only
    rw [places, moved, Nat.shiftLeft_eq]
    exact roundWithAccuracy_short _ _ narrow (by omega)
  show unpack Format.binary64 (pack Format.binary64 (ofUInt64 Format.binary64 _)) = _
  rw [exact]
  exact unpack_pack _ _ narrow (.inl full) (by omega) (by omega)

end Micromag.Double
