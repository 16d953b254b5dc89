import Mathlib
import Micromag.Field.File

/-!
# Doubles as words

A double is written as the word of its encoding, eight bytes with the least first. Reading decodes
the word into sign, exponent and mantissa and encodes these again. No information is lost on the
way, since the only encoding of no number that a double can have is the one that decoding chooses.
-/

namespace Micromag.Double

open Float.Model (Format)
open Float.Model.UnpackedFloat

/-- A sign bit is the bit of its sign. -/
theorem toBitVec_ofBitVec (bit : BitVec 1) : (Sign.ofBitVec bit).toBitVec = bit := by
  have small := bit.isLt
  by_cases zero : bit.toNat = 0
  · rw [show bit = 0#1 from BitVec.eq_of_toNat_eq zero]
    rfl
  · have one : bit.toNat = 1 := by omega
    rw [show bit = 1#1 from BitVec.eq_of_toNat_eq one]
    rfl

variable (bits : BitVec Format.binary64.numBits)

/-- Sign, exponent and mantissa make up the whole encoding. -/
theorem packComponents_fields :
    packComponents Format.binary64 (Sign.ofBitVec (unpackSign bits)) (unpackExponent bits)
      (unpackMantissa bits) = bits := by
  unfold packComponents
  rw [toBitVec_ofBitVec]
  apply BitVec.eq_of_getLsbD_eq
  intro place inside
  have inside : place < 64 := inside
  rw [BitVec.getLsbD_append, BitVec.getLsbD_append]
  simp only [unpackMantissa, unpackExponent, unpackSign, BitVec.getLsbD_cast,
    BitVec.getLsbD_extractLsb]
  by_cases fraction : place < 52
  · simp [fraction]
  · by_cases exponent : place - 52 < 11
    · have shifted : 52 + (place - 52) = place := by omega
      simp [fraction, exponent, shifted]
    · have sign : place = 63 := by omega
      subst sign
      have last : 63 < Format.binary64.numBits := by decide
      simp [BitVec.getLsbD_eq_getElem last]

/-- A mantissa below the normal ones is encoded with the exponent field zero. -/
theorem pack_subnormal (sign : Sign) (mantissa : BitVec 52) (exponent : Int)
    (least : exponent = -1074) (positive : 0 < mantissa.toNat) :
    pack Format.binary64 (.finite sign mantissa.toNat exponent positive) =
      packComponents Format.binary64 sign 0#_ mantissa := by
  have short : mantissa.toNat.log2 < 52 := (Nat.log2_lt (by omega)).mpr mantissa.isLt
  have biased : (exponent + Format.binary64.exponentBias +
      Format.binary64.mantissaBitsWithoutImplicit).toNat = 1 := by
    rw [least]
    rfl
  unfold pack
  dsimp only
  have notNormal : ¬ mantissa.toNat.log2 + 1 = Format.binary64.mantissaBits := by
    show ¬ mantissa.toNat.log2 + 1 = 53
    omega
  rw [biased, if_neg (by decide), if_neg notNormal]
  rw [BitVec.ofNat_toNat, BitVec.setWidth_eq]

/-- A normal mantissa is encoded without its leading bit. -/
theorem pack_normal (sign : Sign) (field : BitVec 11) (mantissa : BitVec 52) (exponent : Int)
    (biased : exponent = field.toNat - 1075) (finite : field.toNat < 2047)
    (positive : 0 < (1#1 ++ mantissa).toNat) :
    pack Format.binary64 (.finite sign (1#1 ++ mantissa).toNat exponent positive) =
      packComponents Format.binary64 sign field mantissa := by
  have below : mantissa.toNat < 2 ^ 52 := mantissa.isLt
  have whole : (1#1 ++ mantissa).toNat = 2 ^ 52 + mantissa.toNat := by
    rw [BitVec.toNat_append, ← Nat.shiftLeft_add_eq_or_of_lt mantissa.isLt]
    rfl
  have leading : (1#1 ++ mantissa).toNat.log2 = 52 :=
    (Nat.log2_eq_iff (by omega)).mpr (by omega)
  have exponent : (exponent + Format.binary64.exponentBias +
      Format.binary64.mantissaBitsWithoutImplicit).toNat = field.toNat := by
    show (exponent + 1023 + 52).toNat = field.toNat
    omega
  have dropped : BitVec.ofNat 52 (1#1 ++ mantissa).toNat = mantissa := by
    apply BitVec.eq_of_toNat_eq
    rw [BitVec.toNat_ofNat, whole]
    omega
  unfold pack
  dsimp only
  rw [exponent, if_neg (show ¬ 2048 ≤ field.toNat + 1 by omega), leading]
  rw [if_pos (show 52 + 1 = Format.binary64.mantissaBits from rfl)]
  rw [dropped, BitVec.ofNat_toNat, BitVec.setWidth_eq]

/-- Encoding what an encoding stands for gives it back, unless it is an unusual form of no
number. -/
theorem pack_unpack (valid : Format.binary64.Valid bits) :
    pack Format.binary64 (unpack Format.binary64 bits) = bits := by
  have whole := packComponents_fields bits
  unfold unpack
  dsimp only
  split
  · rename_i special
    split
    · rename_i infinite
      rw [special, infinite] at whole
      exact whole
    · rename_i notNumber
      exact (valid.eq_packedNaN special notNumber).symm
  · rename_i ordinary
    split
    · rename_i low
      split
      · rename_i zero
        rw [low, zero] at whole
        exact whole
      · rename_i nonzero
        rw [pack_subnormal _ _ _ (by rw [low]; rfl), ← low]
        exact whole
    · rename_i normal
      have finite : (unpackExponent bits).toNat < 2047 := by
        have small : (unpackExponent bits).toNat < 2048 := (unpackExponent bits).isLt
        have other : (unpackExponent bits).toNat ≠ 2047 := fun same =>
          ordinary (BitVec.eq_of_toNat_eq same)
        omega
      exact (pack_normal _ (unpackExponent bits) _ _ rfl finite _).trans whole

/-- The encoding of a double stands for the double. -/
theorem ofBits_toBits (x : Float) : Float.ofBits x.toBits = x := by
  have same : Float.Model.ofBits x.toModel.toBits = x.toModel := by
    have bits := pack_unpack x.toModel.toBits.toBitVec x.toModel.valid
    cases model : x.toModel with
    | mk word valid =>
      rw [model] at bits
      unfold Float.Model.ofBits Float.Model.pack
      congr 1
      rw [bits]
  show Float.ofModel (Float.Model.ofBits x.toModel.toBits) = x
  rw [same]

/-- A double that is written as eight bytes is read back. -/
theorem decode_doubleBytes (x : Float) :
    FieldFile.double.decode (Bytes.toNat .little (FieldFile.doubleBytes x)) = x := by
  have fits : x.toBits.toNat < 256 ^ 8 := x.toBits.toNat_lt
  show Float.ofBits (UInt64.ofNat (Bytes.toNat .little (Bytes.ofNat .little 8 x.toBits.toNat))) = x
  rw [Bytes.toNat_ofNat fits, UInt64.ofNat_toNat, ofBits_toBits]

/-- A double takes eight bytes. -/
theorem length_doubleBytes (x : Float) : (FieldFile.doubleBytes x).length = 8 :=
  Bytes.length_littleDigits 8 _

end Micromag.Double
