import Micromag.Proofs.Double.Coverage

/-!
# Numbers in single precision

Counted in units of the last place, small and large numbers of single precision have the same encoding,
so that a magnitude is encoded as the nearest number of units at its place. Widening an encoding
changes its fields only, not the number. A double therefore comes back half a unit away, or as an
infinity from half a unit beyond the greatest number of single precision on.
-/

namespace Micromag

open Float.Model (Format)
open Float.Model.UnpackedFloat

/-! ## Doubles from their fields -/

namespace Double

variable {bits : UInt64} {sign biased fraction : ℕ}

/-- An encoding whose exponent field is not the special one is the encoding of its double. -/
theorem toBits_ofBits (finite : ((bits >>> 52) &&& 0x7FF).toNat < 2047) :
    (Float.ofBits bits).toBits = bits := by
  have ordinary : @unpackExponent Format.binary64 bits.toBitVec ≠ -1#_ := by
    intro special
    rw [← toNat_unpackExponent, special] at finite
    exact absurd finite (by decide)
  have valid : Format.binary64.Valid bits.toBitVec := ⟨fun special => absurd special ordinary⟩
  exact congrArg UInt64.ofBitVec (pack_unpack bits.toBitVec valid)

/-- A double whose exponent field is not the special one is finite. -/
theorem isFinite_of_biased {x : Float} (finite : ((x.toBits >>> 52) &&& 0x7FF).toNat < 2047) :
    x.isFinite = true := by
  have ordinary : @unpackExponent Format.binary64 x.toBits.toBitVec ≠ -1#_ := by
    intro special
    rw [← toNat_unpackExponent, special] at finite
    exact absurd finite (by decide)
  show (unpack Format.binary64 x.toBits.toBitVec).isFinite = true
  unfold unpack
  dsimp only
  rw [if_neg ordinary]
  split
  · split <;> rfl
  · rfl

/-- A sign, an exponent field and a mantissa field make up a finite double. -/
theorem parts_of_fields (signs : sign < 2) (finite : biased < 2047) (short : fraction < 2 ^ 52)
    {x : Float}
    (fields : x = .ofBits (UInt64.ofNat (sign * 2 ^ 63 + Single.doubleBits biased fraction))) :
    x.isFinite = true ∧ (isNegative x = true ↔ sign = 1) ∧
      (Magnitude.ofFloat x).value = if biased = 0 then (fraction : ℚ) * 2 ^ (-1074 : ℤ)
        else ((2 ^ 52 + fraction : ℕ) : ℚ) * 2 ^ ((biased : ℤ) - 1075) := by
  obtain ⟨bits, same⟩ : ∃ bits, bits =
    UInt64.ofNat (sign * 2 ^ 63 + Single.doubleBits biased fraction) := ⟨_, rfl⟩
  have word : bits.toNat = sign * 2 ^ 63 + (biased * 2 ^ 52 + fraction) := by
    rw [same]
    unfold Single.doubleBits
    exact UInt64.toNat_ofNat_of_lt' (by show _ < 2 ^ 64; omega)
  have field : ((bits >>> 52) &&& 0x7FF).toNat = biased := by
    have mask : (0x7FF : UInt64).toNat = 2 ^ 11 - 1 := rfl
    have place : (52 : UInt64).toNat % 64 = 52 := rfl
    rw [UInt64.toNat_and, UInt64.toNat_shiftRight, mask, Nat.and_two_pow_sub_one_eq_mod, place,
      Nat.shiftRight_eq_div_pow, word]
    omega
  have rest : (bits &&& 0xFFFFFFFFFFFFF).toNat = fraction := by
    have mask : (0xFFFFFFFFFFFFF : UInt64).toNat = 2 ^ 52 - 1 := rfl
    rw [UInt64.toNat_and, mask, Nat.and_two_pow_sub_one_eq_mod, word]
    omega
  have top : (bits >>> 63).toNat = sign := by
    have place : (63 : UInt64).toNat % 64 = 63 := rfl
    rw [UInt64.toNat_shiftRight, place, Nat.shiftRight_eq_div_pow, word]
    omega
  have own : x.toBits = bits := by
    rw [fields, ← same]
    exact toBits_ofBits (by rw [field]; exact finite)
  refine ⟨isFinite_of_biased (by rw [own, field]; exact finite), ?_, ?_⟩
  · unfold isNegative
    rw [own, bne_iff_ne, Ne, ← UInt64.toNat_inj, top]
    show ¬sign = 0 ↔ sign = 1
    omega
  · unfold Magnitude.value
    rw [ofFloat_eq, own, field, rest]
    split <;> rfl

end Double

namespace Single

/-! ## Encodings -/

/-- A magnitude is rounded to the nearest number of units. -/
theorem nearest_roundTo (x : Magnitude) (unit : ℤ) :
    Double.Nearest (x.value / 2 ^ unit) (roundTo x unit) := by
  have parts := zpow_parts (two_ne_zero : (2 : ℚ) ≠ 0) (x.exponent - unit)
  rw [neg_sub, zpow_sub₀ two_ne_zero] at parts
  have nearest := Double.nearest_roundEven (x.mantissa * 2 ^ (x.exponent - unit).toNat)
    (Nat.two_pow_pos (unit - x.exponent).toNat)
  have quotient : ((x.mantissa * 2 ^ (x.exponent - unit).toNat : ℕ) : ℚ) /
      (2 ^ (unit - x.exponent).toNat : ℕ) = x.value / 2 ^ unit := by
    unfold Magnitude.value
    push_cast
    rw [← parts]
    field_simp
  rw [quotient, Double.roundEven_eq] at nearest
  exact nearest

/-- The number that an encoding of a finite number without its sign stands for. -/
def value (encoding : ℕ) : ℚ :=
  if encoding / 2 ^ 23 = 0 then (encoding % 2 ^ 23 : ℕ) * 2 ^ (-149 : ℤ)
  else (2 ^ 23 + encoding % 2 ^ 23 : ℕ) * 2 ^ ((encoding / 2 ^ 23 : ℕ) - 150 : ℤ)

variable {units n encoding : ℕ}

/-- Counted in units, small and large numbers have the same encoding. -/
theorem value_units (short : n ≤ 2 ^ 24) (full : units = 0 ∨ 2 ^ 23 ≤ n) :
    value (units * 2 ^ 23 + n) = n * 2 ^ ((units : ℤ) - 149) := by
  unfold value
  rcases lt_or_ge n (2 ^ 23) with low | high
  · obtain rfl := full.resolve_right (by omega)
    rw [Nat.zero_mul, Nat.zero_add, Nat.div_eq_of_lt low, Nat.mod_eq_of_lt low]
    exact if_pos rfl
  · rcases short.lt_or_eq with less | rfl
    · have quotient : (units * 2 ^ 23 + n) / 2 ^ 23 = units + 1 := by omega
      have rest : 2 ^ 23 + (units * 2 ^ 23 + n) % 2 ^ 23 = n := by omega
      have place : ((units + 1 : ℕ) : ℤ) - 150 = units - 149 := by omega
      rw [quotient, rest, if_neg (Nat.succ_ne_zero _), place]
    · have quotient : (units * 2 ^ 23 + 2 ^ 24) / 2 ^ 23 = units + 2 := by omega
      have rest : 2 ^ 23 + (units * 2 ^ 23 + 2 ^ 24) % 2 ^ 23 = 2 ^ 23 := by omega
      have place : ((units + 2 : ℕ) : ℤ) - 150 = 1 + (units - 149) := by omega
      rw [quotient, rest, if_neg (Nat.succ_ne_zero _), place, zpow_one_add₀ two_ne_zero]
      push_cast
      ring

/-- A fraction whose leading digit is moved up to place 52 is a mantissa field behind that digit. -/
theorem fraction_shifted {fraction : ℕ} (some : fraction ≠ 0) (digits : fraction.log2 ≤ 52) :
    (fraction - 2 ^ fraction.log2) * 2 ^ (52 - fraction.log2) < 2 ^ 52 ∧
      2 ^ 52 + (fraction - 2 ^ fraction.log2) * 2 ^ (52 - fraction.log2) =
        fraction * 2 ^ (52 - fraction.log2) := by
  have least : 2 ^ fraction.log2 ≤ fraction := Nat.log2_self_le some
  have most : fraction < 2 ^ (fraction.log2 + 1) := Nat.lt_log2_self
  have places : 2 ^ fraction.log2 * 2 ^ (52 - fraction.log2) = 2 ^ 52 := by
    rw [← Nat.pow_add, Nat.add_sub_cancel' digits]
  constructor
  · rw [← places]
    exact Nat.mul_lt_mul_of_pos_right (by omega) (Nat.two_pow_pos _)
  · rw [← places, ← Nat.add_mul, Nat.add_sub_cancel' least]

/-- A finite encoding is widened to the double that stands for the same number. -/
theorem parts_of_widen {sign : ℕ} (signs : sign < 2) (finite : encoding < infinity) {x : Float}
    (widened : x = .ofBits (UInt64.ofNat (sign * 2 ^ 63 + widen encoding))) :
    x.isFinite = true ∧ (isNegative x = true ↔ sign = 1) ∧
      (Magnitude.ofFloat x).value = value encoding := by
  have bound : encoding / 2 ^ 23 < 255 := by
    unfold infinity at finite
    omega
  have small : encoding % 2 ^ 23 < 2 ^ 23 := Nat.mod_lt _ (by decide)
  unfold widen at widened
  unfold value
  dsimp only at widened
  generalize encoding / 2 ^ 23 = biased at bound widened ⊢
  generalize encoding % 2 ^ 23 = fraction at small widened ⊢
  rw [if_neg bound.ne] at widened
  split at widened
  · rename_i normal
    obtain ⟨number, negative, same⟩ := Double.parts_of_fields signs (by omega) (by omega) widened
    refine ⟨number, negative, ?_⟩
    have place : ((biased + 896 : ℕ) : ℤ) - 1075 = -(29 : ℕ) + (biased - 150) := by
      push_cast
      ring
    rw [same, if_neg (by omega), if_neg (by simpa using normal), place, zpow_add₀ two_ne_zero,
      zpow_neg, zpow_natCast]
    push_cast
    ring
  · rename_i low
    have low : biased = 0 := by simpa using low
    split at widened
    · rename_i none
      have fields : x = .ofBits (UInt64.ofNat (sign * 2 ^ 63 + doubleBits 0 0)) := widened
      obtain ⟨number, negative, same⟩ :=
        Double.parts_of_fields signs (by decide) (by decide) fields
      refine ⟨number, negative, ?_⟩
      rw [same, if_pos rfl, if_pos low, none]
      simp
    · rename_i some
      have digits : fraction.log2 < 23 := (Nat.log2_lt some).mpr small
      have ⟨short, whole⟩ := fraction_shifted some (by omega)
      obtain ⟨number, negative, same⟩ := Double.parts_of_fields signs (by omega) short widened
      refine ⟨number, negative, ?_⟩
      have place : ((52 - fraction.log2 : ℕ) : ℤ) + ((fraction.log2 + 874 : ℕ) - 1075) = -149 := by
        omega
      rw [same, if_neg (by omega), if_pos low, whole, Nat.cast_mul, Nat.cast_pow, Nat.cast_two,
        mul_assoc, ← zpow_natCast, ← zpow_add₀ two_ne_zero, place]

/-! ## Magnitudes -/

variable {x : Magnitude}

/-- No encoding of a magnitude is beyond that of infinity. -/
theorem ofMagnitude_le (x : Magnitude) : ofMagnitude x ≤ infinity := by
  unfold ofMagnitude
  split
  · exact Nat.zero_le _
  · dsimp only
    split
    · exact le_rfl
    · exact min_le_right _ _

/-- A magnitude is rounded to 24 digits, or to fewer at the least place. -/
theorem exists_units (positive : 0 < x.mantissa) (most : (x.mantissa.log2 : ℤ) + x.exponent < 128) :
    ∃ units n : ℕ, ofMagnitude x = min (units * 2 ^ 23 + n) infinity ∧
      (units : ℤ) = max ((x.mantissa.log2 : ℤ) + x.exponent + 126) 0 ∧
      Double.Nearest (x.value / 2 ^ ((units : ℤ) - 149)) n ∧ n ≤ 2 ^ 24 ∧
      (units = 0 ∨ 2 ^ 23 ≤ n) := by
  have filled : ¬x.isZero = true := by
    unfold Magnitude.isZero
    simpa using positive.ne'
  obtain ⟨low, high⟩ := Magnitude.value_bounds positive
  obtain ⟨unit, place⟩ : ∃ unit, unit = max ((x.mantissa.log2 : ℤ) + x.exponent - 23) (-149) :=
    ⟨_, rfl⟩
  obtain ⟨units, whole⟩ := Int.eq_ofNat_of_zero_le (show 0 ≤ unit + 149 by omega)
  obtain rfl : unit = units - 149 := by omega
  have digit : (0 : ℚ) < 2 ^ ((units : ℤ) - 149) := zpow_pos two_pos _
  have nearest := nearest_roundTo x (units - 149)
  obtain ⟨-, beyond⟩ := abs_le.mp nearest.near
  refine ⟨units, roundTo x (units - 149), ?_, by omega, nearest, ?_, ?_⟩
  · unfold ofMagnitude
    rw [if_neg filled]
    dsimp only
    rw [if_neg (by omega), ← place, whole]
    rfl
  · have bound : x.value / 2 ^ ((units : ℤ) - 149) < 2 ^ 24 := by
      rw [div_lt_iff₀ digit, ← zpow_natCast, ← zpow_add₀ two_ne_zero]
      exact high.trans_le (zpow_le_zpow_right₀ one_le_two (by push_cast; omega))
    exact nearest.le_of_lt (by push_cast; linarith)
  · rcases Nat.eq_zero_or_pos units with least | more
    · exact .inl least
    · refine .inr ?_
      have bound : 2 ^ 23 ≤ x.value / 2 ^ ((units : ℤ) - 149) := by
        rw [le_div_iff₀ digit, ← zpow_natCast, ← zpow_add₀ two_ne_zero]
        exact (zpow_le_zpow_right₀ one_le_two (by push_cast; omega)).trans low
      have full : (2 : ℚ) ^ 23 < roundTo x (units - 149) + 1 := by linarith
      exact Nat.lt_succ_iff.mp (by exact_mod_cast full)

/-- The least number that is infinite in single precision, half a unit beyond the greatest one. -/
def limit : ℚ := (2 ^ 24 - 1 / 2) * 2 ^ (104 : ℤ)

/-- A number below the limit keeps its leading digits. -/
theorem leading_lt (positive : 0 < x.mantissa) (inside : x.value < limit) :
    (x.mantissa.log2 : ℤ) + x.exponent < 128 := by
  have bound : (2 : ℚ) ^ ((x.mantissa.log2 : ℤ) + x.exponent) < 2 ^ (128 : ℤ) := by
    refine (Magnitude.value_bounds positive).1.trans_lt (inside.trans ?_)
    unfold limit
    norm_num
  exact (zpow_lt_zpow_iff_right₀ one_lt_two).mp bound

/-- Half a unit of the last digit is a part of the number, or half the least number there is. -/
theorem half_unit_le {units : ℕ} (positive : 0 < x.mantissa)
    (place : (units : ℤ) = max ((x.mantissa.log2 : ℤ) + x.exponent + 126) 0) :
    (2 : ℚ) ^ ((units : ℤ) - 149) / 2 ≤ x.value / 2 ^ 24 + 1 / 2 ^ 150 := by
  rcases Nat.eq_zero_or_pos units with rfl | more
  · have least : (2 : ℚ) ^ (((0 : ℕ) : ℤ) - 149) / 2 = 1 / 2 ^ 150 := by norm_num
    have some : 0 ≤ x.value := by
      unfold Magnitude.value
      positivity
    rw [least]
    exact le_add_of_nonneg_left (by positivity)
  · have low := (Magnitude.value_bounds positive).1
    have digits : (x.mantissa.log2 : ℤ) + x.exponent = (23 : ℕ) + (units - 149) := by omega
    rw [digits, zpow_add₀ two_ne_zero, zpow_natCast] at low
    have half : (2 : ℚ) ^ ((units : ℤ) - 149) / 2 ≤ x.value / 2 ^ 24 := by
      rw [div_le_div_iff₀ two_pos (by positivity)]
      linarith
    exact half.trans (le_add_of_nonneg_right (by positivity))

/-- A magnitude below the limit has a finite encoding that is half a unit away. -/
theorem value_ofMagnitude (inside : x.value < limit) :
    ofMagnitude x < infinity ∧
      |value (ofMagnitude x) - x.value| ≤ x.value / 2 ^ 24 + 1 / 2 ^ 150 := by
  rcases Nat.eq_zero_or_pos x.mantissa with empty | filled
  · have none : ofMagnitude x = 0 := if_pos (decide_eq_true empty)
    have same : x.value = 0 := by
      unfold Magnitude.value
      rw [empty, Nat.cast_zero, zero_mul]
    rw [none, same]
    refine ⟨by decide, ?_⟩
    unfold value
    norm_num
  · obtain ⟨units, n, encoded, place, nearest, short, full⟩ :=
      exists_units filled (leading_lt filled inside)
    have leading := leading_lt filled inside
    have digit : (0 : ℚ) < 2 ^ ((units : ℤ) - 149) := zpow_pos two_pos _
    -- only at the last place could the rounded digits carry over into infinity
    have finite : units * 2 ^ 23 + n < infinity := by
      unfold infinity
      rcases lt_or_ge units 253 with less | last
      · omega
      · obtain rfl : units = 253 := by omega
        have bound : x.value / 2 ^ (((253 : ℕ) : ℤ) - 149) < 2 ^ 24 - 1 / 2 := by
          rw [div_lt_iff₀ digit]
          exact inside
        have few : n ≤ 2 ^ 24 - 1 := nearest.le_of_lt (bound.trans_eq (by norm_num))
        omega
    rw [min_eq_left finite.le] at encoded
    rw [encoded]
    refine ⟨finite, ?_⟩
    rw [value_units short full]
    exact (Double.error_of_nearest digit nearest).trans (half_unit_le filled place)

/-- A magnitude from the limit on is infinite. -/
theorem ofMagnitude_of_limit (outside : limit ≤ x.value) : ofMagnitude x = infinity := by
  have filled : 0 < x.mantissa := by
    refine Nat.pos_of_ne_zero fun empty => absurd outside ?_
    unfold limit Magnitude.value
    rw [empty, Nat.cast_zero, zero_mul]
    norm_num
  rcases le_or_gt 128 ((x.mantissa.log2 : ℤ) + x.exponent) with large | small
  · unfold ofMagnitude
    split
    · rename_i none
      exact absurd (of_decide_eq_true none) filled.ne'
    · exact if_pos large
  · obtain ⟨units, n, encoded, place, nearest, -, -⟩ := exists_units filled small
    have leading : 127 < (x.mantissa.log2 : ℤ) + x.exponent + 1 := by
      refine (zpow_lt_zpow_iff_right₀ (one_lt_two (α := ℚ))).mp ?_
      refine lt_of_le_of_lt ?_ (outside.trans_lt (Magnitude.value_bounds filled).2)
      unfold limit
      norm_num
    obtain rfl : units = 253 := by omega
    have bound : 2 ^ 24 - 1 / 2 ≤ x.value / 2 ^ (((253 : ℕ) : ℤ) - 149) := by
      rw [le_div_iff₀ (zpow_pos two_pos _)]
      exact outside
    have carried : 2 ^ 24 - 1 < n := nearest.lt_of_le (by decide) (le_of_eq_of_le (by norm_num) bound)
    rw [encoded]
    exact min_eq_right (by unfold infinity; omega)

/-! ## Doubles -/

variable {y : Float}

/-- The encoding of a double takes four bytes. -/
theorem ofDouble_lt (y : Float) : ofDouble y < 256 ^ 4 := by
  have bound := ofMagnitude_le (.ofFloat y)
  unfold infinity at bound
  unfold ofDouble noNumber infinity
  dsimp only
  split
  · decide
  · split <;> split <;> omega

/-- The encoding of a finite double has a sign bit in front of that of the magnitude. -/
theorem toDouble_ofDouble (finite : y.isFinite = true) :
    toDouble (ofDouble y) = .ofBits (UInt64.ofNat
      ((if isNegative y then 1 else 0) * 2 ^ 63 + widen (ofMagnitude (.ofFloat y)))) := by
  have bound := ofMagnitude_le (.ofFloat y)
  unfold infinity at bound
  have encoded : ofDouble y = (if isNegative y then 1 else 0) * 2 ^ 31 + ofMagnitude (.ofFloat y) := by
    unfold ofDouble
    rw [Double.isNaN_of_finite finite, if_neg Bool.false_ne_true, finite]
    dsimp only
    rw [if_pos rfl]
    split <;> rfl
  have sign : ofDouble y / 2 ^ 31 % 2 = if isNegative y then 1 else 0 := by
    rw [encoded]
    split <;> omega
  have rest : ofDouble y % 2 ^ 31 = ofMagnitude (.ofFloat y) := by
    rw [encoded]
    split <;> omega
  unfold toDouble
  rw [sign, rest]

/-- A finite double below the limit is read close to itself from its encoding. -/
theorem close_toDouble (finite : y.isFinite = true) (inside : (Magnitude.ofFloat y).value < limit) :
    Double.Close (toDouble (ofDouble y)) y := by
  obtain ⟨small, near⟩ := value_ofMagnitude inside
  obtain ⟨number, sign, same⟩ := parts_of_widen (by split <;> decide) small
    (toDouble_ofDouble finite)
  refine ⟨number, ?_, ?_⟩
  · rw [Bool.eq_iff_iff, sign]
    split <;> simp_all
  · rw [same]
    exact near

/-- A finite double from the limit on is read as an infinity from its encoding. -/
theorem toDouble_of_limit (finite : y.isFinite = true)
    (outside : limit ≤ (Magnitude.ofFloat y).value) : (toDouble (ofDouble y)).isFinite = false := by
  rw [toDouble_ofDouble finite, ofMagnitude_of_limit outside]
  cases isNegative y <;> decide +kernel

end Single

end Micromag
