import Micromag.Proofs.Double.Rounding

/-!
# The magnitude of a double

A finite double is a sign, a mantissa and an exponent. The latter two are its magnitude, which is one
of those that a double other than zero has.
-/

namespace Micromag.Double

open Float.Model (Format)
open Float.Model.UnpackedFloat

/-- The sign of a double, which zeros have too. -/
def signOf (x : Float) : Sign := if isNegative x then .negative else .positive

variable (bits : UInt64)

/-- The exponent field. -/
theorem toNat_unpackExponent : (@unpackExponent Format.binary64 bits.toBitVec).toNat =
    ((bits >>> 52) &&& 0x7FF).toNat := by
  have mask : (0x7FF : UInt64).toNat = 2 ^ 11 - 1 := rfl
  have field : (@unpackExponent Format.binary64 bits.toBitVec).toNat =
      (bits.toNat >>> 52) % 2 ^ 11 := by
    unfold unpackExponent
    rw [BitVec.toNat_cast]
    exact BitVec.extractLsb_toNat 62 52 _
  rw [field, UInt64.toNat_and, UInt64.toNat_shiftRight, mask, Nat.and_two_pow_sub_one_eq_mod]
  rfl

/-- The mantissa field. -/
theorem toNat_unpackMantissa : (@unpackMantissa Format.binary64 bits.toBitVec).toNat =
    (bits &&& 0xFFFFFFFFFFFFF).toNat := by
  have mask : (0xFFFFFFFFFFFFF : UInt64).toNat = 2 ^ 52 - 1 := rfl
  have field : (@unpackMantissa Format.binary64 bits.toBitVec).toNat =
      (bits.toNat >>> 0) % 2 ^ 52 := by
    unfold unpackMantissa
    rw [BitVec.toNat_cast]
    exact BitVec.extractLsb_toNat 51 0 _
  rw [field, UInt64.toNat_and, mask, Nat.and_two_pow_sub_one_eq_mod]
  rfl

/-- The sign field. -/
theorem ofBitVec_unpackSign : Sign.ofBitVec (@unpackSign Format.binary64 bits.toBitVec) =
    if bits >>> 63 != 0 then .negative else .positive := by
  have field : (@unpackSign Format.binary64 bits.toBitVec).toNat = (bits >>> 63).toNat := by
    have fits := bits.toNat_lt
    have small : bits.toNat >>> 63 < 2 ^ 1 := by
      rw [Nat.shiftRight_eq_div_pow]
      omega
    have cut : (@unpackSign Format.binary64 bits.toBitVec).toNat = (bits.toNat >>> 63) % 2 ^ 1 := by
      unfold unpackSign
      rw [BitVec.toNat_cast]
      exact BitVec.extractLsb_toNat 63 63 _
    rw [cut, Nat.mod_eq_of_lt small, UInt64.toNat_shiftRight]
    rfl
  unfold Sign.ofBitVec
  by_cases zero : bits >>> 63 = 0
  · have unset : @unpackSign Format.binary64 bits.toBitVec = 0#1 :=
      BitVec.eq_of_toNat_eq (field.trans (congrArg UInt64.toNat zero))
    rw [if_pos unset, zero]
    rfl
  · have set : @unpackSign Format.binary64 bits.toBitVec ≠ 0#1 := by
      intro unset
      rw [unset] at field
      exact zero (UInt64.toNat_inj.mp field.symm)
    rw [if_neg set, if_pos (bne_iff_ne.mpr zero)]

variable {x : Float}

/-- The exponent field of a finite double is not the special one. -/
theorem unpackExponent_ne (finite : x.isFinite = true) :
    @unpackExponent Format.binary64 x.toBits.toBitVec ≠ -1#_ := by
  intro full
  have unpacked : (unpack Format.binary64 x.toBits.toBitVec).isFinite = true := finite
  unfold unpack at unpacked
  dsimp only at unpacked
  rw [if_pos full] at unpacked
  split at unpacked <;> cases unpacked

/-- The exponent field of a finite double is not the greatest. -/
theorem biased_lt (finite : x.isFinite = true) : ((x.toBits >>> 52) &&& 0x7FF).toNat < 2047 := by
  have width : (@unpackExponent Format.binary64 x.toBits.toBitVec).toNat < 2 ^ 11 :=
    BitVec.isLt _
  have other : (@unpackExponent Format.binary64 x.toBits.toBitVec).toNat ≠ 2047 := fun full =>
    unpackExponent_ne finite (BitVec.eq_of_toNat_eq full)
  rw [← toNat_unpackExponent]
  omega

/-- The fields of a magnitude. -/
theorem ofFloat_eq (x : Float) : Magnitude.ofFloat x =
    if ((x.toBits >>> 52) &&& 0x7FF).toNat = 0 then
      ⟨(x.toBits &&& 0xFFFFFFFFFFFFF).toNat, -1074, false⟩
    else
      ⟨2 ^ 52 + (x.toBits &&& 0xFFFFFFFFFFFFF).toNat,
        ((x.toBits >>> 52) &&& 0x7FF).toNat - 1075,
        (x.toBits &&& 0xFFFFFFFFFFFFF).toNat = 0 ∧ 1 < ((x.toBits >>> 52) &&& 0x7FF).toNat⟩ := by
  unfold Magnitude.ofFloat Magnitude.ofBits
  dsimp only
  split
  · rfl
  · simp only [Bool.decide_and]

/-- The mantissa field is smaller than the mantissas of normal doubles. -/
theorem fraction_lt (x : Float) : (x.toBits &&& 0xFFFFFFFFFFFFF).toNat < 2 ^ 52 := by
  rw [← toNat_unpackMantissa]
  exact BitVec.isLt _

/-- The magnitude of a double is canonical, unless it is zero. -/
theorem canonical_ofFloat (filled : 0 < (Magnitude.ofFloat x).mantissa) :
    (Magnitude.ofFloat x).Canonical := by
  have small := fraction_lt x
  rw [ofFloat_eq] at filled ⊢
  generalize ((x.toBits >>> 52) &&& 0x7FF).toNat = biased at filled ⊢
  generalize (x.toBits &&& 0xFFFFFFFFFFFFF).toNat = fraction at small filled ⊢
  by_cases low : biased = 0
  · rw [if_pos low] at filled ⊢
    refine ⟨filled, small.trans (by decide), le_rfl, .inr rfl, ?_⟩
    exact ⟨(nomatch ·), fun apart => absurd apart.2 (lt_irrefl _)⟩
  · rw [if_neg low] at filled ⊢
    refine ⟨filled, ?_, ?_, .inl (Nat.le_add_right _ _), ?_⟩
    · dsimp only
      omega
    · dsimp only
      omega
    · simp only [decide_eq_true_eq]
      omega

/-- The exponent of a finite double has a bound. -/
theorem exponent_le (finite : x.isFinite = true) : (Magnitude.ofFloat x).exponent ≤ 971 := by
  have bound := biased_lt finite
  rw [ofFloat_eq]
  split
  · exact (by decide : (-1074 : ℤ) ≤ 971)
  · dsimp only
    omega

/-- Finite numbers with the same parts are the same. -/
theorem finite_congr {sign other : Sign} {mantissa n : ℕ} {exponent e : ℤ}
    {filled : 0 < mantissa} {positive : 0 < n} (signs : sign = other) (mantissas : mantissa = n)
    (exponents : exponent = e) :
    Float.Model.UnpackedFloat.finite sign mantissa exponent filled = .finite other n e positive := by
  subst signs mantissas exponents
  rfl

/-- A normal mantissa is the mantissa field with a leading one. -/
theorem toNat_normal (fraction : BitVec 52) : (1#1 ++ fraction).toNat = 2 ^ 52 + fraction.toNat := by
  rw [BitVec.toNat_append, ← Nat.shiftLeft_add_eq_or_of_lt fraction.isLt]
  rfl

/-- A finite double other than zero is its sign and its magnitude. -/
theorem unpack_of_filled (finite : x.isFinite = true)
    (filled : 0 < (Magnitude.ofFloat x).mantissa) :
    x.toModel.unpack = .finite (signOf x) (Magnitude.ofFloat x).mantissa
      (Magnitude.ofFloat x).exponent filled := by
  have exponentField := toNat_unpackExponent x.toBits
  have mantissaField := toNat_unpackMantissa x.toBits
  have parts := ofFloat_eq x
  unfold Float.Model.unpack unpack
  refine (if_neg (unpackExponent_ne finite)).trans ?_
  by_cases low : ((x.toBits >>> 52) &&& 0x7FF).toNat = 0
  · rw [if_pos low] at parts
    have subnormal : @unpackExponent Format.binary64 x.toBits.toBitVec = 0#_ :=
      BitVec.eq_of_toNat_eq (exponentField.trans low)
    have nonzero : ¬@unpackMantissa Format.binary64 x.toBits.toBitVec = 0#_ := by
      intro zero
      rw [zero] at mantissaField
      rw [parts] at filled
      exact filled.ne mantissaField
    refine (if_pos subnormal).trans ((dif_neg nonzero).trans ?_)
    refine finite_congr (ofBitVec_unpackSign _) ?_ ?_
    · rw [parts]
      exact mantissaField
    · rw [parts]
      exact congrArg (fun n : ℕ => (n : ℤ) - 1075 + 1) (exponentField.trans low)
  · rw [if_neg low] at parts
    have normal : ¬@unpackExponent Format.binary64 x.toBits.toBitVec = 0#_ := by
      intro subnormal
      rw [subnormal] at exponentField
      exact low exponentField.symm
    refine (if_neg normal).trans ?_
    refine finite_congr (ofBitVec_unpackSign _) ?_ ?_
    · rw [parts]
      exact (toNat_normal _).trans (congrArg (2 ^ 52 + ·) mantissaField)
    · rw [parts]
      exact congrArg (fun n : ℕ => (n : ℤ) - 1075) exponentField

/-- A finite double without a mantissa is a zero with its sign. -/
theorem unpack_of_zero (finite : x.isFinite = true)
    (empty : (Magnitude.ofFloat x).mantissa = 0) : x.toModel.unpack = .zero (signOf x) := by
  have exponentField := toNat_unpackExponent x.toBits
  have mantissaField := toNat_unpackMantissa x.toBits
  rw [ofFloat_eq] at empty
  split at empty
  · rename_i low
    have subnormal : @unpackExponent Format.binary64 x.toBits.toBitVec = 0#_ :=
      BitVec.eq_of_toNat_eq (exponentField.trans low)
    have zero : @unpackMantissa Format.binary64 x.toBits.toBitVec = 0#_ :=
      BitVec.eq_of_toNat_eq (mantissaField.trans empty)
    unfold Float.Model.unpack unpack
    refine (if_neg (unpackExponent_ne finite)).trans ?_
    refine (if_pos subnormal).trans ((dif_pos zero).trans ?_)
    exact congrArg Float.Model.UnpackedFloat.zero (ofBitVec_unpackSign _)
  · exact absurd empty (Nat.add_pos_left (by decide) _).ne'

end Micromag.Double

/-!
## Products and quotients of doubles

A product or a quotient of two finite doubles is computed exactly and then rounded, so it is the
double that covers the exact result.
-/

namespace Micromag.Double

open Float.Model (Format totalExponent)
open Float.Model.UnpackedFloat

variable {x : Magnitude} {first second : ℕ} {up down : ℤ} {positive : 0 < first}
  {filled : 0 < second} {sign other : Sign}

/-- What remains of a division is a fraction of a unit. -/
theorem describes_accuracyOfFraction {part whole : ℕ} (less : part < whole) :
    Describes (part / whole) (accuracyOfFraction part whole) := by
  have unit : (0 : ℚ) < whole := by exact_mod_cast (Nat.zero_le part).trans_lt less
  have under : (part : ℚ) < whole := by exact_mod_cast less
  unfold accuracyOfFraction
  split
  · rename_i zero
    show ((part : ℚ) / whole) = 0
    rw [zero, Nat.cast_zero, zero_div]
  · rename_i nonzero
    have some : (0 : ℚ) < part := by exact_mod_cast Nat.pos_of_ne_zero nonzero
    rcases order : compare (2 * part) whole with _ | _ | _
    · have half : 2 * part < whole := Nat.compare_eq_lt.mp order
      have half : 2 * (part : ℚ) < whole := by exact_mod_cast half
      refine ⟨div_pos some unit, (div_lt_iff₀ unit).mpr (by linarith)⟩
    · have half : 2 * part = whole := Nat.compare_eq_eq.mp order
      have half : 2 * (part : ℚ) = whole := by exact_mod_cast half
      refine (div_eq_iff unit.ne').mpr (by linarith)
    · have half : whole < 2 * part := Nat.compare_eq_gt.mp order
      have half : (whole : ℚ) < 2 * part := by exact_mod_cast half
      exact ⟨(lt_div_iff₀ unit).mpr (by linarith), (div_lt_one unit).mpr under⟩

/-- A quotient has enough digits. -/
theorem enough_of_quotient (positive : 0 < first) (filled : 0 < second) {places : ℕ} {target : ℤ}
    (shift : up - down - target = places)
    (low : target ≤ max ((first.log2 : ℤ) - second.log2 + (up - down) - 53) (-1074)) :
    target ≤ max (((first * 2 ^ places / second).log2 : ℤ) + target - 52) (-1074) := by
  rcases le_or_gt target (-1074) with least | more
  · exact le_max_of_le_right least
  · have digits : second.log2 + 53 ≤ first.log2 + places := by omega
    refine le_max_of_le_left ?_
    have large : 2 ^ 52 ≤ first * 2 ^ places / second := by
      rw [Nat.le_div_iff_mul_le filled]
      calc 2 ^ 52 * second ≤ 2 ^ 52 * 2 ^ (second.log2 + 1) :=
            Nat.mul_le_mul_left _ Nat.lt_log2_self.le
        _ = 2 ^ (second.log2 + 53) := by rw [← Nat.pow_add]; congr 1; omega
        _ ≤ 2 ^ (first.log2 + places) := Nat.pow_le_pow_right (by decide) digits
        _ = 2 ^ first.log2 * 2 ^ places := Nat.pow_add _ _ _
        _ ≤ first * 2 ^ places := Nat.mul_le_mul_right _ (Nat.log2_self_le positive.ne')
    have wide : 52 ≤ (first * 2 ^ places / second).log2 := by
      rw [Nat.le_log2 (by omega)]
      exact large
    omega

/-- The quotient of two doubles is the double that covers the exact quotient. -/
theorem div_eq (double : x.Canonical)
    (covers : x.Covers (first * 2 ^ up / (second * 2 ^ down))) :
    div Format.binary64 (.finite sign first up positive) (.finite other second down filled) =
      .finite (sign / other) x.mantissa x.exponent double.positive := by
  obtain ⟨target, same⟩ : ∃ target, target = min (up - down)
      (Format.binary64.targetExponent (totalExponent first up - totalExponent second down)) :=
    ⟨_, rfl⟩
  obtain ⟨places, shift⟩ : ∃ places : ℕ, up - down - target = places :=
    ⟨(up - down - target).toNat, by omega⟩
  have low : target ≤ max ((first.log2 : ℤ) - second.log2 + (up - down) - 53) (-1074) := by
    have bound : target ≤
        max (totalExponent first up - totalExponent second down - 53) (-1074) :=
      same ▸ min_le_right _ _
    unfold totalExponent at bound
    omega
  have core : divCore Format.binary64 first up second down =
      (first * 2 ^ places / second, target,
        accuracyOfFraction (first * 2 ^ places % second) second) := by
    unfold divCore
    dsimp only
    rw [← same, shift, Int.toNat_natCast, Nat.shiftLeft_eq]
  have describes := describes_accuracyOfFraction (Nat.mod_lt (first * 2 ^ places) filled)
  have whole : (first : ℚ) * 2 ^ up / (second * 2 ^ down) =
      ((first * 2 ^ places / second : ℕ) + (first * 2 ^ places % second : ℕ) / second) *
        2 ^ target := by
    have unit : (second : ℚ) ≠ 0 := by exact_mod_cast filled.ne'
    have parts : (second : ℚ) * (first * 2 ^ places / second : ℕ) +
        (first * 2 ^ places % second : ℕ) = first * 2 ^ places := by
      exact_mod_cast Nat.div_add_mod (first * 2 ^ places) second
    have powers : (2 : ℚ) ^ up = 2 ^ places * 2 ^ target * 2 ^ down := by
      rw [← zpow_natCast, ← zpow_add₀ two_ne_zero, ← zpow_add₀ two_ne_zero]
      congr 1
      omega
    rw [powers]
    field_simp
    linear_combination -parts
  rw [whole] at covers
  show (match divCore Format.binary64 first up second down with
    | (mantissa, exponent, accuracy) =>
      roundWithAccuracy Format.binary64 (sign / other) mantissa exponent accuracy) = _
  rw [core]
  exact roundWithAccuracy_eq double describes (enough_of_quotient positive filled shift low)
    covers _

/-- The product of two doubles is the double that covers the exact product. -/
theorem mul_eq (double : x.Canonical)
    (covers : x.Covers (first * 2 ^ up * (second * 2 ^ down)))
    (wide : 52 ≤ (first * second).log2) :
    mul Format.binary64 (.finite sign first up positive) (.finite other second down filled) =
      .finite (sign * other) x.mantissa x.exponent double.positive := by
  have none : Describes 0 .exact := rfl
  have whole : (first : ℚ) * 2 ^ up * (second * 2 ^ down) =
      ((first * second : ℕ) + 0) * 2 ^ (up + down) := by
    rw [zpow_add₀ two_ne_zero]
    push_cast
    ring
  rw [whole] at covers
  exact roundWithAccuracy_eq double none (le_max_of_le_left (by omega)) covers _

end Micromag.Double
