import Micromag.Proofs.Decimal.Reading
import Micromag.Proofs.Double.Coverage

/-!
# Sixteen significant digits

The scale of a double is found from its binary digits, so that rounding it to some digits leaves it
within half a unit of the last one. The text with sixteen digits is read as the double nearest to the
decimal, which is close to the one that was written. Only the few doubles that are rounded up beyond
the greatest one are read as infinities.
-/

namespace Micromag

/-! ## The scale

A power of ten is compared with a power of two by two approximations of the ratio of their logarithms,
`10 ^ 3 ≤ 2 ^ 10` and `2 ^ 93 ≤ 10 ^ 28`. For the exponents of doubles they leave room for the start
of the search.
-/

/-- Powers of ten with few places are below powers of two. -/
theorem ten_pow_le_two_pow {places digits : ℕ} (few : 10 * places ≤ 3 * digits) :
    (10 : ℚ) ^ places ≤ 2 ^ digits := by
  refine le_of_pow_le_pow_left₀ (n := 10) (by decide) (by positivity) ?_
  calc ((10 : ℚ) ^ places) ^ 10 = 10 ^ (10 * places) := by rw [← pow_mul, mul_comm]
    _ ≤ 10 ^ (3 * digits) := pow_le_pow_right₀ (by norm_num) few
    _ = (10 ^ 3) ^ digits := pow_mul _ _ _
    _ ≤ (2 ^ 10) ^ digits := pow_le_pow_left₀ (by positivity) (by norm_num) _
    _ = (2 ^ digits) ^ 10 := by rw [← pow_mul, ← pow_mul, mul_comm]

/-- Powers of two with few digits are below powers of ten. -/
theorem two_pow_le_ten_pow {places digits : ℕ} (many : 28 * digits ≤ 93 * places) :
    (2 : ℚ) ^ digits ≤ 10 ^ places := by
  refine le_of_pow_le_pow_left₀ (n := 93) (by decide) (by positivity) ?_
  calc ((2 : ℚ) ^ digits) ^ 93 = (2 ^ 93) ^ digits := by rw [← pow_mul, ← pow_mul, mul_comm]
    _ ≤ (10 ^ 28) ^ digits := pow_le_pow_left₀ (by positivity) (by norm_num) _
    _ = 10 ^ (28 * digits) := (pow_mul _ _ _).symm
    _ ≤ 10 ^ (93 * places) := pow_le_pow_right₀ (by norm_num) many
    _ = (10 ^ places) ^ 93 := by rw [← pow_mul, mul_comm]

variable {places digits : ℤ}

/-- A power of ten is at most a power of two if it is so by both approximations. -/
theorem ten_zpow_le_two_zpow (few : 10 * places ≤ 3 * digits) (many : 93 * places ≤ 28 * digits) :
    (10 : ℚ) ^ places ≤ 2 ^ digits := by
  rcases le_or_gt 0 places with whole | fraction
  · obtain ⟨p, rfl⟩ := Int.eq_ofNat_of_zero_le whole
    obtain ⟨d, rfl⟩ := Int.eq_ofNat_of_zero_le (show 0 ≤ digits by omega)
    rw [zpow_natCast, zpow_natCast]
    exact ten_pow_le_two_pow (by omega)
  · obtain ⟨p, same⟩ := Int.eq_ofNat_of_zero_le (show 0 ≤ -places by omega)
    obtain rfl : places = -p := by omega
    rcases le_or_gt 0 digits with large | small
    · calc (10 : ℚ) ^ (-p : ℤ) ≤ 1 := zpow_le_one_of_nonpos₀ (by norm_num) fraction.le
        _ ≤ 2 ^ digits := one_le_zpow₀ one_le_two large
    · obtain ⟨d, other⟩ := Int.eq_ofNat_of_zero_le (show 0 ≤ -digits by omega)
      obtain rfl : digits = -d := by omega
      rw [zpow_neg, zpow_neg, zpow_natCast, zpow_natCast]
      exact inv_anti₀ (by positivity) (two_pow_le_ten_pow (by omega))

/-- A power of two is at most a power of ten if it is so by both approximations. -/
theorem two_zpow_le_ten_zpow (few : 3 * digits ≤ 10 * places) (many : 28 * digits ≤ 93 * places) :
    (2 : ℚ) ^ digits ≤ 10 ^ places := by
  have other : (10 : ℚ) ^ (-places) ≤ 2 ^ (-digits) :=
    ten_zpow_le_two_zpow (by omega) (by omega)
  rw [zpow_neg, zpow_neg] at other
  exact (inv_le_inv₀ (by positivity) (by positivity)).mp other

namespace Magnitude

variable {x : Magnitude}

/-- The power of ten is raised until it exceeds the magnitude, if it is not above the least one that
does and near enough. -/
theorem raiseScale_bounds {fuel : ℕ} {scale : ℤ} (low : 10 ^ (scale - 1) ≤ x.value)
    (high : x.value < 10 ^ (scale + fuel)) :
    10 ^ (x.raiseScale fuel scale - 1) ≤ x.value ∧ x.value < 10 ^ x.raiseScale fuel scale := by
  induction fuel generalizing scale with
  | zero =>
    rw [Nat.cast_zero, add_zero] at high
    exact ⟨low, high⟩
  | succ fuel ih =>
    have order : compareScaled 1 scale x.mantissa x.exponent = .gt ↔ x.value < 10 ^ scale := by
      rw [compareScaled_gt, Nat.cast_one, one_mul]
      rfl
    unfold raiseScale
    by_cases above : x.value < 10 ^ scale
    · rw [if_pos (order.mpr above)]
      exact ⟨low, above⟩
    · rw [if_neg (mt order.mp above)]
      refine ih ?_ ?_
      · rw [add_sub_cancel_right]
        exact not_lt.mp above
      · rwa [add_assoc, add_comm 1, ← Nat.cast_succ]

/-- The scale of a double is the least power of ten above it. -/
theorem scale_bounds (double : x.Canonical) (most : x.exponent ≤ 971) :
    10 ^ (x.scale - 1) ≤ x.value ∧ x.value < 10 ^ x.scale := by
  have few : x.mantissa.log2 < 53 := (Nat.log2_lt double.positive.ne').mpr double.short
  have least := double.least
  obtain ⟨low, high⟩ := value_bounds double.positive
  unfold scale
  dsimp only
  refine raiseScale_bounds ?_ ?_
  · exact (ten_zpow_le_two_zpow (by omega) (by omega)).trans low
  · exact high.trans_le (two_zpow_le_ten_zpow (by push_cast; omega) (by push_cast; omega))

/-! ## Rounding -/

/-- A magnitude is rounded to the nearest number of units of the last digit. -/
theorem exists_significant (positive : 0 < x.mantissa) (count : ℕ) :
    ∃ n, Double.Nearest (x.value / 10 ^ (x.scale - count)) n ∧
      x.significant count = if n = 10 ^ count then ⟨10 ^ (count - 1), x.scale - count + 1⟩
        else ⟨n, x.scale - count⟩ := by
  have filled : ¬x.isZero = true := by
    unfold isZero
    simpa using positive.ne'
  have ten : (10 : ℚ) ≠ 0 := by norm_num
  obtain ⟨step, same⟩ : ∃ step, step = x.scale - count := ⟨_, rfl⟩
  have unit : 0 < 2 ^ (-x.exponent).toNat * 10 ^ step.toNat := by positivity
  have nearest := Double.nearest_roundEven
    (x.mantissa * 2 ^ x.exponent.toNat * 10 ^ (-step).toNat) unit
  have quotient : ((x.mantissa * 2 ^ x.exponent.toNat * 10 ^ (-step).toNat : ℕ) : ℚ) /
      (2 ^ (-x.exponent).toNat * 10 ^ step.toNat : ℕ) = x.value / 10 ^ step := by
    unfold value
    push_cast
    rw [← zpow_parts two_ne_zero x.exponent, ← zpow_parts ten step]
    have places : (10 : ℚ) ^ (-step).toNat ≠ 0 := pow_ne_zero _ ten
    field_simp
  rw [quotient, Double.roundEven_eq] at nearest
  subst same
  refine ⟨_, nearest, ?_⟩
  unfold significant
  exact if_neg filled

/-- The rounded magnitude is the nearest number of units of the last digit. -/
theorem exists_value_significant (positive : 0 < x.mantissa) {count : ℕ} (some : 0 < count) :
    ∃ n : ℕ, Double.Nearest (x.value / 10 ^ (x.scale - count)) n ∧
      (x.significant count).value = n * 10 ^ (x.scale - count) := by
  obtain ⟨n, nearest, digits⟩ := exists_significant positive count
  refine ⟨n, nearest, ?_⟩
  rw [digits]
  split
  · rename_i carried
    obtain ⟨places, rfl⟩ := Nat.exists_eq_succ_of_ne_zero some.ne'
    have ten : (10 : ℚ) ≠ 0 := by norm_num
    rw [carried]
    unfold Decimal.value
    dsimp only
    rw [zpow_add_one₀ ten, Nat.succ_sub_one]
    push_cast
    rw [pow_succ]
    ring
  · rfl

/-- A magnitude that is rounded to some digits differs by half a unit of the last one. -/
theorem error_significant (positive : 0 < x.mantissa) {count : ℕ} (some : 0 < count) :
    |(x.significant count).value - x.value| ≤ 10 ^ (x.scale - count) / 2 := by
  have unit : (0 : ℚ) < 10 ^ (x.scale - count) := by positivity
  obtain ⟨n, nearest, number⟩ := exists_value_significant positive some
  rw [number]
  exact Double.error_of_nearest unit nearest

end Magnitude

/-! ## Reading -/

variable {text : List Char}

/-- Digits with a point behind the first one and an exponent. -/
def pointed (digits : List Char) (exponent : ℤ) : List Char :=
  digits.take 1 ++ '.' :: digits.drop 1 ++ 'e' :: integerDigits exponent

/-- Digits with a point and an exponent are read as the double nearest to their decimal. -/
theorem readFloat?_pointed {c : Char} (digits : ∀ d ∈ c :: text, isDigit d = true) (exponent : ℤ) :
    splitSign (pointed (c :: text) exponent) = (false, pointed (c :: text) exponent) ∧
      readFloat? (pointed (c :: text) exponent) =
        some (nearestFloat ⟨natOfDigits (c :: text), exponent - text.length⟩) := by
  obtain ⟨first, others⟩ := List.forall_mem_cons.mp digits
  have whole : ∀ d ∈ [c], isDigit d = true := fun _ member =>
    List.mem_singleton.mp member ▸ first
  have same : pointed (c :: text) exponent =
      [c] ++ '.' :: (text ++ 'e' :: integerDigits exponent) := rfl
  rw [same]
  refine ⟨splitSign_of_isDigit first, ?_⟩
  have read := readDecimal?_point (List.cons_ne_nil c []) whole others (stop_cons (by decide))
    (readExponent?_integerDigits false exponent)
  exact (readFloat?_of_isDigit first).trans (congrArg (Option.map nearestFloat) read)

/-- The decimal of the text with sixteen digits. -/
def Magnitude.sixteen (x : Magnitude) : Decimal :=
  let d := x.significant 16
  let zeros := 16 - (naturalDigits d.digits).length
  ⟨d.digits * 10 ^ zeros,
    (if x.isZero then 0 else d.leading) - ((naturalDigits d.digits).length + zeros - 1 : ℕ)⟩

/-- The text with sixteen digits is read as the double nearest to its decimal, with the sign in front. -/
theorem readFloat?_sixteenDigits {x : Float} (finite : x.isFinite = true) :
    readFloat? (sixteenDigits x).toList =
      some (if isNegative x then -nearestFloat (Magnitude.ofFloat x).sixteen
        else nearestFloat (Magnitude.ofFloat x).sixteen) := by
  obtain ⟨d, same⟩ : ∃ d, d = (Magnitude.ofFloat x).significant 16 := ⟨_, rfl⟩
  obtain ⟨c, others, parts, first, further⟩ := exists_naturalDigits d.digits
  obtain ⟨zeros, padding⟩ : ∃ zeros, zeros = 16 - (naturalDigits d.digits).length := ⟨_, rfl⟩
  obtain ⟨exponent, leading⟩ : ∃ exponent, exponent =
    if (Magnitude.ofFloat x).isZero then 0 else d.leading := ⟨_, rfl⟩
  have padded : ∀ c' ∈ c :: (others ++ List.replicate zeros '0'), isDigit c' = true := by
    refine List.forall_mem_cons.mpr ⟨first, fun c' member => ?_⟩
    rcases List.mem_append.mp member with member | member
    · exact further c' member
    · rw [List.eq_of_mem_replicate member]
      decide
  have shape : (sixteenDigits x).toList = (if isNegative x then ['-'] else []) ++
      pointed (c :: (others ++ List.replicate zeros '0')) exponent := by
    unfold sixteenDigits pointed
    rw [Double.isNaN_of_finite finite, finite, leading, padding, ← same]
    dsimp only
    rw [parts, if_neg Bool.false_ne_true, if_neg (by decide), String.toList_ofList]
    simp only [List.append_assoc, List.cons_append]
  have number : natOfDigits (c :: (others ++ List.replicate zeros '0')) = d.digits * 10 ^ zeros := by
    rw [← List.cons_append, ← parts, natOfDigits_append_zeros, natOfDigits_naturalDigits]
  have decimal : (Magnitude.ofFloat x).sixteen =
      ⟨d.digits * 10 ^ zeros, exponent - (others ++ List.replicate zeros '0').length⟩ := by
    unfold Magnitude.sixteen
    dsimp only
    rw [← same, ← padding, ← leading, parts, List.length_append, List.length_replicate,
      List.length_cons]
    congr 3
    omega
  obtain ⟨unsigned, read⟩ := readFloat?_pointed padded exponent
  rw [shape, readFloat?_signed unsigned, read, number, decimal]
  rfl

namespace Magnitude

variable {x : Magnitude}

/-- The decimal of the text with sixteen digits is the magnitude rounded to sixteen digits. -/
theorem value_sixteen (positive : 0 < x.mantissa) : x.sixteen.value = (x.significant 16).value := by
  have filled : x.isZero = false := by
    unfold isZero
    simpa using positive.ne'
  have ten : (10 : ℚ) ≠ 0 := by norm_num
  have some := List.length_pos_of_ne_nil (naturalDigits_ne_nil (x.significant 16).digits)
  unfold sixteen Decimal.value Decimal.leading
  dsimp only
  rw [filled, if_neg Bool.false_ne_true]
  generalize (naturalDigits (x.significant 16).digits).length = length at some ⊢
  generalize 16 - length = zeros
  have exponent : ((length : ℤ) + (x.significant 16).exponent - 1 - (length + zeros - 1 : ℕ)) =
      (x.significant 16).exponent - zeros := by omega
  rw [exponent, zpow_sub₀ ten, zpow_natCast]
  push_cast
  field_simp

end Magnitude

/-! ## The range -/

/-- From this number on, half a unit of the sixteenth digit behind the greatest decimal in the range of
doubles, a double is read as an infinity. -/
def textLimit : ℚ := 17976931348623155 * 10 ^ 292

namespace Magnitude

variable {x : Magnitude}

/-- The limit in units of the sixteenth digit. -/
theorem textLimit_eq : textLimit = 3595386269724631 / 2 * 10 ^ (293 : ℤ) := by
  unfold textLimit
  have digits : (17976931348623155 : ℚ) = 3595386269724631 / 2 * 10 := by norm_num
  rw [show (293 : ℤ) = 1 + (292 : ℕ) from rfl, zpow_one_add₀ (by norm_num), zpow_natCast,
    ← mul_assoc, ← digits]

/-- No double is beyond the greatest one. -/
theorem value_lt (double : x.Canonical) (most : x.exponent ≤ 971) : x.value < 2 ^ (1024 : ℤ) := by
  have few : x.mantissa.log2 < 53 := (Nat.log2_lt double.positive.ne').mpr double.short
  exact (value_bounds double.positive).2.trans_le (zpow_le_zpow_right₀ one_le_two (by omega))

/-- A double has at most 309 digits in front of the point. -/
theorem scale_le (double : x.Canonical) (most : x.exponent ≤ 971) : x.scale ≤ 309 := by
  have limit : (10 : ℚ) ^ (x.scale - 1) < 10 ^ (309 : ℤ) :=
    calc (10 : ℚ) ^ (x.scale - 1) ≤ x.value := (scale_bounds double most).1
      _ < 2 ^ (1024 : ℤ) := value_lt double most
      _ ≤ 10 ^ (309 : ℤ) := two_zpow_le_ten_zpow (by decide) (by decide)
  have bound := (zpow_lt_zpow_iff_right₀ (by norm_num : (1 : ℚ) < 10)).mp limit
  omega

/-- No double other than zero is below the least one. -/
theorem least_le_value (double : x.Canonical) : 2 ^ (-1074 : ℤ) ≤ x.value := by
  have some : (1 : ℚ) ≤ x.mantissa := by exact_mod_cast double.positive
  calc (2 : ℚ) ^ (-1074 : ℤ) ≤ 2 ^ x.exponent := zpow_le_zpow_right₀ one_le_two double.least
    _ ≤ x.value := le_mul_of_one_le_left (zpow_pos two_pos _).le some

/-- Sixteen digits of a double differ from it by half of a part in `10 ^ 15`. -/
theorem error_sixteen (double : x.Canonical) (most : x.exponent ≤ 971) :
    |(x.significant 16).value - x.value| ≤ x.value / 10 ^ 15 / 2 := by
  refine (error_significant double.positive (by decide)).trans ?_
  have ten : (10 : ℚ) ≠ 0 := by norm_num
  have low := (scale_bounds double most).1
  have place : x.scale - (16 : ℕ) = x.scale - 1 - (15 : ℕ) := by
    push_cast
    ring
  rw [place, zpow_sub₀ ten _ (15 : ℕ), zpow_natCast]
  gcongr

/-- Sixteen digits of a double from the limit on are beyond the range of doubles. -/
theorem significant_of_limit (double : x.Canonical) (most : x.exponent ≤ 971)
    (outside : textLimit ≤ x.value) : x.significant 16 = ⟨1797693134862316, 293⟩ := by
  have ten : (0 : ℚ) < 10 := by norm_num
  have last : x.scale = 309 := by
    refine le_antisymm (scale_le double most) ?_
    have limit : (10 : ℚ) ^ (308 : ℤ) < 10 ^ x.scale := by
      refine lt_of_le_of_lt ?_ (outside.trans_lt (scale_bounds double most).2)
      rw [textLimit_eq, show (308 : ℤ) = (15 : ℕ) + 293 from rfl, zpow_add₀ ten.ne', zpow_natCast]
      gcongr
      norm_num
    have bound := (zpow_lt_zpow_iff_right₀ (by norm_num : (1 : ℚ) < 10)).mp limit
    omega
  obtain ⟨n, nearest, digits⟩ := exists_significant double.positive 16
  have place : x.scale - (16 : ℕ) = 293 := by
    rw [last]
    rfl
  rw [place] at nearest digits
  obtain ⟨units, same⟩ : ∃ units, units = x.value / 10 ^ (293 : ℤ) := ⟨_, rfl⟩
  have low : 3595386269724631 / 2 ≤ units := by
    rw [same, le_div_iff₀ (zpow_pos ten _), ← textLimit_eq]
    exact outside
  have high : units < 1797693134862316 := by
    have whole (tens twos : ℕ) (less : 2 ^ twos ≤ 1797693134862316 * 10 ^ tens) :
        (2 : ℚ) ^ (twos : ℤ) ≤ 1797693134862316 * 10 ^ (tens : ℤ) := by
      rw [zpow_natCast, zpow_natCast]
      exact_mod_cast less
    rw [same, div_lt_iff₀ (zpow_pos ten _)]
    exact (value_lt double most).trans_le (whole 293 1024 (by decide +kernel))
  rw [← same] at nearest
  have least : 1797693134862315 < n := nearest.lt_of_le (by decide) (by push_cast; linarith)
  have bound : n ≤ 1797693134862316 := nearest.le_of_lt (by push_cast; linarith)
  obtain rfl : n = 1797693134862316 := by omega
  exact digits.trans (if_neg (by decide))

/-- The largest number with sixteen digits below the limit is in the range of doubles. -/
theorem sixteen_lt : (1797693134862315 : ℚ) * 10 ^ (293 : ℤ) < (2 ^ 53 - 1 / 2) * 2 ^ (971 : ℤ) := by
  have whole (tens twos : ℕ) (less : 2 * (1797693134862315 * 10 ^ tens) < (2 ^ 54 - 1) * 2 ^ twos) :
      (1797693134862315 : ℚ) * 10 ^ (tens : ℤ) < (2 ^ 53 - 1 / 2) * 2 ^ (twos : ℤ) := by
    rw [← Nat.cast_lt (α := ℚ)] at less
    push_cast at less
    rw [zpow_natCast, zpow_natCast]
    linarith
  exact whole 293 971 (by decide +kernel)

/-- Sixteen digits of a double below the limit are in the range of doubles. -/
theorem significant_inside (double : x.Canonical) (most : x.exponent ≤ 971)
    (inside : x.value < textLimit) :
    (x.significant 16).value < (2 ^ 53 - 1 / 2) * 2 ^ (971 : ℤ) := by
  obtain ⟨n, nearest, number⟩ := exists_value_significant double.positive (show 0 < 16 by decide)
  have ten : (0 : ℚ) < 10 := by norm_num
  have unit : (0 : ℚ) < 10 ^ (x.scale - (16 : ℕ)) := zpow_pos ten _
  have high := (scale_bounds double most).2
  have bound := scale_le double most
  rw [number]
  refine lt_of_le_of_lt ?_ sixteen_lt
  -- only with the most digits in front of the point does the limit matter
  rcases bound.lt_or_eq with less | last
  · have scaled : x.value / 10 ^ (x.scale - (16 : ℕ)) < 10 ^ 16 := by
      rw [div_lt_iff₀ unit, ← zpow_natCast, ← zpow_add₀ ten.ne', add_sub_cancel]
      exact high
    have few : (n : ℚ) ≤ 10 ^ 16 := by
      exact_mod_cast nearest.le_of_lt (m := 10 ^ 16) (by push_cast; linarith)
    calc (n : ℚ) * 10 ^ (x.scale - (16 : ℕ)) ≤ 10 ^ 16 * 10 ^ (292 : ℤ) := by
          gcongr
          · norm_num
          · push_cast
            omega
      _ = 10 ^ 15 * 10 ^ (293 : ℤ) := by
          rw [show (293 : ℤ) = 1 + 292 from rfl, zpow_one_add₀ ten.ne', ← mul_assoc]
          norm_num
      _ ≤ 1797693134862315 * 10 ^ (293 : ℤ) := by
          gcongr
          norm_num
  · have place : x.scale - (16 : ℕ) = 293 := by
      rw [last]
      rfl
    have scaled : x.value / 10 ^ (x.scale - (16 : ℕ)) < 3595386269724631 / 2 := by
      rw [div_lt_iff₀ unit, place, ← textLimit_eq]
      exact inside
    have few : (n : ℚ) ≤ 1797693134862315 := by
      exact_mod_cast nearest.le_of_lt (m := 1797693134862315) (by push_cast; linarith)
    rw [place]
    exact mul_le_mul_of_nonneg_right few (zpow_pos ten _).le

end Magnitude

namespace Double

variable {x : Float}

/-- A finite double below the limit is read close to itself from its text with sixteen digits. -/
theorem exists_close_sixteenDigits (finite : x.isFinite = true)
    (inside : (Magnitude.ofFloat x).value < textLimit) :
    ∃ y, readFloat? (sixteenDigits x).toList = some y ∧ Close y x := by
  refine ⟨_, readFloat?_sixteenDigits finite, ?_⟩
  rcases Nat.eq_zero_or_pos (Magnitude.ofFloat x).mantissa with empty | filled
  · have zero : nearestFloat (Magnitude.ofFloat x).sixteen = 0 := by
      have none : (Magnitude.ofFloat x).isZero = true := decide_eq_true empty
      refine if_pos ?_
      unfold Magnitude.sixteen Magnitude.significant
      rw [if_pos none]
      exact Nat.zero_mul _
    have parts : ∀ negative : Bool, (if negative then -0 else 0 : Float).isFinite = true ∧
        isNegative (if negative then -0 else 0) = negative ∧
        (Magnitude.ofFloat (if negative then -0 else 0)).mantissa = 0 := by
      decide +kernel
    obtain ⟨number, sign, none⟩ := parts (isNegative x)
    rw [zero]
    refine ⟨number, sign, ?_⟩
    unfold Magnitude.value
    rw [none, empty]
    norm_num
  · have double := canonical_ofFloat filled
    have most := exponent_le finite
    obtain ⟨low, high⟩ := abs_le.mp (Magnitude.error_sixteen double most)
    have value := Magnitude.value_sixteen filled
    have above := Magnitude.least_le_value double
    -- the text is not so small that it would be read as zero
    have small : (2 : ℚ) ^ (-1075 : ℤ) < (Magnitude.ofFloat x).sixteen.value := by
      have half : (2 : ℚ) ^ (-1074 : ℤ) = 2 * 2 ^ (-1075 : ℤ) := zpow_one_add₀ two_ne_zero (-1075)
      have some : (0 : ℚ) < 2 ^ (-1075 : ℤ) := zpow_pos two_pos _
      rw [value]
      linarith only [low, above, half, some]
    obtain ⟨y, canonical, bound, covers⟩ := exists_covers small
      (value.trans_lt (Magnitude.significant_inside double most inside))
    obtain ⟨number, sign, same⟩ := parts_of_signed canonical bound
      (nearestFloat_eq canonical bound covers) rfl
    refine ⟨number, sign, ?_⟩
    rw [same]
    -- both the text and what is read from it are rounded, so the errors add up
    have error := error_of_covers canonical covers
    have least : (2 : ℚ) ^ (-1075 : ℤ) ≤ 1 / 2 ^ 150 := by
      rw [one_div, ← zpow_natCast, ← zpow_neg]
      exact zpow_le_zpow_right₀ one_le_two (by decide)
    rw [value] at error
    obtain ⟨under, beyond⟩ := abs_le.mp error
    exact abs_le.mpr ⟨by linarith only [low, high, under, least, above],
      by linarith only [low, high, beyond, least, above]⟩

/-- A finite double from the limit on is read as an infinity from its text with sixteen digits. -/
theorem readFloat?_sixteenDigits_of_limit (finite : x.isFinite = true)
    (outside : textLimit ≤ (Magnitude.ofFloat x).value) :
    ∃ y, readFloat? (sixteenDigits x).toList = some y ∧ y.isFinite = false := by
  refine ⟨_, readFloat?_sixteenDigits finite, ?_⟩
  have sixteen : (Magnitude.ofFloat x).sixteen = ⟨1797693134862316, 293⟩ := by
    have filled : 0 < (Magnitude.ofFloat x).mantissa := by
      refine Nat.pos_of_ne_zero fun empty => absurd outside ?_
      unfold Magnitude.value textLimit
      rw [empty, Nat.cast_zero, zero_mul]
      exact not_le.mpr (by positivity)
    have rounded := Magnitude.significant_of_limit (canonical_ofFloat filled) (exponent_le finite)
      outside
    have some : (Magnitude.ofFloat x).isZero = false := decide_eq_false filled.ne'
    unfold Magnitude.sixteen
    rw [rounded, some]
    decide
  have infinite : ∀ negative : Bool, (if negative then -nearestFloat ⟨1797693134862316, 293⟩
      else nearestFloat ⟨1797693134862316, 293⟩).isFinite = false := by
    decide +kernel
  rw [sixteen]
  exact infinite _

end Double

end Micromag
