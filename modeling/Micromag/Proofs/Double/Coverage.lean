import Micromag.Proofs.Double.Whole

/-!
# Every number in the range of doubles has its double

A quotient that is rounded with a half going to the even neighbour is the nearest whole number. A
number between half of the least double and half a unit above the greatest one is therefore covered by
a magnitude: its number of units is rounded, and a mantissa that is rounded up to 54 digits is the
least one of the next exponent.
-/

namespace Micromag.Double

open Float.Model (Format)
open Float.Model.UnpackedFloat

/-! ## Nearest whole numbers -/

/-- A quotient is rounded to the nearest whole number. -/
theorem nearest_roundEven (a : ℕ) {b : ℕ} (filled : 0 < b) : Nearest (a / b) (roundEven a b) := by
  have unit : (0 : ℚ) < b := by exact_mod_cast filled
  obtain ⟨rest, same⟩ : ∃ rest : ℚ, rest = (a % b : ℕ) / b := ⟨_, rfl⟩
  have parts : (a : ℚ) / b = (a / b : ℕ) + rest := by
    have whole : (b : ℚ) * (a / b : ℕ) + (a % b : ℕ) = a := by exact_mod_cast Nat.div_add_mod a b
    rw [same]
    field_simp
    linear_combination -whole
  have low : 0 ≤ rest := same ▸ by positivity
  have high : rest < 1 := by
    rw [same, div_lt_one unit]
    exact_mod_cast Nat.mod_lt a filled
  have most : rest ≤ 1 / 2 ↔ 2 * (a % b) ≤ b := by
    rw [same, div_le_div_iff₀ unit two_pos, one_mul, ← Nat.cast_le (α := ℚ), mul_comm]
    push_cast
    rfl
  have least : 1 / 2 ≤ rest ↔ b ≤ 2 * (a % b) := by
    rw [same, div_le_div_iff₀ two_pos unit, one_mul, ← Nat.cast_le (α := ℚ), mul_comm]
    push_cast
    rfl
  rw [parts]
  unfold roundEven
  dsimp only
  -- up if more than half is left, or half above an odd number
  split
  · rename_i up
    rw [Bool.or_eq_true, Bool.and_eq_true, decide_eq_true_eq, decide_eq_true_eq, decide_eq_true_eq]
      at up
    have above := least.mpr (by omega)
    have gap : |((a / b : ℕ) : ℚ) + rest - ((a / b + 1 : ℕ) : ℚ)| = 1 - rest := by
      push_cast
      rw [abs_of_neg (by linarith)]
      ring
    refine ⟨by rw [gap]; linarith, fun half => ?_⟩
    have tie := most.mp (by linarith)
    omega
  · rename_i down
    rw [Bool.or_eq_true, Bool.and_eq_true, decide_eq_true_eq, decide_eq_true_eq, decide_eq_true_eq]
      at down
    have below := most.mpr (by omega)
    have gap : |((a / b : ℕ) : ℚ) + rest - (a / b : ℕ)| = rest := by
      rw [add_sub_cancel_left, abs_of_nonneg low]
    refine ⟨gap.trans_le below, fun half => ?_⟩
    have tie := least.mp (by linarith)
    omega

/-- Every number of units has a nearest whole number. -/
theorem exists_nearest {units : ℚ} (positive : 0 ≤ units) : ∃ n, Nearest units n := by
  have nearest := nearest_roundEven units.num.toNat units.den_pos
  have whole : ((units.num.toNat : ℕ) : ℚ) = units.num := by
    exact_mod_cast Int.toNat_of_nonneg (Rat.num_nonneg.mpr positive)
  rw [whole, Rat.num_div_den] at nearest
  exact ⟨_, nearest⟩

/-- A quotient is rounded by what is left of it. -/
theorem roundEven_eq (a b : ℕ) : roundEven a b =
    match compare (2 * (a % b)) b with
    | .lt => a / b
    | .gt => a / b + 1
    | .eq => if a / b % 2 = 0 then a / b else a / b + 1 := by
  unfold roundEven
  dsimp only
  rcases order : compare (2 * (a % b)) b with _ | _ | _
  · have less := Nat.compare_eq_lt.mp order
    exact if_neg (by simp; omega)
  · have same := Nat.compare_eq_eq.mp order
    rcases Nat.mod_two_eq_zero_or_one (a / b) with even | odd
    · rw [if_neg (by simp; omega)]
      exact (if_pos even).symm
    · rw [if_pos (by simp; omega)]
      exact (if_neg (by omega)).symm
  · have more := Nat.compare_eq_gt.mp order
    exact if_pos (by simp; omega)

/-- Below the midpoint behind a whole number no greater one is nearest. -/
theorem Nearest.le_of_lt {x : ℚ} {n m : ℕ} (nearest : Nearest x n) (below : x < m + 1 / 2) :
    n ≤ m := by
  obtain ⟨low, -⟩ := abs_le.mp nearest.near
  have bound : (n : ℚ) < m + 1 := by linarith
  exact Nat.lt_succ_iff.mp (by exact_mod_cast bound)

/-- From the midpoint behind an odd number on a greater one is nearest. -/
theorem Nearest.lt_of_le {x : ℚ} {n m : ℕ} (nearest : Nearest x n) (odd : m % 2 = 1)
    (above : m + 1 / 2 ≤ x) : m < n := by
  obtain ⟨-, high⟩ := abs_le.mp nearest.near
  have least : (m : ℚ) ≤ n := by linarith
  refine lt_of_le_of_ne (by exact_mod_cast least) ?_
  rintro rfl
  have half : |x - m| = 1 / 2 := le_antisymm nearest.near (le_abs.mpr (.inl (by linarith)))
  have even := nearest.even half
  omega

/-- A number differs from its nearest number of units by half a unit. -/
theorem error_of_nearest {number unit : ℚ} {n : ℕ} (positive : 0 < unit)
    (nearest : Nearest (number / unit) n) : |n * unit - number| ≤ unit / 2 := by
  have apart : n * unit - number = -(number / unit - n) * unit := by
    field_simp
    ring
  rw [apart, abs_mul, abs_neg, abs_of_pos positive]
  calc _ ≤ 1 / 2 * unit := mul_le_mul_of_nonneg_right nearest.near positive.le
    _ = unit / 2 := by ring

/-! ## Covering -/

variable {x : Magnitude} {number units : ℚ}

/-- A magnitude whose mantissa is the nearest number of units covers the number, if this is not far
below a narrow gap. -/
theorem covers_of_nearest (double : x.Canonical) (nearest : Nearest units x.mantissa)
    (close : x.narrowBelow = true → (x.mantissa : ℚ) - 1 / 4 ≤ units) :
    x.Covers (units * 2 ^ x.exponent) := by
  have unit : (0 : ℚ) < 2 ^ x.exponent := zpow_pos two_pos _
  obtain ⟨low, high⟩ := abs_le.mp nearest.near
  have quarters {midpoint : ℚ} : midpoint * 2 ^ (x.exponent - 2) = midpoint / 4 * 2 ^ x.exponent := by
    rw [quarter_units]
    ring
  have lower : (x.lowerMidpoint : ℚ) / 4 = x.mantissa - if x.narrowBelow then 1 / 4 else 1 / 2 := by
    rw [lowerMidpoint_eq double.positive]
    split <;> ring
  have upper : (x.upperMidpoint : ℚ) / 4 = x.mantissa + 1 / 2 := by
    rw [upperMidpoint_eq]
    ring
  refine ⟨?_, fun same => ?_, ?_, fun same => ?_⟩
  · rw [quarters, lower]
    refine mul_le_mul_of_nonneg_right ?_ unit.le
    split
    · exact close ‹_›
    · linarith
  · rw [quarters, lower, mul_left_inj' unit.ne'] at same
    split at same
    · rename_i narrow
      rw [(double.narrow.mp narrow).1]
    · exact nearest.even (by rw [same, sub_sub_cancel_left, abs_neg, abs_of_pos one_half_pos])
  · rw [quarters, upper]
    exact mul_le_mul_of_nonneg_right (by linarith) unit.le
  · rw [quarters, upper, mul_left_inj' unit.ne'] at same
    exact nearest.even (by rw [same, add_sub_cancel_left, abs_of_pos one_half_pos])

/-- A positive number has 53 binary digits in front of its last place, or fewer if this is the least
place. -/
theorem exists_place (positive : 0 < number) :
    ∃ units : ℚ, ∃ e : ℤ, units * 2 ^ e = number ∧ -1074 ≤ e ∧ units < 2 ^ 53 ∧
      (2 ^ 52 ≤ units ∨ e = -1074) := by
  obtain ⟨e, place⟩ : ∃ e, e = max (Int.log 2 number - 52) (-1074) := ⟨_, rfl⟩
  have unit : (0 : ℚ) < 2 ^ e := zpow_pos two_pos _
  have scaled (n : ℕ) : (2 : ℚ) ^ (e + n) = 2 ^ n * 2 ^ e := by
    rw [zpow_add₀ two_ne_zero, zpow_natCast, mul_comm]
  have same : number / 2 ^ e * 2 ^ e = number := div_mul_cancel₀ _ unit.ne'
  have above : (2 : ℚ) ^ Int.log 2 number ≤ number := by
    exact_mod_cast Int.zpow_log_le_self one_lt_two positive
  have below : number < (2 : ℚ) ^ (Int.log 2 number + 1) := by
    exact_mod_cast Int.lt_zpow_succ_log_self one_lt_two number
  refine ⟨number / 2 ^ e, e, same, place ▸ le_max_right _ _, ?_, ?_⟩
  · refine lt_of_mul_lt_mul_right (same.trans_lt (below.trans_le ?_)) unit.le
    rw [← scaled 53]
    exact zpow_le_zpow_right₀ one_le_two (by omega)
  · rcases max_choice (Int.log 2 number - 52) (-1074) with kept | least
    · refine .inl (le_of_mul_le_mul_right (le_trans ?_ (above.trans_eq same.symm)) unit)
      rw [← scaled 52]
      exact zpow_le_zpow_right₀ one_le_two (by omega)
    · exact .inr (place.trans least)

/-- A nearest number of units that has at most 53 digits is the mantissa of a magnitude. -/
theorem exists_covers_short {n : ℕ} {e : ℤ} (nearest : Nearest units n) (some : 0 < n)
    (short : n < 2 ^ 53) (least : -1074 ≤ e) (full : 2 ^ 52 ≤ units ∨ e = -1074) :
    ∃ x : Magnitude, x.Canonical ∧ x.exponent = e ∧ x.Covers (units * 2 ^ e) := by
  obtain ⟨-, beyond⟩ := abs_le.mp nearest.near
  have leading : 2 ^ 52 ≤ n ∨ e = -1074 := by
    refine full.imp_left fun full => Nat.lt_succ_iff.mp ?_
    have bound : (2 : ℚ) ^ 52 < n + 1 := by linarith
    exact_mod_cast bound
  have double : Magnitude.Canonical ⟨n, e, decide (n = 2 ^ 52 ∧ -1074 < e)⟩ :=
    ⟨some, short, least, leading, decide_eq_true_iff⟩
  refine ⟨_, double, rfl, covers_of_nearest double nearest fun narrow => ?_⟩
  obtain ⟨power, inside⟩ := of_decide_eq_true narrow
  have whole := full.resolve_right (by omega)
  show (n : ℚ) - 1 / 4 ≤ units
  rw [power]
  push_cast
  linarith

/-- A number of units that is rounded up to 54 digits is covered by the least mantissa of the next
exponent. -/
theorem exists_covers_carried {e : ℤ} (low : 2 ^ 53 - 1 / 2 ≤ units) (short : units < 2 ^ 53)
    (least : -1074 ≤ e) :
    ∃ x : Magnitude, x.Canonical ∧ x.exponent = e + 1 ∧ x.Covers (units * 2 ^ e) := by
  have double : Magnitude.Canonical ⟨2 ^ 52, e + 1, true⟩ :=
    ⟨Nat.two_pow_pos 52, Nat.pow_lt_pow_right one_lt_two (by decide), (by omega : -1074 ≤ e + 1),
      .inl le_rfl, iff_of_true rfl ⟨rfl, (by omega : -1074 < e + 1)⟩⟩
  have halved : units * 2 ^ e = units / 2 * 2 ^ (e + 1) := by
    rw [zpow_add_one₀ two_ne_zero]
    ring
  have power : ((2 ^ 52 : ℕ) : ℚ) = 2 ^ 52 := by norm_num
  refine ⟨_, double, rfl, halved ▸ covers_of_nearest double ?_ fun _ => ?_⟩
  · refine ⟨abs_le.mpr ?_, fun _ => (rfl : 2 ^ 52 % 2 = 0)⟩
    show -(1 / 2) ≤ units / 2 - (2 ^ 52 : ℕ) ∧ units / 2 - (2 ^ 52 : ℕ) ≤ 1 / 2
    rw [power]
    constructor <;> linarith
  · show ((2 ^ 52 : ℕ) : ℚ) - 1 / 4 ≤ units / 2
    rw [power]
    linarith

/-- The last place of a number in the range of doubles is at most that of the greatest one. -/
theorem place_le {e : ℤ} (full : 2 ^ 52 ≤ units ∨ e = -1074)
    (high : units * 2 ^ e < (2 ^ 53 - 1 / 2) * 2 ^ (971 : ℤ)) : e ≤ 971 := by
  by_contra more
  have full := full.resolve_right (by omega)
  have next : (2 : ℚ) * 2 ^ (971 : ℤ) ≤ 2 ^ e := by
    rw [← zpow_one_add₀ two_ne_zero]
    exact zpow_le_zpow_right₀ one_le_two (by omega)
  have some : (0 : ℚ) < 2 ^ (971 : ℤ) := zpow_pos two_pos _
  have bound := (mul_le_mul_of_nonneg_right full (zpow_pos two_pos e).le).trans_lt high
  generalize (2 : ℚ) ^ (971 : ℤ) = greatest at bound next some
  linarith only [bound, next, some]

/-- Every number in the range of doubles is covered by the magnitude of a double. -/
theorem exists_covers (low : 2 ^ (-1075 : ℤ) < number)
    (high : number < (2 ^ 53 - 1 / 2) * 2 ^ (971 : ℤ)) :
    ∃ x : Magnitude, x.Canonical ∧ x.exponent ≤ 971 ∧ x.Covers number := by
  obtain ⟨units, e, rfl, least, short, full⟩ := exists_place ((zpow_pos two_pos _).trans low)
  have unit : (0 : ℚ) < 2 ^ e := zpow_pos two_pos _
  have most := place_le full high
  have filled : 1 / 2 < units := by
    rcases full with full | rfl
    · linarith
    · refine lt_of_mul_lt_mul_right (lt_of_eq_of_lt ?_ low) unit.le
      rw [show (-1075 : ℤ) = -1 + -1074 from rfl, zpow_add₀ two_ne_zero, zpow_neg_one, one_div]
  obtain ⟨n, nearest⟩ := exists_nearest (show 0 ≤ units by linarith)
  have some : 0 < n := by
    refine Nat.pos_of_ne_zero fun none => ?_
    have near := nearest.near
    rw [none, Nat.cast_zero, sub_zero] at near
    linarith [le_abs_self units]
  have digits : n ≤ 2 ^ 53 := nearest.le_of_lt (by push_cast; linarith)
  rcases digits.lt_or_eq with less | rfl
  · obtain ⟨x, double, same, covers⟩ := exists_covers_short nearest some less least full
    exact ⟨x, double, same ▸ most, covers⟩
  · have near := (abs_le.mp nearest.near).1
    push_cast at near
    have above : 2 ^ 53 - 1 / 2 ≤ units := by linarith
    obtain ⟨x, double, same, covers⟩ := exists_covers_carried above short least
    refine ⟨x, double, ?_, covers⟩
    rw [same]
    by_contra last
    obtain rfl : e = 971 := by omega
    exact absurd (lt_of_mul_lt_mul_right high unit.le) (not_lt.mpr above)

/-! ## Doubles near to doubles -/

/-- A number is near to the magnitude that covers it. -/
theorem error_of_covers (double : x.Canonical) (covers : x.Covers number) :
    |x.value - number| ≤ number / 2 ^ 52 + 2 ^ (-1075 : ℤ) := by
  obtain ⟨low, high⟩ := near_of_covers double covers
  have unit : (0 : ℚ) < 2 ^ x.exponent := zpow_pos two_pos _
  have some : (1 : ℚ) ≤ x.mantissa := by exact_mod_cast double.positive
  have least : (0 : ℚ) < 2 ^ (-1075 : ℤ) := zpow_pos two_pos _
  have half : |x.value - number| ≤ 2 ^ x.exponent / 2 := by
    unfold Magnitude.value
    exact abs_le.mpr ⟨by linarith, by linarith⟩
  refine half.trans ?_
  rcases double.full with full | last
  · have full : (2 : ℚ) ^ 52 ≤ x.mantissa := by exact_mod_cast full
    nlinarith only [low, full, unit, least]
  · have last : (2 : ℚ) ^ x.exponent / 2 = 2 ^ (-1075 : ℤ) := by
      rw [last, show (-1075 : ℤ) = -1074 - 1 from rfl, zpow_sub_one₀ two_ne_zero, div_eq_mul_inv]
    have positive : 0 ≤ number := by nlinarith only [low, some, unit]
    rw [last]
    exact le_add_of_nonneg_left (by positivity)

variable {negative : Bool}

/-- A canonical magnitude in the range of doubles and a sign make up a finite double. -/
theorem parts_of_signed (double : x.Canonical) (most : x.exponent ≤ 971) {y z : Float}
    (packed : z = .ofModel (.pack (.finite .positive x.mantissa x.exponent double.positive)))
    (signed : y = if negative then -z else z) :
    y.isFinite = true ∧ isNegative y = negative ∧ (Magnitude.ofFloat y).value = x.value := by
  have whole (sign : Sign) :=
    unpack_pack sign double.positive double.short double.full double.least most
  have plus : z.toModel.unpack = .finite .positive x.mantissa x.exponent double.positive := by
    rw [packed]
    exact whole .positive
  have parts : y.toModel.unpack =
      .finite (if negative then .negative else .positive) x.mantissa x.exponent double.positive := by
    rw [signed]
    cases negative with
    | true =>
      show unpack Format.binary64 (pack Format.binary64 z.toModel.unpack.neg) = _
      rw [plus]
      exact whole .negative
    | false => exact plus
  obtain ⟨finite, sign, mantissa, exponent⟩ := parts_of_finite parts
  refine ⟨finite, ?_, ?_⟩
  · cases negative with
    | true => exact signOf_eq_negative_iff.mp sign
    | false => exact signOf_eq_positive_iff.mp sign
  · unfold Magnitude.value
    rw [mantissa, exponent]

/-- Whether a double has the sign of another and is so near to it as the nearest number of single
precision is, half a unit away. -/
structure Close (y x : Float) : Prop where
  /-- It is finite. -/
  finite : y.isFinite = true
  /-- It has the same sign. -/
  sign : isNegative y = isNegative x
  /-- It differs by half a unit. -/
  near : |(Magnitude.ofFloat y).value - (Magnitude.ofFloat x).value| ≤
    (Magnitude.ofFloat x).value / 2 ^ 24 + 1 / 2 ^ 150

end Micromag.Double

/-! ## Binary digits -/

/-- A magnitude lies between the power of two of its leading digit and the next one. -/
theorem Micromag.Magnitude.value_bounds {x : Magnitude} (positive : 0 < x.mantissa) :
    2 ^ (x.mantissa.log2 + x.exponent) ≤ x.value ∧
      x.value < 2 ^ (x.mantissa.log2 + x.exponent + 1) := by
  have unit : (0 : ℚ) < 2 ^ x.exponent := zpow_pos two_pos _
  have low : (2 : ℚ) ^ x.mantissa.log2 ≤ x.mantissa := by
    exact_mod_cast Nat.log2_self_le positive.ne'
  have high : (x.mantissa : ℚ) < 2 ^ (x.mantissa.log2 + 1) := by
    exact_mod_cast Nat.lt_log2_self
  have next : (x.mantissa.log2 : ℤ) + x.exponent + 1 = (x.mantissa.log2 + 1 : ℕ) + x.exponent := by
    push_cast
    ring
  rw [next, zpow_add₀ two_ne_zero, zpow_add₀ two_ne_zero, zpow_natCast, zpow_natCast]
  exact ⟨mul_le_mul_of_nonneg_right low unit.le, mul_lt_mul_of_pos_right high unit⟩
