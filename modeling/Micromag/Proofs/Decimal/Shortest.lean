import Micromag.Proofs.Double.Rounding

/-!
# The shortest decimal is covered

Decimals and magnitudes are compared as the exact numbers that they stand for. The shortest decimal
of a magnitude other than zero lies between the midpoints beside it, since every candidate of the
search does, and so does the magnitude written out in full.
-/

namespace Micromag

/-- The number that a decimal stands for. -/
def Decimal.value (d : Decimal) : ℚ := d.digits * 10 ^ d.exponent

/-- The number that a magnitude stands for. -/
def Magnitude.value (x : Magnitude) : ℚ := x.mantissa * 2 ^ x.exponent

/-- A power is a quotient of whole powers. -/
theorem zpow_parts {K : Type*} [Field K] {base : K} (nonzero : base ≠ 0) (exponent : ℤ) :
    base ^ exponent * base ^ (-exponent).toNat = base ^ exponent.toNat := by
  have parts : exponent + (-exponent).toNat = exponent.toNat := by omega
  rw [← zpow_natCast, ← zpow_natCast, ← zpow_add₀ nonzero, parts]

variable {a n : ℕ} {i j : ℤ}

/-- Both sides of a comparison are scaled to whole numbers by the same factor. -/
theorem compareScaled_sides (a n : ℕ) (i j : ℤ) :
    ∃ factor : ℚ, 0 < factor ∧
      ((a * 10 ^ i.toNat * 2 ^ (-j).toNat : ℕ) : ℚ) = a * 10 ^ i * factor ∧
      ((n * 2 ^ j.toNat * 10 ^ (-i).toNat : ℕ) : ℚ) = n * 2 ^ j * factor := by
  have ten : (10 : ℚ) ≠ 0 := by norm_num
  refine ⟨10 ^ (-i).toNat * 2 ^ (-j).toNat, by positivity, ?_, ?_⟩
  · push_cast
    rw [← zpow_parts ten i]
    ring
  · push_cast
    rw [← zpow_parts two_ne_zero j]
    ring

/-- A scaled decimal is below a scaled magnitude if its exact number is. -/
theorem compareScaled_lt : compareScaled a i n j = .lt ↔ (a : ℚ) * 10 ^ i < n * 2 ^ j := by
  obtain ⟨factor, positive, left, right⟩ := compareScaled_sides a n i j
  unfold compareScaled
  rw [Nat.compare_eq_lt, ← Nat.cast_lt (α := ℚ), left, right, mul_lt_mul_iff_left₀ positive]

/-- A scaled decimal is a scaled magnitude if the exact numbers are the same. -/
theorem compareScaled_eq : compareScaled a i n j = .eq ↔ (a : ℚ) * 10 ^ i = n * 2 ^ j := by
  obtain ⟨factor, positive, left, right⟩ := compareScaled_sides a n i j
  unfold compareScaled
  rw [Nat.compare_eq_eq, ← Nat.cast_inj (R := ℚ), left, right, mul_left_inj' positive.ne']

/-- A scaled decimal is above a scaled magnitude if its exact number is. -/
theorem compareScaled_gt : compareScaled a i n j = .gt ↔ (n : ℚ) * 2 ^ j < a * 10 ^ i := by
  obtain ⟨factor, positive, left, right⟩ := compareScaled_sides a n i j
  unfold compareScaled
  rw [Nat.compare_eq_gt, ← Nat.cast_lt (α := ℚ), left, right, mul_lt_mul_iff_left₀ positive]

variable {x : Magnitude} {d : Decimal}

/-- The check on candidates is whether the magnitude covers the exact decimal. -/
theorem Magnitude.readsBack_iff : x.readsBack d = true ↔ x.Covers d.value := by
  unfold Magnitude.readsBack
  dsimp only
  rw [Bool.and_eq_true, Bool.or_eq_true, Bool.or_eq_true, Bool.and_eq_true, Bool.and_eq_true]
  simp only [decide_eq_true_eq, compareScaled_lt, compareScaled_eq, compareScaled_gt]
  constructor
  · rintro ⟨low, high⟩
    refine ⟨?_, fun same => ?_, ?_, fun same => ?_⟩
    · rcases low with above | ⟨-, same⟩
      · exact above.le
      · exact same.ge
    · rcases low with above | ⟨even, -⟩
      · exact absurd same above.ne'
      · exact even
    · rcases high with below | ⟨-, same⟩
      · exact below.le
      · exact same.le
    · rcases high with below | ⟨even, -⟩
      · exact absurd same below.ne
      · exact even
  · intro covers
    constructor
    · rcases covers.above.lt_or_eq with above | same
      · exact .inl above
      · exact .inr ⟨covers.evenAbove same.symm, same.symm⟩
    · rcases covers.below.lt_or_eq with below | same
      · exact .inl below
      · exact .inr ⟨covers.evenBelow same, same⟩

/-- A candidate on a grid is covered. -/
theorem Magnitude.covers_of_onGrid? {tie : Tie} {step : ℤ} (found : x.onGrid? tie step = some d) :
    x.Covers d.value := by
  rw [← Magnitude.readsBack_iff]
  unfold Magnitude.onGrid? at found
  dsimp only at found
  split at found
  · cases found
  · rename_i below above
    exact Option.some.inj found ▸ below
  · rename_i below above
    exact Option.some.inj found ▸ above
  · rename_i below above
    split at found
    · exact Option.some.inj found ▸ above
    · exact Option.some.inj found ▸ below
    · split at found
      · exact Option.some.inj found ▸ above
      · split at found
        · exact Option.some.inj found ▸ below
        · exact Option.some.inj found ▸ above

/-- A magnitude other than zero covers its own number. -/
theorem Magnitude.covers_value (positive : 0 < x.mantissa) : x.Covers x.value := by
  have unit : (0 : ℚ) < 2 ^ x.exponent := zpow_pos two_pos _
  have lower : (x.lowerMidpoint : ℚ) < 4 * x.mantissa := by
    rw [Double.lowerMidpoint_eq positive]
    split <;> linarith
  have upper : (4 * x.mantissa : ℚ) < x.upperMidpoint := by
    rw [Double.upperMidpoint_eq]
    linarith
  have above : x.lowerMidpoint * 2 ^ (x.exponent - 2) < x.value := by
    rw [Double.quarter_units]
    unfold Magnitude.value
    nlinarith
  have below : x.value < x.upperMidpoint * 2 ^ (x.exponent - 2) := by
    rw [Double.quarter_units]
    unfold Magnitude.value
    nlinarith
  exact ⟨above.le, fun same => absurd same above.ne', below.le, fun same => absurd same below.ne⟩

/-- The magnitude that is written out in full is the same number. -/
theorem Magnitude.value_exact : x.exact.value = x.value := by
  unfold Magnitude.exact Decimal.value Magnitude.value
  dsimp only
  push_cast
  rcases le_total 0 x.exponent with whole | fraction
  · obtain ⟨places, same⟩ := Int.eq_ofNat_of_zero_le whole
    rw [same, min_eq_right (Int.natCast_nonneg _), Int.toNat_natCast,
      Int.toNat_of_nonpos (by omega), zpow_natCast, pow_zero, zpow_zero, mul_one, mul_one]
  · obtain ⟨places, same⟩ := Int.eq_ofNat_of_zero_le (Int.neg_nonneg.mpr fraction)
    have same : x.exponent = -places := by omega
    have ten : (10 : ℚ) ^ places = 5 ^ places * 2 ^ places := by
      rw [← mul_pow]
      norm_num
    rw [same, min_eq_left (by omega), neg_neg, Int.toNat_natCast, Int.toNat_of_nonpos (by omega),
      zpow_neg, zpow_neg, zpow_natCast, zpow_natCast, ten, pow_zero, mul_one, mul_inv]
    field_simp

/-- Moving zeros into the exponent keeps the number. -/
theorem Decimal.value_stripZeros (fuel : ℕ) : (d.stripZeros fuel).value = d.value := by
  induction fuel generalizing d with
  | zero => rfl
  | succ fuel ih =>
    unfold Decimal.stripZeros
    split
    · rename_i trailing
      have trailing : d.digits ≠ 0 ∧ d.digits % 10 = 0 := by simpa using trailing
      have whole : d.digits = d.digits / 10 * 10 := by omega
      have ten : (10 : ℚ) ≠ 0 := by norm_num
      rw [ih]
      unfold Decimal.value
      dsimp only
      rw [zpow_add₀ ten, zpow_one]
      nth_rewrite 2 [whole]
      push_cast
      ring
    · rfl

/-- A magnitude other than zero covers its shortest decimal. -/
theorem Magnitude.covers_shortest (positive : 0 < x.mantissa) (tie : Tie) :
    x.Covers (x.shortest tie).value := by
  have filled : ¬x.isZero = true := by
    unfold Magnitude.isZero
    simpa using positive.ne'
  unfold Magnitude.shortest
  rw [if_neg filled]
  dsimp only
  rw [Decimal.value_stripZeros]
  cases found : (List.range 17).findSome? fun n => x.onGrid? tie (x.scale - (n + 1 : ℕ)) with
  | none =>
    show x.Covers x.exact.value
    rw [Magnitude.value_exact]
    exact x.covers_value positive
  | some d =>
    obtain ⟨n, -, found⟩ := List.exists_of_findSome?_eq_some found
    exact Magnitude.covers_of_onGrid? found

end Micromag
