import Mathlib.Algebra.Order.Floor.Ring
import Mathlib.Analysis.Real.Sqrt
import Micromag.Scalar

/-!
# Exact arithmetic

Over the real numbers nothing is rounded and nothing is infinite. A finite double stands for a real
number, and what is computed from doubles as real numbers is what they mean, without the rounding of
the computation.
-/

namespace Micromag

/-- The real numbers with exact operations. -/
noncomputable instance : Scalar ℝ where
  decideLess a b := inferInstanceAs (Decidable (a < b))
  decideAtMost a b := inferInstanceAs (Decidable (a ≤ b))
  ofNat n := n
  isFinite _ := true
  magnitude x := |x|
  least := min
  most := max
  round x := if x < 0 then -(⌊-x + 1 / 2⌋ : ℤ) else (⌊x + 1 / 2⌋ : ℤ)
  ceiling x := (⌈x⌉ : ℤ)
  toCount x := min ⌊x⌋.toNat Scalar.maxCount
  root := Real.sqrt

namespace Scalar

/-- The nearest whole number to one that is not negative. -/
theorem round_of_nonneg {x : ℝ} (positive : 0 ≤ x) : round x = (⌊x + 1 / 2⌋₊ : ℝ) := by
  show (if x < 0 then -((⌊-x + 1 / 2⌋ : ℤ) : ℝ) else ((⌊x + 1 / 2⌋ : ℤ) : ℝ)) = _
  rw [if_neg (not_lt.mpr positive), natCast_floor_eq_intCast_floor (by linarith)]

/-- A whole number as a count. -/
theorem toCount_natCast (n : ℕ) : toCount (n : ℝ) = min n maxCount := by
  show min (⌊(n : ℝ)⌋).toNat maxCount = _
  rw [Int.floor_natCast, Int.toNat_natCast]

/-- The least whole number that is not smaller, and not negative either, as a count. -/
theorem toCount_ceiling (x : ℝ) : toCount (most (ceiling x) 0.0) = min ⌈x⌉₊ maxCount := by
  have whole : most (ceiling x) 0.0 = (⌈x⌉₊ : ℝ) := by
    show max ((⌈x⌉ : ℤ) : ℝ) 0.0 = _
    rw [← Int.ceil_toNat, ← Int.cast_natCast (R := ℝ), Int.toNat_eq_max, Int.cast_max]
    norm_num
  rw [whole, toCount_natCast]

end Scalar

/-- The number that a magnitude stands for. -/
noncomputable def Magnitude.toReal (x : Magnitude) : ℝ := x.mantissa * 2 ^ x.exponent

/-- The number that a finite double stands for. -/
noncomputable def realOf (x : Float) : ℝ :=
  if isNegative x then -(Magnitude.ofFloat x).toReal else (Magnitude.ofFloat x).toReal

/-- The zero stands for zero. -/
@[simp] theorem realOf_zero : realOf 0 = 0 := by
  have parts : isNegative 0 = false ∧ (Magnitude.ofFloat 0).mantissa = 0 := by decide
  unfold realOf Magnitude.toReal
  rw [parts.1, parts.2]
  simp

/-- The one stands for one. -/
@[simp] theorem realOf_one : realOf 1 = 1 := by
  have parts : isNegative 1 = false ∧ Magnitude.ofFloat 1 = ⟨2 ^ 52, -52, true⟩ := by decide
  unfold realOf Magnitude.toReal
  rw [parts.1, parts.2]
  norm_num

end Micromag
