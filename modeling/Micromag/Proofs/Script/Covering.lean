import Micromag.Proofs.Script.Sampling

/-!
# Sample times cover an interval

In exact arithmetic the times at which a profile is tabulated ascend in equal steps up to the end of
the interval, which takes the place of the last step. The steps are as few as cover the interval up
to a billionth of a step. An interval that is no longer than that needs none: then its end is the
only time, and its beginning is left out.
-/

namespace Micromag.Sampling

variable {step total : ℝ}

/-- There are steps when the interval is longer than a billionth of a step. -/
theorem stepCount_pos_iff : 0 < stepCount step total ↔ 1e-9 < total / step := by
  rw [stepCount_eq_ceil, lt_min_iff, Nat.ceil_pos, sub_pos, and_iff_left (by decide)]

section

variable (positive : 0 < step)

include positive

/-- The steps before the last are over before the end. -/
theorem step_lt_total {place : Nat} (before : place < stepCount step total) :
    place * step < total := by
  rw [stepCount_eq_ceil] at before
  have covered : (place : ℝ) < total / step - 1e-9 := Nat.lt_ceil.mp (lt_min_iff.mp before).1
  rw [← lt_div_iff₀ positive]
  linarith

/-- The times ascend. -/
theorem timeAt_lt {place later : Nat} (earlier : place < later)
    (inside : later ≤ stepCount step total) :
    timeAt step total (stepCount step total) place <
      timeAt step total (stepCount step total) later := by
  have before := earlier.trans_le inside
  rw [timeAt_of_lt before]
  rcases inside.lt_or_eq with between | rfl
  · rw [timeAt_of_lt between]
    exact mul_lt_mul_of_pos_right (Nat.cast_lt.mpr earlier) positive
  · rw [timeAt_last]
    exact step_lt_total positive before

/-- The gaps between the times exceed a step by a billionth at most when there are as many steps as
cover the interval. -/
theorem gaps_iff : (∀ place < stepCount step total,
      timeAt step total (stepCount step total) (place + 1) -
        timeAt step total (stepCount step total) place ≤ (1 + 1e-9) * step) ↔
    total / step ≤ stepCount step total + 1e-9 := by
  constructor
  · intro gaps
    cases count : stepCount step total with
    | zero =>
      have none : ¬1e-9 < total / step := fun long => by
        have some := stepCount_pos_iff.mpr long
        omega
      rw [Nat.cast_zero, zero_add]
      exact not_lt.mp none
    | succ before =>
      have last := gaps before (by omega)
      rw [count, timeAt_last, timeAt_of_lt (Nat.lt_succ_self before)] at last
      rw [div_le_iff₀ positive]
      push_cast
      linarith
  · intro covered place before
    rw [timeAt_of_lt before]
    -- all gaps but the last are steps
    have within : place + 1 ≤ stepCount step total := before
    rcases within.lt_or_eq with between | last
    · rw [timeAt_of_lt between]
      push_cast
      linarith
    · rw [div_le_iff₀ positive, ← last] at covered
      rw [last, timeAt_last]
      push_cast at covered
      linarith

end

/-- The steps cover the interval up to a billionth of a step when there are enough words to count
them. -/
theorem covered_iff :
    total / step ≤ stepCount step total + 1e-9 ↔ total / step ≤ Scalar.maxCount + 1e-9 := by
  rw [stepCount_eq_ceil]
  constructor
  · intro covered
    have most : ((min ⌈total / step - 1e-9⌉₊ Scalar.maxCount : ℕ) : ℝ) ≤ Scalar.maxCount :=
      Nat.cast_le.mpr (min_le_right _ _)
    linarith
  · intro counted
    rw [min_eq_left (Nat.ceil_le.mpr (by linarith))]
    have least := Nat.le_ceil (total / step - 1e-9)
    linarith

/-- The times at which a profile is tabulated ascend strictly and end with the end of the interval;
all others are those of the steps. They begin with the beginning of the interval exactly when this
is longer than a billionth of a step, and the gaps between them exceed a step by a billionth of it
at most exactly when there are enough words to count the steps. -/
theorem times_cover (positive : 0 < step) (long : 0 < total) :
    ∃ times, times? step total = some times ∧ times.getLast? = some total ∧
      times.Pairwise (· < ·) ∧
      (∀ place time, place + 1 < times.length → times[place]? = some time →
        time = place * step) ∧
      (times.head? = some 0 ↔ 1e-9 < total / step) ∧
      ((∀ place earlier later, times[place]? = some earlier → times[place + 1]? = some later →
        later - earlier ≤ (1 + 1e-9) * step) ↔ total / step ≤ Scalar.maxCount + 1e-9) := by
  have found : times? step total = _ := times?_eq positive
  generalize listed : (List.range _).map _ = times at found
  have count := length_times found positive
  refine ⟨times, found, ?_, ?_, fun place time before here => ?_, ?_, ?_⟩
  · rw [List.getLast?_eq_getElem?, count, Nat.add_sub_cancel, getElem?_end found positive]
  · rw [← listed, List.pairwise_map]
    refine List.pairwise_lt_range.imp_of_mem fun _ last earlier => ?_
    exact timeAt_lt positive earlier (Nat.le_of_lt_succ (List.mem_range.mp last))
  · rw [getElem?_times found positive (by omega)] at here
    rw [← Option.some.inj here, timeAt_of_lt (by omega)]
  · rw [List.head?_eq_getElem?, getElem?_times found positive (Nat.zero_le _), Option.some.injEq,
      ← stepCount_pos_iff]
    rcases Nat.eq_zero_or_pos (stepCount step total) with none | some
    · -- without steps the first time is the last, and so the end
      rw [none, timeAt_last]
      exact iff_of_false long.ne' (lt_irrefl 0)
    · rw [timeAt_of_lt some, Nat.cast_zero, zero_mul]
      exact iff_of_true rfl some
  · rw [← covered_iff, ← gaps_iff positive]
    constructor
    · intro gaps place before
      exact gaps place _ _ (getElem?_times found positive before.le)
        (getElem?_times found positive before)
    · intro gaps place earlier later here next
      have inside : place + 1 < times.length := (List.getElem?_eq_some_iff.mp next).1
      rw [getElem?_times found positive (by omega)] at here next
      rw [← Option.some.inj here, ← Option.some.inj next]
      exact gaps place (by omega)

/-- The times of an interval of half a billionth of a step leave out its beginning. -/
theorem times_cover_brief :
    (0 : ℝ) < 1 ∧ (0 : ℝ) < 5e-10 ∧
      ∃ times, times? (1 : ℝ) 5e-10 = some times ∧ times.getLast? = some 5e-10 ∧
        times.head? ≠ some 0 := by
  have positive : (0 : ℝ) < 1 := one_pos
  have long : (0 : ℝ) < 5e-10 := by norm_num
  obtain ⟨times, found, last, -, -, first, -⟩ := times_cover positive long
  refine ⟨positive, long, times, found, last, fun beginning => ?_⟩
  have apart := first.mp beginning
  norm_num at apart

end Micromag.Sampling
