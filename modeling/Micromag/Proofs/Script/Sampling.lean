import Micromag.Proofs.Exact
import Micromag.Script.Procedure

/-!
# Tabulated profiles

A profile is tabulated at equal steps and at the end of an interval, which need not be a whole
number of steps behind its beginning. A value is then looked up at the nearest place. So every value
is found at its own time, but perhaps not the last one: when the interval ends less than half a step
behind a step, the value of this step is found at its end.
-/

namespace Micromag.Sampling

variable {β : Type} {step total : ℝ}

/-- The value that is found in a table at a time. -/
def lookUp? {α : Type} [Scalar α] (step : α) (samples : List β) (time : α) : Option β :=
  samples[placeOf step (samples.length - 1) time]?

/-- Whether an interval ends behind a step and nearer to it than to the next one, though too far
behind it for its end to be taken for the step. -/
structure EndsBehind (step total : ℝ) : Prop where
  /-- The end is a time of its own. -/
  apart : 1e-9 < Int.fract (total / step)
  /-- It is nearest to the step before it. -/
  near : Int.fract (total / step) < 1 / 2
  /-- Its place is a count. -/
  counted : ⌊total / step⌋₊ < Scalar.maxCount

/-- A number that is not negative is its whole part and a rest. -/
theorem floor_add_fract {x : ℝ} (positive : 0 ≤ x) : (⌊x⌋₊ : ℝ) + Int.fract x = x := by
  rw [natCast_floor_eq_intCast_floor positive, Int.floor_add_fract]

/-- The number of steps is the least one that covers the interval up to a billionth of a step, or
the largest word if that is less. -/
theorem stepCount_eq_ceil :
    stepCount step total = min ⌈total / step - 1e-9⌉₊ Scalar.maxCount :=
  Scalar.toCount_ceiling _

/-- The steps that cover an interval: its whole steps, and one more for a rest that counts. -/
theorem stepCount_eq (positive : 0 ≤ total / step) :
    stepCount step total =
      min (⌊total / step⌋₊ + if 1e-9 < Int.fract (total / step) then 1 else 0)
        Scalar.maxCount := by
  have parts := floor_add_fract positive
  have rest := Int.fract_lt_one (total / step)
  have steps : ⌈total / step - 1e-9⌉₊ =
      ⌊total / step⌋₊ + if 1e-9 < Int.fract (total / step) then 1 else 0 := by
    split
    · rename_i counts
      rw [Nat.ceil_eq_iff (Nat.add_one_ne_zero _), Nat.add_sub_cancel]
      push_cast
      constructor <;> linarith
    · rename_i small
      refine le_antisymm (Nat.ceil_le.mpr ?_) ?_
      · push_cast
        linarith
      · rw [Nat.add_zero]
        cases whole : ⌊total / step⌋₊ with
        | zero => exact Nat.zero_le _
        | succ before =>
          refine Nat.succ_le_of_lt (Nat.lt_ceil.mpr ?_)
          have nonnegative := Int.fract_nonneg (total / step)
          rw [whole] at parts
          push_cast at parts
          linarith
  rw [stepCount_eq_ceil, steps]

/-- The nearest place to a time. -/
theorem placeOf_eq {last : Nat} {time : ℝ} (positive : 0 ≤ time / step) :
    placeOf step last time =
      min (min (⌊time / step⌋₊ + if Int.fract (time / step) < 1 / 2 then 0 else 1)
        Scalar.maxCount) last := by
  have parts := floor_add_fract positive
  have nearest : ⌊time / step + 1 / 2⌋₊ =
      ⌊time / step⌋₊ + if Int.fract (time / step) < 1 / 2 then 0 else 1 := by
    have nonnegative := Int.fract_nonneg (time / step)
    have rest := Int.fract_lt_one (time / step)
    rw [Nat.floor_eq_iff (by linarith)]
    split
    · push_cast
      constructor <;> linarith
    · push_cast
      constructor <;> linarith
  unfold placeOf
  show min (Scalar.toCount (Scalar.round (time / step))) last = _
  rw [Scalar.round_of_nonneg positive, Scalar.toCount_natCast, nearest]

/-- A step is looked up at its own place. -/
theorem placeOf_step (positive : 0 < step) {place last : Nat} (inside : place ≤ last)
    (counted : last ≤ Scalar.maxCount) : placeOf step last (place * step) = place := by
  have whole : place * step / step = place := mul_div_cancel_right₀ _ positive.ne'
  rw [placeOf_eq (by rw [whole]; exact Nat.cast_nonneg _), whole, Nat.floor_natCast,
    Int.fract_natCast, if_pos (by norm_num), Nat.add_zero,
    min_eq_left (inside.trans counted), min_eq_left inside]

/-- The end of an interval that is nearest to the step before it is looked up at the place of this
step, which is the last but one. -/
theorem EndsBehind.placeOf_total (behind : EndsBehind step total) (positive : 0 ≤ total / step) :
    stepCount step total = ⌊total / step⌋₊ + 1 ∧
      placeOf step (stepCount step total) total = ⌊total / step⌋₊ := by
  have count : stepCount step total = ⌊total / step⌋₊ + 1 := by
    rw [stepCount_eq positive, if_pos behind.apart, min_eq_left behind.counted]
  refine ⟨count, ?_⟩
  rw [placeOf_eq positive, if_pos behind.near, count, Nat.add_zero,
    min_eq_left behind.counted.le, min_eq_left (Nat.le_succ _)]

/-- Otherwise the end of an interval is looked up at the last place. -/
theorem placeOf_total (positive : 0 ≤ total / step) (notBehind : ¬EndsBehind step total) :
    placeOf step (stepCount step total) total = stepCount step total := by
  rw [placeOf_eq positive, stepCount_eq positive, min_eq_right_iff]
  refine le_min ?_ (min_le_right _ _)
  by_cases near : Int.fract (total / step) < 1 / 2
  · rw [if_pos near]
    by_cases apart : 1e-9 < Int.fract (total / step)
    · have large : Scalar.maxCount ≤ ⌊total / step⌋₊ :=
        not_lt.mp fun counted => notBehind ⟨apart, near, counted⟩
      exact (min_le_right _ _).trans large
    · rw [if_neg apart]
      exact min_le_left _ _
  · have apart : 1e-9 < Int.fract (total / step) := by linarith
    rw [if_neg near, if_pos apart]
    exact min_le_left _ _

/-- The times before the last are those of the steps. -/
theorem timeAt_of_lt {count place : Nat} (before : place < count) :
    timeAt step total count place = place * step := if_neg before.ne

/-- The last time is the end. -/
theorem timeAt_last (count : Nat) : timeAt step total count count = total := if_pos rfl

/-- The times are those of the steps, and the end behind them. -/
theorem times?_eq (positive : 0 < step) :
    times? step total = some ((List.range (stepCount step total + 1)).map
      (timeAt step total (stepCount step total))) := by
  have usable : isStep step = true := by
    show (true && decide ((0.0 : ℝ) < step)) = true
    rw [Bool.true_and, decide_eq_true_iff]
    norm_num
    exact positive
  unfold times?
  rw [if_pos usable]

section

variable {times : List ℝ} (found : times? step total = some times) (positive : 0 < step)

include found positive

/-- There is one time more than there are steps. -/
theorem length_times : times.length = stepCount step total + 1 := by
  rw [times?_eq positive] at found
  rw [← Option.some.inj found, List.length_map, List.length_range]

/-- The time at a place. -/
theorem getElem?_times {place : Nat} (inside : place ≤ stepCount step total) :
    times[place]? = some (timeAt step total (stepCount step total) place) := by
  rw [times?_eq positive] at found
  rw [← Option.some.inj found, List.getElem?_map, List.getElem?_range (Nat.lt_succ_of_le inside)]
  rfl

/-- What is found at a time is the value at the time of its place. -/
theorem lookUp?_times (profile : ℝ → β) (time : ℝ) :
    lookUp? step (times.map profile) time =
      some (profile (timeAt step total (stepCount step total)
        (placeOf step (stepCount step total) time))) := by
  have inside : placeOf step (stepCount step total) time ≤ stepCount step total :=
    min_le_right _ _
  unfold lookUp?
  rw [List.length_map, length_times found positive, Nat.add_sub_cancel, List.getElem?_map,
    getElem?_times found positive inside]
  rfl

/-- The end is the last time. -/
theorem getElem?_end : times[stepCount step total]? = some total := by
  rw [getElem?_times found positive le_rfl, timeAt_last]

/-- The value of a step is found at its time. -/
theorem lookUp?_step (covered : 0 ≤ total / step) (profile : ℝ → β) {place : Nat}
    (before : place < stepCount step total) :
    lookUp? step (times.map profile) (place * step) = some (profile (place * step)) := by
  have counted : stepCount step total ≤ Scalar.maxCount := by
    rw [stepCount_eq covered]
    exact min_le_right _ _
  rw [lookUp?_times found positive, placeOf_step positive before.le counted, timeAt_of_lt before]

/-- The value of the end is found at it, unless the end is nearest to the step before it. -/
theorem lookUp?_end (covered : 0 ≤ total / step) (profile : ℝ → β)
    (notBehind : ¬EndsBehind step total) :
    lookUp? step (times.map profile) total = some (profile total) := by
  rw [lookUp?_times found positive, placeOf_total covered notBehind, timeAt_last]

/-- At an end that is nearest to the step before it the value of this step is found. -/
theorem EndsBehind.lookUp?_end (behind : EndsBehind step total) (covered : 0 ≤ total / step)
    (profile : ℝ → β) :
    lookUp? step (times.map profile) total = some (profile (⌊total / step⌋₊ * step)) := by
  obtain ⟨steps, place⟩ := behind.placeOf_total covered
  rw [lookUp?_times found positive, place, timeAt_of_lt (by omega)]

/-- The value of a place is found at its time, unless it is the last one and the end is nearest to
the step before it, whose value is found instead. -/
theorem lookUp?_eq_iff (covered : 0 ≤ total / step) (profile : ℝ → β) {place : Nat} {time : ℝ}
    (here : times[place]? = some time) :
    lookUp? step (times.map profile) time = (times.map profile)[place]? ↔
      (place + 1 = times.length → EndsBehind step total →
        profile (⌊total / step⌋₊ * step) = profile total) := by
  have count := length_times found positive
  have inside : place ≤ stepCount step total := by
    have bound := (List.getElem?_eq_some_iff.mp here).1
    omega
  rw [List.getElem?_map, here, Option.map_some, count, Nat.add_right_cancel_iff]
  rcases inside.lt_or_eq with before | rfl
  · have same : time = place * step := by
      rw [getElem?_times found positive inside, timeAt_of_lt before] at here
      exact (Option.some.inj here).symm
    rw [same, lookUp?_step found positive covered profile before]
    exact ⟨fun _ last => absurd last before.ne, fun _ => rfl⟩
  · obtain rfl : total = time :=
      Option.some.inj ((getElem?_end found positive).symm.trans here)
    by_cases behind : EndsBehind step total
    · rw [behind.lookUp?_end found positive covered, Option.some.injEq]
      exact ⟨fun same _ _ => same, fun same => same rfl behind⟩
    · rw [lookUp?_end found positive covered profile behind]
      exact ⟨fun _ _ no => absurd no behind, fun _ => rfl⟩

end

/-- An end that is nearest to the step before it is not the step. -/
theorem EndsBehind.ne (behind : EndsBehind step total) (positive : 0 < step) :
    ⌊total / step⌋₊ * step ≠ total := by
  intro same
  have whole : total / step = ⌊total / step⌋₊ := by
    rw [div_eq_iff positive.ne']
    exact same.symm
  have apart := behind.apart
  rw [whole, Int.fract_natCast] at apart
  norm_num at apart

/-- Every value of a table is found at its own time, except that at the end of an interval that is
nearest to the step before it the value of this step is found. So the table gives back all its
values, whatever the profile, exactly when the end is not nearest to the step before it. -/
theorem tabulated_found_iff (positive : 0 < step) (long : 0 < total) :
    ∃ times, times? step total = some times ∧ times.getLast? = some total ∧
      (∀ (profile : ℝ → ℝ) (place : Nat) (time : ℝ), times[place]? = some time →
        (lookUp? step (times.map profile) time = (times.map profile)[place]? ↔
          (place + 1 = times.length → EndsBehind step total →
            profile (⌊total / step⌋₊ * step) = profile total))) ∧
      ((∀ (profile : ℝ → ℝ) (place : Nat) (time : ℝ), times[place]? = some time →
        lookUp? step (times.map profile) time = (times.map profile)[place]?) ↔
          ¬EndsBehind step total) := by
  have covered : 0 ≤ total / step := (div_pos long positive).le
  have found : times? step total = _ := times?_eq positive
  generalize (List.range _).map _ = times at found
  have count := length_times found positive
  have ending := getElem?_end found positive
  have back (profile : ℝ → ℝ) (place : Nat) (time : ℝ) (here : times[place]? = some time) :=
    lookUp?_eq_iff found positive covered profile here
  refine ⟨times, found, ?_, back, fun all behind => ?_, fun notBehind profile place time here =>
    (back profile place time here).mpr fun _ behind => absurd behind notBehind⟩
  · rw [List.getLast?_eq_getElem?, count, Nat.add_sub_cancel, ending]
  · exact behind.ne positive ((back id _ _ ending).mp (all id _ _ ending) count.symm behind)

/-- An interval of two steps and a quarter ends behind the second step, whose value is found at its
end. -/
theorem tabulated_found_quarter :
    (0 : ℝ) < 1 ∧ (0 : ℝ) < 9 / 4 ∧ EndsBehind 1 (9 / 4) ∧
      ∃ times, times? (1 : ℝ) (9 / 4) = some times ∧
        ¬∀ (profile : ℝ → ℝ) (place : Nat) (time : ℝ), times[place]? = some time →
          lookUp? 1 (times.map profile) time = (times.map profile)[place]? := by
  have behind : EndsBehind 1 (9 / 4) := by
    have whole : ⌊(9 : ℝ) / 4 / 1⌋₊ = 2 := by
      rw [Nat.floor_eq_iff (by norm_num)]
      norm_num
    have rest : Int.fract ((9 : ℝ) / 4 / 1) = 1 / 4 := by
      have parts := floor_add_fract (x := 9 / 4 / 1) (by norm_num)
      rw [whole] at parts
      push_cast at parts
      linarith
    refine ⟨?_, ?_, ?_⟩
    · rw [rest]
      norm_num
    · rw [rest]
      norm_num
    · rw [whole]
      decide
  have positive : (0 : ℝ) < 1 := one_pos
  have long : (0 : ℝ) < 9 / 4 := by norm_num
  obtain ⟨times, found, _, _, all⟩ := tabulated_found_iff positive long
  exact ⟨positive, long, behind, times, found, fun back => all.mp back behind⟩

end Micromag.Sampling
