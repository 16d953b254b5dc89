import Micromag.Proofs.Double.Whole
import Micromag.Proofs.Field

/-!
# Counting cells

Along every axis of a usable mesh the quotient of edge and cell size is a positive number, which is
rounded to a whole number of cells. A count is a word: beyond it the count along an axis stops at the
largest word, and products of counts are taken modulo the number of words.
-/

namespace Micromag

open Double

variable {mesh : Mesh Float}

namespace Mesh

/-- The number of cells along an axis is the whole number nearest to the quotient of edge and cell
size, infinite where that quotient is. -/
noncomputable def exactCount (mesh : Mesh Float) (axis : Axis) : ℕ∞ :=
  if (mesh.quotient axis).isFinite then ((round (realOf (mesh.quotient axis))).toNat : ℕ) else ⊤

/-- The whole number of cells. -/
noncomputable def exactCells (mesh : Mesh Float) : ℕ∞ :=
  mesh.exactCount .x * mesh.exactCount .y * mesh.exactCount .z

/-- The quotient of edge and cell size of a usable mesh is a number. -/
theorem isNaN_quotient (usable : mesh.validate = .ok ()) (axis : Axis) :
    (mesh.quotient axis).isNaN = false := by
  obtain ⟨extent, ⟨finite, positive⟩, -⟩ := divided_of_usable usable axis
  unfold Region.hasExtent at extent
  rw [Bool.and_eq_true, Bool.and_eq_true] at extent
  have edge : (mesh.region.edge axis).isNaN = false := isNaN_sub extent.1.2 extent.1.1
  exact isNaN_div edge finite (filled_of_pos finite positive)

/-- The quotient of edge and cell size of a usable mesh is not rounded to less than one. -/
theorem not_round_lt_one (usable : mesh.validate = .ok ()) (axis : Axis) :
    ¬Binary64.round (mesh.quotient axis) < (1.0 : Float) := by
  obtain ⟨-, -, divided⟩ := divided_of_usable usable axis
  unfold isDivided at divided
  dsimp only at divided
  rw [Bool.and_eq_true, Bool.not_eq_true', decide_eq_false_iff_not] at divided
  exact divided.1

/-- A count is the whole number of cells, or the largest word if that is less. -/
theorem count_eq (usable : mesh.validate = .ok ()) (axis : Axis) :
    (mesh.count axis : ℕ∞) = min (mesh.exactCount axis) Scalar.maxCount := by
  have number := isNaN_quotient usable axis
  have least := not_round_lt_one usable axis
  show ((Binary64.toCount (Binary64.round (mesh.quotient axis)) : ℕ) : ℕ∞) = _
  unfold exactCount
  cases finite : (mesh.quotient axis).isFinite with
  | false =>
    rw [Binary64.toCount_round_of_infinite number least finite, if_neg Bool.false_ne_true,
      min_eq_right le_top]
  | true =>
    have value : realOf (mesh.quotient axis) = (Magnitude.ofFloat (mesh.quotient axis)).toReal :=
      if_neg (by rw [Binary64.isNegative_of_round number least]; exact Bool.false_ne_true)
    have whole : (round (realOf (mesh.quotient axis))).toNat =
        (Magnitude.ofFloat (mesh.quotient axis)).nearest := by
      rw [value, round_eq, Int.floor_toNat]
      exact Magnitude.nearest_eq.symm
    rw [Binary64.toCount_round number least finite, if_pos rfl, whole]
    exact Nat.mono_cast.map_min

/-- There is at least one cell along every axis. -/
theorem one_le_count (usable : mesh.validate = .ok ()) (axis : Axis) : 1 ≤ mesh.count axis := by
  have number := isNaN_quotient usable axis
  have least := not_round_lt_one usable axis
  show 1 ≤ Binary64.toCount (Binary64.round (mesh.quotient axis))
  cases finite : (mesh.quotient axis).isFinite with
  | false =>
    rw [Binary64.toCount_round_of_infinite number least finite]
    decide
  | true =>
    rw [Binary64.toCount_round number least finite]
    exact le_min (Binary64.nearest_pos number least finite) (by decide)

/-- There is at least one whole cell along every axis. -/
theorem one_le_exactCount (usable : mesh.validate = .ok ()) (axis : Axis) :
    1 ≤ mesh.exactCount axis := by
  have least : (1 : ℕ∞) ≤ mesh.count axis := by exact_mod_cast one_le_count usable axis
  rw [count_eq usable] at least
  exact least.trans (min_le_left _ _)

/-- A count is exact when it is a word. -/
theorem count_exact_iff (usable : mesh.validate = .ok ()) (axis : Axis) :
    (mesh.count axis : ℕ∞) = mesh.exactCount axis ↔ mesh.exactCount axis < 2 ^ 64 := by
  have next : ((Scalar.maxCount : ℕ) : ℕ∞) + 1 = 2 ^ 64 := by
    unfold Scalar.maxCount
    norm_cast
  rw [count_eq usable, min_eq_left_iff, ← next, ENat.lt_add_one_iff (ENat.natCast_ne_top _)]

/-- The number of cells is exact when it is a word. -/
theorem cellCount_exact_iff (usable : mesh.validate = .ok ()) :
    (mesh.cellCount : ℕ∞) = mesh.exactCells ↔ mesh.exactCells < 2 ^ 64 := by
  constructor
  · intro exact
    rw [← exact]
    have word : mesh.cellCount < 2 ^ 64 := Nat.mod_lt _ (by decide)
    exact_mod_cast word
  · intro word
    have x := one_le_exactCount usable .x
    have y := one_le_exactCount usable .y
    have z := one_le_exactCount usable .z
    have alongX : mesh.exactCount .x ≤ mesh.exactCells :=
      (le_mul_of_one_le_right zero_le y).trans (le_mul_of_one_le_right zero_le z)
    have alongY : mesh.exactCount .y ≤ mesh.exactCells :=
      (le_mul_of_one_le_left zero_le x).trans (le_mul_of_one_le_right zero_le z)
    have alongZ : mesh.exactCount .z ≤ mesh.exactCells :=
      le_mul_of_one_le_left zero_le (one_le_mul x y)
    have product : ((mesh.count .x * mesh.count .y * mesh.count .z : ℕ) : ℕ∞) = mesh.exactCells := by
      rw [Nat.cast_mul, Nat.cast_mul, (count_exact_iff usable .x).mpr (alongX.trans_lt word),
        (count_exact_iff usable .y).mpr (alongY.trans_lt word),
        (count_exact_iff usable .z).mpr (alongZ.trans_lt word)]
      rfl
    rw [← product] at word ⊢
    have small : mesh.count .x * mesh.count .y * mesh.count .z < 2 ^ 64 := by exact_mod_cast word
    unfold cellCount
    rw [Nat.mod_eq_of_lt small]

/-- The number of values that a field of some components needs is exact when it is a word. -/
theorem needed_exact_iff (usable : mesh.validate = .ok ()) {dim : ℕ} (positive : 0 < dim)
    (values : List Float) :
    ((Field.mk mesh dim values).needed : ℕ∞) = mesh.exactCells * dim ↔
      mesh.exactCells * dim < 2 ^ 64 := by
  constructor
  · intro exact
    rw [← exact]
    have word : (Field.mk mesh dim values).needed < 2 ^ 64 := Nat.mod_lt _ (by decide)
    exact_mod_cast word
  · intro word
    have least : (1 : ℕ∞) ≤ dim := by exact_mod_cast positive
    have fewer : mesh.exactCells < 2 ^ 64 :=
      (le_mul_of_one_le_right zero_le least).trans_lt word
    have cells := (cellCount_exact_iff usable).mpr fewer
    rw [← cells] at word ⊢
    have small : mesh.cellCount * dim < 2 ^ 64 := by exact_mod_cast word
    have whole : (Field.mk mesh dim values).needed = mesh.cellCount * dim := Nat.mod_eq_of_lt small
    rw [whole, Nat.cast_mul]

/-- On a usable mesh the quotient of edge and cell size is a number along every axis, and there is at
least one cell along it. The counts of cells along the axes, of all cells, and of the values of a
field are exact as long as they are words: a count along an axis stops at the largest word, and the
other two start again from zero. -/
theorem counts_exact_iff (usable : mesh.validate = .ok ()) :
    (∀ axis, (mesh.quotient axis).isNaN = false ∧ 1 ≤ mesh.count axis ∧
        (mesh.count axis : ℕ∞) = min (mesh.exactCount axis) Scalar.maxCount ∧
        ((mesh.count axis : ℕ∞) = mesh.exactCount axis ↔ mesh.exactCount axis < 2 ^ 64)) ∧
      ((mesh.cellCount : ℕ∞) = mesh.exactCells ↔ mesh.exactCells < 2 ^ 64) ∧
      ∀ dim, 0 < dim → ∀ values, ((Field.mk mesh dim values).needed : ℕ∞) = mesh.exactCells * dim ↔
        mesh.exactCells * dim < 2 ^ 64 :=
  ⟨fun axis => ⟨isNaN_quotient usable axis, one_le_count usable axis, count_eq usable axis,
      count_exact_iff usable axis⟩,
    cellCount_exact_iff usable, fun _ positive values => needed_exact_iff usable positive values⟩

/-- A box with as many cells along two axes as half a word has values. -/
def vast : Mesh Float where
  region := ⟨.fill 0, ⟨4294967296, 4294967296, 1⟩⟩
  cell := .fill 1

/-- All cells of a square with `2 ^ 32` cells along each side are counted as none. -/
theorem counts_exact_iff_vast :
    vast.validate = .ok () ∧ vast.exactCells = 2 ^ 64 ∧ vast.cellCount = 0 ∧
      (vast.cellCount : ℕ∞) ≠ vast.exactCells := by
  have usable : vast.validate = .ok () := Result.ok_of_toBool (by decide +kernel)
  have x : vast.count .x = 2 ^ 32 := by decide +kernel
  have y : vast.count .y = 2 ^ 32 := by decide +kernel
  have z : vast.count .z = 1 := by decide +kernel
  have ⟨along, cells, _⟩ := counts_exact_iff usable
  have exact {axis : Axis} (below : vast.count axis < Scalar.maxCount) :
      vast.exactCount axis = vast.count axis := by
    have least := (along axis).2.2.1
    rcases min_choice (vast.exactCount axis) Scalar.maxCount with own | largest
    · rw [least, own]
    · rw [largest] at least
      exact absurd (Nat.cast_injective least) below.ne
  have square : vast.exactCells = 2 ^ 64 := by
    unfold exactCells
    rw [exact (by rw [x]; decide), exact (by rw [y]; decide), exact (by rw [z]; decide), x, y, z]
    norm_cast
  refine ⟨usable, square, ?_, fun same => ?_⟩
  · unfold cellCount
    rw [x, y, z]
  · have word := cells.mp same
    rw [square] at word
    exact lt_irrefl _ word

end Mesh

end Micromag
