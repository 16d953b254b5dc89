import Mathlib.Tactic.Linarith
import Mathlib.Tactic.NormNum
import Micromag.Proofs.Exact
import Micromag.Proofs.Field.Order

/-!
# Cells inside their region

The number of cells along an axis is the quotient of edge and cell size, rounded. An edge that is no
whole number of cells is accepted up to a millionth of their number, which is half a cell from half
a million cells on. So the last cell may reach beyond the region, at most by half. In exact
arithmetic all centres lie inside, but for the last one along an axis where it does so by half: it
lies on the face.
-/

namespace Micromag.Mesh

/-- A mesh without subregions and periodic axes is usable when it divides an extent along every axis
into cells of a positive size. -/
theorem usable_of_divided {α : Type} [Scalar α] {region : Region α} {cell : Triple α}
    (each : ∀ axis, region.hasExtent axis = true ∧
      (Scalar.isFinite (cell.along axis) = true ∧ 0.0 < cell.along axis) ∧
        isDivided { region, cell } axis = true) :
    validate { region, cell } = .ok () := by
  have extent : region.validate = .ok () := Region.validate_ok_iff.mpr fun axis => (each axis).1
  have cells : Axis.all.forM (validateCell { region, cell }) = .ok () := by
    refine Result.forM_ok.mpr fun axis _ => ?_
    obtain ⟨-, ⟨finite, positive⟩, divided⟩ := each axis
    unfold validateCell
    dsimp only
    rw [finite, decide_eq_true positive, divided]
    rfl
  refine Result.bind_ok.mpr ⟨(), Result.mapError_ok.mpr extent, ?_⟩
  exact Result.bind_ok.mpr ⟨(), cells, rfl⟩

variable {mesh : Mesh ℝ} {axis : Axis} {index : Triple Nat}

/-- An edge is divided when it has one cell or more and is a whole number of them up to a
millionth. -/
theorem isDivided_iff : mesh.isDivided axis = true ↔
    1 ≤ Scalar.round (mesh.quotient axis) ∧
      |mesh.quotient axis - Scalar.round (mesh.quotient axis)| ≤
        1e-6 * max (mesh.quotient axis) 1 := by
  have one : (1.0 : ℝ) = 1 := by norm_num
  unfold isDivided
  dsimp only
  rw [Bool.and_eq_true, Bool.not_eq_true', Bool.not_eq_true', decide_eq_false_iff_not,
    decide_eq_false_iff_not, not_lt, not_lt]
  show (1.0 : ℝ) ≤ _ ∧ _ ≤ 1e-6 * max (mesh.quotient axis) 1.0 ↔ _
  rw [one]
  rfl

/-- The centre of a cell along an axis. -/
theorem centre_along : (mesh.centre index).along axis =
    mesh.region.lower.along axis + (index.along axis + 1 / 2) * mesh.cell.along axis := by
  have half : (0.5 : ℝ) = 1 / 2 := by norm_num
  rw [← half]
  cases axis <;> rfl

/-- The region ends in the middle of the last cell along an axis. -/
structure EndsHalfway (mesh : Mesh ℝ) (axis : Axis) : Prop where
  /-- The number of cells is rounded up from a half. -/
  half : (mesh.count axis : ℝ) = mesh.quotient axis + 1 / 2

section

variable (usable : mesh.validate = .ok ()) (axis : Axis)

include usable

/-- The cells of a usable mesh have a size. -/
theorem cell_pos : 0 < mesh.cell.along axis := by
  obtain ⟨-, ⟨-, positive⟩, -⟩ := divided_of_usable usable axis
  norm_num at positive
  exact positive

/-- The quotient of edge and cell size of a usable mesh is positive. -/
theorem quotient_pos : 0 < mesh.quotient axis := by
  obtain ⟨extent, -, -⟩ := divided_of_usable usable axis
  have ascends : mesh.region.lower.along axis < mesh.region.upper.along axis :=
    of_decide_eq_true extent
  exact div_pos (sub_pos.mpr ascends) (cell_pos usable axis)

/-- The region ends as many cells behind its beginning as the quotient says. -/
theorem upper_along : mesh.region.upper.along axis =
    mesh.region.lower.along axis + mesh.quotient axis * mesh.cell.along axis := by
  have edge : mesh.quotient axis * mesh.cell.along axis = mesh.region.edge axis :=
    div_mul_cancel₀ _ (cell_pos usable axis).ne'
  rw [edge]
  exact (add_sub_cancel _ _).symm

/-- The number of cells is the quotient rounded, or the largest word if that is less. -/
theorem count_eq_floor :
    mesh.count axis = min ⌊mesh.quotient axis + 1 / 2⌋₊ Scalar.maxCount := by
  show Scalar.toCount (Scalar.round (mesh.quotient axis)) = _
  rw [Scalar.round_of_nonneg (quotient_pos usable axis).le, Scalar.toCount_natCast]

/-- The last cell reaches beyond the region by half at most. -/
theorem count_le : (mesh.count axis : ℝ) ≤ mesh.quotient axis + 1 / 2 := by
  have positive := quotient_pos usable axis
  have least : mesh.count axis ≤ ⌊mesh.quotient axis + 1 / 2⌋₊ := by
    rw [count_eq_floor usable]
    exact min_le_left _ _
  calc (mesh.count axis : ℝ)
    _ ≤ ⌊mesh.quotient axis + 1 / 2⌋₊ := Nat.cast_le.mpr least
    _ ≤ mesh.quotient axis + 1 / 2 := Nat.floor_le (by linarith)

/-- A centre lies before the upper face when its cell has its middle within the quotient. -/
theorem centre_lt_upper_iff : (mesh.centre index).along axis < mesh.region.upper.along axis ↔
    index.along axis + 1 / 2 < mesh.quotient axis := by
  rw [centre_along, upper_along usable, add_lt_add_iff_left,
    mul_lt_mul_iff_left₀ (cell_pos usable axis)]

/-- Only along more than half a million cells can a usable mesh end halfway. -/
theorem EndsHalfway.many {axis : Axis} (halfway : mesh.EndsHalfway axis) :
    500000 < mesh.count axis := by
  have positive := quotient_pos usable axis
  obtain ⟨-, -, divided⟩ := divided_of_usable usable axis
  have near := (isDivided_iff.mp divided).2
  have rounded : Scalar.round (mesh.quotient axis) = mesh.quotient axis + 1 / 2 := by
    rw [Scalar.round_of_nonneg positive.le, ← halfway.half, Nat.floor_natCast]
  have apart : |mesh.quotient axis - Scalar.round (mesh.quotient axis)| = 1 / 2 := by
    rw [rounded, sub_add_cancel_left, abs_neg]
    norm_num
  rw [apart] at near
  have large : 500000 ≤ mesh.quotient axis := by
    rcases max_choice (mesh.quotient axis) 1 with own | one
    · rw [own] at near
      linarith
    · rw [one] at near
      norm_num at near
  have counted : (500000 : ℝ) < mesh.count axis := by
    rw [halfway.half]
    linarith
  exact_mod_cast counted

end

/-- The centre of a cell of a usable mesh lies behind the lower face of the region along every axis
and not behind the upper one. It lies before the upper face, unless the cell is the last one along
the axis and the region ends in its middle; then it lies on this face. That takes more than half a
million cells along the axis. -/
theorem centre_inside_iff (usable : mesh.validate = .ok ()) (cell : mesh.HasCell index)
    (axis : Axis) :
    mesh.region.lower.along axis < (mesh.centre index).along axis ∧
      (mesh.centre index).along axis ≤ mesh.region.upper.along axis ∧
      ((mesh.centre index).along axis < mesh.region.upper.along axis ↔
        ¬(index.along axis + 1 = mesh.count axis ∧ mesh.EndsHalfway axis)) ∧
      (mesh.EndsHalfway axis → 500000 < mesh.count axis) := by
  have size := cell_pos usable axis
  have most := count_le usable axis
  have below : (index.along axis : ℝ) + 1 ≤ mesh.count axis := by exact_mod_cast cell axis
  -- half a cell is all that the last one can reach beyond the region
  have middle : (index.along axis : ℝ) + 1 / 2 ≤ mesh.quotient axis := by linarith
  refine ⟨?_, ?_, ?_, fun halfway => halfway.many usable⟩
  · rw [centre_along, lt_add_iff_pos_right]
    exact mul_pos (by positivity) size
  · rw [centre_along, upper_along usable, add_le_add_iff_left]
    exact mul_le_mul_of_nonneg_right middle size.le
  · rw [centre_lt_upper_iff usable, ← not_le, not_iff_not]
    constructor
    · intro face
      have last : (index.along axis : ℝ) + 1 = mesh.count axis := by linarith
      exact ⟨by exact_mod_cast last, ⟨by linarith⟩⟩
    · rintro ⟨last, halfway⟩
      have last : (index.along axis : ℝ) + 1 = mesh.count axis := by exact_mod_cast last
      have half := halfway.half
      linarith

/-- A bar of half a million cells and a half. -/
noncomputable def bar : Mesh ℝ where
  region := ⟨.fill 0, ⟨500000.5, 1, 1⟩⟩
  cell := .fill 1

/-- The bar is usable; it has 500001 cells, and the centre of the last one lies on its face. -/
theorem centre_inside_iff_bar :
    bar.validate = .ok () ∧ bar.HasCell ⟨500000, 0, 0⟩ ∧
      ¬(bar.centre ⟨500000, 0, 0⟩).x < bar.region.upper.x := by
  have long : bar.quotient .x = 1000001 / 2 := by
    show (500000.5 - 0 : ℝ) / 1 = _
    norm_num
  have short (axis : Axis) (other : axis ≠ .x) : bar.quotient axis = 1 := by
    cases axis with
    | x => exact absurd rfl other
    | y | z =>
      show (1 - 0 : ℝ) / 1 = 1
      norm_num
  have roundLong : ⌊(1000001 / 2 : ℝ) + 1 / 2⌋₊ = 500001 := by
    rw [Nat.floor_eq_iff (by norm_num)]
    norm_num
  have roundShort : ⌊(1 : ℝ) + 1 / 2⌋₊ = 1 := by
    rw [Nat.floor_eq_iff (by norm_num)]
    norm_num
  have divided (axis : Axis) : bar.isDivided axis = true := by
    rw [isDivided_iff]
    rcases eq_or_ne axis .x with rfl | other
    · rw [long, Scalar.round_of_nonneg (by norm_num), roundLong]
      norm_num
    · rw [short axis other, Scalar.round_of_nonneg (by norm_num), roundShort]
      norm_num
  have usable : bar.validate = .ok () := by
    refine usable_of_divided fun axis => ⟨?_, ⟨rfl, ?_⟩, divided axis⟩
    · refine (Bool.and_eq_true _ _).mpr ⟨rfl, decide_eq_true ?_⟩
      cases axis <;> norm_num [Triple.along, Triple.fill]
    · cases axis <;> norm_num [Triple.along, Triple.fill]
  have cells : bar.count .x = 500001 := by
    rw [count_eq_floor usable, long, roundLong]
    rfl
  have cell : bar.HasCell ⟨500000, 0, 0⟩ := by
    intro axis
    rcases eq_or_ne axis .x with rfl | other
    · rw [cells]
      decide
    · rw [count_eq_floor usable, short axis other, roundShort]
      cases axis with
      | x => exact absurd rfl other
      | y | z => decide
  have half : (bar.count .x : ℝ) = bar.quotient .x + 1 / 2 := by
    rw [cells, long]
    norm_num
  exact ⟨usable, cell, fun inside =>
    (centre_inside_iff usable cell .x).2.2.1.mp inside ⟨cells.symm, ⟨half⟩⟩⟩

end Micromag.Mesh
