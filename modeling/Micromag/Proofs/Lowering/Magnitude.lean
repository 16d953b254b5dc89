import Micromag.Field
import Micromag.Proofs.Exact
import Micromag.Proofs.Field.File.RoundTrip
import Micromag.Proofs.Lowering.Sidecars

/-!
# Magnitudes in exact arithmetic
-/

/-!
## Fields in exact arithmetic

A field of doubles stands for a field of real numbers. What is computed from the latter is what the
former means.
-/

namespace Micromag

variable {α β : Type}

namespace Field

/-- A field with other numbers for its lengths and values. -/
def map (f : α → β) (field : Field α) : Field β where
  mesh := field.mesh.map f
  dim := field.dim
  values := field.values.map f

/-- Other numbers stand in the same cells. -/
theorem chunksFrom_map (f : α → β) (dim fuel : Nat) (values : List α) :
    chunksFrom dim fuel (values.map f) = (chunksFrom dim fuel values).map (List.map f) := by
  induction fuel generalizing values with
  | zero => rfl
  | succ fuel ih =>
    unfold chunksFrom
    rw [List.length_map]
    split
    · rfl
    · rw [List.map_cons, ← List.map_take, ← List.map_drop, ih]

/-- The cells with other numbers are those of the field. -/
theorem cells_map (f : α → β) (field : Field α) :
    (field.map f).cells = field.cells.map (List.map f) := by
  unfold cells map
  rw [List.length_map, chunksFrom_map]

/-- Without rounding, a vector along the first axis has the distance of its component from zero as
its magnitude. -/
theorem cellNorm_axis (x : ℝ) : cellNorm [x, 0, 0] = |x| := by
  have sum : (0.0 : ℝ) + x * x + 0 * 0 + 0 * 0 = x * x := by norm_num
  show Real.sqrt ((0.0 : ℝ) + x * x + 0 * 0 + 0 * 0) = |x|
  rw [sum, Real.sqrt_mul_self_eq_abs]

end Field

end Micromag

/-!
## Numbers that are given cell by cell

The numbers of a parameter that is given cell by cell go into a file of vectors along the first
axis, and the word for the parameter stands for the magnitudes of these vectors. A magnitude has no
sign. So the parameter means its values exactly when none of them is negative, while a number that
is the same everywhere, or one for each region, is written as it is.
-/

namespace Micromag

open Script

/-- The magnitudes that stand for the cells of a field file, without the rounding of their
computation. -/
noncomputable def FieldFile.magnitudes (bytes : List UInt8) : Except ReadFault (List ℝ) :=
  (read bytes).map fun field => (field.map realOf).norm

namespace FieldFile

variable {field : Field Float} {title : String}

/-- The vectors that numbers were extended to have the distances of these numbers from zero as their
magnitudes. -/
theorem norm_restored (scalar : field.dim = 1) :
    ((restored field true).map realOf).norm = field.values.map fun x => |realOf x| := by
  have vectors : (restored field true).dim = 3 := by
    show writtenDim field true = 3
    unfold writtenDim
    simp [scalar]
  have values : (restored field true).values = field.values.flatMap fun x => [x, 0, 0] := by
    unfold restored
    simp [scalar]
  have cells : (restored field true).cells = field.values.map fun x => [x, 0, 0] := by
    unfold Field.cells
    rw [values, List.flatMap, vectors]
    have length (cell : List Float) (member : cell ∈ field.values.map fun x => [x, 0, 0]) :
        cell.length = 3 := by
      obtain ⟨x, _, rfl⟩ := List.mem_map.mp member
      rfl
    have count : (field.values.map fun x : Float => [x, 0, 0]).flatten.length =
        3 * field.values.length := by
      rw [← List.flatMap, List.length_flatMap]
      simp [Nat.mul_comm]
    refine Field.chunksFrom_flatten (by decide) length ?_
    rw [count, List.length_map]
    omega
  unfold Field.norm
  rw [Field.cells_map, cells, List.map_map, List.map_map]
  refine List.map_congr_left fun x _ => ?_
  show Field.cellNorm [realOf x, realOf 0, realOf 0] = _
  rw [realOf_zero, Field.cellNorm_axis]

/-- The magnitudes of a file of numbers are known exactly when the mesh of the field is usable, and
they are the distances of the numbers from zero. -/
theorem magnitudes_write_ok_iff (usable : field.Usable) (scalar : field.dim = 1)
    (oneLine : '\n' ∉ title.toList)
    (fits : (dataBytes .binary8 (writtenCells field true)).length < 2 ^ 63) {norms : List ℝ} :
    magnitudes (write field title .binary8 true) = .ok norms ↔
      field.mesh.bare.validate = .ok () ∧ norms = field.values.map fun x => |realOf x| := by
  have none : loose field = 0 := by
    unfold loose
    rw [scalar]
    exact Nat.mod_one _
  have back : recovered field true = restored field true := by
    rw [recovered_eq_restored usable, none, Nat.sub_zero, List.drop_length]
    rfl
  unfold magnitudes
  rw [Result.map_ok]
  constructor
  · rintro ⟨found, read, same⟩
    obtain ⟨valid, rfl⟩ := (read_write_ok_iff usable oneLine fits).mp read
    rw [← same, back, norm_restored scalar]
    exact ⟨valid, rfl⟩
  · rintro ⟨valid, rfl⟩
    refine ⟨_, (read_write_ok_iff usable oneLine fits).mpr ⟨valid, rfl⟩, ?_⟩
    rw [back, norm_restored scalar]

end FieldFile

namespace Parameter

variable {site : Site} {name title : String} {field : Field Float} {lowered : LoweredParameter}
  {asked : List Sidecar}

/-- A number that is given cell by cell is lowered to the magnitudes of its file. These are its
values exactly when the file can be read back and no value is negative, and so they are those of a
constant for a field with one value everywhere exactly when this value is not negative. -/
theorem lowerScalar_magnitudes_iff
    (gives : (lowerScalar site (.field field) name).Gives lowered asked)
    (oneLine : '\n' ∉ title.toList)
    (fits : (FieldFile.dataBytes .binary8 (FieldFile.writtenCells field true)).length < 2 ^ 63) :
    lowered = ⟨[fileItem name (fileName name), normItem name], .reference (normName name)⟩ ∧
      asked = [⟨fileName name, field, true⟩] ∧
      (∀ norms, FieldFile.magnitudes (FieldFile.write field title .binary8 true) = .ok norms ↔
        field.mesh.bare.validate = .ok () ∧ norms = field.values.map fun x => |realOf x|) ∧
      (FieldFile.magnitudes (FieldFile.write field title .binary8 true) =
          .ok (field.values.map realOf) ↔
        field.mesh.bare.validate = .ok () ∧ ∀ x ∈ field.values, 0 ≤ realOf x) ∧
      ∀ c, field.values = List.replicate field.mesh.cellCount c → field.mesh.cellCount ≠ 0 →
        (FieldFile.magnitudes (FieldFile.write field title .binary8 true) =
            .ok (List.replicate field.mesh.cellCount (realOf c)) ↔
          field.mesh.bare.validate = .ok () ∧ 0 ≤ realOf c) := by
  obtain ⟨_, checked, rest⟩ := Lowering.lift_bind_gives.mp gives
  obtain ⟨_, _, _, ⟨_, rfl⟩, last, rfl⟩ := Lowering.bind_gives.mp rest
  obtain ⟨rfl, rfl⟩ := Lowering.pure_gives.mp last
  obtain ⟨scalar, valid, _⟩ := checkField_ok.mp checked
  have known (norms : List ℝ) :
      FieldFile.magnitudes (FieldFile.write field title .binary8 true) = .ok norms ↔
        field.mesh.bare.validate = .ok () ∧ norms = field.values.map fun x => |realOf x| :=
    FieldFile.magnitudes_write_ok_iff (Field.validate_ok_iff.mp valid) scalar oneLine fits
  have means : FieldFile.magnitudes (FieldFile.write field title .binary8 true) =
      .ok (field.values.map realOf) ↔
        field.mesh.bare.validate = .ok () ∧ ∀ x ∈ field.values, 0 ≤ realOf x := by
    rw [known, List.map_inj_left]
    refine and_congr_right fun _ => forall₂_congr fun x _ => ?_
    rw [eq_comm, abs_eq_self]
  refine ⟨rfl, rfl, known, means, fun c uniform some => ?_⟩
  have constant : field.values.map realOf =
      List.replicate field.mesh.cellCount (realOf c) := by
    rw [uniform, List.map_replicate]
  rw [← constant, means, uniform]
  refine and_congr_right fun _ => ⟨fun all => all c (List.mem_replicate.mpr ⟨some, rfl⟩), ?_⟩
  intro positive x member
  rwa [List.eq_of_mem_replicate member]

/-- A negative number on one cell. -/
def negative : Field Float where
  mesh := { region := ⟨.fill 0, .fill 1⟩, cell := .fill 1 }
  dim := 1
  values := [-500]

/-- A negative number that is given cell by cell is accepted, and its magnitude stands for it. -/
theorem negative_magnitudes :
    (∃ lowered asked, (lowerScalar ⟨negative.mesh, .unix⟩ (.field negative) "a_K1").Gives
      lowered asked) ∧
    FieldFile.magnitudes (FieldFile.write negative "a_K1" .binary8 true) = .ok [500] ∧
    negative.values.map realOf = [-500] := by
  have valid : negative.validate = .ok () := Result.ok_of_toBool (by decide +kernel)
  have checked : checkField .scalar ⟨negative.mesh, .unix⟩ "a_K1" negative = .ok () :=
    checkField_ok.mpr ⟨rfl, valid, rfl⟩
  have gives : (lowerScalar ⟨negative.mesh, .unix⟩ (.field negative) "a_K1").Gives
      ⟨[fileItem "a_K1" (fileName "a_K1"), normItem "a_K1"], .reference (normName "a_K1")⟩
      [⟨fileName "a_K1", negative, true⟩] :=
    Lowering.lift_bind_gives.mpr ⟨(), checked, ⟨rfl, rfl⟩⟩
  have usable : negative.mesh.bare.validate = .ok () := Result.ok_of_toBool (by decide)
  have parts : isNegative (-500) = true ∧
      Magnitude.ofFloat (-500) = ⟨500 * 2 ^ 44, -44, false⟩ := by
    decide +kernel
  have value : realOf (-500) = -500 := by
    unfold realOf Magnitude.toReal
    rw [if_pos parts.1, parts.2]
    norm_num
  have fits : (FieldFile.dataBytes .binary8 (FieldFile.writtenCells negative true)).length <
      2 ^ 63 := by
    decide
  have oneLine : '\n' ∉ "a_K1".toList := by decide
  obtain ⟨_, _, known, _⟩ := lowerScalar_magnitudes_iff gives oneLine fits
  refine ⟨⟨_, _, gives⟩, (known [500]).mpr ⟨usable, ?_⟩, ?_⟩
  · show [500] = [|realOf (-500)|]
    rw [value]
    norm_num
  · show [realOf (-500)] = [-500]
    rw [value]

end Parameter

end Micromag
