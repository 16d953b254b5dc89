import Micromag.Field
import Micromag.Mesh
import Micromag.Proofs.Keyed
import Micromag.Proofs.Result

/-!
# Usable meshes and fields
-/

/-!
## Usable meshes

What makes a mesh usable speaks about its box and its cells on the one hand and about its subregions
and periodic axes on the other. Without the latter a usable mesh stays usable.
-/

namespace Micromag

/-- There are no axes but those listed. -/
theorem Axis.mem_all (axis : Axis) : axis ∈ all := by
  cases axis <;> decide

/-- A region is accepted when it has an extent along every axis. -/
theorem Region.validate_ok_iff {α : Type} [Scalar α] {region : Region α} :
    region.validate = .ok () ↔ ∀ axis, region.hasExtent axis = true := by
  unfold validate
  rw [Result.forM_ok]
  constructor
  · intro each axis
    by_contra none
    have refused := each axis axis.mem_all
    rw [if_neg none] at refused
    cases refused
  · exact fun each axis _ => if_pos (each axis)

end Micromag

namespace Micromag.Mesh

variable {α : Type} [Scalar α] {mesh : Mesh α}

/-- The box and the cells of a mesh, with nothing named and nothing periodic. -/
def bare (mesh : Mesh α) : Mesh α := { region := mesh.region, cell := mesh.cell }

/-- The number of cells along an axis is that of the axis. -/
theorem counts_along (axis : Axis) : mesh.counts.along axis = mesh.count axis := by
  cases axis <;> rfl

/-- The box and the cells of a usable mesh make a usable mesh. -/
theorem make_bare (usable : mesh.validate = .ok ()) :
    Mesh.make mesh.region mesh.cell = .ok mesh.bare := by
  obtain ⟨_, region, usable⟩ := Result.bind_ok.mp usable
  obtain ⟨_, cells, _⟩ := Result.bind_ok.mp usable
  have reduced : mesh.bare.validate = .ok () := by
    show (mesh.region.validate.mapError MeshFault.region >>= fun _ =>
      Axis.all.forM mesh.bare.validateCell >>= fun _ => _) = _
    rw [region]
    show (Axis.all.forM mesh.validateCell >>= fun _ => _) = _
    rw [cells]
    rfl
  show (mesh.bare.validate >>= fun _ => pure mesh.bare) = _
  rw [reduced]
  rfl

/-- A usable mesh divides an extent along every axis into cells of a positive size. -/
theorem divided_of_usable (usable : mesh.validate = .ok ()) (axis : Axis) :
    mesh.region.hasExtent axis = true ∧
      (Scalar.isFinite (mesh.cell.along axis) = true ∧ 0.0 < mesh.cell.along axis) ∧
      mesh.isDivided axis = true := by
  obtain ⟨_, region, usable⟩ := Result.bind_ok.mp usable
  obtain ⟨_, cells, _⟩ := Result.bind_ok.mp usable
  have extent := Region.validate_ok_iff.mp (Result.mapError_ok.mp region) axis
  have cell := Result.forM_ok.mp cells axis axis.mem_all
  unfold validateCell at cell
  dsimp only at cell
  split at cell
  · cases cell
  · rename_i size
    split at cell
    · cases cell
    · rename_i divided
      rw [Bool.not_eq_true, Bool.not_eq_false', Bool.and_eq_true, decide_eq_true_eq] at size
      exact ⟨extent, size, by simpa using divided⟩

/-- A subregion is accepted with a name of its own, with extent, and inside. -/
theorem validateSubregion_ok {name : String} {subregion : Region α} :
    mesh.validateSubregion name subregion = .ok () ↔
      (Text.isIdentifier name = true ∧ name ∉ takenNames) ∧ subregion.validate = .ok () ∧
        mesh.region.contains subregion mesh.tolerance = true := by
  unfold validateSubregion
  by_cases refused : (!Text.isIdentifier name || takenNames.contains name) = true
  · rw [if_pos refused]
    rw [Bool.or_eq_true, Bool.not_eq_true', List.contains_iff_mem] at refused
    refine ⟨(nomatch ·), fun ⟨⟨identifier, own⟩, _⟩ => ?_⟩
    rcases refused with malformed | taken
    · exact absurd (identifier.symm.trans malformed) (by decide)
    · exact absurd taken own
  · rw [if_neg refused]
    rw [Bool.or_eq_true, not_or, Bool.not_eq_true', Bool.not_eq_false, List.contains_iff_mem]
      at refused
    refine Result.bind_ok.trans ?_
    rw [and_iff_right refused]
    cases inside : mesh.region.contains subregion mesh.tolerance with
    | true => exact ⟨fun ⟨_, bounds, _⟩ => ⟨Result.mapError_ok.mp bounds, rfl⟩,
        fun ⟨bounds, _⟩ => ⟨(), Result.mapError_ok.mpr bounds, rfl⟩⟩
    | false => exact ⟨fun ⟨_, _, outside⟩ => (nomatch outside), fun ⟨_, no⟩ => (nomatch no)⟩

/-- The subregions of a usable mesh are accepted. -/
theorem subregion_accepted (usable : mesh.validate = .ok ()) {entry : String × Region α}
    (member : entry ∈ mesh.subregions.entries) :
    mesh.validateSubregion entry.1 entry.2 = .ok () := by
  obtain ⟨_, _, usable⟩ := Result.bind_ok.mp usable
  obtain ⟨_, _, usable⟩ := Result.bind_ok.mp usable
  obtain ⟨_, subregions, _⟩ := Result.bind_ok.mp usable
  exact Result.forM_ok.mp subregions entry member

/-- The subregions of a usable mesh have names of their own. -/
theorem subregion_named (usable : mesh.validate = .ok ()) {name : String}
    (member : name ∈ mesh.subregions.keys) :
    Text.isIdentifier name = true ∧ name ∉ takenNames := by
  obtain ⟨entry, inside, rfl⟩ := List.mem_map.mp member
  exact (validateSubregion_ok.mp (subregion_accepted usable inside)).1

/-- The subregions of a usable mesh have finite bounds. -/
theorem subregion_finite (usable : mesh.validate = .ok ()) {name : String} {subregion : Region α}
    (found : mesh.subregions.get? name = some subregion) (axis : Axis) :
    Scalar.isFinite (subregion.lower.along axis) = true ∧
      Scalar.isFinite (subregion.upper.along axis) = true := by
  have accepted := subregion_accepted usable (Keyed.mem_of_lookup found)
  obtain ⟨_, bounds, _⟩ := validateSubregion_ok.mp accepted
  have extent := Region.validate_ok_iff.mp bounds axis
  unfold Region.hasExtent at extent
  rw [Bool.and_eq_true, Bool.and_eq_true] at extent
  exact extent.1

/-- The regions of a usable mesh have names that scripts can use. -/
theorem isIdentifier_of_mem_regionNames (usable : mesh.validate = .ok ()) {name : String}
    (member : name ∈ mesh.regionNames) : Text.isIdentifier name = true := by
  unfold regionNames at member
  split at member
  · rw [List.mem_singleton.mp member]
    decide
  · rcases List.mem_append.mp member with member | member
    · exact (subregion_named usable member).1
    · rw [List.mem_singleton.mp member]
      decide

end Micromag.Mesh

/-!
## Usable fields and their cells

A usable field has one or three components, as many values as its mesh needs, and finite values
only. Its values fall into cells from the first on. The count of values is a word, so that the last
values may make up no whole cell.
-/

namespace Micromag.Field

variable {α : Type} {dim : Nat} {values : List α}

/-- Every cell has as many values as there are components. -/
theorem length_of_mem_chunksFrom {fuel : Nat} {cell : List α}
    (member : cell ∈ chunksFrom dim fuel values) : cell.length = dim := by
  induction fuel generalizing values with
  | zero => exact absurd member List.not_mem_nil
  | succ fuel ih =>
    unfold chunksFrom at member
    by_cases short : (dim = 0 || values.length < dim) = true
    · rw [if_pos short] at member
      exact absurd member List.not_mem_nil
    · rw [if_neg short] at member
      rcases List.mem_cons.mp member with rfl | member
      · simp at short
        rw [List.length_take]
        omega
      · exact ih member

/-- The cells in a row are all values but those that make up no whole cell. -/
theorem flatten_chunksFrom {fuel : Nat} (positive : 0 < dim) (enough : values.length ≤ fuel) :
    (chunksFrom dim fuel values).flatten = values.take (values.length - values.length % dim) := by
  induction fuel generalizing values with
  | zero =>
    have empty : values = [] := List.length_eq_zero_iff.mp (by omega)
    rw [empty]
    rfl
  | succ fuel ih =>
    unfold chunksFrom
    by_cases short : (dim = 0 || values.length < dim) = true
    · simp only [Bool.or_eq_true, decide_eq_true_eq] at short
      have few : values.length < dim := by omega
      rw [if_pos (by simp [few]), Nat.mod_eq_of_lt few, Nat.sub_self]
      rfl
    · rw [if_neg short]
      simp only [Bool.or_eq_true, decide_eq_true_eq, not_or] at short
      have long : dim ≤ values.length := by omega
      have shorter : (values.drop dim).length ≤ fuel := by
        rw [List.length_drop]
        omega
      have rest := ih shorter
      have whole : values.length - values.length % dim =
          dim + ((values.drop dim).length - (values.drop dim).length % dim) := by
        have less : values.length % dim = (values.length - dim) % dim := Nat.mod_eq_sub_mod long
        have bound := Nat.mod_le (values.length - dim) dim
        rw [List.length_drop, less]
        omega
      rw [List.flatten_cons, rest, whole, List.take_add]

/-- Cells of one component are the values one by one. -/
theorem chunksFrom_one {fuel : Nat} (enough : values.length ≤ fuel) :
    chunksFrom 1 fuel values = values.map fun x => [x] := by
  induction fuel generalizing values with
  | zero =>
    rw [List.length_eq_zero_iff.mp (show values.length = 0 by omega)]
    rfl
  | succ fuel ih =>
    cases values with
    | nil => rfl
    | cons x others =>
      have shorter : others.length ≤ fuel := by
        rw [List.length_cons] at enough
        omega
      unfold chunksFrom
      rw [if_neg (by simp)]
      show [x] :: chunksFrom 1 fuel others = _
      rw [ih shorter]
      rfl

/-- Cells in a row that have as many values as there are components are the cells again. -/
theorem chunksFrom_flatten {cells : List (List α)} {fuel : Nat} (positive : 0 < dim)
    (whole : ∀ cell ∈ cells, cell.length = dim) (enough : cells.length ≤ fuel) :
    chunksFrom dim fuel cells.flatten = cells := by
  induction cells generalizing fuel with
  | nil =>
    cases fuel with
    | zero => rfl
    | succ fuel =>
      unfold chunksFrom
      rw [List.flatten_nil, if_pos (by simp [positive])]
  | cons cell rest ih =>
    obtain ⟨length, others⟩ := List.forall_mem_cons.mp whole
    cases fuel with
    | zero => exact absurd enough (by simp)
    | succ fuel =>
      have long : ¬(dim = 0 || (cell :: rest).flatten.length < dim) = true := by
        rw [List.flatten_cons, List.length_append, length]
        simp only [Bool.or_eq_true, decide_eq_true_eq]
        omega
      unfold chunksFrom
      rw [if_neg long, List.flatten_cons, ← length, List.take_left, List.drop_left, length,
        ih others (Nat.le_of_succ_le_succ enough)]

variable [Scalar α] {field : Field α} {mesh : Mesh α}

/-- What a field must fulfil to be usable. -/
structure Usable (field : Field α) : Prop where
  /-- The components are one number or a vector. -/
  components : field.dim = 1 ∨ field.dim = 3
  /-- There are as many values as the mesh needs. -/
  length : field.values.length = field.needed
  /-- All values are finite. -/
  finite : ∀ x ∈ field.values, Scalar.isFinite x = true

/-- A field is accepted exactly when it is usable. -/
theorem validate_ok_iff : field.validate = .ok () ↔ field.Usable := by
  unfold validate
  constructor
  · intro accepted
    by_cases other : field.dim ≠ 1 && field.dim ≠ 3
    · rw [if_pos other] at accepted
      cases accepted
    · rw [if_neg other] at accepted
      by_cases wrong : field.values.length ≠ field.needed
      · rw [if_pos wrong] at accepted
        cases accepted
      · rw [if_neg wrong] at accepted
        refine ⟨by simp at other; omega, by omega, fun x member => ?_⟩
        cases found : field.values.find? fun x => !Scalar.isFinite x with
        | none => simpa using List.find?_eq_none.mp found x member
        | some y =>
          rw [found] at accepted
          cases accepted
  · intro usable
    have none : field.values.find? (fun x => !Scalar.isFinite x) = none := by
      rw [List.find?_eq_none]
      intro x member
      simp [usable.finite x member]
    have known : ¬ (field.dim ≠ 1 && field.dim ≠ 3) = true := by
      have := usable.components
      simp
      omega
    rw [if_neg known, if_neg (not_not_intro usable.length), none]

/-- A usable field can be made. -/
theorem make_of_usable (usable : Usable { mesh, dim, values }) :
    make mesh dim values = .ok { mesh, dim, values } := by
  unfold make
  dsimp only
  rw [validate_ok_iff.mpr usable]
  rfl

/-- The field that is made is the one that was asked for, and it is usable. -/
theorem make_ok_iff {found : Field α} :
    make mesh dim values = .ok found ↔ found = { mesh, dim, values } ∧ found.Usable := by
  constructor
  · intro made
    obtain ⟨_, accepted, same⟩ := Result.bind_ok.mp made
    obtain rfl := Except.ok.inj same
    exact ⟨rfl, validate_ok_iff.mp accepted⟩
  · rintro ⟨rfl, usable⟩
    exact make_of_usable usable

end Micromag.Field
