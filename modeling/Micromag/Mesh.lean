import Micromag.Fault
import Micromag.Geometry
import Micromag.Keyed
import Micromag.Scalar
import Micromag.Text.Basic

/-!
# Geometry of a problem

Regions, meshes that divide them into cells, and faces that two boxes share.
-/

/-!
## Regions

A region is a box with faces across the axes, given by its lower and its upper corner.
-/

namespace Micromag

/-- An axis-aligned box, in metres. -/
structure Region (α : Type) where
  /-- The corner with the least coordinates. -/
  lower : Triple α
  /-- The corner with the greatest coordinates. -/
  upper : Triple α
deriving DecidableEq, Repr, Inhabited

/-- Why two corners bound no region. -/
inductive RegionFault (α : Type) where
  /-- The bounds along an axis are not finite or not ascending. -/
  | bounds (axis : Axis) (low high : α)

namespace Region

variable {α : Type} [Scalar α]

/-- The extent along an axis. -/
def edge (region : Region α) (axis : Axis) : α :=
  region.upper.along axis - region.lower.along axis

/-- The extents along the axes. -/
def edges (region : Region α) : Triple α := .ofFn region.edge

/-- Whether the bounds along an axis are finite and ascend. -/
def hasExtent (region : Region α) (axis : Axis) : Bool :=
  Scalar.isFinite (region.lower.along axis) && Scalar.isFinite (region.upper.along axis) &&
    decide (region.lower.along axis < region.upper.along axis)

/-- Accept a region whose bounds are finite and ascend along every axis. -/
def validate (region : Region α) : Except (RegionFault α) Unit :=
  Axis.all.forM fun axis =>
    if region.hasExtent axis then .ok ()
    else .error (.bounds axis (region.lower.along axis) (region.upper.along axis))

/-- Whether another region lies inside, give or take a tolerance. -/
def contains (region other : Region α) (tolerance : α) : Bool :=
  Axis.all.all fun axis =>
    decide (region.lower.along axis - tolerance ≤ other.lower.along axis) &&
      decide (other.upper.along axis ≤ region.upper.along axis + tolerance)

/-- A box with other numbers for its bounds. -/
def map {α β : Type} (f : α → β) (region : Region α) : Region β :=
  ⟨region.lower.map f, region.upper.map f⟩

end Region

/-- The sentence of a region that has no extent. -/
def RegionFault.fault : RegionFault Float → Fault
  | .bounds axis low high =>
    .invalid "INPUT.REGION_BOUNDS"
      s!"region {axis.letter} bounds must satisfy p1 < p2, got {show64 low} and {show64 high}"

end Micromag

/-!
## Meshes

A mesh divides a region into equal cells. It may name parts of the region and may be periodic along
some axes. A mesh is usable when every edge is a whole number of cells within a millionth, its
subregions lie inside, and their names can be used in a script.
-/

namespace Micromag

/-- A region with equal cells, named subregions and periodic axes. -/
structure Mesh (α : Type) where
  /-- The box that is divided. -/
  region : Region α
  /-- The size of a cell along each axis. -/
  cell : Triple α
  /-- Named boxes inside the region. -/
  subregions : Keyed (Region α) := .empty
  /-- The letters of the axes along which the region repeats. -/
  periodic : String := ""

/-- Why a mesh is not usable. -/
inductive MeshFault (α : Type) where
  /-- The region or a subregion has no extent. -/
  | region (cause : RegionFault α)
  /-- The cell size along an axis is not positive. -/
  | cellSize (axis : Axis) (size : α)
  /-- An edge is not a whole number of cells. -/
  | cellCount (axis : Axis) (edge size : α)
  /-- A subregion has a name that scripts cannot use. -/
  | subregionName (name : String)
  /-- A subregion lies outside. -/
  | subregionBounds (name : String)
  /-- A periodic axis has no such letter. -/
  | periodicAxis (periodic : String) (letter : Char)

namespace Mesh

variable {α : Type} [Scalar α]

/-- The number of cells along an axis before rounding. -/
def quotient (mesh : Mesh α) (axis : Axis) : α := mesh.region.edge axis / mesh.cell.along axis

/-- The number of cells along an axis. -/
def count (mesh : Mesh α) (axis : Axis) : Nat := Scalar.toCount (Scalar.round (mesh.quotient axis))

/-- The number of cells along each axis. -/
def counts (mesh : Mesh α) : Triple Nat := .ofFn mesh.count

/-- The number of cells as a 64-bit word. -/
def cellCount (mesh : Mesh α) : Nat :=
  mesh.count .x * mesh.count .y * mesh.count .z % 2 ^ 64

/-- Two lengths closer than this are the same length on this mesh: a thousandth of the least cell
size. -/
def tolerance (mesh : Mesh α) : α :=
  Scalar.least (Scalar.least mesh.cell.x mesh.cell.y) mesh.cell.z * 1e-3

/-- The names that region maps of this mesh may use: the subregions and then the rest of the region,
or a single name for the undivided region. -/
def regionNames (mesh : Mesh α) : List String :=
  if mesh.subregions.isEmpty then ["main"] else mesh.subregions.keys ++ ["entire"]

/-- The letters of the periodic axes in order, each once. -/
def periodicAxes (mesh : Mesh α) : String :=
  String.ofList ((Axis.all.map Axis.letter).filter fun letter =>
    mesh.periodic.toList.contains letter)

/-- The centre of the cell at an index. -/
def centre (mesh : Mesh α) (index : Triple Nat) : Triple α :=
  .ofFn fun axis =>
    mesh.region.lower.along axis + (Scalar.ofNat (index.along axis) + 0.5) * mesh.cell.along axis

/-- The centres of all cells, the first axis varying fastest and the last slowest. -/
def centres (mesh : Mesh α) : List (Triple α) :=
  (List.range (mesh.count .z)).flatMap fun k =>
    (List.range (mesh.count .y)).flatMap fun j =>
      (List.range (mesh.count .x)).map fun i => mesh.centre ⟨i, j, k⟩

/-- The index of a cell from its place in the order of `centres`. -/
def index (mesh : Mesh α) (place : Nat) : Triple Nat :=
  ⟨place % mesh.count .x, place / mesh.count .x % mesh.count .y,
    place / mesh.count .x / mesh.count .y⟩

/-- The first centres, without listing the others. -/
def firstCentres (mesh : Mesh α) (limit : Nat) : List (Triple α) :=
  (List.range (min limit (mesh.count .x * mesh.count .y * mesh.count .z))).map fun place =>
    mesh.centre (mesh.index place)

/-- Whether an edge is a whole number of cells, at least one, within a millionth of the number. -/
def isDivided (mesh : Mesh α) (axis : Axis) : Bool :=
  let quotient := mesh.quotient axis
  let rounded := Scalar.round quotient
  !decide (rounded < 1.0) &&
    !decide (1e-6 * Scalar.most quotient 1.0 < Scalar.magnitude (quotient - rounded))

/-- Accept a cell size that is positive and divides the edge. -/
def validateCell (mesh : Mesh α) (axis : Axis) : Except (MeshFault α) Unit :=
  let size := mesh.cell.along axis
  if !(Scalar.isFinite size && decide (0.0 < size)) then .error (.cellSize axis size)
  else if !mesh.isDivided axis then .error (.cellCount axis (mesh.region.edge axis) size)
  else .ok ()

/-- Names of subregions that mean something else in scripts. -/
def takenNames : List String := ["entire", "main"]

/-- Accept a subregion with a usable name, with extent, and inside. -/
def validateSubregion (mesh : Mesh α) (name : String) (subregion : Region α) :
    Except (MeshFault α) Unit := do
  if !Text.isIdentifier name || takenNames.contains name then .error (.subregionName name)
  subregion.validate.mapError .region
  if !mesh.region.contains subregion mesh.tolerance then .error (.subregionBounds name)

/-- Accept letters of axes only. -/
def validatePeriodic (mesh : Mesh α) : Except (MeshFault α) Unit :=
  match mesh.periodic.toList.find? fun letter => (Axis.ofLetter? letter).isNone with
  | some letter => .error (.periodicAxis mesh.periodic letter)
  | none => .ok ()

/-- Accept a usable mesh: its region, its cells, its subregions in order and its periodic axes. -/
def validate (mesh : Mesh α) : Except (MeshFault α) Unit := do
  mesh.region.validate.mapError .region
  Axis.all.forM mesh.validateCell
  mesh.subregions.entries.forM fun entry => mesh.validateSubregion entry.1 entry.2
  mesh.validatePeriodic

/-- A mesh with other numbers for its lengths. -/
def map {α β : Type} (f : α → β) (mesh : Mesh α) : Mesh β where
  region := mesh.region.map f
  cell := mesh.cell.map f
  subregions := mesh.subregions.mapValues fun _ region => region.map f
  periodic := mesh.periodic

/-- A usable mesh without subregions and periodic axes. -/
def make (region : Region α) (cell : Triple α) : Except (MeshFault α) (Mesh α) := do
  let mesh : Mesh α := { region, cell }
  mesh.validate
  return mesh

/-- A usable mesh with one subregion added or replaced. -/
def withSubregion (mesh : Mesh α) (name : String) (region : Region α) :
    Except (MeshFault α) (Mesh α) := do
  let changed := { mesh with subregions := mesh.subregions.insert name region }
  changed.validate
  return changed

/-- A usable mesh with other periodic axes. -/
def withPeriodic (mesh : Mesh α) (periodic : String) : Except (MeshFault α) (Mesh α) := do
  let changed := { mesh with periodic }
  changed.validate
  return changed

end Mesh

/-- The sentence of a mesh that is not usable. -/
def MeshFault.fault : MeshFault Float → Fault
  | .region cause => cause.fault
  | .cellSize axis size =>
    .invalid "INPUT.MESH_CELL"
      s!"cell size along {axis.letter} must be positive, got {show64 size}"
  | .cellCount axis edge size =>
    .invalid "INPUT.MESH_CELL"
      (s!"region edge {show64 edge} along {axis.letter} is not an integer multiple of " ++
        s!"cell size {show64 size}")
  | .subregionName name =>
    .invalid "INPUT.SUBREGION_NAME" s!"subregion name '{name}' is not usable as an atlas region"
  | .subregionBounds name =>
    .invalid "INPUT.SUBREGION_BOUNDS" s!"subregion '{name}' lies outside the mesh region"
  | .periodicAxis periodic letter =>
    .invalid "INPUT.MESH_BC"
      s!"boundary condition '{periodic}' contains unknown axis '{letter}'"

end Micromag

/-!
## Shared faces

Two boxes share a face across an axis when one ends where the other begins, within the tolerance of
the mesh, and they overlap by more than the tolerance along the two other axes. Their bounds are
compared in the arithmetic of the scalars that they are read as.
-/

namespace Micromag

/-- Two named boxes that touch: the first ends where the second begins. -/
structure SharedFace (α : Type) where
  /-- The axis across which they touch. -/
  axis : Axis
  /-- The box below the face. -/
  first : String × Region α
  /-- The box above the face. -/
  second : String × Region α

namespace SharedFace

variable {α : Type} [Scalar α]

/-- The length along an axis that two boxes have in common. -/
def overlap (a b : Region α) (axis : Axis) : α :=
  Scalar.least (a.upper.along axis) (b.upper.along axis) -
    Scalar.most (a.lower.along axis) (b.lower.along axis)

/-- Whether two boxes overlap along the axes other than one. -/
def overlapAcross (tolerance : α) (a b : Region α) (axis : Axis) : Bool :=
  axis.others.all fun other => decide (tolerance < overlap a b other)

/-- Whether one box ends where another begins. -/
def meets (tolerance : α) (a b : Region α) (axis : Axis) : Bool :=
  decide (Scalar.magnitude (a.upper.along axis - b.lower.along axis) ≤ tolerance)

variable {β : Type} [Scalar β]

/-- The face that two boxes share across an axis, if they do. -/
def across? (read : α → β) (tolerance : β) (a b : String × Region α) (axis : Axis) :
    Option (SharedFace α) :=
  if !overlapAcross tolerance (a.2.map read) (b.2.map read) axis then none
  else if meets tolerance (a.2.map read) (b.2.map read) axis then some ⟨axis, a, b⟩
  else if meets tolerance (b.2.map read) (a.2.map read) axis then some ⟨axis, b, a⟩
  else none

/-- The faces that two boxes share. -/
def all (read : α → β) (tolerance : β) (a b : String × Region α) : List (SharedFace α) :=
  Axis.all.filterMap (across? read tolerance a b)

/-- The face that two boxes share, if there is exactly one. -/
def only? (read : α → β) (tolerance : β) (a b : String × Region α) : Option (SharedFace α) :=
  match all read tolerance a b with
  | [face] => some face
  | _ => none

/-- The coordinate at which the first box ends. -/
def firstEnd (face : SharedFace α) : α := face.first.2.upper.along face.axis

/-- The coordinate at which the second box begins. -/
def secondStart (face : SharedFace α) : α := face.second.2.lower.along face.axis

end SharedFace

end Micromag
