import Micromag.Mesh

/-!
# Fields

A field holds one number or one vector for each cell of a mesh. The values are listed cell by cell
in the order of the centres, the components of a vector next to each other.
-/

namespace Micromag

/-- Values on the cells of a mesh. -/
structure Field (α : Type) where
  /-- The mesh that carries the values. -/
  mesh : Mesh α
  /-- The number of components in a cell. -/
  dim : Nat
  /-- The components, cell by cell. -/
  values : List α

/-- Why a field cannot be used. -/
inductive FieldFault (α : Type) where
  /-- The number of components is neither one nor three. -/
  | components (dim : Nat)
  /-- There are more or fewer values than the mesh needs. -/
  | length (found needed : Nat)
  /-- A value is infinite or no number. -/
  | value (x : α)
  /-- A function of the centre gave the wrong number of components. -/
  | centreComponents (found : Nat) (centre : Triple α) (expected : Nat)
  /-- Only vectors have a direction to keep. -/
  | notVector
  /-- The values of a field of another shape cannot be taken over. -/
  | shape (dim : Nat) (counts : Triple Nat) (ownDim : Nat) (ownCounts : Triple Nat)

namespace Field

variable {α : Type} [Scalar α]

/-- The number of values that a field of this dimension needs. -/
def needed (field : Field α) : Nat := field.mesh.cellCount * field.dim % 2 ^ 64

/-- Accept a field with one or three components, as many values as the mesh needs, all finite. -/
def validate (field : Field α) : Except (FieldFault α) Unit := do
  if field.dim ≠ 1 && field.dim ≠ 3 then .error (.components field.dim)
  if field.values.length ≠ field.needed then .error (.length field.values.length field.needed)
  match field.values.find? fun x => !Scalar.isFinite x with
  | some x => .error (.value x)
  | none => .ok ()

/-- A usable field. -/
def make (mesh : Mesh α) (dim : Nat) (values : List α) : Except (FieldFault α) (Field α) := do
  let field : Field α := { mesh, dim, values }
  field.validate
  return field

/-- The field with the same components in every cell. -/
def uniform (mesh : Mesh α) (value : List α) : Except (FieldFault α) (Field α) :=
  make mesh value.length (List.replicate mesh.cellCount value).flatten

/-- The components of every centre in order, if a function gives the expected number everywhere. -/
def sample (dim : Nat) (value : Triple α → List α) :
    List (Triple α) → Except (FieldFault α) (List α)
  | [] => .ok []
  | centre :: rest =>
    let components := value centre
    if components.length = dim then (sample dim value rest).map (components ++ ·)
    else .error (.centreComponents components.length centre dim)

/-- The field of a function of the centre of a cell. -/
def ofFn (mesh : Mesh α) (dim : Nat) (value : Triple α → List α) :
    Except (FieldFault α) (Field α) := do
  make mesh dim (← sample dim value mesh.centres)

/-- The values grouped into cells; an incomplete last cell is left out. -/
def chunksFrom (dim : Nat) : Nat → List α → List (List α)
  | 0, _ => []
  | fuel + 1, values =>
    if dim = 0 || values.length < dim then []
    else values.take dim :: chunksFrom dim fuel (values.drop dim)

/-- The components of each complete cell. -/
def cells (field : Field α) : List (List α) :=
  chunksFrom field.dim field.values.length field.values

/-- The magnitude of the components of a cell. -/
def cellNorm (components : List α) : α :=
  Scalar.root (components.foldl (fun sum c => sum + c * c) 0.0)

/-- The magnitude of every cell. -/
def norm (field : Field α) : List α := field.cells.map cellNorm

/-- A vector brought to a magnitude; a vector without direction stays. -/
def scaleTo (norm : α) (components : List α) : List α :=
  let magnitude := cellNorm components
  if 0.0 < magnitude then components.map (· * (norm / magnitude)) else components

/-- The field with every vector that has a direction brought to a magnitude. -/
def normalised (field : Field α) (norm : α) : Except (FieldFault α) (Field α) :=
  if field.dim = 3 then
    let complete := field.cells
    .ok { field with
      values := (complete.map (scaleTo norm)).flatten ++ field.values.drop (3 * complete.length) }
  else .error .notVector

/-- The mean of each component over the cells of the mesh. -/
def average (field : Field α) : List α :=
  let zero : List α := List.replicate field.dim 0.0
  let sums := field.cells.foldl (List.zipWith (· + ·)) zero
  sums.map (· / Scalar.ofNat (max field.mesh.cellCount 1))

/-- The field with the values of another field of the same shape. -/
def assign (field other : Field α) : Except (FieldFault α) (Field α) :=
  if other.dim = field.dim && other.mesh.counts = field.mesh.counts then
    .ok { field with values := other.values }
  else .error (.shape other.dim other.mesh.counts field.dim field.mesh.counts)

end Field

/-- The sentence of a field that cannot be used. -/
def FieldFault.fault : FieldFault Float → Fault
  | .components dim =>
    .invalid "INPUT.FIELD_DIM" s!"field must have 1 or 3 components, got {dim}"
  | .length found needed =>
    .invalid "INPUT.FIELD_LENGTH" s!"field holds {found} values, mesh needs {needed}"
  | .value x => .invalid "INPUT.FIELD_VALUE" s!"field contains non-finite value {show64 x}"
  | .centreComponents found centre expected =>
    .invalid "INPUT.FIELD_DIM"
      (s!"field function returned {found} components at {listedFloats centre.toList}, " ++
        s!"expected {expected}")
  | .notVector => .invalid "INPUT.FIELD_DIM" "only vector fields can be normalised"
  | .shape dim counts ownDim ownCounts =>
    .parse "RUN.FIELD_SHAPE"
      (s!"field with {dim} components on {listedCounts counts.toList} cells cannot replace " ++
        s!"{ownDim} components on {listedCounts ownCounts.toList} cells")

end Micromag

/-!
## Formats of field files

The values of a field file are text or binary numbers of four or eight bytes.
-/

namespace Micromag

/-- How the values of a field file are written. -/
inductive FieldFormat where
  | text
  | binary4
  | binary8
deriving DecidableEq, Repr, Inhabited

namespace FieldFormat

/-- The name of a format. -/
def name : FieldFormat → String
  | text => "text"
  | binary4 => "binary4"
  | binary8 => "binary8"

/-- The format of a name in documents. -/
def ofName? : String → Option FieldFormat
  | "text" => some text
  | "binary4" => some binary4
  | "binary8" => some binary8
  | _ => none

/-- The format that a word asks for, long or short and in any case. -/
def ofWord? (word : String) : Option FieldFormat :=
  match String.ofList (word.toList.map Char.toLower) with
  | "text" => some text
  | "binary4" | "bin4" => some binary4
  | "binary8" | "bin8" => some binary8
  | _ => none

/-- The sentence for a word that asks for no format. -/
def unknown (word : String) : String :=
  let lower := String.ofList (word.toList.map Char.toLower)
  s!"unknown field format '{lower}', expected binary4, binary8 or text"

/-- The output option of a script that asks the engine for this format. -/
def engineOption : FieldFormat → String
  | text => "text %#.15g"
  | binary4 => "binary 4"
  | binary8 => "binary 8"

/-- The label of the data block of a file. -/
def dataLabel : FieldFormat → String
  | text => "Text"
  | binary4 => "Binary 4"
  | binary8 => "Binary 8"

end FieldFormat

end Micromag
