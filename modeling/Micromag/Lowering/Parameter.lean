import Micromag.Lowering.Mesh

/-!
# Lowering a parameter

A constant is written where it is used. A value for each region becomes a field object over the main
atlas, and a value for each cell becomes a field object that reads a file. The place of use then
refers to the object. The engine reads vectors from files only, so a file of numbers holds vectors
along the first axis and a second object takes their magnitudes.
-/

namespace Micromag

open Script

/-- Why a parameter cannot be lowered. -/
inductive ParameterFault where
  /-- Numbers are given for vectors, or vectors for numbers. -/
  | arity (name expected given : String)
  /-- The value elsewhere is no number. -/
  | fallbackArity (name : String)
  /-- The value of a pair is no number. -/
  | pairArity (key name : String)
  /-- A region is not in the mesh. -/
  | unknownRegion (name region known : String)
  /-- A pair of regions has two values. -/
  | repeatedPair (name first second : String)
  /-- A field has the wrong number of components. -/
  | components (name : String) (found expected : Nat)
  /-- A field is given on other cells. -/
  | cells (name : String) (found expected : Triple Nat)

/-- The sentence of a parameter that cannot be lowered. -/
def ParameterFault.fault : ParameterFault → Fault
  | .arity name expected given =>
    .invalid "INPUT.PARAMETER_ARITY" s!"'{name}' must be a {expected} parameter, got a {given}"
  | .fallbackArity name =>
    .invalid "INPUT.PARAMETER_ARITY" s!"default of '{name}' must be a scalar"
  | .pairArity key name =>
    .invalid "INPUT.PARAMETER_ARITY" s!"entry '{key}' of '{name}' must be a scalar"
  | .unknownRegion name region known =>
    .invalid "INPUT.REGION_KEY"
      s!"'{name}' refers to region '{region}', expected one of {known}"
  | .repeatedPair name first second =>
    .invalid "INPUT.REGION_PAIR"
      s!"'{name}' sets the coupling between '{first}' and '{second}' more than once"
  | .components name found expected =>
    .invalid "INPUT.PARAMETER_ARITY"
      s!"field for '{name}' has {found} components, expected {expected}"
  | .cells name found expected =>
    .invalid "INPUT.PARAMETER_MESH"
      (s!"field for '{name}' is defined on {listedCounts found.toList} cells, " ++
        s!"problem mesh has {listedCounts expected.toList}")

/-- What a place in a script accepts. -/
inductive Arity where
  | scalar
  | vector
deriving DecidableEq, Repr

namespace Arity

/-- What a parameter of this arity is called. -/
def name : Arity → String
  | scalar => "scalar"
  | vector => "vector"

/-- The number of components. -/
def dim : Arity → Nat
  | scalar => 1
  | vector => 3

/-- The class of a field object with a value for each region. -/
def regionClass : Arity → String
  | scalar => "Oxs_AtlasScalarField"
  | vector => "Oxs_AtlasVectorField"

/-- The value where nothing is said. -/
def zero : Arity → RegionValue
  | scalar => .scalar 0
  | vector => .vector (.fill 0)

/-- Whether a value has this arity. -/
def accepts : Arity → RegionValue → Bool
  | scalar, .scalar _ => true
  | vector, .vector _ => true
  | _, _ => false

end Arity

/-- A number or a vector as a word. -/
def RegionValue.word : RegionValue → Except Fault Word
  | scalar x => numberWord x
  | vector v => vectorWord v

/-- A lowered parameter: what has to be declared before its use, and the word to use. -/
structure LoweredParameter where
  /-- The declarations. -/
  items : List Item
  /-- The word that stands for the parameter. -/
  token : Word

namespace Parameter

/-- Accept a name of a region of the mesh. -/
def checkRegion (site : Site) (name region : String) : Except Fault Unit :=
  if site.mesh.regionNames.contains region then .ok ()
  else .error (ParameterFault.unknownRegion name region site.mesh.listedNames).fault

/-- A value of the wanted arity as a word. -/
def arityWord (arity : Arity) (name kind : String) (value : RegionValue) : Except Fault Word :=
  if arity.accepts value then value.word
  else .error (ParameterFault.arity name arity.name kind).fault

/-- The row of one region. -/
def regionRow (arity : Arity) (site : Site) (name kind : String) (entry : String × RegionValue) :
    Except Fault (List Word) := do
  checkRegion site name entry.1
  return [.text entry.1, ← arityWord arity name kind entry.2]

/-- The field object of a region map. -/
def regionItem (arity : Arity) (site : Site) (name : String) (map : RegionMap) :
    Except Fault Item := do
  let kind := (Parameter.perRegion map).kindName
  let rows ← map.values.entries.mapM (regionRow arity site name kind)
  let fallback ← arityWord arity name kind (map.fallback.getD arity.zero)
  return .object arity.regionClass name
    [Mesh.mainAtlas, .setting "default_value" fallback, .table "values" rows]

/-- The name of the file of a cell-wise parameter. -/
def fileName (name : String) : String := name ++ ".ovf"

/-- The object that takes the magnitudes of a vector field. -/
def normName (name : String) : String := name ++ "_norm"

/-- A vector field object that reads a file. -/
def fileItem (name file : String) : Item :=
  .object "Oxs_FileVectorField" name [.setting "file" (.text file), Mesh.mainAtlas]

/-- A number field object with the magnitudes of a vector field object. -/
def normItem (name : String) : Item :=
  .object "Oxs_VecMagScalarField" (normName name) [.setting "field" (.reference name)]

/-- Accept a field with the wanted number of components, usable, on the cells of the mesh. -/
def checkField (arity : Arity) (site : Site) (name : String) (field : Field Float) :
    Except Fault Unit := do
  if field.dim ≠ arity.dim then .error (ParameterFault.components name field.dim arity.dim).fault
  field.validate.mapError FieldFault.fault
  if field.mesh.counts ≠ site.mesh.counts then
    .error (ParameterFault.cells name field.mesh.counts site.mesh.counts).fault

/-- A parameter that is the same everywhere. -/
def constantWord (arity : Arity) (name kind : String) (value : RegionValue) :
    Except Fault LoweredParameter := do
  return ⟨[], ← arityWord arity name kind value⟩

/-- Lower a parameter for a place of some arity, under a name for its objects. -/
def lower (arity : Arity) (site : Site) (value : Parameter) (name : String) :
    Lowering LoweredParameter :=
  match value with
  | constant x => constantWord arity name value.kindName (.scalar x)
  | vector v => constantWord arity name value.kindName (.vector v)
  | perRegion map => do
    let item ← regionItem arity site name map
    return ⟨[item], .reference name⟩
  | field f => do
    checkField arity site name f
    Lowering.attach ⟨fileName name, f, arity = .scalar⟩
    match arity with
    | .scalar =>
      return ⟨[fileItem name (fileName name), normItem name], .reference (normName name)⟩
    | .vector => return ⟨[fileItem name (fileName name)], .reference name⟩

/-- Lower a parameter for a place that accepts numbers. -/
def lowerScalar (site : Site) (value : Parameter) (name : String) : Lowering LoweredParameter :=
  lower .scalar site value name

/-- Lower a parameter for a place that accepts vectors. -/
def lowerVector (site : Site) (value : Parameter) (name : String) : Lowering LoweredParameter :=
  lower .vector site value name

end Parameter

end Micromag
