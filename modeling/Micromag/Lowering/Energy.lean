import Micromag.Lowering.Parameter
import Micromag.Mesh
import Micromag.Script.Procedure
import Micromag.Table.Basic

/-!
# Lowering energy terms

Every term becomes one block under the name of the term, after the objects of its parameters, which
have the term's name in front of their own. Couplings between regions are tables of unordered pairs.
-/

namespace Micromag

open Script

/-- The coupling of an unordered pair of regions. -/
structure PairValue where
  /-- The smaller name. -/
  first : String
  /-- The larger name. -/
  second : String
  /-- The value. -/
  value : Float

namespace PairValue

/-- Order by the first and then by the second name. -/
def below (a b : PairValue) : Bool :=
  decide (a.first < b.first) || a.first = b.first && decide (a.second < b.second)

/-- Whether two values are for the same pair. -/
def samePair (a b : PairValue) : Bool := a.first = b.first && a.second = b.second

/-- Put a pair in its place among ordered pairs; nothing if the pair is there already. -/
def insert? (pair : PairValue) : List PairValue → Option (List PairValue)
  | [] => some [pair]
  | head :: rest =>
    if pair.samePair head then none
    else if pair.below head then some (pair :: head :: rest)
    else (insert? pair rest).map (head :: ·)

/-- The two regions of a key: what stands around its first colon, or one region with itself. -/
def regionsOf (key : String) : String × String :=
  let (first, second) := (Table.splitFirstColon? key.toList).getD (key.toList, key.toList)
  (String.ofList (Text.trim first), String.ofList (Text.trim second))

/-- The pair of an entry of a region map. -/
def ofEntry (site : Site) (name : String) (entry : String × RegionValue) :
    Except Fault PairValue := do
  let (first, second) := regionsOf entry.1
  Parameter.checkRegion site name first
  Parameter.checkRegion site name second
  match entry.2 with
  | .vector _ => .error (ParameterFault.pairArity entry.1 name).fault
  | .scalar value =>
    if first ≤ second then return ⟨first, second, value⟩ else return ⟨second, first, value⟩

/-- The pairs of the entries of a region map, put among ordered pairs. -/
def collect (site : Site) (name : String) (pairs : List PairValue) :
    List (String × RegionValue) → Except Fault (List PairValue)
  | [] => .ok pairs
  | entry :: rest => do
    let pair ← ofEntry site name entry
    match pair.insert? pairs with
    | none => .error (ParameterFault.repeatedPair name pair.first pair.second).fault
    | some pairs => collect site name pairs rest

/-- The row of a pair. -/
def row (pair : PairValue) : Except Fault (List Word) := do
  return [.text pair.first, .text pair.second, ← numberWord pair.value]

/-- The rows of a region map of pairs, in order. -/
def table (site : Site) (map : RegionMap) (name : String) : Except Fault (List (List Word)) := do
  (← collect site name [] map.values.entries).mapM row

/-- The unordered pairs of names in a list, each with itself and with those after it. -/
def pairsOf : List String → List (String × String)
  | [] => []
  | name :: rest => (name :: rest).map (name, ·) ++ pairsOf rest

end PairValue

/-- The number elsewhere of a region map of pairs. -/
def RegionMap.pairFallback (map : RegionMap) (name : String) : Except Fault Float :=
  match map.fallback with
  | none => .ok 0
  | some (.scalar value) => .ok value
  | some (.vector _) => .error (ParameterFault.fallbackArity name).fault

namespace Term

/-- The name of the object of one of a term's parameters. -/
def parameterName (name key : String) : String := name ++ "_" ++ key

/-- The block of a term. -/
def item (className name : String) (entries : List Script.Entry) : Item :=
  .object className name entries

/-- The items of an exchange term. -/
def exchangeItems (site : Site) (name : String) (constant : Parameter) : Lowering (List Item) :=
  match constant with
  | .constant a => do
    if !(0 < a) then
      Lowering.fail (.invalid "INPUT.EXCHANGE_A"
        s!"exchange constant of '{name}' must be positive, got {show64 a}")
    return [item "Oxs_UniformExchange" name [.setting "A" (← numberWord a)]]
  | .perRegion map => do
    let rows ← PairValue.table site map name
    let fallback ← numberWord (← map.pairFallback name)
    return [item "Oxs_Exchange6Ngbr" name
      [.setting "default_A" fallback, Mesh.mainAtlas, .table "A" rows]]
  | .field _ => do
    let a ← constant.lowerScalar site (parameterName name "A")
    return a.items ++ [item "Oxs_ExchangePtwise" name [.setting "A" a.token]]
  | .vector _ =>
    Lowering.fail (.invalid "INPUT.PARAMETER_ARITY"
      s!"exchange constant of '{name}' must be a scalar")

/-- The items of an applied field. -/
def zeemanItems (site : Site) (name : String) (field : Parameter) (wave : Option Wave)
    (frequency delay : Option Float) : Lowering (List Item) := do
  let h ← field.lowerVector site (parameterName name "H")
  let procedureName := "TimeFunction_" ++ name
  match waveProcedure? procedureName (wave.getD .constant) with
  | none => return h.items ++ [item "Oxs_FixedZeeman" name [.setting "field" h.token]]
  | some procedure =>
    match frequency with
    | none =>
      Lowering.fail (.badTerm "INPUT.ZEEMAN_WAVE"
        s!"time-varying Zeeman term '{name}' needs a frequency f")
    | some f =>
      let f ← number f
      let t0 ← number (delay.getD 0)
      return h.items ++ [.procedure procedure,
        item "Oxs_TransformZeeman" name
          [.setting "type" (.text "diagonal"),
            .setting "script_args"
              (.group [.text "stage", .text "stage_time", .text "total_time"]),
            .setting "script" (.group [.text procedureName, f, t0]),
            .setting "field" h.token]]

/-- The item of the demagnetising field. -/
def demagItems (name : String) (radius : Option Float) : Lowering (List Item) :=
  match radius with
  | none => return [item "Oxs_Demag" name []]
  | some radius => do
    return [item "Oxs_Demag" name [.setting "asymptotic_radius" (← numberWord radius)]]

/-- The class of antisymmetric exchange for a crystal class; one platform has only one of them. -/
def dmiClass (crystal : CrystalClass) (platform : Platform) : Except Fault String :=
  match platform, crystal with
  | .unix, .cnv => .ok "Oxs_DMI_Cnv"
  | .unix, .t | .unix, .o => .ok "Oxs_DMI_T"
  | .unix, .d2d => .ok "Oxs_DMI_D2d"
  | .windows, .cnv => .ok "Oxs_DMExchange6Ngbr"
  | .windows, other =>
    .error ⟨.unsupportedOnPlatform, "INPUT.DMI_CRYSTALCLASS",
      s!"DMI crystal class {other.name} is not available on {platform.name}", none⟩

/-- The regions between which a constant is written out. -/
def coupledNames (mesh : Mesh Float) : List String :=
  if mesh.subregions.isEmpty then ["main"] else mesh.subregions.keys

/-- The number elsewhere and the rows of the constant of antisymmetric exchange. -/
def dmiRows (site : Site) (name : String) (constant : Parameter) :
    Except Fault (Float × List (List Word)) :=
  match constant with
  | .constant d => do
    let value ← numberWord d
    return (d, (PairValue.pairsOf (coupledNames site.mesh)).map fun pair =>
      [.text pair.1, .text pair.2, value])
  | .perRegion map => do
    let fallback ← map.pairFallback name
    return (fallback, ← PairValue.table site map name)
  | other =>
    .error (.invalid "INPUT.DMI_D"
      (s!"DMI constant of '{name}' must be a constant or per-region map, " ++
        s!"got a {other.kindName}"))

/-- The item of antisymmetric exchange. -/
def dmiItems (site : Site) (name : String) (constant : Parameter) (crystal : CrystalClass) :
    Lowering (List Item) := do
  let className ← dmiClass crystal site.platform
  let (fallback, rows) ← dmiRows site name constant
  return [item className name
    [.setting "default_D" (← numberWord fallback), Mesh.mainAtlas, .table "D" rows]]

/-- The items of an anisotropy about one axis. -/
def uniaxialItems (site : Site) (name : String) (k1 : Parameter) (k2 : Option Parameter)
    (axis : Parameter) : Lowering (List Item) := do
  let k1 ← k1.lowerScalar site (parameterName name "K1")
  let axis ← axis.lowerVector site (parameterName name "u")
  match k2 with
  | none =>
    return k1.items ++ axis.items ++
      [item "Oxs_UniaxialAnisotropy" name [.setting "K1" k1.token, .setting "axis" axis.token]]
  | some k2 =>
    let k2 ← k2.lowerScalar site (parameterName name "K2")
    return k1.items ++ axis.items ++ k2.items ++
      [item "Southampton_UniaxialAnisotropy4" name
        [.setting "K1" k1.token, .setting "K2" k2.token, .setting "axis" axis.token]]

/-- The items of a cubic anisotropy. -/
def cubicItems (site : Site) (name : String) (k1 axis1 axis2 : Parameter) :
    Lowering (List Item) := do
  let k1 ← k1.lowerScalar site (parameterName name "K1")
  let axis1 ← axis1.lowerVector site (parameterName name "u1")
  let axis2 ← axis2.lowerVector site (parameterName name "u2")
  return k1.items ++ axis1.items ++ axis2.items ++
    [item "Oxs_CubicAnisotropy" name
      [.setting "K1" k1.token, .setting "axis1" axis1.token, .setting "axis2" axis2.token]]

/-- The items of a coupling to strain. -/
def magnetoElasticItems (site : Site) (name : String)
    (b1 b2 diagonal offDiagonal : Parameter) : Lowering (List Item) := do
  let b1 ← b1.lowerScalar site (parameterName name "B1")
  let b2 ← b2.lowerScalar site (parameterName name "B2")
  let diagonal ← diagonal.lowerVector site (parameterName name "e_diag")
  let offDiagonal ← offDiagonal.lowerVector site (parameterName name "e_offdiag")
  return b1.items ++ b2.items ++ diagonal.items ++ offDiagonal.items ++
    [item "YY_FixedMEL" name
      [.setting "B1" b1.token, .setting "B2" b2.token,
        .setting "e_diag_field" diagonal.token, .setting "e_offdiag_field" offDiagonal.token]]

/-- A subregion of the mesh that a term names. -/
def subregion (site : Site) (name subregion : String) : Except Fault (Region Float) :=
  match site.mesh.subregions.get? subregion with
  | some region => .ok region
  | none => .error (TermFault.unknownSubregion name subregion).fault

/-- The face shared by two subregions that a term couples, with lengths compared as the scalars that
they are read as. -/
def sharedFace {α : Type} [Scalar α] (read : Float → α) (site : Site)
    (name first second : String) : Except Fault (SharedFace Float) := do
  let a ← subregion site name first
  let b ← subregion site name second
  match SharedFace.only? read (site.mesh.map read).tolerance (first, a) (second, b) with
  | some face => return face
  | none =>
    .error (.badTerm "INPUT.RKKY_GEOMETRY"
      s!"subregions '{first}' and '{second}' of term '{name}' must share exactly one face")

/-- The unit vector along an axis. -/
def unitVector (axis : Axis) : Triple Float := .ofFn fun other => if other = axis then 1 else 0

/-- One side of a coupled face: where a linear field passes a value, coming from a side. -/
def surface (key fieldName region : String) (value : Float) (side : String) :
    Except Fault Script.Entry := do
  return .table key
    [[.text "atlas", .reference "main_atlas"], [.text "region", .text region],
      [.text "scalarfield", .reference fieldName], [.text "scalarvalue", ← numberWord value],
      [.text "scalarside", .text side]]

/-- The items of a coupling across a face: a field that grows across it, and the coupling of the two
surfaces at which the field passes the coordinates of the face. -/
def faceItems (name : String) (sigma sigma2 : Float) (face : SharedFace Float) :
    Except Fault (List Item) := do
  let fieldName := parameterName name "field"
  let direction ← vectorWord (unitVector face.axis)
  let sigma ← numberWord sigma
  let sigma2 ← numberWord sigma2
  let surface1 ← surface "surface1" fieldName face.first.1 face.firstEnd "-"
  let surface2 ← surface "surface2" fieldName face.second.1 face.secondStart "+"
  return [item "Oxs_LinearScalarField" fieldName
      [.setting "vector" direction, .setting "norm" (.text "1")],
    item "Oxs_TwoSurfaceExchange" name
      [.setting "sigma" sigma, .setting "sigma2" sigma2, surface1, surface2]]

/-- The items of a coupling of two subregions, with lengths compared as the scalars that they are
read as. -/
def rkkyItems {α : Type} [Scalar α] (read : Float → α) (site : Site) (name : String)
    (sigma sigma2 : Float) (first second : String) : Lowering (List Item) := do
  let face ← sharedFace read site name first second
  faceItems name sigma sigma2 face

/-- The items of a term. -/
def items (site : Site) (term : Term) : Lowering (List Item) :=
  match term.interaction with
  | .exchange constant => exchangeItems site term.name constant
  | .zeeman field wave frequency delay => zeemanItems site term.name field wave frequency delay
  | .demag radius => demagItems term.name radius
  | .dmi constant crystal => dmiItems site term.name constant crystal
  | .uniaxial k1 k2 axis => uniaxialItems site term.name k1 k2 axis
  | .cubic k1 axis1 axis2 => cubicItems site term.name k1 axis1 axis2
  | .magnetoElastic b1 b2 diagonal offDiagonal =>
    magnetoElasticItems site term.name b1 b2 diagonal offDiagonal
  | .rkky sigma sigma2 first second => rkkyItems id site term.name sigma sigma2 first second

end Term

/-- The items of all terms in order. -/
def Energy.items (site : Site) : Energy → Lowering (List Item)
  | [] => return []
  | term :: rest => do
    let first ← term.items site
    return first ++ (← Energy.items site rest)

end Micromag
