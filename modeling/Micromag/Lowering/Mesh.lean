import Micromag.Lowering.Basic

/-!
# Lowering a mesh

The engine divides space by atlases. An undivided region is one box; otherwise every subregion is a
box, the whole region is a last box, and a list of all of them decides by the first that holds a
point. The cells are declared after the atlas.
-/

namespace Micromag.Mesh

open Script

/-- The option of a range along each axis. -/
def rangeKey : Axis → String
  | .x => "xrange"
  | .y => "yrange"
  | .z => "zrange"

/-- The bounds of a box along each axis. -/
def ranges (region : Region Float) : Except Fault (List Script.Entry) :=
  Axis.all.mapM fun axis => do
    return .setting (rangeKey axis)
      (← numbers [region.lower.along axis, region.upper.along axis])

/-- The name of the atlas of a region. -/
def atlasName (region : String) : String := region ++ "_atlas"

/-- A box with the name of its region. -/
def box (instanceName name : String) (region : Region Float) : Except Fault Item := do
  return .object "Oxs_BoxAtlas" instanceName
    ((← ranges region) ++ [.setting "name" (.text name)])

/-- The atlases of a mesh; the last one is the main atlas. -/
def atlasItems (mesh : Mesh Float) : Except Fault (List Item) :=
  if mesh.subregions.isEmpty then do
    return [← box "main_atlas" "main" mesh.region]
  else do
    let boxes ← mesh.subregions.entries.mapM fun entry =>
      box (atlasName entry.1) entry.1 entry.2
    let rest ← box (atlasName "entire") "entire" mesh.region
    let parts := (mesh.subregions.keys ++ ["entire"]).map fun name =>
      Script.Entry.setting "atlas" (.reference (atlasName name))
    let whole ← ranges mesh.region
    return boxes ++ [rest, .object "Oxs_MultiAtlas" "main_atlas" (parts ++ whole)]

/-- The option that refers to the main atlas. -/
def mainAtlas : Script.Entry := .setting "atlas" (.reference "main_atlas")

/-- The cells of a mesh. -/
def cellItem (mesh : Mesh Float) : Except Fault Item := do
  let size := Script.Entry.setting "cellsize" (← vectorWord mesh.cell)
  if mesh.periodicAxes.isEmpty then return .object "Oxs_RectangularMesh" "mesh" [size, mainAtlas]
  else
    return .object "Oxs_PeriodicRectangularMesh" "mesh"
      [size, mainAtlas, .setting "periodic" (.text mesh.periodicAxes)]

/-- The items of a mesh: its atlases and its cells. -/
def items (mesh : Mesh Float) : Except Fault (List Item) := do
  let atlases ← mesh.atlasItems
  return atlases ++ [← mesh.cellItem]

end Micromag.Mesh
