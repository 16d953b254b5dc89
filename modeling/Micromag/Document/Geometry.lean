import Micromag.Field
import Micromag.Json.Record
import Micromag.Parameter

/-!
# Documents of geometry and parameters
-/

/-!
## Documents of geometry

Regions, meshes and fields as records. A mesh without subregions or without periodic axes is written
without them. Reading checks the form only.
-/

namespace Micromag

namespace Region

/-- A region as a document. -/
def toDocument (region : Region Float) : Json :=
  .object [("p1", .ofTriple .number region.lower), ("p2", .ofTriple .number region.upper)]

/-- The region of a document. -/
def ofDocument? (json : Json) : Option (Region Float) := do
  let record ← json.record? [.needed "p1", .needed "p2"]
  return {
    lower := ← record.needed "p1" (Json.triple? Json.float?)
    upper := ← record.needed "p2" (Json.triple? Json.float?) }

end Region

namespace Mesh

/-- A mesh as a document. -/
def toDocument (mesh : Mesh Float) : Json :=
  .object ([("region", mesh.region.toDocument), ("cell", .ofTriple .number mesh.cell)] ++
    (if mesh.subregions.isEmpty then []
      else [("subregions", .ofKeyed Region.toDocument mesh.subregions)]) ++
    (if mesh.periodic.isEmpty then [] else [("bc", .string mesh.periodic)]))

/-- The mesh of a document. -/
def ofDocument? (json : Json) : Option (Mesh Float) := do
  let record ← json.record?
    [.needed "region", .needed "cell", .defaulted "subregions", .defaulted "bc"]
  return {
    region := ← record.needed "region" Region.ofDocument?
    cell := ← record.needed "cell" (Json.triple? Json.float?)
    subregions := ← record.defaulted "subregions" (Json.keyed? Region.ofDocument?) .empty
    periodic := ← record.defaulted "bc" Json.string? "" }

end Mesh

namespace Field

/-- A field as a document. -/
def toDocument (field : Field Float) : Json :=
  .object [("mesh", field.mesh.toDocument), ("dim", .ofCount field.dim),
    ("values", .ofList .number field.values)]

/-- The field of a document. -/
def ofDocument? (json : Json) : Option (Field Float) := do
  let record ← json.record? [.needed "mesh", .needed "dim", .needed "values"]
  return {
    mesh := ← record.needed "mesh" Mesh.ofDocument?
    dim := ← record.needed "dim" Json.count?
    values := ← record.needed "values" (Json.list? Json.float?) }

end Field

end Micromag

/-!
## Documents of parameters

A parameter carries no name of its kind: a number, three numbers, an object of numbers and triples,
or a field. They are tried in this order.
-/

namespace Micromag

namespace RegionValue

/-- A value as a document. -/
def toDocument : RegionValue → Json
  | scalar x => .number x
  | vector v => .ofTriple .number v

/-- The value of a document. -/
def ofDocument? (json : Json) : Option RegionValue :=
  (json.float?.map scalar) <|> ((json.triple? Json.float?).map vector)

end RegionValue

namespace RegionMap

/-- A region map as one object, the value elsewhere among the others. -/
def toDocument (map : RegionMap) : Json := .ofKeyed RegionValue.toDocument map.toEntries

/-- The region map of a document. -/
def ofDocument? (json : Json) : Option RegionMap :=
  (json.keyed? RegionValue.ofDocument?).map ofEntries

end RegionMap

namespace Parameter

/-- A parameter as a document. -/
def toDocument : Parameter → Json
  | constant x => .number x
  | vector v => .ofTriple .number v
  | perRegion map => map.toDocument
  | field f => f.toDocument

/-- The parameter of a document. -/
def ofDocument? (json : Json) : Option Parameter :=
  (json.float?.map constant) <|> ((json.triple? Json.float?).map vector) <|>
    ((RegionMap.ofDocument? json).map perRegion) <|> ((Field.ofDocument? json).map field)

end Parameter

end Micromag
