import Micromag.Document.Intent
import Micromag.Json.Reading
import Micromag.Problem

/-!
# Documents of problems and studies
-/

/-!
## Documents of problems and tables

The history of a problem, its number of drives and its table, is not part of its document.
-/

namespace Micromag

namespace Table

/-- A table as a document. -/
def toDocument (table : Table) : Json :=
  .object [("columns", .ofList .string table.columns), ("units", .ofList .string table.units),
    ("rows", .ofList (.ofList .number) table.rows)]

/-- The table of a document. -/
def ofDocument? (json : Json) : Option Table := do
  let record ← json.record? [.needed "columns", .needed "units", .needed "rows"]
  return {
    columns := ← record.needed "columns" (Json.list? Json.string?)
    units := ← record.needed "units" (Json.list? Json.string?)
    rows := ← record.needed "rows" (Json.list? (Json.list? Json.float?)) }

end Table

namespace Problem

/-- A problem as a document, without its history. -/
def toDocument (problem : Problem) : Json :=
  .object [("name", .string problem.name), ("m", problem.m.toDocument),
    ("energy", Energy.toDocument problem.energy),
    ("dynamics", Dynamics.toDocument problem.dynamics)]

/-- The problem of a document, before its first drive. -/
def ofDocument? (json : Json) : Option Problem := do
  let record ← json.record?
    [.needed "name", .needed "m", .defaulted "energy", .defaulted "dynamics"]
  return {
    name := ← record.needed "name" Json.string?
    m := ← record.needed "m" Field.ofDocument?
    energy := ← record.defaulted "energy" Energy.ofDocument? []
    dynamics := ← record.defaulted "dynamics" Dynamics.ofDocument? [] }

end Problem

end Micromag

/-!
## Studies

A study is a problem with the intent to pursue. Its document gives the magnetisation of the problem
as one direction for the whole mesh, which may be scaled to a norm; without an intent the energy is
minimised. Reading a document checks its form; the problem is checked when it is made.
-/

namespace Micromag

/-- What the document of a study says. -/
structure StudyDocument where
  /-- The name of the problem. -/
  name : String
  /-- The mesh. -/
  mesh : Mesh Float
  /-- The direction of the magnetisation. -/
  direction : Triple Float
  /-- The norm of the magnetisation, if it is not that of the direction. -/
  norm : Option Float := none
  /-- The energy. -/
  energy : Energy := []
  /-- The dynamics. -/
  dynamics : Dynamics := []
  /-- The intent. -/
  intent : Intent

/-- A problem with the intent to pursue. -/
structure Study where
  /-- The problem. -/
  problem : Problem
  /-- The intent. -/
  intent : Intent

namespace StudyDocument

/-- The direction and the norm of a document. -/
def magnetisation? (json : Json) : Option (Triple Float × Option Float) := do
  let record ← json.record? [.needed "value", .defaulted "norm"]
  return (← record.needed "value" (Json.triple? Json.float?), ← record.optional "norm" Json.float?)

/-- The study of a problem's document and an intent. -/
def ofParts? (intent : Intent) (json : Json) : Option StudyDocument := do
  let record ← json.record?
    [.needed "name", .needed "mesh", .needed "m", .defaulted "energy", .defaulted "dynamics"]
  let (direction, norm) ← record.needed "m" magnetisation?
  return {
    name := ← record.needed "name" Json.string?
    mesh := ← record.needed "mesh" Mesh.ofDocument?
    direction, norm, intent
    energy := ← record.defaulted "energy" Energy.ofDocument? []
    dynamics := ← record.defaulted "dynamics" Dynamics.ofDocument? [] }

/-- The study of a document. -/
def ofDocument? (json : Json) : Option StudyDocument := do
  let record ← json.record? [.needed "problem", .defaulted "intent"]
  let intent ← record.defaulted "intent" Intent.ofDocument? { goal := .minimise }
  record.needed "problem" (ofParts? intent)

/-- The study of a text. -/
def ofText? (text : String) : Option StudyDocument := (Json.read? text).bind ofDocument?

/-- The magnetisation: the direction in every cell, scaled to the norm. -/
def field (study : StudyDocument) : Except (FieldFault Float) (Field Float) := do
  let field ← Field.uniform study.mesh study.direction.toList
  match study.norm with
  | none => return field
  | some norm => field.normalised norm

/-- The study that a document describes. -/
def make (study : StudyDocument) : Except Fault Study := do
  study.mesh.validate.mapError MeshFault.fault
  let m ← study.field.mapError FieldFault.fault
  return ⟨{ name := study.name, m, energy := study.energy, dynamics := study.dynamics },
    study.intent⟩

end StudyDocument

end Micromag
