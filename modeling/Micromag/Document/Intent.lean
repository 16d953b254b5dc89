import Micromag.Document.Terms
import Micromag.Intent

/-!
# Documents of intents

An intent is a record that names its driver; its other fields are also what a manifest keeps of it.
The profile of an evolver is a function and has no document.
-/

namespace Micromag

namespace Attribute

/-- An attribute as a document. -/
def toDocument : Attribute → Json
  | parameter value => value.toDocument
  | text value => .string value

/-- The attribute of a document. -/
def ofDocument? (json : Json) : Option Attribute :=
  ((Parameter.ofDocument? json).map parameter) <|> (json.string?.map text)

end Attribute

namespace CurrentProcedure

/-- A procedure as a document. -/
def toDocument (procedure : CurrentProcedure) : Json :=
  .object [("script", .string procedure.script), ("name", .string procedure.name),
    ("args", .string procedure.arguments)]

/-- The procedure of a document. -/
def ofDocument? (json : Json) : Option CurrentProcedure := do
  let record ← json.record? [.needed "script", .needed "name", .needed "args"]
  return {
    script := ← record.needed "script" Json.string?
    name := ← record.needed "name" Json.string?
    arguments := ← record.needed "args" Json.string? }

end CurrentProcedure

namespace Evolver

/-- An evolver as a document, without its profile. -/
def toDocument (evolver : Evolver) : Json :=
  .object ([("kind", .string evolver.kind.name),
      ("attributes", .ofKeyed Attribute.toDocument evolver.attributes)] ++
    Json.optionalEntry "tstep" .number evolver.timeStep ++
    Json.optionalEntry "tcl_strings" CurrentProcedure.toDocument evolver.procedure)

/-- The evolver of a document, without a profile. -/
def ofDocument? (json : Json) : Option Evolver := do
  let record ← json.record?
    [.needed "kind", .defaulted "attributes", .defaulted "tstep", .defaulted "tcl_strings"]
  return {
    kind := ← record.needed "kind" (Json.word? EvolverKind.ofName?)
    attributes := ← record.defaulted "attributes" (Json.keyed? Attribute.ofDocument?) .empty
    timeStep := ← record.optional "tstep" Json.float?
    procedure := ← record.optional "tcl_strings" CurrentProcedure.ofDocument? }

end Evolver

namespace SweepLeg

/-- A leg as a document. -/
def toDocument (leg : SweepLeg) : Json :=
  .object [("h_start", .ofList .number leg.start), ("h_end", .ofList .number leg.stop),
    ("n", .ofCount leg.count)]

/-- The leg of a document. -/
def ofDocument? (json : Json) : Option SweepLeg := do
  let record ← json.record? [.needed "h_start", .needed "h_end", .needed "n"]
  return {
    start := ← record.needed "h_start" (Json.list? Json.float?)
    stop := ← record.needed "h_end" (Json.list? Json.float?)
    count := ← record.needed "n" Json.count? }

end SweepLeg

namespace Intent

/-- The name of an intent's driver in documents. -/
def driverTag (intent : Intent) : String :=
  match intent.goal with
  | .minimise => "minimise"
  | .evolve .. => "time_evolve"
  | .sweep _ => "sweep"

/-- The fields of an intent besides its driver. -/
def arguments (intent : Intent) : List (String × Json) :=
  let evolver := Json.optionalEntry "evolver" Evolver.toDocument intent.evolver
  match intent.goal with
  | .minimise => Json.optionalEntry "stopping_mxHxm" .number intent.stopping ++ evolver
  | .evolve time stages =>
    [("t", .number time), ("n", .ofCount stages)] ++ evolver ++
      Json.optionalEntry "stopping_dm_dt" .number intent.stopping
  | .sweep legs =>
    ("hsteps", .ofList SweepLeg.toDocument legs) :: evolver ++
      Json.optionalEntry "stopping_mxHxm" .number intent.stopping

/-- An intent as a document. -/
def toDocument (intent : Intent) : Json :=
  .object (("driver", .string intent.driverTag) :: intent.arguments)

/-- What a manifest keeps of an intent. -/
def manifestArguments (intent : Intent) : Json := (Json.object intent.arguments).sorted

/-- The intent of a driver and the record without it. -/
def ofDriver? (driver : String) (json : Json) : Option Intent :=
  match driver with
  | "minimise" => do
    let record ← json.record? [.defaulted "stopping_mxHxm", .defaulted "evolver"]
    return {
      goal := .minimise
      evolver := ← record.optional "evolver" Evolver.ofDocument?
      stopping := ← record.optional "stopping_mxHxm" Json.float? }
  | "time_evolve" => do
    let record ← json.record?
      [.needed "t", .needed "n", .defaulted "evolver", .defaulted "stopping_dm_dt"]
    return {
      goal := .evolve (← record.needed "t" Json.float?) (← record.needed "n" Json.count?)
      evolver := ← record.optional "evolver" Evolver.ofDocument?
      stopping := ← record.optional "stopping_dm_dt" Json.float? }
  | "sweep" => do
    let record ← json.record?
      [.needed "hsteps", .defaulted "evolver", .defaulted "stopping_mxHxm"]
    return {
      goal := .sweep (← record.needed "hsteps" (Json.list? SweepLeg.ofDocument?))
      evolver := ← record.optional "evolver" Evolver.ofDocument?
      stopping := ← record.optional "stopping_mxHxm" Json.float? }
  | _ => none

/-- The intent of a document. -/
def ofDocument? (json : Json) : Option Intent := do
  let (driver, rest) ← json.kind? "driver"
  ofDriver? driver rest

end Intent

end Micromag
