import Micromag.Document.Intent
import Micromag.Exchange.Value

/-!
# Recipes

A recipe describes a value by how it is made: a field by a function of the centre of a cell, a term
by its constructor and its parameters. Making a value may end in a fault; a document that is no
recipe gives nothing at all.
-/

namespace Micromag.Exchange

/-! ## Geometry and fields -/

/-- A region. -/
def region? (json : Json) : Option (Region Float) := do
  return ⟨← getAs json "p1" doubles?, ← getAs json "p2" doubles?⟩

/-- A mesh. -/
def mesh? (json : Json) : Option (Mesh Float) := do
  return {
    region := ← getAs json "region" region?
    cell := ← getAs json "cell" doubles?
    subregions := ← getD json "subregions" (Json.keyed? region?) .empty
    periodic := ← getD json "bc" Json.string? "" }

/-- A function that has one value below a coordinate and another value above. -/
def split? (json : Json) : Option (Triple Float → List Float) := do
  let axis ← (Axis.all)[← getAs json "axis" Json.count?]?
  let limit ← getAs json "at" double?
  let below ← getAs json "below" (Json.list? double?)
  let above ← getAs json "above" (Json.list? double?)
  return fun centre => if centre.along axis < limit then below else above

/-- A field: the same everywhere, split across an axis, or value by value. -/
def field? (json : Json) : Option (Except Fault (Field Float)) := do
  let mesh ← getAs json "mesh" mesh?
  match ← get? json "uniform" (Json.list? double?), ← get? json "cells" split? with
  | some value, _ => return (Field.uniform mesh value).mapError FieldFault.fault
  | none, some value =>
    return (Field.ofFn mesh (← getAs json "dim" Json.count?) value).mapError FieldFault.fault
  | none, none =>
    return .ok ⟨mesh, ← getAs json "dim" Json.count?, ← getAs json "values" (Json.list? double?)⟩

/-! ## Parameters -/

/-- A number or a vector. -/
def regionValue? (json : Json) : Option RegionValue :=
  (double? json).map .scalar <|> (doubles? json).map .vector

/-- A key with a value. -/
def regionSetting? (json : Json) : Option (String × RegionValue) :=
  match json with
  | .array [.string key, value] => (regionValue? value).map (key, ·)
  | _ => none

/-- A region map: settings in order, then the value elsewhere. -/
def regionMap? (json : Json) : Option RegionMap := do
  let settings ← getAs json "map" (Json.list? regionSetting?)
  let map := settings.foldl (fun map setting => map.insert setting.1 setting.2) ({} : RegionMap)
  match ← get? json "default" regionValue? with
  | none => return map
  | some value => return { map with fallback := some value }

/-- A parameter. -/
def parameter? (json : Json) : Option (Except Fault Parameter) :=
  match json with
  | .object _ =>
    match get json "field" with
    | some made => (field? made).map fun made => made.map .field
    | none => (regionMap? json).map fun map => .ok (.perRegion map)
  | _ =>
    (double? json).map (fun x => .ok (.constant x)) <|>
      (doubles? json).map fun v => .ok (.vector v)

/-- A parameter in its own document form, or a value that this form cannot hold. -/
def markedParameter? (json : Json) : Option (Except Fault Parameter) :=
  match get json "$constant", get json "$vector", get json "$field" with
  | some value, _, _ => (double? value).map fun x => .ok (.constant x)
  | _, some value, _ => (doubles? value).map fun v => .ok (.vector v)
  | _, _, some value => (field? value).map fun made => made.map .field
  | none, none, none => (Parameter.ofDocument? json).map .ok

/-- A parameter of a constructor. -/
def argument? (json : Json) (key : String) : Option (Except Fault Parameter) :=
  getAs json key parameter?

/-- A parameter of a constructor that may be missing. -/
def optionalArgument? (json : Json) (key : String) :
    Option (Except Fault (Option Parameter)) := do
  match ← get? json key parameter? with
  | none => return .ok none
  | some value => return value.map some

/-! ## Terms -/

/-- A wave with its frequency and its delay. -/
def timedWave? (json : Json) : Option (Wave × Float × Float) :=
  match json with
  | .array [wave, frequency, delay] => do
    return (← wave.word? Wave.ofName?, ← double? frequency, ← double? delay)
  | _ => none

/-- The interaction of a constructor. -/
def interaction? (constructor : String) (json : Json) : Option (Except Fault Interaction) :=
  match constructor with
  | "exchange" => do return (← argument? json "A").map .exchange
  | "zeeman" => do
    let field ← argument? json "H"
    let wave ← get? json "wave" timedWave?
    return field.map fun field =>
      .zeeman field (wave.map (·.1)) (wave.map (·.2.1)) (wave.map (·.2.2))
  | "demag" => do return .ok (.demag (← get? json "asymptotic_radius" double?))
  | "dmi" => do
    let constant ← argument? json "D"
    let crystal ← getAs json "crystalclass" (Json.word? CrystalClass.ofName?)
    return constant.map fun constant => .dmi constant crystal
  | "uniaxial_anisotropy" => do
    let k1 ← argument? json "K"
    let axis ← argument? json "u"
    let k2 ← optionalArgument? json "K2"
    return do
      let k1 ← k1
      let axis ← axis
      return .uniaxial k1 (← k2) axis
  | "cubic_anisotropy" => do
    let k1 ← argument? json "K"
    let axis1 ← argument? json "u1"
    let axis2 ← argument? json "u2"
    return do return .cubic (← k1) (← axis1) (← axis2)
  | "magneto_elastic" => do
    let b1 ← argument? json "B1"
    let b2 ← argument? json "B2"
    let diagonal ← argument? json "e_diag"
    let offDiagonal ← argument? json "e_offdiag"
    return do return .magnetoElastic (← b1) (← b2) (← diagonal) (← offDiagonal)
  | "rkky" => do
    let (first, second) ← getAs json "subregions" Json.names?
    return .ok (.rkky (← getAs json "sigma" double?) (← getD json "sigma2" double? 0) first second)
  | _ => none

/-- An energy term. -/
def term? (json : Json) : Option (Except Fault Term) := do
  let interaction ← interaction? (← getText json "new") json
  let name ← get? json "name" Json.string?
  return interaction.map fun interaction => ⟨name.getD interaction.defaultName, interaction⟩

/-- The torque of a constructor. -/
def torque? (constructor : String) (json : Json) : Option (Except Fault Torque) :=
  match constructor with
  | "precession" => do return (← argument? json "gamma0").map .precession
  | "damping" => do return (← argument? json "alpha").map .damping
  | "zhang_li" => do
    let velocity ← argument? json "u"
    let beta ← getAs json "beta" double?
    return velocity.map fun velocity => .zhangLi velocity (.constant beta)
  | "slonczewski" => do
    let current ← argument? json "J"
    let polariser ← argument? json "mp"
    let polarisation ← argument? json "P"
    let asymmetry ← argument? json "Lambda"
    let secondary ← optionalArgument? json "eps_prime"
    return do
      return .slonczewski (← current) (← polariser) (← polarisation) (← asymmetry)
        ((← secondary).getD (.constant 0))
  | _ => none

/-- A dynamics term. -/
def dynamicsTerm? (json : Json) : Option (Except Fault DynamicsTerm) := do
  let torque ← torque? (← getText json "new") json
  let name ← get? json "name" Json.string?
  return torque.map fun torque => ⟨name.getD torque.defaultName, torque⟩

/-! ## Evolvers and intents -/

/-- A step of a profile: the time until which it lasts, and its value. -/
def profileStep? (json : Json) : Option (Float × Float) := do
  match ← json.list? double? with
  | [time, value] => some (time, value)
  | _ => none

/-- A profile of a current: a line, or steps and the value after them. -/
def profile? (json : Json) : Option (Float → Float) :=
  match get json "linear" with
  | some linear => do
    match ← linear.list? double? with
    | [start, slope] => some fun t => start + slope * t
    | _ => none
  | none => do
    let steps ← getAs json "steps" (Json.list? profileStep?)
    let after ← getAs json "after" double?
    return fun t => ((steps.find? fun step => t < step.1).map (·.2)).getD after

/-- The value of an attribute. -/
def attribute? (json : Json) : Option (Except Fault Attribute) :=
  match json with
  | .string text => some (.ok (.text text))
  | _ =>
    match get json "text" with
    | some text => text.string?.map fun text => .ok (.text text)
    | none => (parameter? json).map fun made => made.map .parameter

/-- An attribute under its name. -/
def attributeSetting? (json : Json) : Option (Except Fault (String × Attribute)) :=
  match json with
  | .array [.string name, value] =>
    (attribute? value).map fun made => made.map (name, ·)
  | _ => none

/-- An evolver. -/
def evolver? (json : Json) : Option (Except Fault Evolver) := do
  let kind ← getAs json "kind" (Json.word? EvolverKind.ofName?)
  let settings ← getD json "attributes" (Json.list? attributeSetting?) []
  let profile ← get? json "profile" profile?
  let step ← get? json "tstep" double?
  let procedure ← get? json "tcl" fun json => do
    return CurrentProcedure.mk (← getText json "script") (← getText json "name")
      (← getText json "args")
  return do
    let settings ← settings.mapM id
    let evolver : Evolver := settings.foldl
      (fun evolver setting => evolver.withAttribute setting.1 setting.2) { kind }
    let evolver := match profile, step with
      | some profile, some step => evolver.withProfile profile step
      | _, _ => evolver
    return { evolver with procedure }

/-- A leg of a sweep. -/
def leg? (json : Json) : Option SweepLeg :=
  match json with
  | .array [start, stop, count] => do
    return ⟨(← doubles? start).toList, (← doubles? stop).toList, ← count.count?⟩
  | _ => none

/-- A drive in time: its duration and its stages. -/
def evolution? (json : Json) : Option Goal :=
  match json with
  | .array [time, stages] => do return .evolve (← double? time) (← stages.count?)
  | _ => none

/-- An intent. -/
def intent? (json : Json) : Option (Except Fault Intent) := do
  let evolution ← get? json "time_evolve" evolution?
  let legs ← get? json "sweep" (Json.list? leg?)
  let evolver ← get? json "evolver" evolver?
  let stopping ← get? json "stopping" double?
  let goal : Goal := match evolution, legs with
    | some goal, _ => goal
    | none, some legs => .sweep legs
    | none, none => .minimise
  match evolver with
  | none => return .ok { goal, stopping }
  | some evolver => return evolver.map fun evolver => { goal, evolver := some evolver, stopping }

end Micromag.Exchange
