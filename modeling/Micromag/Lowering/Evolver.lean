import Micromag.Evolver
import Micromag.Lowering.Parameter
import Micromag.Script.Procedure

/-!
# Lowering an evolver

The torques of a problem are attributes of its evolver, so they are bound to a copy of it before it
is lowered. Only attributes that the kind accepts are written, in the order of the kind's list. A
current that changes in time is a procedure in front of the block.
-/

namespace Micromag

open Script

/-- Why an evolver cannot be lowered. -/
inductive EvolverFault where
  /-- The degree of non-adiabaticity differs from place to place. -/
  | variedBeta (given : String)
  /-- The kind has no current. -/
  | noCurrent (kind : EvolverKind)
  /-- A profile has no step, or the drive has no end in time. -/
  | noDuration

/-- The sentence of an evolver that cannot be lowered. -/
def EvolverFault.fault : EvolverFault → Fault
  | .variedBeta given =>
    .invalid "INPUT.ZHANG_LI_BETA" s!"Zhang-Li beta must be a constant, got a {given}"
  | .noCurrent kind => timeDependence s!"{kind.className} does not accept a current profile"
  | .noDuration => timeDependence "a time-dependent current needs tstep and a time drive"

namespace Evolver

/-- Bind precession; without it there is none. -/
def bindPrecession (evolver : Evolver) (dynamics : Dynamics) : Evolver :=
  match dynamics.precession? with
  | some (_, gamma) => evolver.withParameter "gamma_G" gamma
  | none => evolver.withParameter "do_precess" (.constant 0)

/-- Bind damping; without it there is none. -/
def bindDamping (evolver : Evolver) (dynamics : Dynamics) : Evolver :=
  match dynamics.damping? with
  | some (_, alpha) => evolver.withParameter "alpha" alpha
  | none => evolver.withParameter "alpha" (.constant 0)

/-- Bind the torque of a current in the plane, whose non-adiabaticity must be a constant. -/
def bindInPlane (evolver : Evolver) (dynamics : Dynamics) : Except EvolverFault Evolver :=
  match dynamics.zhangLi? with
  | none => .ok evolver
  | some (_, velocity, .constant beta) =>
    .ok ((evolver.withParameter "u" velocity).withParameter "beta" (.constant beta))
  | some (_, _, beta) => .error (.variedBeta beta.kindName)

/-- Bind the torque of a polarised current. -/
def bindPolarised (evolver : Evolver) (dynamics : Dynamics) : Evolver :=
  match dynamics.slonczewski? with
  | none => evolver
  | some (_, current, polariser, polarisation, asymmetry, secondary) =>
    [("J", current), ("mp", polariser), ("P", polarisation), ("Lambda", asymmetry),
      ("eps_prime", secondary)].foldl
      (fun evolver entry => evolver.withParameter entry.1 entry.2) evolver

/-- The evolver with the dynamics of a problem among its attributes. -/
def bind (evolver : Evolver) (dynamics : Dynamics) : Except EvolverFault Evolver := do
  let evolver ← ((evolver.bindPrecession dynamics).bindDamping dynamics).bindInPlane dynamics
  return evolver.bindPolarised dynamics

/-- The evolver in place of one that the caller did not choose, after the torques of a problem. -/
def forDynamics (dynamics : Dynamics) : Evolver :=
  if dynamics.zhangLi?.isSome then { kind := .spinTransfer }
  else if dynamics.slonczewski?.isSome then { kind := .slonczewski }
  else { kind := .rungeKutta }

/-- Attributes that are not values of the evolver itself: words under their names. -/
abbrev Extras := List (String × Word)

/-- The name of the procedure that tabulates a profile. -/
def profileProcedure : String := "TimeFunction_evolver"

/-- The table of a profile over a drive of some duration. -/
def profileTable (profile : Float → Float) (step : Option Float) (duration : Option Float) :
    Except Fault Procedure :=
  match step, duration with
  | some step, some duration => do
    let times ← sampleTimes step duration
    lookupProcedure profileProcedure step (times.map profile)
  | _, _ => .error EvolverFault.noDuration.fault

/-- The items that define the procedure of a current, its name and its arguments. A procedure of the
caller wins over a profile. -/
def currentProcedure (evolver : Evolver) (duration : Option Float) :
    Except Fault (Option (List Item × String × String)) :=
  match evolver.procedure, evolver.profile with
  | none, none => .ok none
  | some given, _ => .ok (some ([.verbatim (endLine given.script), .blank], given.name,
      given.arguments))
  | none, some profile => do
    let table ← profileTable profile evolver.timeStep duration
    return some ([.procedure table], profileProcedure, "total_time")

/-- Whether the current of an evolver changes in time. -/
def hasProfile (evolver : Evolver) : Bool :=
  evolver.profile.isSome || evolver.procedure.isSome

/-- The procedure of a current and the attributes that name it. -/
def profileItems (evolver : Evolver) (duration : Option Float) :
    Except Fault (List Item × Extras) :=
  if !evolver.hasProfile then .ok ([], [])
  else
    match evolver.kind.profiled? with
    | none => .error (EvolverFault.noCurrent evolver.kind).fault
    | some current => do
      match ← evolver.currentProcedure duration with
      | none => return ([], [])
      | some (items, name, arguments) =>
        return (items, [(current ++ "_profile", .text name),
          (current ++ "_profile_args", .text arguments)])

/-- The arity of an attribute that is a parameter. -/
def attributeArity (name : String) : Arity :=
  if vectorAttributes.contains name then .vector else .scalar

/-- An attribute of an evolver: the declarations in front of the block and the word in it. -/
def attributeWord (site : Site) (name : String) : Attribute → Lowering LoweredParameter
  | .text value => return ⟨[], .text value⟩
  | .parameter value => value.lower (attributeArity name) site ("evolver_" ++ name)

/-- The value that is written for an attribute: extra words first, then the evolver's own. -/
def lowerAttribute (evolver : Evolver) (site : Site) (extras : Extras) (name : String) :
    Lowering (Option LoweredParameter) :=
  match extras.lookup name with
  | some word => return some ⟨[], word⟩
  | none =>
    match evolver.attributes.get? name with
    | some value => do return some (← attributeWord site name value)
    | none => return none

/-- The declarations and the entries of the named attributes, those without a value left out. -/
def lowerAttributes (evolver : Evolver) (site : Site) (extras : Extras) :
    List String → Lowering (List Item × List Script.Entry)
  | [] => return ([], [])
  | name :: rest => do
    let value ← evolver.lowerAttribute site extras name
    let (items, entries) ← evolver.lowerAttributes site extras rest
    return match value with
      | none => (items, entries)
      | some lowered => (lowered.items ++ items, .setting name lowered.token :: entries)

/-- The items of an evolver. A profile is tabulated over the duration of the drive, if it has one;
extra attributes are written in place of the evolver's own. -/
def items (evolver : Evolver) (site : Site) (extras : Extras) (duration : Option Float) :
    Lowering (List Item) := do
  let (procedures, profileExtras) ← evolver.profileItems duration
  let (fields, entries) ← evolver.lowerAttributes site (profileExtras ++ extras)
    evolver.kind.allowed
  return procedures ++ fields ++ [.object evolver.kind.className "evolver" entries]

end Evolver

end Micromag
