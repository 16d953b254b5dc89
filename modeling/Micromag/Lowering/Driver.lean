import Micromag.Lowering.Evolver
import Micromag.Intent

/-!
# Lowering a drive

The last part of a script: the evolver with the dynamics of the problem bound to it, the driver that
runs it, and the outputs to be kept. A sweep also declares the applied field that it steps through.
-/

namespace Micromag

open Script

/-- What a script depends on besides problem and intent. -/
structure ScriptSettings where
  /-- The format of the field files that the engine writes. -/
  format : FieldFormat := .binary8
  /-- Subregions in which the magnetisation does not move. -/
  fixed : List String := []
  /-- A time drive reports scalars after every step, not only after every stage. -/
  everyStep : Bool := false
  /-- Further lines at the end of the script. -/
  directive : Option String := none

/-- The fault of a subregion that cannot be fixed. -/
def unknownFixed (mesh : Mesh Float) (name : String) : Fault :=
  .invalid "INPUT.FIXED_SUBREGION"
    (s!"cannot fix spins in unknown subregion '{name}', " ++
      s!"expected one of {mesh.listedNames}")

/-- Whether the magnetisation of a region can be fixed. -/
def Mesh.canFix (mesh : Mesh Float) (name : String) : Bool :=
  mesh.regionNames.contains name && name ≠ "entire"

/-- The attribute that fixes subregions; without any there is none. -/
def fixedSpins (mesh : Mesh Float) (names : List String) : Except Fault Evolver.Extras :=
  if names.isEmpty then .ok []
  else
    match names.find? fun name => !mesh.canFix name with
    | some name => .error (unknownFixed mesh name)
    | none => .ok [("fixed_spins", .group (.reference "main_atlas" :: names.map .text))]

/-- The row of a leg: both ends and the number of steps between the values. -/
def SweepLeg.row (leg : SweepLeg) : Except Fault (List Word) := do
  let ends ← (leg.start ++ leg.stop).mapM number
  return [.group (ends ++ [.text (toString (leg.count - 1))])]

/-- The applied field of a sweep. -/
def sweepItem (legs : List SweepLeg) : Except Fault Item := do
  return .object "Oxs_UZeeman" "hysteresis" [.table "Hrange" (← legs.mapM SweepLeg.row)]

namespace Intent

/-- The evolver of an intent, or the one that its goal and the torques ask for. -/
def chosenEvolver (intent : Intent) (dynamics : Dynamics) : Evolver :=
  match intent.evolver, intent.goal with
  | some evolver, _ => evolver
  | none, .evolve .. => .forDynamics dynamics
  | none, _ => { kind := .conjugateGradient }

/-- The duration of a drive that follows the dynamics. -/
def duration? (intent : Intent) : Option Float :=
  match intent.goal with
  | .evolve time _ => some time
  | _ => none

/-- The class of the driver's block. -/
def driverClass (intent : Intent) : String :=
  match intent.goal with
  | .evolve .. => "Oxs_TimeDriver"
  | _ => "Oxs_MinDriver"

/-- What every driver refers to. -/
def driverReferences : List Script.Entry :=
  [.setting "evolver" (.reference "evolver"), .setting "mesh" (.reference "mesh"),
    .setting "Ms" (.reference "m0_norm"), .setting "m0" (.reference "m0")]

/-- The torque below which a minimum is found, unless the caller says otherwise. -/
def defaultStopping : Float := 0.1

/-- When the driver ends its stages. -/
def stoppingEntries (intent : Intent) : Except Fault (List Script.Entry) :=
  match intent.goal with
  | .evolve time stages => do
    let stage ← numberWord (time / Float.ofNat stages)
    let rate ← intent.stopping.toList.mapM fun value => do
      return Script.Entry.setting "stopping_dm_dt" (← numberWord value)
    return [.setting "stopping_time" stage, .setting "stage_count" (.text (toString stages))] ++
      rate
  | _ => do
    return [.setting "stopping_mxHxm" (← numberWord (intent.stopping.getD defaultStopping))]

/-- The block of the driver. -/
def driverItem (intent : Intent) : Except Fault Item := do
  return .anonymous intent.driverClass (driverReferences ++ (← intent.stoppingEntries))

/-- The applied field that a sweep declares. -/
def appliedItems (intent : Intent) : Except Fault (List Item) :=
  match intent.goal with
  | .sweep legs => do return [← sweepItem legs]
  | _ => .ok []

/-- The event after which scalars are reported. -/
def tableEvent (intent : Intent) (settings : ScriptSettings) : String :=
  if intent.duration?.isSome && settings.everyStep then "Step" else "Stage"

/-- The outputs that are kept. -/
def outputItems (intent : Intent) (settings : ScriptSettings) : List Item :=
  (if intent.duration?.isSome then [.destination "archive"] else []) ++
    [.destination "table", .destination "mags", .blank,
      .schedule "DataTable" "table" (intent.tableEvent settings),
      .schedule (intent.driverClass ++ "::Magnetization") "mags" "Stage"] ++
    (settings.directive.map fun text => Item.verbatim (endLine text)).toList

/-- The items of a drive of a problem with the given dynamics. -/
def items (intent : Intent) (site : Site) (dynamics : Dynamics) (settings : ScriptSettings) :
    Lowering (List Item) := do
  let evolver ← ((intent.chosenEvolver dynamics).bind dynamics).mapError EvolverFault.fault
  let fixed ← fixedSpins site.mesh settings.fixed
  let applied ← intent.appliedItems
  let evolving ← evolver.items site fixed intent.duration?
  let driver ← intent.driverItem
  return applied ++ evolving ++ [driver] ++ intent.outputItems settings

end Intent

end Micromag
