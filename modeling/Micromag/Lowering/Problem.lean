import Micromag.Lowering.Energy
import Micromag.Lowering.Driver
import Micromag.Problem

/-!
# Lowering a problem

The script of a problem and an intent: options, mesh, energy, magnetisation, evolver and driver. The
magnetisation is always given by a file; its magnitude is the saturation magnetisation.
-/

namespace Micromag

open Script

/-- A script with the field files that it refers to. -/
structure LoweredScript where
  /-- The items of the script. -/
  items : List Item
  /-- The field files. -/
  sidecars : List Sidecar

/-- The text of a script. -/
def LoweredScript.text (script : LoweredScript) : String := render script.items

/-- The items of a magnetisation: its file and its magnitude. -/
def magnetisationItems (m : Field Float) : Lowering (List Item) := do
  Lowering.attach ⟨"m0.omf", m, false⟩
  return [Parameter.fileItem "m0" "m0.omf", Parameter.normItem "m0"]

namespace Problem

/-- The items of a problem with its drive. -/
def items (problem : Problem) (intent : Intent) (settings : ScriptSettings)
    (platform : Platform) : Lowering (List Item) := do
  problem.validate.mapError ProblemFault.fault
  intent.validate.mapError IntentFault.fault
  let site : Site := ⟨problem.mesh, platform⟩
  let mesh ← problem.mesh.items
  let energy ← problem.energy.items site
  let magnetisation ← magnetisationItems problem.m
  let drive ← intent.items site problem.dynamics settings
  return .options problem.name settings.format :: (mesh ++ energy ++ magnetisation ++ drive)

/-- The script of a problem with its drive. -/
def lower (problem : Problem) (intent : Intent) (settings : ScriptSettings)
    (platform : Platform) : Except Fault LoweredScript :=
  let lowering := problem.items intent settings platform
  lowering.result.map fun items => ⟨items, lowering.sidecars⟩

end Problem

end Micromag
