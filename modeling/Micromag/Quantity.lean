import Micromag.Lowering.Problem

/-!
# Derived quantities

Energy, effective field and energy density can be asked of the whole energy or of one term. The
engine reports each under an identifier: the class and the instance of the object that computes it
and the name of the output. The total is reported by the evolver.
-/

namespace Micromag

/-- A derived quantity. -/
inductive Quantity where
  | energy
  | effectiveField
  | energyDensity
deriving DecidableEq, Repr

/-- What a quantity is asked of. -/
inductive Target where
  /-- The whole energy. -/
  | total
  /-- The term of a name. -/
  | term (name : String)
deriving DecidableEq, Repr

namespace Quantity

/-- The name of a quantity. -/
def name : Quantity → String
  | energy => "energy"
  | effectiveField => "effective_field"
  | energyDensity => "energy_density"

/-- The quantity of a name. -/
def ofName? (name : String) : Option Quantity :=
  [energy, effectiveField, energyDensity].find? (·.name = name)

/-- The output of a term's object. -/
def termOutput : Quantity → String
  | energy => "Energy"
  | effectiveField => "Field"
  | energyDensity => "Energy density"

/-- The output of the evolver. -/
def totalOutput : Quantity → String
  | energy => "Total energy"
  | effectiveField => "Total field"
  | energyDensity => "Total energy density"

/-- The files that hold a quantity with a value for each cell; the energy is in the table. -/
def filePattern? : Quantity → Option String
  | energy => none
  | effectiveField => some "*.ohf"
  | energyDensity => some "*.oef"

end Quantity

/-- The object that reports the total: the evolver of a run that computes a quantity. -/
def totalSource : String := "Oxs_RungeKuttaEvolve:evolver"

/-- The label of a block, if a header line can name it: labels are words. -/
def Script.Block.label? (block : Script.Block) (name : String) : Option String :=
  if block.instanceName = some name && !name.toList.any Text.isBlank then
    some (block.className ++ ":" ++ name)
  else none

/-- The label of the block of a name among items. -/
def Script.labelOf? (items : List Script.Item) (name : String) : Option String :=
  (Script.blocks items).findSome? fun block => block.label? name

namespace Problem

/-- The object that reports the quantities of a term. -/
def termSource (problem : Problem) (name : String) (platform : Platform) : Except Fault String :=
  match problem.energy.get? name with
  | none =>
    .error (.invalid "INPUT.TERM_UNKNOWN"
      s!"problem '{problem.name}' has no energy term '{name}'")
  | some term => do
    let items ← (term.items ⟨problem.mesh, platform⟩).result
    match Script.labelOf? items name with
    | some label => return label
    | none =>
      .error (.internal "RUN.COMPUTE_IDENTIFIER"
        s!"term '{name}' lowered without a block of the same name")

/-- The identifier of a quantity of a target. -/
def outputIdentifier (problem : Problem) (target : Target) (quantity : Quantity)
    (platform : Platform) : Except Fault String :=
  match target with
  | .total => .ok (totalSource ++ ":" ++ quantity.totalOutput)
  | .term name => do
    return (← problem.termSource name platform) ++ ":" ++ quantity.termOutput

end Problem

end Micromag
