import Micromag.Intent
import Micromag.Table.Basic

/-!
# Problems

A problem is a named magnetisation with its energy and its dynamics. It also remembers how many
drives succeeded and the table of the last one.
-/

namespace Micromag

/-- A micromagnetic problem. -/
structure Problem where
  /-- The name, which is also that of its directory. -/
  name : String
  /-- The magnetisation. -/
  m : Field Float
  /-- The energy terms. -/
  energy : Energy := []
  /-- The dynamics terms. -/
  dynamics : Dynamics := []
  /-- One more than the number of the last successful drive. -/
  driveNumber : Nat := 0
  /-- The table of the last successful drive. -/
  table : Option Table := none

/-- Why a problem is refused. -/
inductive ProblemFault where
  /-- The name cannot name a directory. -/
  | illegalName (name : String)
  /-- The magnetisation is no vector field. -/
  | magnetisation (dim : Nat)
  /-- The mesh is not usable. -/
  | mesh (cause : MeshFault Float)
  /-- The magnetisation is no usable field. -/
  | field (cause : FieldFault Float)
  /-- A term cannot be used. -/
  | term (cause : TermFault)

namespace Problem

/-- Whether text is one legal component of a path that does not start with a point. -/
def isLegalName (name : String) : Bool :=
  !name.isEmpty && name.toList.head? ≠ some '.' &&
    name.toList.all fun c => Text.isNameChar c || c = '-' || c = '.'

/-- Accept a legal name. -/
def validateName (name : String) : Except ProblemFault Unit :=
  if isLegalName name then .ok () else .error (.illegalName name)

/-- The mesh of the magnetisation. -/
def mesh (problem : Problem) : Mesh Float := problem.m.mesh

/-- Accept a problem: its name, its magnetisation, its terms. -/
def validate (problem : Problem) : Except ProblemFault Unit := do
  validateName problem.name
  if problem.m.dim ≠ 3 then .error (.magnetisation problem.m.dim)
  problem.mesh.validate.mapError .mesh
  problem.m.validate.mapError .field
  (Energy.validate problem.mesh problem.energy).mapError .term
  (Dynamics.validate problem.dynamics).mapError .term

end Problem

/-- The sentence of a refused problem. -/
def ProblemFault.fault : ProblemFault → Fault
  | .illegalName name =>
    .invalid "INPUT.PROBLEM_NAME" s!"problem name '{name}' is not a legal directory component"
  | .magnetisation dim =>
    .invalid "INPUT.MAGNETISATION_DIM" s!"magnetisation must have 3 components, got {dim}"
  | .mesh cause => cause.fault
  | .field cause => cause.fault
  | .term cause => cause.fault

end Micromag
