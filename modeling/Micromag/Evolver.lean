import Micromag.Dynamics

/-!
# Evolvers

An evolver moves the magnetisation by one step. The engine knows six kinds; each accepts a list of
attributes and refuses others, so what a kind does not accept is never written.
-/

namespace Micromag

/-- The kinds of evolvers. -/
inductive EvolverKind where
  | euler
  | rungeKutta
  | spinTransfer
  | slonczewski
  | theta
  | conjugateGradient
deriving DecidableEq, Repr

namespace EvolverKind

/-- All kinds. -/
def all : List EvolverKind :=
  [euler, rungeKutta, spinTransfer, slonczewski, theta, conjugateGradient]

/-- The name of a kind in documents. -/
def name : EvolverKind → String
  | euler => "euler"
  | rungeKutta => "runge_kutta"
  | spinTransfer => "spin_transfer"
  | slonczewski => "slonczewski"
  | theta => "theta"
  | conjugateGradient => "conjugate_gradient"

/-- The kind of a name. -/
def ofName? (name : String) : Option EvolverKind := all.find? (·.name = name)

/-- The class of the evolver's block in a script. -/
def className : EvolverKind → String
  | euler => "Oxs_EulerEvolve"
  | rungeKutta => "Oxs_RungeKuttaEvolve"
  | spinTransfer => "Anv_SpinTEvolve"
  | slonczewski => "Oxs_SpinXferEvolve"
  | theta => "UHH_ThetaEvolve"
  | conjugateGradient => "Oxs_CGEvolve"

/-- Attributes of every evolver that integrates in time. -/
def timeAttributes : List String :=
  ["alpha", "gamma_LL", "gamma_G", "do_precess", "allow_signed_gamma", "fixed_spins",
    "min_timestep", "max_timestep"]

/-- Attributes of the Runge-Kutta evolver and of those built on it. -/
def rungeKuttaAttributes : List String :=
  timeAttributes ++
    ["start_dm", "start_dt", "stage_start", "error_rate", "absolute_step_error",
      "relative_step_error", "energy_precision", "min_step_headroom", "max_step_headroom",
      "reject_goal", "method"]

/-- The attributes that a kind accepts, in the order in which they are written. -/
def allowed : EvolverKind → List String
  | euler =>
    timeAttributes ++
      ["start_dm", "error_rate", "absolute_step_error", "relative_step_error", "step_headroom"]
  | rungeKutta => rungeKuttaAttributes
  | spinTransfer => rungeKuttaAttributes ++ ["u", "beta", "u_profile", "u_profile_args"]
  | slonczewski =>
    rungeKuttaAttributes ++
      ["P", "P_fixed", "P_free", "Lambda", "Lambda_fixed", "Lambda_free", "eps_prime", "J",
        "J_direction", "J_profile", "J_profile_args", "mp"]
  | theta =>
    timeAttributes ++
      ["temperature", "tempscript", "tempscript_args", "uniform_kernel_steps", "ito_calculus"]
  | conjugateGradient =>
    ["gradient_reset_angle", "gradient_reset_count", "minimum_bracket_step",
      "maximum_bracket_step", "line_minimum_angle_precision", "line_minimum_relwidth",
      "energy_precision", "method", "fixed_spins"]

/-- Whether a kind accepts an attribute. -/
def allows (kind : EvolverKind) (name : String) : Bool := kind.allowed.contains name

/-- The attribute that a current profile multiplies; its profile goes under names that start so. -/
def profiled? : EvolverKind → Option String
  | spinTransfer => some "u"
  | slonczewski => some "J"
  | _ => none

/-- Whether a kind integrates in time. -/
def integratesTime (kind : EvolverKind) : Bool := kind ≠ conjugateGradient

end EvolverKind

/-- Attributes whose parameters are vectors; all others are numbers. -/
def vectorAttributes : List String := ["mp"]

/-- The value of an attribute. -/
inductive Attribute where
  /-- A parameter, lowered like those of the energy terms. -/
  | parameter (value : Parameter)
  /-- Text for the engine, written as it is. -/
  | text (value : String)

/-- A procedure in the engine's own language that scales a current. -/
structure CurrentProcedure where
  /-- The definition of the procedure. -/
  script : String
  /-- Its name. -/
  name : String
  /-- The arguments it is called with. -/
  arguments : String
deriving DecidableEq, Repr

/-- An evolver. -/
structure Evolver where
  /-- Its kind. -/
  kind : EvolverKind
  /-- Its attributes; those that the kind does not accept are never written. -/
  attributes : Keyed Attribute := .empty
  /-- The factor of the current as a function of time. -/
  profile : Option (Float → Float) := none
  /-- The time between two tabulated values of the profile. -/
  timeStep : Option Float := none
  /-- A procedure of the caller in place of a tabulated profile. -/
  procedure : Option CurrentProcedure := none

namespace Evolver

/-- The evolver with one attribute set. -/
def withAttribute (evolver : Evolver) (name : String) (value : Attribute) : Evolver :=
  { evolver with attributes := evolver.attributes.insert name value }

/-- The evolver with a parameter as one of its attributes. -/
def withParameter (evolver : Evolver) (name : String) (value : Parameter) : Evolver :=
  evolver.withAttribute name (.parameter value)

/-- The evolver with a profile of its current. -/
def withProfile (evolver : Evolver) (profile : Float → Float) (timeStep : Float) : Evolver :=
  { evolver with profile := some profile, timeStep := some timeStep }

end Evolver

end Micromag
