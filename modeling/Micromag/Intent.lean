import Micromag.Evolver

/-!
# Intents

An intent says what a drive does with a problem: find a minimum of the energy, follow the dynamics
for some time, or sweep an applied field through a list of legs and find a minimum at each value.
-/

namespace Micromag

/-- One leg of a field sweep. -/
structure SweepLeg where
  /-- The components of the field at the start. -/
  start : List Float
  /-- The components of the field at the end. -/
  stop : List Float
  /-- The number of field values, both ends included. -/
  count : Nat

/-- What a drive is for. -/
inductive Goal where
  /-- A minimum of the energy. -/
  | minimise
  /-- The state after a time, reached in equal stages. -/
  | evolve (time : Float) (stages : Nat)
  /-- Minima along the legs of a field sweep. -/
  | sweep (legs : List SweepLeg)

/-- A goal with the means to reach it. -/
structure Intent where
  /-- What the drive is for. -/
  goal : Goal
  /-- The evolver, if the caller chooses it. -/
  evolver : Option Evolver := none
  /-- When a stage counts as finished, if the caller says so. -/
  stopping : Option Float := none

/-- Why an intent is refused. -/
inductive IntentFault where
  /-- A stopping criterion is not positive. -/
  | stopping (name : String) (value : Float)
  /-- The time is not positive. -/
  | time (value : Float)
  /-- There is no stage. -/
  | noStage
  /-- A minimum needs the conjugate gradient evolver. -/
  | minimiser (goal : String) (kind : EvolverKind)
  /-- The evolver does not integrate in time. -/
  | integrator (kind : EvolverKind)
  /-- The sweep has no leg. -/
  | noLeg
  /-- An end of a leg is no vector. -/
  | legEnds (index first second : Nat)
  /-- A leg has fewer than two field values. -/
  | legCount (index count : Nat)

namespace Intent

/-- The driver that a manifest names. -/
def driverName (intent : Intent) : String :=
  match intent.goal with
  | .minimise => "MinDriver"
  | .evolve .. => "TimeDriver"
  | .sweep _ => "HysteresisDriver"

/-- Accept a stopping criterion that is positive or left to the engine. -/
def validateStopping (name : String) : Option Float → Except IntentFault Unit
  | some value =>
    if value.isFinite && 0 < value then .ok () else .error (.stopping name value)
  | none => .ok ()

/-- Accept the evolver that finds minima, or none. -/
def validateMinimiser (goal : String) : Option Evolver → Except IntentFault Unit
  | some evolver =>
    if evolver.kind = .conjugateGradient then .ok () else .error (.minimiser goal evolver.kind)
  | none => .ok ()

/-- Accept an evolver that integrates in time, or none. -/
def validateIntegrator : Option Evolver → Except IntentFault Unit
  | some evolver =>
    if evolver.kind.integratesTime then .ok () else .error (.integrator evolver.kind)
  | none => .ok ()

/-- Accept legs between vectors with at least two values, counted from an index. -/
def validateLegs (index : Nat) : List SweepLeg → Except IntentFault Unit
  | [] => .ok ()
  | leg :: rest =>
    if leg.start.length ≠ 3 || leg.stop.length ≠ 3 then
      .error (.legEnds index leg.start.length leg.stop.length)
    else if leg.count < 2 then .error (.legCount index leg.count)
    else validateLegs (index + 1) rest

/-- Accept an intent that the engine can carry out. -/
def validate (intent : Intent) : Except IntentFault Unit :=
  match intent.goal with
  | .minimise => do
    validateStopping "stopping_mxHxm" intent.stopping
    validateMinimiser "minimise" intent.evolver
  | .evolve time stages => do
    if !(time.isFinite && 0 < time) then .error (.time time)
    if stages = 0 then .error .noStage
    validateStopping "stopping_dm_dt" intent.stopping
    validateIntegrator intent.evolver
  | .sweep legs => do
    if legs.isEmpty then .error .noLeg
    validateLegs 0 legs
    validateStopping "stopping_mxHxm" intent.stopping
    validateMinimiser "sweep" intent.evolver

end Intent

/-- The sentence of a refused intent. -/
def IntentFault.fault : IntentFault → Fault
  | .stopping name value =>
    .invalid "INPUT.STOPPING_CRITERION" s!"{name} must be positive, got {show64 value}"
  | .time value =>
    .invalid "INPUT.TIME_EVOLVE_T" s!"simulation time must be positive, got {show64 value}"
  | .noStage => .invalid "INPUT.TIME_EVOLVE_N" "time evolution needs at least one stage"
  | .minimiser goal kind =>
    .badTerm "INPUT.EVOLVER_PAIRING" s!"{goal} requires Oxs_CGEvolve, got {kind.className}"
  | .integrator kind =>
    .badTerm "INPUT.EVOLVER_PAIRING" s!"time evolution cannot use evolver {kind.className}"
  | .noLeg => .badTerm "INPUT.SWEEP_STEP_COUNT" "hysteresis sweep needs at least one step"
  | .legEnds index first second =>
    .invalid "INPUT.SWEEP_STEP_ARITY"
      s!"sweep step {index} endpoints must have 3 components, got {first} and {second}"
  | .legCount index count =>
    .badTerm "INPUT.SWEEP_STEP_COUNT"
      s!"sweep step {index} has n={count}, expected at least 2"

end Micromag
