import Micromag.Scalar
import Micromag.Script.Number
import Micromag.Term

/-!
# Procedures of a script

The times at which a profile is tabulated, and the procedures that a script defines.
-/

/-!
## Sampling a time interval

A profile is tabulated at equal steps from the start of a drive up to its end; the end itself is the
last time, whatever the step. A remainder below a billionth of a step gets no time of its own.
-/

namespace Micromag.Sampling

variable {α : Type} [Scalar α]

/-- Whether a step can be used: finite and positive. -/
def isStep (step : α) : Bool := Scalar.isFinite step && decide (0.0 < step)

/-- The number of steps that cover an interval. -/
def stepCount (step total : α) : Nat :=
  Scalar.toCount (Scalar.most (Scalar.ceiling (total / step - 1e-9)) 0.0)

/-- The time at a place among a number of steps. -/
def timeAt (step total : α) (count place : Nat) : α :=
  if place = count then total else Scalar.ofNat place * step

/-- The times at which a profile is tabulated, if the step can be used. -/
def times? (step total : α) : Option (List α) :=
  if isStep step then
    let count := stepCount step total
    some ((List.range (count + 1)).map (timeAt step total count))
  else none

/-- The place in a table of `last + 1` values that a time is looked up at. -/
def placeOf (step : α) (last : Nat) (time : α) : Nat :=
  min (Scalar.toCount (Scalar.round (time / step))) last

end Micromag.Sampling

/-!
## Procedures

Values that change in time are computed by procedures of the script: waves of an applied field, and
tabulated profiles of a current.
-/

namespace Micromag.Script

/-- An expression to be evaluated. -/
def expression (text : String) : String := "[expr " ++ braced text ++ "]"

/-- The assignment of an expression to a variable. -/
def assignment (target value : String) : String := "set " ++ target ++ " " ++ expression value

/-- The lines that compute the value and the derivative of a wave. -/
def waveBody? : Wave → Option (List String)
  | .constant => none
  | .sin => some
    [assignment "w" "2*$PI*$f", assignment "tt" "$totaltime - $t0",
      assignment "wave" "sin($w*$tt)", assignment "dwave" "$w*cos($w*$tt)"]
  | .sinc => some
    [assignment "w" "2*$PI*$f", assignment "tt" "$totaltime - $t0", assignment "x" "$w*$tt",
      "if " ++ braced "$x == 0" ++ " \x7b", "  return [list 1 1 1 0 0 0]", "\x7d",
      assignment "wave" "sin($x)/$x",
      assignment "dwave" "$w*(cos($x)/$x - sin($x)/($x*$x))"]

/-- The procedure that scales an applied field by a wave; a constant field needs none. -/
def waveProcedure? (name : String) (wave : Wave) : Option Procedure :=
  (waveBody? wave).map fun body =>
    ⟨name, "f t0 stage stagetime totaltime",
      assignment "PI" "4*atan(1.0)" :: body ++
        ["return [list $wave $wave $wave $dwave $dwave $dwave]"]⟩

/-- The fault of a time dependence that cannot be tabulated. -/
def timeDependence (message : String) : Fault := .invalid "INPUT.TIME_DEPENDENCE" message

/-- The times at which a profile is tabulated. -/
def sampleTimes (step total : Float) : Except Fault (List Float) :=
  match Sampling.times? step total with
  | some times => .ok times
  | none => .error (timeDependence s!"tstep must be positive, got {show64 step}")

/-- The procedure that looks up a table of values at equal steps; before the first and after the
last value it keeps the value at that end. -/
def lookupProcedure (name : String) (step : Float) (samples : List Float) :
    Except Fault Procedure := do
  if samples.isEmpty then .error (timeDependence "time dependence produced no samples")
  let values ← numbers samples
  let step ← numberText step
  return ⟨name, "total_time",
    ["set tstep " ++ step, "set values " ++ values.render,
      assignment "index" "int(round($total_time/$tstep))",
      assignment "last" "[llength $values] - 1",
      "if " ++ braced "$index < 0" ++ " " ++ braced " set index 0 ",
      "if " ++ braced "$index > $last" ++ " " ++ braced " set index $last ",
      "return [lindex $values $index]"]⟩

end Micromag.Script
