import Micromag.Term

/-!
# Dynamics

The dynamics of a problem is a list of named torques. Of each kind the first counts.
-/

namespace Micromag

/-- The torques that turn the magnetisation. -/
inductive Torque where
  /-- Precession about the effective field. -/
  | precession (gamma : Parameter)
  /-- Damping towards the effective field. -/
  | damping (alpha : Parameter)
  /-- Torque of a current in the plane, with its degree of non-adiabaticity. -/
  | zhangLi (velocity beta : Parameter)
  /-- Torque of a current through a polarising layer. -/
  | slonczewski (current polariser polarisation asymmetry secondary : Parameter)

namespace Torque

/-- The kind of a torque in documents. -/
def kindName : Torque → String
  | precession .. => "precession"
  | damping .. => "damping"
  | zhangLi .. => "zhang_li"
  | slonczewski .. => "slonczewski"

/-- The name of a torque that is not named. -/
def defaultName : Torque → String
  | precession .. => "precession"
  | damping .. => "damping"
  | zhangLi .. => "zhangli"
  | slonczewski .. => "slonczewski"

end Torque

/-- A named torque. -/
structure DynamicsTerm where
  /-- The name of the term. -/
  name : String
  /-- What it contributes. -/
  torque : Torque

/-- The term of a torque under its default name. -/
def DynamicsTerm.ofTorque (torque : Torque) : DynamicsTerm := ⟨torque.defaultName, torque⟩

/-- The sum of torques, in order. -/
abbrev Dynamics := List DynamicsTerm

namespace Dynamics

/-- The first precession: the name of its term and its constant. -/
def precession? (dynamics : Dynamics) : Option (String × Parameter) :=
  dynamics.findSome? fun term =>
    match term.torque with
    | .precession gamma => some (term.name, gamma)
    | _ => none

/-- The first damping: the name of its term and its constant. -/
def damping? (dynamics : Dynamics) : Option (String × Parameter) :=
  dynamics.findSome? fun term =>
    match term.torque with
    | .damping alpha => some (term.name, alpha)
    | _ => none

/-- The first in-plane current torque: the name of its term, velocity and non-adiabaticity. -/
def zhangLi? (dynamics : Dynamics) : Option (String × Parameter × Parameter) :=
  dynamics.findSome? fun term =>
    match term.torque with
    | .zhangLi velocity beta => some (term.name, velocity, beta)
    | _ => none

/-- The first torque of a polarised current: the name of its term and its five parameters. -/
def slonczewski? (dynamics : Dynamics) :
    Option (String × Parameter × Parameter × Parameter × Parameter × Parameter) :=
  dynamics.findSome? fun term =>
    match term.torque with
    | .slonczewski current polariser polarisation asymmetry secondary =>
      some (term.name, current, polariser, polarisation, asymmetry, secondary)
    | _ => none

/-- Accept terms with usable names. -/
def validate (dynamics : Dynamics) : Except TermFault Unit :=
  validateNames "dynamics" (dynamics.map (·.name))

end Dynamics

end Micromag
