import Micromag.Script.Basic
import Micromag.Fault
import Micromag.Geometry

/-!
# Numbers in scripts

A number is written with the fewest digits that identify it: positionally from `1e-4` up to `1e16`,
otherwise with an exponent. Both zeros are written as one digit. What is no finite number cannot be
written.
-/

namespace Micromag.Script

/-- The layout of numbers in scripts. -/
def numberLayout : Layout where
  positional leading := -4 ≤ leading && leading < 16
  pointZero := false
  exponentSign := false
  tie := .up
  signedZero := false

/-- The fault of a number that cannot be written. -/
def notFinite (x : Float) : Fault :=
  .invalid "INPUT.NON_FINITE" s!"cannot write non-finite value {show64 x} to a script"

/-- The text of a number. -/
def numberText (x : Float) : Except Fault String :=
  if !x.isFinite then .error (notFinite x)
  else if x == 0 then .ok "0"
  else .ok (numberLayout.text x)

/-- A number as a part of a word. -/
def number (x : Float) : Except Fault Atom := (numberText x).map .text

/-- A number as a word. -/
def numberWord (x : Float) : Except Fault Word := (number x).map .atom

/-- Numbers between braces. -/
def numbers (xs : List Float) : Except Fault Word := (xs.mapM number).map .group

/-- A vector as a word. -/
def vectorWord (v : Triple Float) : Except Fault Word := numbers v.toList

/-- The text of a vector. -/
def vectorText (v : Triple Float) : Except Fault String := (vectorWord v).map Word.render

end Micromag.Script
