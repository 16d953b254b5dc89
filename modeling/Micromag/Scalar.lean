import Micromag.Decimal.Reading

/-!
# Scalars

Geometry and sampling are written once for every type of scalars with the arithmetic they need.
Programs run on doubles; the same definitions over the real numbers say what is computed when
nothing is rounded.
-/

namespace Micromag

/-- Arithmetic, comparisons and rounding of lengths, times and field values. -/
class Scalar (α : Type) extends Add α, Sub α, Mul α, Div α, LT α, LE α, OfScientific α where
  /-- Strict comparison can be decided. -/
  decideLess (a b : α) : Decidable (a < b)
  /-- Weak comparison can be decided. -/
  decideAtMost (a b : α) : Decidable (a ≤ b)
  /-- A whole number as a scalar. -/
  ofNat : Nat → α
  /-- Whether the scalar is a number and not infinite. -/
  isFinite : α → Bool
  /-- The distance from zero. -/
  magnitude : α → α
  /-- The smaller of two scalars; something that is no number never wins. -/
  least : α → α → α
  /-- The larger of two scalars; something that is no number never wins. -/
  most : α → α → α
  /-- The nearest whole number, a half going away from zero. -/
  round : α → α
  /-- The least whole number that is not smaller. -/
  ceiling : α → α
  /-- The whole part as a count: zero below zero and for no number, at most `2 ^ 64 - 1`. -/
  toCount : α → Nat
  /-- The square root. -/
  root : α → α

namespace Scalar

instance {α : Type} [Scalar α] (a b : α) : Decidable (a < b) := decideLess a b
instance {α : Type} [Scalar α] (a b : α) : Decidable (a ≤ b) := decideAtMost a b

/-- The largest count. -/
def maxCount : Nat := 2 ^ 64 - 1

end Scalar

namespace Binary64

/-- A whole magnitude with the sign of a double. -/
def withSignOf (x : Float) (whole : Nat) : Float :=
  if isNegative x then -Float.ofNat whole else Float.ofNat whole

/-- The nearest whole double, a half going away from zero. -/
def round (x : Float) : Float :=
  let magnitude := Magnitude.ofFloat x
  if !x.isFinite || 0 ≤ magnitude.exponent then x else withSignOf x magnitude.nearest

/-- The least whole double that is not smaller. -/
def ceiling (x : Float) : Float :=
  let magnitude := Magnitude.ofFloat x
  if !x.isFinite || 0 ≤ magnitude.exponent then x
  else withSignOf x (if isNegative x then magnitude.floor else magnitude.ceiling)

/-- The whole part of a double as a count. -/
def toCount (x : Float) : Nat :=
  if x.isNaN || isNegative x then 0
  else if !x.isFinite then Scalar.maxCount
  else min (Magnitude.ofFloat x).floor Scalar.maxCount

end Binary64

instance : Scalar Float where
  decideLess a b := inferInstanceAs (Decidable (a < b))
  decideAtMost a b := inferInstanceAs (Decidable (a ≤ b))
  ofNat := Float.ofNat
  isFinite := Float.isFinite
  magnitude := Float.abs
  least a b := if a.isNaN then b else if b < a then b else a
  most a b := if a.isNaN then b else if a < b then b else a
  round := Binary64.round
  ceiling := Binary64.ceiling
  toCount := Binary64.toCount
  root := Float.sqrt

end Micromag
