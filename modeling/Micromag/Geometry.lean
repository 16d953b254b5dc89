/-!
# Axes and triples

Space has three axes. A triple holds one value for each of them.
-/

namespace Micromag

/-- A coordinate axis. -/
inductive Axis where
  | x
  | y
  | z
deriving DecidableEq, Repr, Inhabited

namespace Axis

/-- The axes in order. -/
def all : List Axis := [x, y, z]

/-- The letter of an axis. -/
def letter : Axis → Char
  | x => 'x'
  | y => 'y'
  | z => 'z'

/-- The axis of a letter. -/
def ofLetter? : Char → Option Axis
  | 'x' => some x
  | 'y' => some y
  | 'z' => some z
  | _ => none

/-- The two other axes in order. -/
def others (axis : Axis) : List Axis := all.filter (· ≠ axis)

end Axis

/-- One value for each axis. -/
structure Triple (α : Type) where
  /-- The value along the first axis. -/
  x : α
  /-- The value along the second axis. -/
  y : α
  /-- The value along the third axis. -/
  z : α
deriving DecidableEq, Repr, Inhabited

namespace Triple

variable {α β : Type}

/-- The value along an axis. -/
def along (triple : Triple α) : Axis → α
  | .x => triple.x
  | .y => triple.y
  | .z => triple.z

/-- The triple of a function on the axes. -/
def ofFn (f : Axis → α) : Triple α := ⟨f .x, f .y, f .z⟩

/-- The triple with a function applied along every axis. -/
def map (f : α → β) (triple : Triple α) : Triple β := ofFn fun axis => f (triple.along axis)

/-- The values in the order of the axes. -/
def toList (triple : Triple α) : List α := [triple.x, triple.y, triple.z]

/-- The triple of exactly three values. -/
def ofList? : List α → Option (Triple α)
  | [x, y, z] => some ⟨x, y, z⟩
  | _ => none

/-- The same value along every axis. -/
def fill (value : α) : Triple α := ⟨value, value, value⟩

end Triple

end Micromag
