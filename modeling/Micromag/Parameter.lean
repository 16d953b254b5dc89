import Micromag.Field

/-!
# Parameters

A material parameter is the same everywhere, or differs from region to region, or is given cell by
cell. Its values are numbers or vectors; which of them a place in a script accepts is decided there.
-/

namespace Micromag

/-- A number or a vector. -/
inductive RegionValue where
  /-- A number. -/
  | scalar (x : Float)
  /-- A vector. -/
  | vector (v : Triple Float)
deriving Inhabited

namespace RegionValue

/-- The number, if the value is one. -/
def scalar? : RegionValue → Option Float
  | scalar x => some x
  | vector _ => none

/-- The vector, if the value is one. -/
def vector? : RegionValue → Option (Triple Float)
  | scalar _ => none
  | vector v => some v

end RegionValue

/-- Values by region, or by pair of regions, with an optional value for everywhere else. -/
structure RegionMap where
  /-- The values under region names or pairs of them. -/
  values : Keyed RegionValue := .empty
  /-- The value elsewhere. -/
  fallback : Option RegionValue := none

namespace RegionMap

/-- The key that stands for everywhere else. -/
def fallbackKey : String := "default"

/-- Set the value under a key; the fallback key sets the value elsewhere. -/
def insert (map : RegionMap) (key : String) (value : RegionValue) : RegionMap :=
  if key = fallbackKey then { map with fallback := some value }
  else { map with values := map.values.insert key value }

/-- The map of entries under keys that may include the fallback key. -/
def ofEntries (entries : Keyed RegionValue) : RegionMap :=
  entries.entries.foldl (fun map entry => map.insert entry.1 entry.2) {}

/-- All entries, the value elsewhere under the fallback key. -/
def toEntries (map : RegionMap) : Keyed RegionValue :=
  match map.fallback with
  | none => map.values
  | some value => map.values.insert fallbackKey value

end RegionMap

/-- A material parameter. -/
inductive Parameter where
  /-- The same number everywhere. -/
  | constant (x : Float)
  /-- The same vector everywhere. -/
  | vector (v : Triple Float)
  /-- A value for each region. -/
  | perRegion (map : RegionMap)
  /-- A value for each cell. -/
  | field (field : Field Float)

namespace Parameter

/-- What a parameter is called in messages. -/
def kindName : Parameter → String
  | constant _ => "constant"
  | vector _ => "constant vector"
  | perRegion _ => "per-region map"
  | field _ => "field"

/-- The number of a constant parameter. -/
def constant? : Parameter → Option Float
  | constant x => some x
  | _ => none

end Parameter

end Micromag
