import Micromag.Parameter
import Micromag.Script.Number

/-!
# Lowering on a platform

The platforms of the engine, and what it is to lower a value.
-/

/-!
## Platforms

Some extensions of the engine are built on one platform only.
-/

namespace Micromag

/-- The system on which the engine runs. -/
inductive Platform where
  | unix
  | windows
deriving DecidableEq, Repr, Inhabited

namespace Platform

/-- The name of a platform. -/
def name : Platform → String
  | unix => "unix"
  | windows => "windows"

/-- The platform of a name. -/
def ofName? : String → Option Platform
  | "unix" => some unix
  | "windows" => some windows
  | _ => none

end Platform

end Micromag

/-!
## Lowering

To lower a value is to find the script items that declare it for the engine. Values that differ from
cell to cell go into field files beside the script. A lowering therefore has two results: items or
a fault, and the files it asked for, which stay asked for when a later part fails.
-/

namespace Micromag

/-- A field file that a script refers to. -/
structure Sidecar where
  /-- Its name in the run directory. -/
  fileName : String
  /-- Its values. -/
  field : Field Float
  /-- Numbers are written as vectors along the first axis. -/
  extended : Bool

/-- What lowering depends on besides the value. -/
structure Site where
  /-- The mesh of the problem. -/
  mesh : Mesh Float
  /-- The platform of the engine. -/
  platform : Platform

/-- A result or a fault. The field files asked for on the way come behind those that are held
already, on which nothing depends. -/
structure Lowering (α : Type) where
  /-- The result, and the files that are held thereafter. -/
  run : List Sidecar → Except Fault α × List Sidecar
  /-- Files that are held before have no influence and stay in front. -/
  appends : ∀ held, run held = ((run []).1, held ++ (run []).2)

namespace Lowering

variable {α β : Type}

/-- The result. -/
def result (lowering : Lowering α) : Except Fault α := (lowering.run []).1

/-- The field files in the order in which they were asked for. -/
def sidecars (lowering : Lowering α) : List Sidecar := (lowering.run []).2

/-- Follow one lowering by another, which holds what the first leaves. After a fault nothing
follows. -/
def andThen (first : Lowering α) (next : α → Lowering β) : Lowering β where
  run held :=
    match first.run held with
    | (.error fault, left) => (.error fault, left)
    | (.ok value, left) => (next value).run left
  appends held := by
    rw [first.appends held]
    cases first.run [] with
    | mk result own =>
      cases result with
      | error fault => rfl
      | ok value =>
        dsimp only
        rw [(next value).appends (held ++ own), (next value).appends own, List.append_assoc]

/-- Neither ask for a field file nor look at those that are held. -/
def ofExcept (result : Except Fault α) : Lowering α where
  run held := (result, held)
  appends held := by rw [List.append_nil]

instance : Monad Lowering where
  pure value := ofExcept (.ok value)
  bind := andThen

/-- Stop with a fault. -/
def fail (fault : Fault) : Lowering α := ofExcept (.error fault)

/-- Ask for a field file. -/
def attach (sidecar : Sidecar) : Lowering Unit where
  run held := (.ok (), held ++ [sidecar])
  appends _ := rfl

instance : MonadLift (Except Fault) Lowering := ⟨ofExcept⟩

end Lowering

/-- The region names of a mesh in a sentence. -/
def Mesh.listedNames (mesh : Mesh Float) : String := String.intercalate ", " mesh.regionNames

end Micromag
