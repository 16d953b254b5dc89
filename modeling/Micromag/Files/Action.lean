import Micromag.Files.System

/-!
# Actions

An action changes a state and gives a result or a fault. What was changed before a fault stays
changed. Most actions change the file system; those that also change a problem act on a larger
state.
-/

namespace Micromag

/-- An action on a state. -/
def Action (σ α : Type) : Type := σ → Except Fault α × σ

namespace Action

variable {σ τ α β : Type}

/-- Follow one action by another; after a fault nothing follows. -/
def andThen (first : Action σ α) (next : α → Action σ β) : Action σ β := fun state =>
  match first state with
  | (.ok value, state) => next value state
  | (.error fault, state) => (.error fault, state)

instance : Monad (Action σ) where
  pure value := fun state => (.ok value, state)
  bind := andThen

/-- Stop with a fault. -/
def fail (fault : Fault) : Action σ α := fun state => (.error fault, state)

/-- A result that leaves the state alone. -/
def ofExcept (result : Except Fault α) : Action σ α := fun state => (result, state)

instance : MonadLift (Except Fault) (Action σ) := ⟨ofExcept⟩

/-- A value of the state. -/
def read (f : σ → α) : Action σ α := fun state => (.ok (f state), state)

/-- Change the state. -/
def modify (f : σ → σ) : Action σ Unit := fun state => (.ok (), f state)

/-- Carry out an action and go on after its fault. -/
def attempt (action : Action σ α) : Action σ (Except Fault α) := fun state =>
  let (result, state) := action state
  (.ok result, state)

/-- Carry out an action whose fault is told in other terms. -/
def mapFault (f : Fault → Fault) (action : Action σ α) : Action σ α := fun state =>
  let (result, state) := action state
  (result.mapError f, state)

/-- Carry out an action on a part of a larger state. -/
def onPart (get : τ → σ) (set : σ → τ → τ) (action : Action σ α) : Action τ α := fun state =>
  let (result, part) := action (get state)
  (result, set part state)

end Action

/-- An action on the file system. -/
abbrev FileAction (α : Type) := Action FileSystem α

namespace FileAction

variable {α : Type}

/-- Look at the file system; a refusal becomes a fault. -/
def look (code what : String) (f : FileSystem → Except FileFault α) : FileAction α :=
  fun system => ((f system).mapError fun cause => cause.fault code what, system)

/-- Change the file system or leave it alone; a refusal becomes a fault. -/
def change (code what : String) (f : FileSystem → Except FileFault FileSystem) :
    FileAction Unit := fun system =>
  match f system with
  | .ok changed => (.ok (), changed)
  | .error cause => (.error (cause.fault code what), system)

/-- Change the file system as far as that goes; a refusal on the way becomes a fault. -/
def advance (code what : String) (f : FileSystem → FileSystem × Except FileFault Unit) :
    FileAction Unit := fun system =>
  let (changed, result) := f system
  (result.mapError fun cause => cause.fault code what, changed)

/-- Make a directory with all directories on the way to it. -/
def makeDirectories (code path : String) : FileAction Unit := fun system =>
  let (changed, result) := system.makeDirectories path
  (result.mapError fun cause => cause.fault code s!"failed to create {path}", changed)

end FileAction

end Micromag

/-!
## Working directories

The engine runs in the directory of its script. The working directory is held there for the time of
the run, and is the one before afterwards, whatever the run did, unless that one is gone.
-/

namespace Micromag.WorkingDir

/-- Enter a directory: the path of the directory before. -/
def enter (path : String) : FileAction String := do
  let previous ← FileAction.look "IO.CURRENT_DIR" "failed to read current working directory"
    FileSystem.currentPath
  FileAction.change "IO.CHANGE_DIR" s!"failed to enter {path}" (·.changeDirectory path)
  return previous

/-- Go back to a directory if it is still there. -/
def leave (previous : String) (system : FileSystem) : FileSystem :=
  match system.changeDirectory previous with
  | .ok changed => changed
  | .error _ => system

/-- Carry out an action in a directory. -/
def within {α : Type} (path : String) (action : FileAction α) : FileAction α := do
  let previous ← enter path
  fun system =>
    let (result, system) := action system
    (result, leave previous system)

end Micromag.WorkingDir
