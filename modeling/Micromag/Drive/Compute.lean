import Micromag.Drive.Basic
import Micromag.Quantity

/-!
# Computing derived quantities

A quantity is computed by a drive in time that is too short to change anything. It runs in a
directory of its own, which is removed afterwards, and neither the problem nor the list of its
drives takes notice.
-/

namespace Micromag

/-- The value of a quantity. -/
inductive ComputedValue where
  /-- A number. -/
  | scalar (x : Float)
  /-- A value for each cell. -/
  | field (field : Field Float)

namespace Compute

/-- The duration of the drive. -/
def duration : Float := 1e-25

/-- The intent of the drive. -/
def intent : Intent := { goal := .evolve duration 1, evolver := some { kind := .rungeKutta } }

/-- The line that asks for an output. -/
def directive (identifier : String) : String := "Schedule \"" ++ identifier ++ "\" archive Step 1"

/-- The settings of the script. -/
def settingsFor (settings : ScriptSettings) (quantity : Quantity) (identifier : String) :
    ScriptSettings :=
  { settings with directive := quantity.filePattern?.map fun _ => directive identifier }

/-- What the name of a passing directory starts with. -/
def scratchName : String := "compute-"

/-- A name for a passing directory, different from the names that are taken. -/
def freshName (taken : List String) : String :=
  let name (n : Nat) : String := scratchName ++ Timestamp.padded 6 n
  name (((List.range (taken.length + 1)).find? fun n => !taken.contains (name n)).getD 0)

/-- Remove a directory, whatever comes of it. -/
def discard (path : String) (system : FileSystem) : FileSystem :=
  match system.removeTree path with
  | .ok changed => changed
  | .error _ => system

/-- Make a passing directory: its path. -/
def makeScratch (parent : String) : FileAction String := do
  let what := s!"failed to create compute directory in {parent}"
  let taken ← FileAction.look "IO.COMPUTE_DIR" what (·.list parent)
  let path := Path.join parent (freshName (taken.map (·.1)))
  FileAction.change "IO.COMPUTE_DIR" what (·.makeDirectory path)
  return path

/-- Carry out an action with a directory that is removed afterwards. -/
def withScratch {α : Type} (parent : String) (action : String → FileAction α) : FileAction α := do
  let path ← makeScratch parent
  fun system =>
    let (result, system) := action path system
    (result, discard path system)

/-- The value that the engine wrote. -/
def value (directory name identifier : String) (quantity : Quantity) :
    FileAction ComputedValue := do
  match quantity.filePattern? with
  | none =>
    let table ← Artifact.readTable (Path.join directory (name ++ ".odt")) false
    match table.last? identifier with
    | some x => return .scalar x
    | none =>
      Action.fail (.absent "RUN.COMPUTE_COLUMN" s!"engine table has no column '{identifier}'")
  | some pattern =>
    match ← Artifact.latest? directory pattern with
    | some path => return .field (← Artifact.readField path)
    | none =>
      Action.fail (.absent "RUN.COMPUTE_ARTIFACT"
        s!"engine wrote no {pattern} output for '{identifier}'")

end Compute

/-- Compute a quantity of a target. -/
def Problem.compute (problem : Problem) (target : Target) (quantity : Quantity) (engine : Engine)
    (options : DriveOptions) : FileAction ComputedValue := do
  let identifier ← problem.outputIdentifier target quantity options.platform
  let settings := Compute.settingsFor options.settings quantity identifier
  let script ← problem.lower Compute.intent settings options.platform
  let parent ← Drive.problemDirectory options.directory problem.name
  FileAction.makeDirectories "IO.PROBLEM_DIR" parent
  Compute.withScratch parent fun directory => do
    let path ← Drive.prepare directory problem.name script
    let output ← Drive.invoke engine directory path
    let _ ← Drive.requireSuccess output path
    Compute.value directory problem.name identifier quantity

end Micromag
