import Micromag.Document.Intent
import Micromag.Drive.Artifact
import Micromag.Files.Action
import Micromag.Lowering.Problem
import Micromag.Manifest

/-!
# Drives

A drive lowers a problem into a new directory, runs the engine there, and takes over what the engine
wrote: the latest magnetisation and the table. A run that fails leaves its files behind. A manifest
is written whether the run succeeds or not.
-/

namespace Micromag

/-- An engine: it is given the path of a script and runs in the working directory. -/
abbrev Engine := String → FileAction RunOutput

/-- How a drive is carried out. -/
structure DriveOptions where
  /-- The directory that holds the directories of problems. -/
  directory : String := "."
  /-- Drives may be added to those that are there. -/
  append : Bool := true
  /-- The settings of the script. -/
  settings : ScriptSettings := {}
  /-- The platform of the engine. -/
  platform : Platform := .unix

/-- The result of a drive. -/
structure DriveOutcome where
  /-- Its number. -/
  index : Nat
  /-- Its directory. -/
  directory : String
  /-- What the engine left behind. -/
  output : RunOutput

/-- A file system and a problem. -/
structure Session where
  /-- The file system. -/
  files : FileSystem
  /-- The problem. -/
  problem : Problem

/-- An action on a session. -/
abbrev SessionAction (α : Type) := Action Session α

namespace SessionAction

variable {α : Type}

/-- An action on the files of a session. -/
def onFiles (action : FileAction α) : SessionAction α :=
  Action.onPart Session.files (fun files session => { session with files }) action

/-- Change the problem of a session. -/
def changeProblem (f : Problem → Problem) : SessionAction Unit :=
  Action.modify fun session => { session with problem := f session.problem }

end SessionAction

namespace Drive

/-- The directory of a problem, as an absolute path that stays right when the working directory
changes. -/
def problemDirectory (directory name : String) : FileAction String := do
  let path := Path.join directory name
  let what := s!"failed to resolve {path}"
  let workingDir ←
    if Path.isAbsolute path then pure ""
    else FileAction.look "IO.PROBLEM_DIR" what FileSystem.currentPath
  match Path.absolute? workingDir path with
  | some absolute => return absolute
  | none => Action.fail (FileFault.malformed.fault "IO.PROBLEM_DIR" what)

/-- The number after those of the drives that are there. Numbers are 64-bit words. -/
def nextIndex (directory : String) (append : Bool) : FileAction Nat := do
  let indices ← indices directory
  match indices.getLast? with
  | none => return 0
  | some last =>
    if append then return (last + 1) % 2 ^ 64
    else
      Action.fail ⟨.directoryExists, "RUN.DRIVE_EXISTS",
        s!"{directory} already holds {indices.length} drive(s); pass append to add another", none⟩

/-- Write field files into a directory. -/
def writeSidecars (directory : String) : List Sidecar → FileAction Unit
  | [] => pure ()
  | sidecar :: rest => do
    Artifact.writeField (Path.join directory sidecar.fileName) sidecar.field .binary8
      sidecar.extended
    writeSidecars directory rest

/-- Make a directory with a script and its field files: the path of the script. -/
def prepare (directory name : String) (script : LoweredScript) : FileAction String := do
  FileAction.makeDirectories "IO.DRIVE_DIR" directory
  let path := Path.join directory (name ++ ".mif")
  Artifact.writeText "IO.SCRIPT_WRITE" path script.text
  writeSidecars directory script.sidecars
  return path

/-- Run an engine in a directory. -/
def invoke (engine : Engine) (directory script : String) : FileAction RunOutput :=
  WorkingDir.within directory (engine script)

/-- Accept a run that succeeded. -/
def requireSuccess (output : RunOutput) (script : String) : Except Fault RunOutput :=
  if output.isSuccess then .ok output
  else
    .error ⟨.engineFailure, "RUN.ENGINE_EXIT",
      s!"engine exited with code {output.returnCode} running {script}", some output⟩

/-- Write a manifest. -/
def writeManifest (directory : String) (manifest : Manifest) : FileAction Unit :=
  Artifact.writeText "IO.MANIFEST_WRITE" (Path.join directory Manifest.fileName) manifest.text

/-- Read a manifest. -/
def readManifest (directory : String) : FileAction Manifest := do
  let path := Path.join directory Manifest.fileName
  let text ← Artifact.readText "IO.MANIFEST_READ" path
  match Manifest.ofText? text with
  | some manifest => return manifest
  | none => Action.fail (.parse "PARSE.MANIFEST" s!"{path} is not a drive manifest")

/-- The path of the latest magnetisation that the engine wrote. -/
def snapshot (directory name : String) : FileAction String := do
  let pattern := name ++ "-*.omf"
  match ← Artifact.latest? directory pattern with
  | some path => return path
  | none =>
    Action.fail (.absent "RUN.MAGNETISATION_MISSING"
      s!"engine wrote no magnetisation matching {pattern} in {directory}")

/-- Take over the magnetisation and then the table that the engine wrote. -/
def hydrate (directory : String) : SessionAction Unit := do
  let problem ← Action.read Session.problem
  let snapshot ← SessionAction.onFiles (snapshot directory problem.name)
  let found ← SessionAction.onFiles (Artifact.readField snapshot)
  let m ← (problem.m.assign found).mapError FieldFault.fault
  SessionAction.changeProblem ({ · with m })
  let table ← SessionAction.onFiles
    (Artifact.readTable (Path.join directory (problem.name ++ ".odt")) true)
  SessionAction.changeProblem ({ · with table := some table })

/-- Lower a problem, run the engine in a new directory and write the manifest: the number, the
directory and the output of a run that succeeded. -/
def run (now : Timestamp) (engine : Engine) (options : DriveOptions) (intent : Intent)
    (problem : Problem) : FileAction DriveOutcome := do
  let script ← problem.lower intent options.settings options.platform
  let base ← problemDirectory options.directory problem.name
  let index ← nextIndex base options.append
  let directory := Path.join base (directoryName index)
  let path ← prepare directory problem.name script
  let output ← Action.attempt (invoke engine directory path)
  let manifest := Manifest.ofTime now index intent.driverName intent.manifestArguments
  match ← Action.attempt (writeManifest directory manifest), output with
  | .error fault, .ok _ => Action.fail fault
  | _, .error fault => Action.fail fault
  | .ok _, .ok output => return ⟨index, directory, ← requireSuccess output path⟩

end Drive

/-- Drive the problem of a session at a time: run the engine, take over what it wrote, and count the
drive. -/
def Session.drive (now : Timestamp) (engine : Engine) (options : DriveOptions)
    (intent : Intent) : SessionAction DriveOutcome := do
  let problem ← Action.read Session.problem
  let outcome ← SessionAction.onFiles (Drive.run now engine options intent problem)
  Drive.hydrate outcome.directory
  SessionAction.changeProblem fun problem =>
    { problem with driveNumber := problem.driveNumber + 1 }
  return outcome

end Micromag

/-!
## Removing a problem's directory

The directory of a problem can be removed with all its drives; the problem then starts to count
again. A host may deny the removal of what is protected, after some of the rest is gone. What is
left is made writable then, and the removal is tried once more.
-/

namespace Micromag

namespace Drive

/-- Remove the directory of a problem on a host. Without one that is a fault unless `silent` is
set. -/
def removeDirectoryOn (guard : Guard) (directory name : String) (silent : Bool) :
    FileAction Unit := do
  (Problem.validateName name).mapError ProblemFault.fault
  let path ← problemDirectory directory name
  if guard.visible && (← Action.read fun system => system.exists? path) then
    FileAction.advance "IO.PROBLEM_DIR_DELETE" s!"failed to delete {path}"
      (·.removeStubborn path guard)
  else if silent then return ()
  else
    Action.fail (.absent "IO.PROBLEM_DIR_MISSING"
      s!"problem directory {path} does not exist")

/-- Remove the directory of a problem on a host that denies nothing. -/
def removeDirectory (directory name : String) (silent : Bool) : FileAction Unit :=
  removeDirectoryOn {} directory name silent

end Drive

/-- Remove the directory of the problem of a session on a host and reset the number of its
drives. -/
def Session.deleteOn (guard : Guard) (directory : String) (silent : Bool) : SessionAction Unit := do
  let problem ← Action.read Session.problem
  SessionAction.onFiles (Drive.removeDirectoryOn guard directory problem.name silent)
  SessionAction.changeProblem ({ · with driveNumber := 0 })

/-- Remove the directory of the problem of a session on a host that denies nothing. -/
def Session.delete (directory : String) (silent : Bool) : SessionAction Unit :=
  Session.deleteOn {} directory silent

end Micromag
