import Micromag.CommandLine.Run
import Micromag.Files.Tree
import Micromag.Shell.Engine

/-!
# The program

The outermost layer: it reads the tree of files below the working directory, carries out the command
line on it, brings the files up to what that left, and prints. It decides nothing.
-/

namespace Micromag.Main

/-- Something found on the disk: its path, its node, and when it was last changed. -/
structure Found where
  /-- The path. -/
  path : String
  /-- The node. -/
  node : Node
  /-- Seconds and billionths of a second. -/
  changed : Int × Nat

/-- What stands at a path and below it, down to a depth. What cannot be read, and what is neither a
file nor a directory, is left out. -/
def search : Nat → String → IO (List Found)
  | 0, _ => return []
  | depth + 1, path => do
    let location := (← IO.currentDir) / path
    let .ok about ← location.symlinkMetadata.toBaseIO | return []
    let changed := (about.modified.sec, about.modified.nsec.toNat)
    match about.type with
    | .dir =>
      let .ok entries ← location.readDir.toBaseIO | return []
      let below ← entries.toList.mapM fun entry => search depth entry.path.toString
      return ⟨path, .directory, changed⟩ :: below.flatten
    | .file =>
      let .ok content ← (IO.FS.readBinFile location).toBaseIO | return []
      return [⟨path, .file content.toList, changed⟩]
    | _ => return []

/-- Whether one thing was changed no later than another. -/
def notLater (a b : Found) : Bool :=
  decide (a.changed.1 < b.changed.1) ||
    (a.changed.1 = b.changed.1 && decide (a.changed.2 ≤ b.changed.2))

/-- Put what was found into a file system. -/
def place (files : FileSystem) (found : Found) : FileSystem :=
  match found.node with
  | .file content =>
    let parent := "/".intercalate (Path.parts found.path).dropLast
    let files := (files.makeDirectories parent).1
    (files.writeFile found.path content).toOption.getD files
  | _ => (files.makeDirectories found.path).1

/-- The files below the working directory, in the order in which they were last changed, and the
programs that an engine may use. -/
def snapshot : IO FileSystem := do
  let here := (← IO.currentDir).toString
  let found ← search FileSystem.maxPath here
  let files := (found.mergeSort notLater).foldl place (Shell.Program.install {})
  return { files with workingDir := (files.serialOf? here).getD 0 }

/-- Bring the disk up to a file tree. Links are left alone. -/
def restore (changes : FileChanges) : IO Unit := do
  for entry in changes.removed do
    let path := FileSystem.pathOf entry.place
    match entry.node with
    | .directory => IO.FS.removeDir path
    | .file _ => IO.FS.removeFile path
    | .link _ => pure ()
  for entry in changes.made do
    let path := FileSystem.pathOf entry.place
    match entry.node with
    | .directory => IO.FS.createDirAll path
    | .file content => IO.FS.writeBinFile path (ByteArray.mk content.toArray)
    | .link _ => pure ()

/-- The time, told by a file that is made for it. -/
def clock : IO Timestamp :=
  IO.FS.withTempFile fun _ path => do
    return Timestamp.ofSeconds (← path.metadata).modified.sec

end Micromag.Main

open Micromag Micromag.Main in
/-- Carry out the command line of the process. -/
def main (arguments : List String) : IO UInt32 := do
  let around : CommandLine.Surroundings :=
    ⟨EngineCommand.start, ← clock, ← IO.getEnv CommandLine.engineName⟩
  let files ← snapshot
  let (report, later) := CommandLine.run around arguments files
  restore (FileChanges.between files.tree later.tree)
  IO.print report.stdout
  IO.eprint report.stderr
  return report.exitCode.toUInt32
