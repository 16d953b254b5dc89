import Micromag.Fault
import Micromag.Files.Path
import Micromag.Files.Tree

/-!
# The file system

A file system is a file tree with a working directory, from which relative paths start. The working
directory is remembered by its number: it may be moved, and it may be gone. Paths are followed name
by name through directories and links; a limited number of links is followed for one path, and
names and paths have a limited length.
-/

namespace Micromag

/-- Why a file operation is refused. -/
inductive FileFault where
  | absent
  | notDirectory
  | isDirectory
  | occupied
  | notEmpty
  | tooLong
  | tooManyLinks
  | malformed
  | denied
  | notText
deriving DecidableEq, Repr

namespace FileFault

/-- The words for a refusal. -/
def text : FileFault → String
  | absent => "No such file or directory"
  | notDirectory => "Not a directory"
  | isDirectory => "Is a directory"
  | occupied => "File exists"
  | notEmpty => "Directory not empty"
  | tooLong => "File name too long"
  | tooManyLinks => "Too many levels of symbolic links"
  | malformed => "Invalid argument"
  | denied => "Permission denied"
  | notText => "stream did not contain valid UTF-8"

/-- The category of a refusal. -/
def category : FileFault → Category
  | absent => .notFound
  | _ => .ioSystem

/-- The fault of an operation that was refused. -/
def fault (cause : FileFault) (code what : String) : Fault :=
  ⟨cause.category, code, s!"{what}: {cause.text}", none⟩

end FileFault

/-- A place that a path leads to, and what stands there; the place may be free. -/
structure Spot where
  /-- The place. -/
  place : Place
  /-- What stands there. -/
  node : Option Node
deriving DecidableEq, Repr

/-- How a host stops the removal of a directory. -/
structure Denial where
  /-- Why it stops the removal. -/
  cause : FileFault
  /-- What has not been removed by then, besides the directories in which that stands. -/
  spares : Entry → Bool

/-- What a host denies while a directory is removed. -/
structure Guard where
  /-- Whether the directory can be looked up. -/
  visible : Bool := true
  /-- How the first attempt is stopped. -/
  first : Option Denial := none
  /-- Whether an entry can be made writable. -/
  unlock : Entry → Except FileFault Unit := fun _ => .ok ()
  /-- How the second attempt is stopped. -/
  second : Option Denial := none

/-- A file tree with a working directory and with marks on files that are programs. -/
structure FileSystem where
  /-- The tree. -/
  tree : FileTree := {}
  /-- The number of the working directory. -/
  workingDir : Nat := 0
  /-- The numbers of files that may be carried out as programs. -/
  runnable : List Nat := []

namespace FileSystem

/-- The greatest number of bytes in a name. -/
def maxName : Nat := 255

/-- The greatest number of bytes in a path. -/
def maxPath : Nat := 4095

/-- The greatest number of links that one path leads through. -/
def maxLinks : Nat := 40

/-- The steps of a path: its names, and a point at the end if it must lead to a directory. -/
def steps (path : String) : List String :=
  (Path.parts path).filter (· ≠ "") ++ if Path.endsInSlash path then ["."] else []

/-- Follow steps from a directory. A link is left to `resume` with the steps that remain, except at
the end of the path if `last` says that the link itself is meant. -/
def follow (tree : FileTree) (last : Bool)
    (resume : Place → List String → Except FileFault Spot) (place : Place) :
    List String → Except FileFault Spot
  | [] => .ok ⟨place, tree.nodeAt? place⟩
  | name :: rest =>
    if name = "." then follow tree last resume place rest
    else if name = ".." then follow tree last resume place.dropLast rest
    else if maxName < name.utf8ByteSize then .error .tooLong
    else
      let next := place ++ [name]
      match tree.nodeAt? next with
      | none => if rest.isEmpty then .ok ⟨next, none⟩ else .error .absent
      | some .directory => follow tree last resume next rest
      | some (.file content) =>
        if rest.isEmpty then .ok ⟨next, some (.file content)⟩ else .error .notDirectory
      | some (.link target) =>
        if rest.isEmpty && last then .ok ⟨next, some (.link target)⟩
        else resume (if Path.isAbsolute target then [] else place) (steps target ++ rest)

/-- Follow steps through at most a number of links. -/
def walk (tree : FileTree) (last : Bool) :
    Nat → Place → List String → Except FileFault Spot
  | 0 => follow tree last fun _ _ => .error .tooManyLinks
  | links + 1 => follow tree last (walk tree last links)

/-- The place of the working directory, if it is still there. -/
def workingPlace? (system : FileSystem) : Option Place := system.tree.placeOf? system.workingDir

/-- The directory from which a path starts. -/
def startOf (system : FileSystem) (path : String) : Except FileFault Place :=
  if Path.isAbsolute path then .ok []
  else
    match system.workingPlace? with
    | some place => .ok place
    | none => .error .absent

/-- Accept a path that can be followed. -/
def checkPath (path : String) : Except FileFault Unit :=
  if path.toList.contains '\x00' then .error .malformed
  else if path.isEmpty then .error .absent
  else if maxPath < path.utf8ByteSize then .error .tooLong
  else .ok ()

/-- Where a path leads. If `last` is set, a link at its end is meant itself. -/
def locate (system : FileSystem) (path : String) (last : Bool) : Except FileFault Spot := do
  checkPath path
  walk system.tree last maxLinks (← system.startOf path) (steps path)

/-- What a path leads to. -/
def nodeOf (system : FileSystem) (path : String) : Except FileFault (Place × Node) := do
  let spot ← system.locate path false
  match spot.node with
  | some node => return (spot.place, node)
  | none => .error .absent

/-- The place of the directory that a path leads to. -/
def directoryOf (system : FileSystem) (path : String) : Except FileFault Place := do
  match ← system.nodeOf path with
  | (place, .directory) => return place
  | _ => .error .notDirectory

/-- Whether a path leads to something. -/
def exists? (system : FileSystem) (path : String) : Bool := (system.nodeOf path).toBool

/-- Whether a path leads to a directory. -/
def isDirectory (system : FileSystem) (path : String) : Bool := (system.directoryOf path).toBool

/-- Whether a path leads to a file. -/
def isFile (system : FileSystem) (path : String) : Bool :=
  match system.nodeOf path with
  | .ok (_, .file _) => true
  | _ => false

/-- The number of the entry that a path leads to. -/
def serialOf? (system : FileSystem) (path : String) : Option Nat :=
  match system.nodeOf path with
  | .ok (place, _) => system.tree.serialAt? place
  | .error _ => none

/-- Whether a path leads to a file that may be carried out. -/
def isRunnable (system : FileSystem) (path : String) : Bool :=
  match system.serialOf? path with
  | some serial => system.isFile path && system.runnable.contains serial
  | none => false

/-- Let a file be carried out as a program, or forbid that. -/
def setRunnable (system : FileSystem) (path : String) (allowed : Bool) :
    Except FileFault FileSystem :=
  match system.serialOf? path with
  | none => .error .absent
  | some serial =>
    let others := system.runnable.filter (· ≠ serial)
    .ok { system with runnable := if allowed then serial :: others else others }

/-- The bytes of a file. -/
def contentOf (system : FileSystem) (path : String) : Except FileFault (List UInt8) := do
  match ← system.nodeOf path with
  | (_, .file content) => return content
  | _ => .error .isDirectory

/-- A path without slashes at its end. -/
def trimSlashes (path : String) : String :=
  let kept := (path.toList.reverse.dropWhile (· = '/')).reverse
  if kept.isEmpty && !path.isEmpty then "/" else String.ofList kept

/-- Where a file would be written: a path that ends in a slash cannot name a file. -/
def locateFile (system : FileSystem) (path : String) : Except FileFault Spot := do
  checkPath path
  if Path.endsInSlash path then
    let _ ← system.locate (trimSlashes path) true
    .error .isDirectory
  else system.locate path false

/-- Write a file, new or in place of an old one. -/
def writeFile (system : FileSystem) (path : String) (content : List UInt8) :
    Except FileFault FileSystem := do
  let spot ← system.locateFile path
  match spot.node with
  | some .directory => .error .isDirectory
  | _ => return { system with tree := system.tree.put spot.place (.file content) }

/-- The free place for a new entry. -/
def locateNew (system : FileSystem) (path : String) : Except FileFault Place := do
  checkPath path
  let spot ← system.locate (trimSlashes path) true
  match spot.node with
  | none => return spot.place
  | some _ => .error .occupied

/-- Make a directory in an existing one. -/
def makeDirectory (system : FileSystem) (path : String) : Except FileFault FileSystem := do
  return { system with tree := system.tree.add (← system.locateNew path) .directory }

/-- Make a link. -/
def makeLink (system : FileSystem) (path target : String) : Except FileFault FileSystem := do
  return { system with tree := system.tree.add (← system.locateNew path) (.link target) }

/-- Make one directory unless there is one. -/
def ensureDirectory (system : FileSystem) (path : String) : FileSystem × Except FileFault Unit :=
  match system.makeDirectory path with
  | .ok made => (made, .ok ())
  | .error cause => (system, if system.isDirectory path then .ok () else .error cause)

/-- Make directories one after the other unless they are there, until one cannot be made. -/
def ensureEach (system : FileSystem) : List String → FileSystem × Except FileFault Unit
  | [] => (system, .ok ())
  | path :: rest =>
    match system.ensureDirectory path with
    | (made, .ok _) => ensureEach made rest
    | (made, .error cause) => (made, .error cause)

/-- The paths to the directories on the way along a path, the path itself last. -/
def ancestors (path : String) : List String :=
  let base := if Path.isAbsolute path then "/" else ""
  ((Path.names path).foldl (fun (made : List String × String) name =>
    let next := Path.join made.2 name
    (made.1 ++ [next], next)) ([], base)).1

/-- Make a directory with all directories on the way to it. What was made before a refusal stays. -/
def makeDirectories (system : FileSystem) (path : String) :
    FileSystem × Except FileFault Unit :=
  match checkPath path with
  | .error cause => (system, .error cause)
  | .ok _ => system.ensureEach (ancestors path)

/-- The names in a directory with their entries. -/
def list (system : FileSystem) (path : String) : Except FileFault (List (String × Entry)) := do
  return system.tree.children (← system.directoryOf path)

/-- Remove a directory with everything in it, or a link. -/
def removeTree (system : FileSystem) (path : String) : Except FileFault FileSystem := do
  let spot ← system.locate path true
  match spot.node with
  | none => .error .absent
  | some (.file _) => .error .notDirectory
  | some _ => return { system with tree := system.tree.remove spot.place }

/-- Remove a file or a link. -/
def removeFile (system : FileSystem) (path : String) : Except FileFault FileSystem := do
  let spot ← system.locate path true
  match spot.node with
  | none => .error .absent
  | some .directory => .error .isDirectory
  | some _ => return { system with tree := system.tree.remove spot.place }

/-- Remove a directory with everything in it, or a link, unless the host stops that on the way. -/
def removeUntil (system : FileSystem) (path : String) (denial : Option Denial) :
    FileSystem × Except FileFault Unit :=
  match system.removeTree path, denial with
  | .error cause, _ => (system, .error cause)
  | .ok removed, none => (removed, .ok ())
  | .ok removed, some denial =>
    ({ system with tree := system.tree.sparing removed.tree denial.spares }, .error denial.cause)

/-- Make what a path leads to writable with everything below it. Links stay as they are. -/
def makeWritable (system : FileSystem) (path : String)
    (unlock : Entry → Except FileFault Unit) : Except FileFault Unit := do
  let spot ← system.locate path true
  if spot.node.isNone then .error .absent
  (system.tree.entries.filter (spot.place.isPrefixOf ·.place)).forM fun entry =>
    match entry.node with
    | .link _ => .ok ()
    | _ => unlock entry

/-- Remove a directory with everything in it. If the host denies that, what is left is made writable
and the removal is tried once more. -/
def removeStubborn (system : FileSystem) (path : String) (guard : Guard) :
    FileSystem × Except FileFault Unit :=
  match system.removeUntil path guard.first with
  | (left, .error .denied) =>
    match left.makeWritable path guard.unlock with
    | .error cause => (left, .error cause)
    | .ok _ => left.removeUntil path guard.second
  | ended => ended

/-- The absolute path of a place. -/
def pathOf (place : Place) : String := "/" ++ String.intercalate "/" place

/-- The absolute path of the working directory. -/
def currentPath (system : FileSystem) : Except FileFault String :=
  match system.workingPlace? with
  | some place => .ok (pathOf place)
  | none => .error .absent

/-- Change the working directory. -/
def changeDirectory (system : FileSystem) (path : String) : Except FileFault FileSystem := do
  match system.tree.serialAt? (← system.directoryOf path) with
  | some serial => return { system with workingDir := serial }
  | none => .error .absent

end FileSystem

end Micromag
