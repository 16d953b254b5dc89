import Micromag.Decimal.Basic
import Micromag.Decimal.Reading
import Micromag.Field.File
import Micromag.Files.Action
import Micromag.Files.Pattern
import Micromag.Table.Basic

/-!
# Files of a drive

Every drive has a directory that is named by its number. What the engine wrote is found by a pattern
of file names; of several files the latest counts.
-/

namespace Micromag

namespace Drive

/-- What the name of a drive's directory starts with. -/
def namePrefix : String := "drive-"

/-- The name of a drive's directory. -/
def directoryName (index : Nat) : String := namePrefix ++ String.ofList (naturalDigits index)

/-- The number in the name of a directory. -/
def indexOfName? (name : String) : Option Nat :=
  if namePrefix.toList.isPrefixOf name.toList then
    readCount? (name.toList.drop namePrefix.length)
  else none

/-- The numbers in the names of directories, in order. -/
def indicesOf (names : List String) : List Nat :=
  (names.filterMap indexOfName?).mergeSort (fun a b => decide (a ≤ b))

/-- The numbers of the drives in a directory, in order; without the directory there are none. -/
def indices (directory : String) : FileAction (List Nat) := do
  if ← Action.read fun system => system.isDirectory directory then
    let found ← FileAction.look "IO.DRIVE_LIST" s!"failed to list {directory}" (·.list directory)
    let names ← Action.read fun system =>
      (found.map (·.1)).filter fun name => system.isDirectory (Path.join directory name)
    return indicesOf names
  else return []

end Drive

/-- A file that may be chosen. -/
structure Candidate where
  /-- When it was made, if that is known; later is larger. -/
  created : Option Nat
  /-- Its name. -/
  name : String
deriving DecidableEq, Repr

namespace Candidate

/-- Whether one time is before another; an unknown time is before all others. -/
def isEarlier : Option Nat → Option Nat → Bool
  | none, some _ => true
  | some a, some b => decide (a < b)
  | _, none => false

/-- Whether one candidate gives way to another: made earlier, or at the same time with a smaller
name. -/
def yieldsTo (a b : Candidate) : Bool :=
  isEarlier a.created b.created || (a.created == b.created && decide (a.name ≤ b.name))

/-- The candidate to which all others give way. -/
def latest? (candidates : List Candidate) : Option Candidate :=
  candidates.foldl (fun best next =>
    match best with
    | none => some next
    | some best => some (if best.yieldsTo next then next else best)) none

end Candidate

namespace Artifact

/-- The files in a directory whose names match a pattern. -/
def candidates (system : FileSystem) (directory : String) (pattern : Pattern)
    (names : List String) : List Candidate :=
  names.filterMap fun name =>
    let path := Path.join directory name
    if pattern.matchesName name && system.isFile path then some ⟨system.serialOf? path, name⟩
    else none

/-- The pattern of a text. -/
def pattern (text : String) : Except Fault Pattern :=
  match Pattern.ofText? text with
  | some pattern => .ok pattern
  | none =>
    .error (.internal "RUN.ARTIFACT_PATTERN" s!"invalid artifact pattern '{text}'")

/-- The path of the latest file in a directory whose name matches a pattern. -/
def latest? (directory text : String) : FileAction (Option String) := do
  let pattern ← pattern text
  let found ← FileAction.look "IO.ARTIFACT_LIST" s!"failed to list {directory}" (·.list directory)
  let candidates ← Action.read fun system =>
    candidates system directory pattern (found.map (·.1))
  return (Candidate.latest? candidates).map fun chosen => Path.join directory chosen.name

/-- Write a field to a file. -/
def writeField (path : String) (field : Field Float) (format : FieldFormat) (extended : Bool) :
    FileAction Unit :=
  let title := (Path.stem? path).getD "field"
  FileAction.change "IO.OVF" "OVF file access failed"
    (·.writeFile path (FieldFile.write field title format extended))

/-- Read a field from a file. -/
def readField (path : String) : FileAction (Field Float) := do
  let bytes ← FileAction.look "IO.OVF" "OVF file access failed" (·.contentOf path)
  (FieldFile.read bytes).mapError (FieldFile.ReadFault.fault path)

/-- Read the text of a file. -/
def readText (code path : String) : FileAction String :=
  FileAction.look code s!"failed to read {path}" fun system => do
    match Text.Utf8.decode? (← system.contentOf path) with
    | some text => return String.ofList text
    | none => .error .notText

/-- Write a text to a file, its lines in canonical form. -/
def writeText (code path text : String) : FileAction Unit :=
  FileAction.change code s!"failed to write {path}"
    (·.writeFile path (Text.Utf8.ofString (Text.canonical text)))

/-- Read a table from a file. -/
def readTable (path : String) (rename : Bool) : FileAction Table := do
  let text ← readText "IO.TABLE" path
  Action.ofExcept ((Table.parse text rename).mapError fun cause =>
    { cause.fault with message := path ++ ": " ++ cause.message })

end Artifact

end Micromag
