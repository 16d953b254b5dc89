import Micromag.Drive.Basic
import Micromag.Exchange.Recipe
import Micromag.Exchange.Value

/-!
# Playback

Files can be described by documents, and so can an engine that writes described files and ends with
a described result. Such an engine leaves a note of what it found.
-/

namespace Micromag.Exchange

/-! ## Described files -/

/-- The bytes of doubles. -/
def numberBytes? (word : Float → List UInt8) (json : Json) : Option (List UInt8) :=
  (json.list? double?).map (·.flatMap word)

/-- A double as eight bytes. -/
def doubleWord (order : ByteOrder) (x : Float) : List UInt8 := Bytes.ofNat order 8 x.toBits.toNat

/-- A double as four bytes. -/
def singleWord (order : ByteOrder) (x : Float) : List UInt8 :=
  Bytes.ofNat order 4 (Single.ofDouble x)

/-- The content of a file: text, digits, numbers, or parts up to a depth. -/
def content? : Nat → Json → Option (List UInt8)
  | 0, _ => none
  | depth + 1, json =>
    match json with
    | .object entries => do
      let (key, value) ← entries.find? fun entry =>
        ["text", "hex", "parts", "f64le", "f64be", "f32le", "f32be"].contains entry.1
      match key with
      | "text" => return Text.Utf8.ofString (← value.string?)
      | "hex" => Bytes.ofHexadecimal? (← value.string?).toList
      | "parts" => return (← value.list? (content? depth)).flatten
      | "f64le" => numberBytes? (doubleWord .little) value
      | "f64be" => numberBytes? (doubleWord .big) value
      | "f32le" => numberBytes? (singleWord .little) value
      | "f32be" => numberBytes? (singleWord .big) value
      | _ => none
    | _ => none

/-- The deepest nesting of parts. -/
def maxParts : Nat := 128

/-- Make the directories on the way to a file. -/
def makeParents (path : String) : FileAction Unit :=
  match (FileSystem.ancestors path).dropLast.getLast? with
  | some parent => FileAction.makeDirectories "IO.FILE" parent
  | none => pure ()

/-- Write a file with the directories on the way to it. -/
def writeBytes (path : String) (bytes : List UInt8) : FileAction Unit := do
  makeParents path
  FileAction.change "IO.FILE" s!"failed to write {path}" (·.writeFile path bytes)

/-- Make a described directory, link or file, from a base. -/
def put? (base : String) (json : Json) : Option (FileAction Unit) := do
  let path := Path.join base (← getText json "path")
  if (← getFlag json "dir") then return FileAction.makeDirectories "IO.FILE" path
  match ← get? json "link" Json.string?, ← get? json "field" field? with
  | some target, _ => return do
    makeParents path
    FileAction.change "IO.FILE" s!"failed to link {path}" (·.makeLink path target)
  | none, some made =>
    let format ← getD json "format" (fun json => json.string?.bind FieldFormat.ofWord?) .binary8
    return do
      makeParents path
      Artifact.writeField path (← Action.ofExcept made) format false
  | none, none => return writeBytes path (← content? maxParts json)

/-! ## Described engines -/

/-- Everything below a directory. -/
def listing (system : FileSystem) (path : String) : Json :=
  match system.directoryOf path with
  | .ok place => ofTexts (system.tree.listing place)
  | .error _ => .null

/-- What an engine finds: its script, whether that lies in the working directory, the files there
and the text of the script. -/
def observe (script : String) (system : FileSystem) : Json :=
  let parent := (system.locate script false).toOption.map fun spot => spot.place.dropLast
  let text := (system.contentOf script).toOption.map fun bytes =>
    String.ofList (Text.Utf8.decodeLossy bytes)
  .object [("script", .string script),
    ("same_dir", .bool (parent.isSome && parent = system.workingPlace?)),
    ("files", listing system "."), ("text", ofOption .string text)]

/-- Where an engine leaves its note. -/
def notePath : String := "/note"

/-- A described engine: it leaves a note, and then fails, or writes files and ends. -/
def engine? (json : Json) : Option Engine := do
  let failure ← get? json "fail" Json.string?
  let files ← getD json "files" (Json.list? (put? "")) []
  let output : RunOutput := ⟨← getD json "returncode" integer? 0,
    ← get? json "stdout" Json.string?, ← get? json "stderr" Json.string?⟩
  return fun script => do
    let note ← Action.read (observe script)
    writeBytes notePath (Text.Utf8.ofString note.compact)
    match failure with
    | some text => Action.fail ⟨.ioSystem, "IO.FAKE", text, none⟩
    | none =>
      files.forM id
      return output

/-- The note of an engine, if one has run, and the file system without it. -/
def takeNote (system : FileSystem) : Json × FileSystem :=
  match system.contentOf notePath with
  | .ok bytes =>
    ((Json.read? (String.ofList (Text.Utf8.decodeLossy bytes))).getD .null,
      (system.removeFile notePath).toOption.getD system)
  | .error _ => (.null, system)

end Micromag.Exchange
