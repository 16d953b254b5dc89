import Micromag.Bytes
import Micromag.Decimal.Reading
import Micromag.Field
import Micromag.Text.Basic
import Micromag.Text.Utf8

/-!
# Field files

The layout of a field file, how it is written and how it is read.
-/

/-!
## Field files

A field file has a header of comment lines, each a key with a value, and one block of data. The
header gives the box, the size of the cells and the number of components; the data are text or
binary numbers behind a check number. Files of the second version, which are written here, put the
least byte of a number first, those of the first version last.
-/

namespace Micromag.FieldFile

/-- The first number of a block of four-byte numbers. -/
def singleCheck : Float := 1234567

/-- The first number of a block of eight-byte numbers. -/
def doubleCheck : Float := 123456789012345

/-- The header key of a bound or a size along an axis. -/
def axisKey (axis : Axis) (name : String) : String := String.singleton axis.letter ++ name

/-- Why bytes are no field file. -/
inductive ReadFault where
  /-- The first comment names no known version. -/
  | notFieldFile
  /-- A header entry is missing. -/
  | missing (key : String)
  /-- A header entry or a number cannot be used. -/
  | unusable (key value : String)
  /-- The data have an unknown form. -/
  | unsupported (block : String)
  /-- The number in front of binary data is wrong. -/
  | check (found expected : Float)
  /-- There are fewer numbers than cells need. -/
  | truncated (expected : Nat)
  /-- The reader breaks off: it asks for more memory than there are addresses, or for a part of the
  data that is not there. -/
  | crash

namespace ReadFault

/-- The sentence of a fault in a file. -/
def message (file : String) : ReadFault → String
  | notFieldFile => s!"'{file}' is not an OVF file"
  | missing key => s!"header of '{file}' is missing '{key}'"
  | unusable key value => s!"header value '{key}: {value}' in '{file}' is invalid"
  | unsupported block => s!"unsupported data block '{block}' in '{file}'"
  | check found expected =>
    s!"data check value in '{file}' is {show64 found}, expected {show64 expected}"
  | truncated expected => s!"'{file}' ends before all {expected} values were read"
  | crash => s!"reading '{file}' broke off"

/-- The fault of a file. -/
def fault (file : String) (cause : ReadFault) : Fault :=
  match cause with
  | crash => .crash (crash.message file)
  | cause => .parse "PARSE.OVF" (cause.message file)

end ReadFault

end Micromag.FieldFile

/-!
## Writing field files

The header is written with the fewest digits that identify each number, text data with sixteen
significant digits, binary data exactly or in single precision. Numbers may be extended to vectors
along the first axis, since the engine reads vectors only.
-/

namespace Micromag.FieldFile

/-- The number of components that are written for a cell. -/
def writtenDim (field : Field Float) (extended : Bool) : Nat :=
  if extended && field.dim = 1 then 3 else field.dim

/-- A header entry for each axis. -/
def axisEntries (name : String) (value : Axis → Float) : List String :=
  Axis.all.map fun axis => "# " ++ axisKey axis name ++ ": " ++ Layout.scientific.text (value axis)

/-- The labels and units of the components. -/
def componentEntries (title : String) (dim : Nat) : List String :=
  if dim = 3 then
    [s!"# valuelabels: {title}_x {title}_y {title}_z", "# valueunits: A/m A/m A/m"]
  else [s!"# valuelabels: {title}", "# valueunits: 1"]

/-- The lines of the header, the line that begins the data among them. -/
def headerLines (field : Field Float) (title : String) (format : FieldFormat) (extended : Bool) :
    List String :=
  let mesh := field.mesh
  ["# OOMMF OVF 2.0", "#", "# Segment count: 1", "#", "# Begin: Segment", "# Begin: Header", "#",
      s!"# Title: {title}", "# meshtype: rectangular", "# meshunit: m", "#"] ++
    axisEntries "min" mesh.region.lower.along ++ axisEntries "max" mesh.region.upper.along ++
    ["#", s!"# valuedim: {writtenDim field extended}"] ++
    componentEntries title (writtenDim field extended) ++ ["#"] ++
    axisEntries "base" (fun axis =>
      mesh.region.lower.along axis + 0.5 * mesh.cell.along axis) ++ ["#"] ++
    (Axis.all.map fun axis => "# " ++ axisKey axis "nodes" ++ s!": {mesh.count axis}") ++ ["#"] ++
    axisEntries "stepsize" mesh.cell.along ++
    ["#", "# End: Header", "#", "# Begin: Data " ++ format.dataLabel]

/-- Lines with their ends. -/
def joinLines (lines : List String) : String := String.join (lines.map (· ++ "\n"))

/-- The text of the header. -/
def header (field : Field Float) (title : String) (format : FieldFormat) (extended : Bool) :
    String :=
  joinLines (headerLines field title format extended)

/-- The components of a cell as they are written: padded with zeros to a vector, or only the first
if no vector is written. -/
def writtenCell (dim : Nat) (components : List Float) : List Float :=
  if dim = 3 then (components ++ [0, 0, 0]).take 3 else components.take 1

/-- The components of all cells as they are written. -/
def writtenCells (field : Field Float) (extended : Bool) : List (List Float) :=
  field.cells.map (writtenCell (writtenDim field extended))

/-- A double as eight bytes. -/
def doubleBytes (x : Float) : List UInt8 := Bytes.ofNat .little 8 x.toBits.toNat

/-- A double as four bytes. -/
def singleBytes (x : Float) : List UInt8 := Bytes.ofNat .little 4 (Single.ofDouble x)

/-- The data of cells. -/
def dataBytes (format : FieldFormat) (cells : List (List Float)) : List UInt8 :=
  match format with
  | .text =>
    Text.Utf8.ofString (joinLines (cells.map fun cell =>
      String.intercalate " " (cell.map sixteenDigits)))
  | .binary4 => (singleCheck :: cells.flatten).flatMap singleBytes ++ [10]
  | .binary8 => (doubleCheck :: cells.flatten).flatMap doubleBytes ++ [10]

/-- What follows the header: the data and the lines that end the file. -/
def body (field : Field Float) (format : FieldFormat) (extended : Bool) : List UInt8 :=
  dataBytes format (writtenCells field extended) ++
    Text.Utf8.ofString (joinLines ["# End: Data " ++ format.dataLabel, "# End: Segment"])

/-- The bytes of a field file. -/
def write (field : Field Float) (title : String) (format : FieldFormat) (extended : Bool) :
    List UInt8 :=
  Text.Utf8.ofString (header field title format extended) ++ body field format extended

end Micromag.FieldFile

/-!
## Reading field files

The first comment line names the version. The comment lines after it are header entries, of which
the last of a key counts, up to the line that begins the data. Box and cell sizes must make a usable
mesh and the values a usable field on it.
-/

namespace Micromag.FieldFile

/-- The lines of a file, each with the bytes after it. -/
def linesWithRest : List UInt8 → List (List UInt8 × List UInt8)
  | [] => []
  | byte :: rest =>
    if byte = 10 then ([], rest) :: linesWithRest rest
    else
      match linesWithRest rest with
      | [] => [([byte], [])]
      | (line, after) :: more => (byte :: line, after) :: more

/-- ASCII letters in lower case. -/
def lowerCase (text : List Char) : List Char := text.map Char.toLower

/-- Whether text starts with a word. -/
def startsWith (word : String) (text : List Char) : Bool := word.toList.isPrefixOf text

/-- The text of a comment line without its hash. -/
def comment? (line : List UInt8) : Option (List Char) :=
  match Text.trim (Text.Utf8.decodeLossy line) with
  | '#' :: content => some (Text.trim content)
  | _ => none

/-- The order of bytes in files of the version that a comment names. -/
def versionOrder? (content : List Char) : Option ByteOrder :=
  let content := lowerCase content
  if startsWith "oommf ovf 2" content then some .little
  else if startsWith "oommf: rectangular mesh v1" content || startsWith "oommf ovf 1" content then
    some .big
  else none

/-- A key and its value, around the first colon. -/
def keyValue? (content : List Char) : Option (String × List Char) :=
  match content.dropWhile (· ≠ ':') with
  | [] => none
  | _ :: value =>
    some (String.ofList (lowerCase (Text.trim (content.takeWhile (· ≠ ':')))), Text.trim value)

/-- The form of the data that an entry begins. -/
def dataBlock? (key : String) (value : List Char) : Option String :=
  let value := lowerCase value
  if key = "begin" && startsWith "data" value then
    some (String.ofList (Text.trim (value.drop 4)))
  else none

/-- A header: the entries in front of the data, the form of the data, and the bytes after it. -/
structure Header where
  /-- The order of bytes in binary numbers. -/
  order : ByteOrder
  /-- The entries; the last of a key counts. -/
  entries : Keyed String
  /-- The form of the data. -/
  block : String
  /-- The data and what follows. -/
  data : List UInt8

/-- Read entries up to the data. -/
def readEntries (order : ByteOrder) (entries : Keyed String) :
    List (List UInt8 × List UInt8) → Except ReadFault Header
  | [] => .error (.missing "Begin: Data")
  | (line, after) :: more =>
    match (comment? line).bind keyValue? with
    | none => readEntries order entries more
    | some (key, value) =>
      match dataBlock? key value with
      | some block => .ok ⟨order, entries, block, after⟩
      | none => readEntries order (entries.insert key (String.ofList value)) more

/-- Read the version and the entries. -/
def readHeader : List (List UInt8 × List UInt8) → Except ReadFault Header
  | [] => .error (.missing "Begin: Data")
  | (line, _) :: more =>
    match comment? line with
    | none => readHeader more
    | some content =>
      match versionOrder? content with
      | none => .error .notFieldFile
      | some order => readEntries order .empty more

namespace Header

/-- An entry that must be there, read by a function. -/
def value {α : Type} (header : Header) (read? : List Char → Option α) (key : String) :
    Except ReadFault α :=
  match header.entries.get? key with
  | none => .error (.missing key)
  | some text =>
    match read? text.toList with
    | some value => .ok value
    | none => .error (.unusable key text)

/-- An entry that may be missing. -/
def valueOr {α : Type} (header : Header) (read? : List Char → Option α) (key : String)
    (default : α) : Except ReadFault α :=
  if header.entries.contains key then header.value read? key else .ok default

/-- A number along each axis. -/
def triple (header : Header) (name : String) : Except ReadFault (Triple Float) := do
  let x ← header.value readFloat? (axisKey .x name)
  let y ← header.value readFloat? (axisKey .y name)
  let z ← header.value readFloat? (axisKey .z name)
  return ⟨x, y, z⟩

end Header

/-- The numbers of a line of text data. -/
def readRow (line : List Char) : Except ReadFault (List Float) :=
  (Text.words line).mapM fun word =>
    match readFloat? word with
    | some x => .ok x
    | none => .error (.unusable "data" (String.ofList word))

/-- Whether a part occurs in a text. -/
def occursIn (part : List Char) : List Char → Bool
  | [] => part.isEmpty
  | c :: rest => part.isPrefixOf (c :: rest) || occursIn part rest

/-- The numbers of lines of text data, up to the comment that ends the data. -/
def readRows : List (List Char) → Except ReadFault (List Float)
  | [] => .ok []
  | line :: rest =>
    match Text.trim line with
    | '#' :: content =>
      if occursIn "end: data".toList (lowerCase ('#' :: content)) then .ok [] else readRows rest
    | line => do
      let row ← readRow line
      return row ++ (← readRows rest)

/-- The first numbers of text data. Memory for all of them is asked for in advance. -/
def readText (expected : Nat) (data : List UInt8) : Except ReadFault (List Float) := do
  if 2 ^ 63 ≤ 8 * expected then .error .crash
  let values ← readRows (Text.lines (Text.Utf8.decodeLossy data))
  if values.length < expected then .error (.truncated expected)
  return values.take expected

/-- How binary numbers are encoded. -/
structure Encoding where
  /-- The number of bytes. -/
  width : Nat
  /-- The number that stands in front of the data. -/
  check : Float
  /-- The double of an encoded number. -/
  decode : Nat → Float

/-- Numbers of four bytes. -/
def single : Encoding := ⟨4, singleCheck, Single.toDouble⟩

/-- Numbers of eight bytes. -/
def double : Encoding := ⟨8, doubleCheck, fun word => Float.ofBits (UInt64.ofNat word)⟩

/-- The number of bytes of a count of numbers with the check number in front, as a 64-bit word. -/
def Encoding.size (encoding : Encoding) (expected : Nat) : Nat :=
  encoding.width * ((expected + 1) % 2 ^ 64) % 2 ^ 64

/-- A count of encoded numbers. -/
def readWords (encoding : Encoding) (order : ByteOrder) : Nat → List UInt8 → List Float
  | 0, _ => []
  | count + 1, data =>
    encoding.decode (Bytes.toNat order (data.take encoding.width)) ::
      readWords encoding order count (data.drop encoding.width)

/-- The first numbers of binary data, after the check number. That the data or the size is too
small for the check number is not noticed in time. -/
def readBinary (encoding : Encoding) (order : ByteOrder) (expected : Nat) (data : List UInt8) :
    Except ReadFault (List Float) := do
  let size := encoding.size expected
  if data.length < size then .error (.truncated expected)
  if data.length < encoding.width then .error .crash
  let found := encoding.decode (Bytes.toNat order (data.take encoding.width))
  if found != encoding.check then .error (.check found encoding.check)
  if size < encoding.width then .error .crash
  let values := (data.take size).drop encoding.width
  return readWords encoding order (values.length / encoding.width) values

/-- The first numbers of data in some form. -/
def readValues (header : Header) (expected : Nat) : Except ReadFault (List Float) :=
  match header.block with
  | "text" => readText expected header.data
  | "binary 4" => readBinary single header.order expected header.data
  | "binary 8" => readBinary double header.order expected header.data
  | block => .error (.unsupported block)

/-- The mesh of a header. -/
def readMesh (lower upper cell : Triple Float) : Except ReadFault (Mesh Float) :=
  (Mesh.make ⟨lower, upper⟩ cell).mapError fun cause => .unusable "geometry" cause.fault.message

/-- The field of a header with its data. -/
def readField (header : Header) : Except ReadFault (Field Float) := do
  let lower ← header.triple "min"
  let upper ← header.triple "max"
  let cell ← header.triple "stepsize"
  let dim ← header.valueOr readCount? "valuedim" 3
  let multiplier ← header.valueOr readFloat? "valuemultiplier" 1
  let mesh ← readMesh lower upper cell
  let values ← readValues header (mesh.cellCount * dim % 2 ^ 64)
  let scaled := if multiplier != 1 then values.map (· * multiplier) else values
  (Field.make mesh dim scaled).mapError fun cause => .unusable "valuedim" cause.fault.message

/-- The field of a file's bytes. -/
def read (bytes : List UInt8) : Except ReadFault (Field Float) := do
  readField (← readHeader (linesWithRest bytes))

end Micromag.FieldFile
