import Micromag.Decimal.Reading
import Micromag.Json.Reading
import Micromag.Json.Record
import Micromag.Lowering.Basic
import Micromag.Script.Basic
import Micromag.Table.Basic

/-!
# Values in requests and answers

Fields of a request, bytes as text, and the documents of answers.
-/

/-!
## Hexadecimal bytes

A byte is two hexadecimal digits, the higher one first.
-/

namespace Micromag.Bytes

/-- Bytes as digits in lower case. -/
def toHexadecimal (bytes : List UInt8) : List Char :=
  bytes.flatMap fun byte => [Json.hexDigit (byte.toNat / 16), Json.hexDigit (byte.toNat % 16)]

/-- The bytes of digits in either case. -/
def ofHexadecimal? : List Char → Option (List UInt8)
  | [] => some []
  | high :: low :: rest => do
    let byte := (← Json.hexValue? high) * 16 + (← Json.hexValue? low)
    return UInt8.ofNat byte :: (← ofHexadecimal? rest)
  | [_] => none

end Micromag.Bytes

/-!
## Exchange documents

Programs exchange requests and answers as documents. They differ from the documents of problems in
that a double is text if it must survive whatever it is, and in that a field that may be missing may
also be absent.
-/

namespace Micromag.Exchange

variable {α : Type}

/-- A field of a document. -/
def get (json : Json) (key : String) : Option Json :=
  match json with
  | .object entries => entries.lookup key
  | _ => none

/-- A field that may be missing or absent. -/
def get? (json : Json) (key : String) (read : Json → Option α) : Option (Option α) :=
  match get json key with
  | none | some .null => some none
  | some json => (read json).map some

/-- A field that takes a default when it is missing or absent. -/
def getD (json : Json) (key : String) (read : Json → Option α) (default : α) : Option α :=
  (get? json key read).map (·.getD default)

/-- A field read by a function. -/
def getAs (json : Json) (key : String) (read : Json → Option α) : Option α :=
  (get json key).bind read

/-- A text. -/
def getText (json : Json) (key : String) : Option String := getAs json key Json.string?

/-- A truth value, false if it is missing. -/
def getFlag (json : Json) (key : String) : Option Bool := getD json key Json.bool? false

/-- A double, as a number or as text. -/
def double? (json : Json) : Option Float :=
  match json with
  | .string text => readFloat? text.toList
  | _ => json.float?

/-- Three doubles. -/
def doubles? (json : Json) : Option (Triple Float) := json.triple? double?

/-- An integer. -/
def integer? : Json → Option Int
  | .whole n => some n
  | _ => none

end Micromag.Exchange

/-!
## Values in exchange documents

Every double is written as text with an exponent, by the fewest digits that identify it. A fault is
written by its category, its code and its sentence; sentences whose end is not of this library's
making are left out.
-/

namespace Micromag.Exchange

/-- A double as a text. -/
def ofDouble (x : Float) : Json := .string (Layout.scientific.text x)

/-- Doubles. -/
def ofDoubles (xs : List Float) : Json := .ofList ofDouble xs

/-- A triple. -/
def ofTriple (triple : Triple Float) : Json := .ofTriple ofDouble triple

/-- Texts. -/
def ofTexts (texts : List String) : Json := .ofList .string texts

/-- A value that may be absent. -/
def ofOption {α : Type} (write : α → Json) (value : Option α) : Json :=
  (value.map write).getD .null

/-- A region. -/
def ofRegion (region : Region Float) : Json :=
  .object [("p1", ofTriple region.lower), ("p2", ofTriple region.upper)]

/-- A mesh. -/
def ofMesh (mesh : Mesh Float) : Json :=
  .object [("region", ofRegion mesh.region), ("cell", ofTriple mesh.cell),
    ("subregions", .ofKeyed ofRegion mesh.subregions), ("bc", .string mesh.periodic)]

/-- A field. -/
def ofField (field : Field Float) : Json :=
  .object [("mesh", ofMesh field.mesh), ("dim", .ofCount field.dim),
    ("values", ofDoubles field.values)]

/-- Whether the end of a fault's sentence is foreign. -/
def isForeign (code : String) : Bool :=
  (code.startsWith "IO." && code != "IO.PROBLEM_DIR_MISSING" && code != "IO.FAKE") ||
    ["PARSE.MANIFEST", "PARSE.PROBLEM_DOCUMENT", "RUN.ARTIFACT_PATTERN"].contains code

/-- What a run left behind. -/
def ofRun (output : RunOutput) : Json :=
  .object [("returncode", .whole output.returnCode), ("stdout", ofOption .string output.stdout),
    ("stderr", ofOption .string output.stderr), ("ok", .bool output.isSuccess)]

/-- The entries of a fault. -/
def faultEntries (fault : Fault) : List (String × Json) :=
  if fault.category = .crash then [("error", .string fault.category.name)]
  else
    [("error", .string fault.category.name), ("placeholder", .string fault.code)] ++
      if isForeign fault.code then [] else [("message", .string fault.message)]

/-- A fault. -/
def ofFault (fault : Fault) : Json := .object (faultEntries fault)

/-- A fault with the run that failed, if one did. -/
def ofRunFault (fault : Fault) : Json :=
  .object (faultEntries fault ++
    match fault.output with
    | some output => [("engine", ofRun output), ("display", .string fault.display)]
    | none => [])

/-- A result or a fault. -/
def ofExcept {α : Type} (write : α → Json) : Except Fault α → Json
  | .ok value => write value
  | .error fault => ofFault fault

/-- The answer of a check. -/
def ofCheck (result : Except Fault Unit) : Json := ofExcept (fun _ => .string "ok") result

/-- A text in an object. -/
def ofText (text : String) : Json := .object [("text", .string text)]

/-- A field file that a script refers to. -/
def ofSidecar (sidecar : Sidecar) : Json :=
  .object [("file", .string sidecar.fileName), ("extend", .bool sidecar.extended),
    ("dim", .ofCount sidecar.field.dim), ("n", .ofTriple .ofCount sidecar.field.mesh.counts),
    ("values", ofDoubles sidecar.field.values)]

/-- The text of a script. -/
def ofItems (items : List Script.Item) : Json := .string (Script.render items)

/-- A script with its field files. -/
def ofScript (lowering : Lowering (List Script.Item)) : Json :=
  ofExcept (fun items => .object [("script", ofItems items),
    ("sidecars", .ofList ofSidecar lowering.sidecars)]) lowering.result

/-- Bytes in hexadecimal. -/
def ofBytes (bytes : List UInt8) : Json := .string (String.ofList (Bytes.toHexadecimal bytes))

/-- The entries of a table. -/
def tableEntries (table : Table) : List (String × Json) :=
  [("columns", ofTexts table.columns), ("units", ofTexts table.units),
    ("rows", .ofList ofDoubles table.rows), ("row_count", .ofCount table.rows.length),
    ("column_count", .ofCount table.columns.length)]

/-- A table. -/
def ofTable (table : Table) : Json := .object (tableEntries table)

/-- The text of a document on one line, keys in order. -/
def jsonText (json : Json) : Json := .string json.sorted.compact

end Micromag.Exchange
