import Micromag.Decimal.Reading
import Micromag.Fault
import Micromag.Text.Basic

/-!
# Tables of the engine

The header of a table, the names of its columns, and its rows.
-/

/-!
## Header fields

The header of a data table lists names and units in one line. Fields are separated by blanks; a
field that is empty or holds blanks or braces stands between braces, and braces inside nest.
-/

namespace Micromag.Table

/-- What is known of a field while its header is read. -/
structure HeaderScan where
  /-- The fields completed before, the latest first. -/
  fields : List (List Char) := []
  /-- The characters of the current field, the latest first. -/
  current : List Char := []
  /-- Braces that are open. -/
  depth : Nat := 0
  /-- A field has begun; it may still be empty. -/
  inField : Bool := false

namespace HeaderScan

/-- One more character of the current field. -/
def push (scan : HeaderScan) (c : Char) : HeaderScan :=
  { scan with current := c :: scan.current, inField := true }

/-- The current field is complete, if one has begun. -/
def finish (scan : HeaderScan) : HeaderScan :=
  if scan.inField then
    { scan with fields := scan.current.reverse :: scan.fields, current := [], inField := false }
  else scan

/-- Read one character. Braces that open or close a whole field are not part of it. -/
def step (scan : HeaderScan) (c : Char) : HeaderScan :=
  if c = '\x7b' then
    let scan := if 0 < scan.depth then scan.push c else scan
    { scan with depth := scan.depth + 1, inField := true }
  else if c = '\x7d' && 0 < scan.depth then
    let inner := { scan with depth := scan.depth - 1 }
    if 1 < scan.depth then { inner with current := c :: inner.current } else inner
  else if Text.isBlank c && scan.depth = 0 then scan.finish
  else scan.push c

end HeaderScan

/-- The fields of a header line. -/
def splitHeader (text : List Char) : List (List Char) :=
  ((text.foldl HeaderScan.step {}).finish).fields.reverse

/-- The fields of a header line. -/
def headerFields (text : String) : List String := (splitHeader text.toList).map String.ofList

end Micromag.Table

/-!
## Short names of columns

The engine names a column by the class of the object that computes it, the object's instance and a
quantity. Known quantities of known classes have short names. A short name that several columns of a
table share is told apart by the instances.
-/

namespace Micromag.Table

/-- The short name of the kind of energy that a class computes. -/
def energyGroups : List (String × String) :=
  [("Oxs_UniformExchange", "exchange"), ("Oxs_Exchange6Ngbr", "exchange"),
    ("Oxs_ExchangePtwise", "exchange"), ("Oxs_FixedZeeman", "zeeman"),
    ("Oxs_TransformZeeman", "zeeman"), ("Oxs_UZeeman", "zeeman"), ("Oxs_Demag", "demag"),
    ("Oxs_DMI_Cnv", "dmi"), ("Oxs_DMI_T", "dmi"), ("Oxs_DMI_D2d", "dmi"),
    ("Oxs_DMExchange6Ngbr", "dmi"), ("Oxs_UniaxialAnisotropy", "uniaxialanisotropy"),
    ("Southampton_UniaxialAnisotropy4", "uniaxialanisotropy"),
    ("Oxs_CubicAnisotropy", "cubicanisotropy"), ("YY_FixedMEL", "mel"),
    ("Oxs_TwoSurfaceExchange", "rkky")]

/-- The classes of evolvers. -/
def evolverClasses : List String :=
  ["Oxs_CGEvolve", "Oxs_RungeKuttaEvolve", "Oxs_EulerEvolve", "Anv_SpinTEvolve",
    "Oxs_SpinXferEvolve", "UHH_ThetaEvolve"]

/-- The classes of drivers. -/
def driverClasses : List String := ["Oxs_MinDriver", "Oxs_TimeDriver"]

/-- The short names of what evolvers report. -/
def evolverQuantities : List (String × String) :=
  [("Total energy", "E"), ("Energy calc count", "E_calc_count"), ("Max mxHxm", "max_mxHxm"),
    ("Max dm/dt", "max_dmdt"), ("dE/dt", "dE/dt"), ("Delta E", "delta_E"),
    ("Bracket count", "bracket_count"), ("Line min count", "line_min_count"),
    ("Conjugate cycle count", "conjugate_cycle_count"), ("Cycle count", "cycle_count"),
    ("Cycle sub count", "cycle_sub_count"), ("Temperature", "T"), ("average u", "average_u"),
    ("average J", "average_J")]

/-- The short names of what drivers report. -/
def driverQuantities : List (String × String) :=
  [("Iteration", "iteration"), ("Stage iteration", "stage_iteration"), ("Stage", "stage"),
    ("mx", "mx"), ("my", "my"), ("mz", "mz"), ("Last time step", "last_time_step"),
    ("Simulation time", "t")]

/-- The short names of what energies report besides their amount. -/
def energyQuantities : List (String × String) :=
  [("Max Spin Ang", "max_spin_ang"), ("Stage Max Spin Ang", "stage_max_spin_ang"),
    ("Run Max Spin Ang", "run_max_spin_ang")]

/-- The components of an applied field, which keep their names. -/
def fieldQuantities : List String := ["Bx", "By", "Bz", "B"]

/-- The short name of a quantity of an energy. -/
def energyQuantity? (group quantity : String) : Option String :=
  if quantity = "Energy" then some ("E_" ++ group)
  else if group = "zeeman" && fieldQuantities.contains quantity then some quantity
  else energyQuantities.lookup quantity

/-- The parts of a column name: the class, the instance, and the quantity after the last colon. -/
structure ColumnName where
  /-- What stands before the first colon. -/
  className : String
  /-- What stands between the first and the last colon. -/
  instanceName : String
  /-- What stands after the last colon, if there is one. -/
  quantity : String
deriving DecidableEq, Repr

/-- Text before and after the first colon. -/
def splitFirstColon? (text : List Char) : Option (List Char × List Char) :=
  match text.dropWhile (· ≠ ':') with
  | [] => none
  | _ :: rest => some (text.takeWhile (· ≠ ':'), rest)

/-- Text before and after the last colon. -/
def splitLastColon? (text : List Char) : Option (List Char × List Char) :=
  (splitFirstColon? text.reverse).map fun (after, before) => (before.reverse, after.reverse)

/-- Take a column name apart. -/
def ColumnName.ofText (column : String) : ColumnName :=
  match splitFirstColon? column.toList with
  | none => ⟨column, "", ""⟩
  | some (className, rest) =>
    match splitLastColon? rest with
    | some (middle, quantity) =>
      ⟨String.ofList className, String.ofList middle, String.ofList quantity⟩
    | none => ⟨String.ofList className, "", String.ofList rest⟩

/-- The short name of a known quantity of a known class. -/
def ColumnName.short? (name : ColumnName) : Option String :=
  if evolverClasses.contains name.className then evolverQuantities.lookup name.quantity
  else if driverClasses.contains name.className then driverQuantities.lookup name.quantity
  else (energyGroups.lookup name.className).bind fun group => energyQuantity? group name.quantity

/-- The short name of a column, if it has one. -/
def shortName? (column : String) : Option String := (ColumnName.ofText column).short?

/-- The name of a column of a table whose columns have the given short names: its short name, with
the instance when others share it. -/
def renameColumn (shorts : List (Option String)) (column : String) : String :=
  match shortName? column with
  | none => column
  | some short =>
    let instanceName := (ColumnName.ofText column).instanceName
    if 1 < shorts.count (some short) && !instanceName.isEmpty then short ++ "_" ++ instanceName
    else short

/-- The names of the columns of one table. -/
def renameColumns (columns : List String) : List String :=
  columns.map (renameColumn (columns.map shortName?))

end Micromag.Table

/-!
## Data tables

The engine reports scalars as a table: a header line with the names of the columns, right after it
one with their units, and then a line of numbers for each stage. Blank lines and comments may stand
among the rows.
-/

namespace Micromag

/-- A table of numbers with named columns. -/
structure Table where
  /-- The names of the columns. -/
  columns : List String
  /-- The units of the columns. -/
  units : List String
  /-- The rows from top to bottom. -/
  rows : List (List Float)

/-- Why text is no table. -/
inductive TableFault where
  /-- No line lists the columns. -/
  | noColumns
  /-- The line after the columns does not list the units. -/
  | noUnits (line : Nat)
  /-- There are more or fewer units than columns. -/
  | unitCount (columns units : Nat)
  /-- A row has more or fewer values than columns. -/
  | rowWidth (line expected found : Nat)
  /-- A value is no number. -/
  | notNumber (line : Nat) (word : String)
deriving DecidableEq, Repr

namespace TableFault

/-- The sentence of a fault. -/
def message : TableFault → String
  | noColumns => "table has no '# Columns' header line"
  | noUnits line => s!"line {line}: expected '# Units' after the columns header"
  | unitCount columns units => s!"table declares {columns} columns but {units} units"
  | rowWidth line expected found => s!"line {line}: expected {expected} values, got {found}"
  | notNumber line word => s!"line {line}: '{word}' is not a number"

/-- The fault of a table in a text. -/
def fault (cause : TableFault) : Fault := .parse "PARSE.TABLE" cause.message

end TableFault

namespace Table

/-- The place of a column. -/
def index? (table : Table) (name : String) : Option Nat := table.columns.idxOf? name

/-- The values of a column. -/
def column? (table : Table) (name : String) : Option (List Float) :=
  (table.index? name).bind fun index => table.rows.mapM (·[index]?)

/-- The value of a column in the last row. -/
def last? (table : Table) (name : String) : Option Float :=
  (table.index? name).bind fun index => table.rows.getLast?.bind (·[index]?)

/-- The unit of a column. -/
def unit? (table : Table) (name : String) : Option String :=
  (table.index? name).bind (table.units[·]?)

/-- Text after a start, if it has it. -/
def after? (start text : List Char) : Option (List Char) :=
  if start.isPrefixOf text then some (text.drop start.length) else none

/-- The fields of a header line with a keyword: a hash, the keyword and perhaps a colon. -/
def header? (keyword : String) (line : List Char) : Option (List String) := do
  let rest ← after? ['#'] (Text.trim line)
  let rest ← after? keyword.toList (Text.trimStart rest)
  return (splitHeader ((after? [':'] rest).getD rest)).map String.ofList

/-- The lines after the list of the columns, with that list and the number of lines passed. -/
def findColumns? (number : Nat) : List (List Char) →
    Option (List String × Nat × List (List Char))
  | [] => none
  | line :: rest =>
    match header? "Columns" line with
    | some columns => some (columns, number + 1, rest)
    | none => findColumns? (number + 1) rest

/-- Whether a trimmed line holds no row. -/
def isSkipped (line : List Char) : Bool := line.isEmpty || line.head? = some '#'

/-- The numbers of a row. -/
def readRow (width number : Nat) (line : List Char) : Except TableFault (List Float) := do
  let row ← (Text.words line).mapM fun word =>
    match readFloat? word with
    | some x => .ok x
    | none => .error (.notNumber number (String.ofList word))
  if row.length = width then return row else .error (.rowWidth number width row.length)

/-- The rows of the lines from a number on. -/
def readRows (width number : Nat) : List (List Char) → Except TableFault (List (List Float))
  | [] => .ok []
  | line :: rest =>
    let line := Text.trim line
    if isSkipped line then readRows width (number + 1) rest
    else do
      let row ← readRow width number line
      let rows ← readRows width (number + 1) rest
      return row :: rows

/-- The table that a text stands for, with the names of the engine. -/
def parseRaw (text : String) : Except TableFault Table := do
  let lines := Text.lines text.toList
  match findColumns? 0 lines with
  | none => .error .noColumns
  | some (columns, number, rest) =>
    match rest with
    | [] => .error (.noUnits (number + 1))
    | line :: rest =>
      match header? "Units" line with
      | none => .error (.noUnits (number + 1))
      | some units =>
        if units.length ≠ columns.length then .error (.unitCount columns.length units.length)
        let rows ← readRows columns.length (number + 2) rest
        return ⟨columns, units, rows⟩

/-- The table that a text stands for, with short names if wanted. -/
def parse (text : String) (rename : Bool) : Except TableFault Table :=
  (parseRaw text).map fun table =>
    if rename then { table with columns := renameColumns table.columns } else table

end Table

end Micromag
