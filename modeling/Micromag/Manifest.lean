import Micromag.Json.Reading
import Micromag.Json.Record
import Micromag.Text.Basic

/-!
# Manifests

What is remembered of a drive, with the time at which it was carried out.
-/

/-!
## Timestamps

A manifest tells when a drive was run, in the Gregorian calendar and the time of day.
-/

namespace Micromag

/-- A moment to the second. -/
structure Timestamp where
  /-- The year. -/
  year : Int
  /-- The month, from one. -/
  month : Nat
  /-- The day of the month, from one. -/
  day : Nat
  /-- The hour. -/
  hour : Nat
  /-- The minute. -/
  minute : Nat
  /-- The second. -/
  second : Nat
deriving DecidableEq, Repr

namespace Timestamp

/-- Whether a year has a twenty-ninth of February. -/
def isLeapYear (year : Int) : Bool :=
  year % 4 = 0 && (year % 100 ≠ 0 || year % 400 = 0)

/-- The number of days of a month. -/
def monthLength (year : Int) (month : Nat) : Nat :=
  if month = 2 then if isLeapYear year then 29 else 28
  else if month = 4 || month = 6 || month = 9 || month = 11 then 30 else 31

/-- The last year of the calendar, before and after the beginning of its count. -/
def maxYear : Nat := 262142

/-- Whether there is such a moment. -/
def isValid (t : Timestamp) : Bool :=
  t.year.natAbs ≤ maxYear && 1 ≤ t.month && t.month ≤ 12 && 1 ≤ t.day &&
    t.day ≤ monthLength t.year t.month && t.hour < 24 && t.minute < 60 && t.second < 60

/-- Digits with zeros in front up to a width. -/
def padded (width n : Nat) : String :=
  let digits := toString n
  String.ofList (List.replicate (width - digits.length) '0') ++ digits

/-- The text of a year: four digits, with a sign if there are more or if it is negative. -/
def yearText (year : Int) : String :=
  if year < 0 then "-" ++ padded 4 year.natAbs
  else if 9999 < year then "+" ++ padded 4 year.natAbs
  else padded 4 year.natAbs

/-- The text of the date. -/
def dateText (t : Timestamp) : String :=
  yearText t.year ++ "-" ++ padded 2 t.month ++ "-" ++ padded 2 t.day

/-- The text of the time of day. -/
def timeText (t : Timestamp) : String :=
  padded 2 t.hour ++ ":" ++ padded 2 t.minute ++ ":" ++ padded 2 t.second

/-- The date a number of days after the first of March of the year zero: its year, month and day.
Years are counted from March, so that a leap day is the last day of its year. -/
def dateOfDays (days : Int) : Int × Nat × Nat :=
  let era := days.fdiv 146097
  let ofEra := (days - era * 146097).toNat
  let yearOfEra := (ofEra - ofEra / 1460 + ofEra / 36524 - ofEra / 146096) / 365
  let ofYear := ofEra - (365 * yearOfEra + yearOfEra / 4 - yearOfEra / 100)
  let fromMarch := (5 * ofYear + 2) / 153
  let day := ofYear - (153 * fromMarch + 2) / 5 + 1
  let month := if fromMarch < 10 then fromMarch + 3 else fromMarch - 9
  (era * 400 + yearOfEra + (if month ≤ 2 then 1 else 0), month, day)

/-- The moment a number of seconds after the beginning of the year 1970. -/
def ofSeconds (seconds : Int) : Timestamp :=
  let (year, month, day) := dateOfDays (seconds.fdiv 86400 + 719468)
  let ofDay := (seconds.fmod 86400).toNat
  ⟨year, month, day, ofDay / 3600, ofDay / 60 % 60, ofDay % 60⟩

end Timestamp

end Micromag

/-!
## Manifests

Every drive leaves a manifest in its directory: its number, when it was run, its driver and what the
intent asked for.
-/

namespace Micromag

/-- The record of one drive. -/
structure Manifest where
  /-- The number of the drive. -/
  driveNumber : Nat
  /-- The date. -/
  date : String
  /-- The time of day. -/
  time : String
  /-- The driver. -/
  driver : String
  /-- The arguments of the intent, keys in order. -/
  arguments : Json

namespace Manifest

/-- The name of the file. -/
def fileName : String := "info.json"

/-- The record of a drive at a time. -/
def ofTime (t : Timestamp) (driveNumber : Nat) (driver : String) (arguments : Json) : Manifest :=
  ⟨driveNumber, t.dateText, t.timeText, driver, arguments.sorted⟩

/-- A manifest as a document. -/
def toDocument (manifest : Manifest) : Json :=
  .object [("drive_number", .ofCount manifest.driveNumber), ("date", .string manifest.date),
    ("time", .string manifest.time), ("driver", .string manifest.driver),
    ("args", manifest.arguments)]

/-- The manifest of a document. -/
def ofDocument? (json : Json) : Option Manifest := do
  let record ← json.record?
    [.needed "drive_number", .needed "date", .needed "time", .needed "driver", .needed "args"]
  return {
    driveNumber := ← record.needed "drive_number" Json.count?
    date := ← record.needed "date" Json.string?
    time := ← record.needed "time" Json.string?
    driver := ← record.needed "driver" Json.string?
    arguments := ← record.needed "args" fun json => some json.sorted }

/-- The text of the file. -/
def text (manifest : Manifest) : String := Text.canonical manifest.toDocument.pretty

/-- The manifest of a file's text. -/
def ofText? (text : String) : Option Manifest := (Json.read? text).bind ofDocument?

end Manifest

end Micromag
