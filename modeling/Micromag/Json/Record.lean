import Micromag.Json.Basic
import Micromag.Geometry

/-!
# Reading values from documents

A record is written as an object of its fields, or as an array of them in their order. In an object,
unknown fields are passed over and a field must not occur twice, not even under two of its names. In
an array, fields with a default may be missing at the end and nothing may follow the last field. One
of several kinds of record carries the name of its kind: under a key of an object, or as the first
element of an array.
-/

namespace Micromag

/-- The declaration of a record's field. -/
structure FieldName where
  /-- The name under which the field is written, then further names under which it is read. -/
  names : List String
  /-- The field has a default, so an array may end before it. -/
  hasDefault : Bool := false

namespace FieldName

/-- A field that must be there. -/
def needed (name : String) : FieldName := { names := [name] }

/-- A field with a default. -/
def defaulted (name : String) : FieldName := { names := [name], hasDefault := true }

/-- The name under which the field is written. -/
def main (field : FieldName) : String := field.names.headD ""

/-- The value of the field in an object, `none` inside if it is missing, and nothing at all if it
occurs twice. -/
def find? (field : FieldName) (entries : List (String × Json)) : Option (Option Json) :=
  match entries.filter fun entry => field.names.contains entry.1 with
  | [] => some none
  | [entry] => some (some entry.2)
  | _ => none

end FieldName

/-- The fields of a record that were found, by their main names. -/
structure Record where
  /-- Main names with what was found. -/
  fields : List (String × Json)

namespace Json

/-- The values of an array as the fields of a record in order. -/
def positional? : List FieldName → List Json → Option (List (String × Json))
  | [], [] => some []
  | [], _ :: _ => none
  | field :: fields, [] => if field.hasDefault then positional? fields [] else none
  | field :: fields, item :: items =>
    (positional? fields items).map ((field.main, item) :: ·)

/-- The fields of an object that were declared. -/
def named? (entries : List (String × Json)) : List FieldName → Option (List (String × Json))
  | [] => some []
  | field :: fields => do
    let found ← field.find? entries
    let rest ← named? entries fields
    return match found with
      | some item => (field.main, item) :: rest
      | none => rest

/-- A document as a record with the declared fields. -/
def record? (declared : List FieldName) : Json → Option Record
  | object entries => (named? entries declared).map Record.mk
  | array items => (positional? declared items).map Record.mk
  | _ => none

/-- The kind of a record that says its kind, and the record without it. -/
def kind? (key : String) : Json → Option (String × Json)
  | object entries =>
    match entries.filter fun entry => entry.1 = key with
    | [(_, string kind)] => some (kind, object (entries.filter fun entry => entry.1 ≠ key))
    | _ => none
  | array (string kind :: items) => some (kind, array items)
  | _ => none

/-- A double; whole numbers are doubles too. -/
def float? : Json → Option Float
  | whole n => some (if n < 0 then -Float.ofNat n.natAbs else Float.ofNat n.natAbs)
  | number x => some x
  | _ => none

/-- A count below `2 ^ 64`. -/
def count? : Json → Option Nat
  | whole n => if 0 ≤ n then some n.toNat else none
  | _ => none

/-- Text. -/
def string? : Json → Option String
  | string s => some s
  | _ => none

/-- A truth value. -/
def bool? : Json → Option Bool
  | bool b => some b
  | _ => none

/-- A list of values. -/
def list? {α : Type} (item? : Json → Option α) : Json → Option (List α)
  | array items => items.mapM item?
  | _ => none

/-- Exactly three values. -/
def triple? {α : Type} (item? : Json → Option α) (json : Json) : Option (Triple α) := do
  Triple.ofList? (← json.list? item?)

/-- A map in which the last of equal keys counts. -/
def keyed? {α : Type} (item? : Json → Option α) : Json → Option (Keyed α)
  | object entries => do
    let settings ← entries.mapM fun entry => (item? entry.2).map (entry.1, ·)
    return Keyed.ofList settings
  | _ => none

/-- One of several words, alone or as the only key of an object with an absent value. -/
def word? {α : Type} (ofName? : String → Option α) : Json → Option α
  | string s => ofName? s
  | object [(key, null)] => ofName? key
  | _ => none

end Json

namespace Record

/-- What was found for a field. -/
def find? (record : Record) (name : String) : Option Json := record.fields.lookup name

/-- A field that must be there. -/
def needed {α : Type} (record : Record) (name : String) (read? : Json → Option α) : Option α := do
  read? (← record.find? name)

/-- A field that takes a default when it is missing. -/
def defaulted {α : Type} (record : Record) (name : String) (read? : Json → Option α)
    (default : α) : Option α :=
  match record.find? name with
  | some json => read? json
  | none => some default

/-- A field that may be missing or absent. -/
def optional {α : Type} (record : Record) (name : String) (read? : Json → Option α) :
    Option (Option α) :=
  match record.find? name with
  | none | some .null => some none
  | some json => (read? json).map some

end Record

namespace Json

/-- A triple as an array. -/
def ofTriple {α : Type} (write : α → Json) (triple : Triple α) : Json :=
  array (triple.toList.map write)

/-- A count. -/
def ofCount (n : Nat) : Json := whole n

/-- A list as an array. -/
def ofList {α : Type} (write : α → Json) (items : List α) : Json := array (items.map write)

/-- A map as an object. -/
def ofKeyed {α : Type} (write : α → Json) (map : Keyed α) : Json :=
  object (map.entries.map fun entry => (entry.1, write entry.2))

/-- An entry that is left out when its value is absent. -/
def optionalEntry {α : Type} (key : String) (write : α → Json) (value : Option α) :
    List (String × Json) :=
  (value.map fun value => (key, write value)).toList

end Json

end Micromag
