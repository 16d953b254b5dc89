import Micromag.Proofs.Text.Basic
import Micromag.Proofs.Text.Words
import Micromag.Table.Basic

/-!
# Texts of a table

A table can be written in many ways. Lines end in a line feed with or without a carriage return, and
the last one need not end. A field of a header stands between braces or bare, blanks of any kind
separate fields and numbers and may stand around them, and blank lines and comments may stand among
the rows. This module says which texts stand for a table, without reference to how they are read.
-/

namespace Micromag.Table

open Text

/-- A text consists of lines. Each ends in a line feed, perhaps behind a carriage return; the last
one need not end if there is something in it. -/
inductive Consists : List Char → List (List Char) → Prop where
  /-- There is nothing. -/
  | nil : Consists [] []
  /-- A last line without an end. -/
  | last {line : List Char} (one : '\n' ∉ line) (filled : line ≠ []) : Consists line [line]
  /-- A line with a line feed. -/
  | lineFeed {line rest : List Char} {lines : List (List Char)} (one : '\n' ∉ line)
      (others : Consists rest lines) : Consists (line ++ '\n' :: rest) (line :: lines)
  /-- A line with a carriage return and a line feed. -/
  | both {line rest : List Char} {lines : List (List Char)} (one : '\n' ∉ line)
      (others : Consists rest lines) : Consists (line ++ '\r' :: '\n' :: rest) (line :: lines)

/-- Whether a text is blank. -/
def Blanks (text : List Char) : Prop := ∀ c ∈ text, isBlank c = true

instance (text : List Char) : Decidable (Blanks text) :=
  inferInstanceAs (Decidable (∀ c ∈ text, isBlank c = true))

/-- A line has something in it with blanks around it. -/
def Holds (line core : List Char) : Prop :=
  ∃ front back, Blanks front ∧ Blanks back ∧ line = front ++ core ++ back

/-- Values are written one after the other with blanks between them. -/
inductive Spaced {α : Type} (writes : α → List Char → Prop) : List α → List Char → Prop where
  /-- The last value. -/
  | last {value : α} {text : List Char} (written : writes value text) : Spaced writes [value] text
  /-- A value, blanks, and the other values. -/
  | cons {value : α} {text gap rest : List Char} {values : List α} (written : writes value text)
      (blanks : Blanks gap) (some : gap ≠ []) (others : Spaced writes values rest) :
      Spaced writes (value :: values) (text ++ gap ++ rest)

/-- The braces in a text balance: each that opens is closed behind it, and none else closes. -/
inductive Balanced : List Char → Prop where
  /-- There are none. -/
  | nil : Balanced []
  /-- Another character in front. -/
  | cons {c : Char} {rest : List Char} (notOpening : c ≠ '\x7b') (notClosing : c ≠ '\x7d')
      (balanced : Balanced rest) : Balanced (c :: rest)
  /-- Braces around a balanced text in front. -/
  | group {inner rest : List Char} (inside : Balanced inner) (balanced : Balanced rest) :
      Balanced ('\x7b' :: (inner ++ '\x7d' :: rest))

/-- A name is written as a field: between braces if its own balance, or as it is if there is
something in it and neither a blank nor a brace. -/
inductive WritesField (name : String) : List Char → Prop where
  /-- Between braces. -/
  | braced (balanced : Balanced name.toList) :
      WritesField name ('\x7b' :: (name.toList ++ ['\x7d']))
  /-- As it is. -/
  | bare (filled : name ≠ "")
      (plain : ∀ c ∈ name.toList, isBlank c = false ∧ c ≠ '\x7b' ∧ c ≠ '\x7d') :
      WritesField name name.toList

/-- A number is written as a word that is read as the number. -/
structure WritesNumber (x : Float) (word : List Char) : Prop where
  /-- It is a word. -/
  visible : ∀ c ∈ word, isBlank c = false
  /-- There is something in it. -/
  filled : word ≠ []
  /-- It is read as the number. -/
  read : readFloat? word = some x

/-- A line announces something: a hash, perhaps blanks, and the keyword. -/
def Announces (keyword : String) (line : List Char) : Prop :=
  ∃ front gap rest, Blanks front ∧ Blanks gap ∧
    line = front ++ '#' :: (gap ++ keyword.toList ++ rest)

/-- A header line: a hash, perhaps blanks, the keyword, perhaps a colon, and the names as fields.
Blanks may stand in front of the names; without a colon they must. -/
def WritesHeader (keyword : String) (names : List String) (line : List Char) : Prop :=
  ∃ gap colon lead fields, Blanks gap ∧ Blanks lead ∧ Spaced WritesField names fields ∧
    (colon = [':'] ∨ colon = [] ∧ lead ≠ []) ∧
      Holds line ('#' :: (gap ++ keyword.toList ++ colon ++ lead ++ fields))

/-- Rows are written line by line; blank lines and comments may stand among them. -/
inductive WritesRows : List (List Float) → List (List Char) → Prop where
  /-- There are no rows. -/
  | nil : WritesRows [] []
  /-- A row. -/
  | row {row : List Float} {words line : List Char} {rows : List (List Float)}
      {lines : List (List Char)} (written : Spaced WritesNumber row words)
      (holds : Holds line words) (others : WritesRows rows lines) :
      WritesRows (row :: rows) (line :: lines)
  /-- A blank line. -/
  | blank {line : List Char} {rows : List (List Float)} {lines : List (List Char)}
      (blanks : Blanks line) (others : WritesRows rows lines) : WritesRows rows (line :: lines)
  /-- A comment. -/
  | comment {front text : List Char} {rows : List (List Float)} {lines : List (List Char)}
      (blanks : Blanks front) (others : WritesRows rows lines) :
      WritesRows rows ((front ++ '#' :: text) :: lines)

/-- A text stands for a table: lines that do not announce columns, the columns, right behind them
their units, and the rows. -/
def Renders (table : Table) (text : String) : Prop :=
  ∃ preamble columns units body,
    Consists text.toList (preamble ++ columns :: units :: body) ∧
      (∀ line ∈ preamble, ¬Announces "Columns" line) ∧
        WritesHeader "Columns" table.columns columns ∧ WritesHeader "Units" table.units units ∧
          WritesRows table.rows body

end Micromag.Table
