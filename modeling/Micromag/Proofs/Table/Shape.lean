import Micromag.Proofs.Table.Parsing

/-!
# The shape of a table

A table that is read has as many units as columns and as many values in every row, so that the place
of a column is that of a unit and of a value in every row. Its rows are those of the lines behind the
header that hold data, line by line, and renaming columns changes neither them nor the units. When a
line of data is at fault, it is the first that does not hold a row of the width of the table.
-/

namespace Micromag

/-- The number of the line with data at which a fault is. -/
def TableFault.row? : TableFault → Option Nat
  | rowWidth line _ _ => some line
  | notNumber line _ => some line
  | noColumns | noUnits _ | unitCount _ _ => none

namespace Table

open Text

/-! ## Rows -/

/-- Whether a line holds data: it is neither blank nor a comment. -/
def isData (line : List Char) : Bool := !isSkipped (trim line)

/-- A line holds a row: its words are the numbers of the row in order. -/
def HoldsRow (line : List Char) (row : List Float) : Prop :=
  List.Forall₂ (fun word x => readFloat? word = some x) (words (trim line)) row

/-- A line holds a row of a width. -/
def HoldsWide (width : Nat) (line : List Char) : Prop :=
  ∃ row, HoldsRow line row ∧ row.length = width

variable {width number : Nat} {line : List Char} {lines : List (List Char)} {row : List Float}
  {rows : List (List Float)} {fault : TableFault}

/-- The row of a line has the numbers of the words and is as wide as asked. -/
theorem readRow_ok : readRow width number line = .ok row ↔
    List.Forall₂ (fun word x => readFloat? word = some x) (words line) row ∧
      row.length = width := by
  unfold readRow
  rw [Result.bind_ok]
  constructor
  · rintro ⟨found, read, checked⟩
    have holds : List.Forall₂ (fun word x => readFloat? word = some x) (words line) found := by
      refine (Result.mapM_ok.mp read).imp fun word x same => ?_
      split at same
      · rename_i y value
        rw [value, Except.ok.inj same]
      · cases same
    split at checked
    · rename_i wide
      obtain rfl := Except.ok.inj checked
      exact ⟨holds, wide⟩
    · cases checked
  · rintro ⟨holds, wide⟩
    exact ⟨row, Result.mapM_ok.mpr (holds.imp fun word x value => by rw [value]), if_pos wide⟩

/-- What is wrong with a row is said of its line. -/
theorem row?_of_readRow (refused : readRow width number line = .error fault) :
    fault.row? = some number := by
  rcases Result.bind_error.mp refused with refused | ⟨found, _, refused⟩
  · obtain ⟨word, _, refused⟩ := Result.exists_of_mapM_error refused
    split at refused
    · cases refused
    · rw [← Except.error.inj refused]
      rfl
  · split at refused
    · cases refused
    · rw [← Except.error.inj refused]
      rfl

/-- The rows of lines are those of the lines with data, and as wide as asked. -/
theorem readRows_ok (read : readRows width number lines = .ok rows) :
    List.Forall₂ HoldsRow (lines.filter isData) rows ∧ ∀ row ∈ rows, row.length = width := by
  induction lines generalizing number rows with
  | nil =>
    obtain rfl := Except.ok.inj read
    exact ⟨.nil, fun _ absent => nomatch absent⟩
  | cons line rest ih =>
    unfold readRows at read
    dsimp only at read
    split at read
    · rename_i skipped
      rw [List.filter_cons_of_neg (by simp [isData, skipped])]
      exact ih read
    · rename_i data
      rw [List.filter_cons_of_pos (by simp [isData, data])]
      obtain ⟨row, first, read⟩ := Result.bind_ok.mp read
      obtain ⟨others, further, same⟩ := Result.bind_ok.mp read
      obtain rfl := Except.ok.inj same
      obtain ⟨holds, wide⟩ := readRow_ok.mp first
      obtain ⟨all, width⟩ := ih further
      exact ⟨.cons holds all, List.forall_mem_cons.mpr ⟨wide, width⟩⟩

/-- When rows cannot be read, the first line with data that does not hold a row as wide as asked is at
fault. -/
theorem readRows_error (refused : readRows width number lines = .error fault) :
    ∃ before line after, lines = before ++ line :: after ∧
      (∀ earlier ∈ before, isData earlier = true → HoldsWide width earlier) ∧
      isData line = true ∧ ¬HoldsWide width line ∧
      fault.row? = some (number + before.length) := by
  induction lines generalizing number with
  | nil => cases refused
  | cons line rest ih =>
    have further (sound : isData line = true → HoldsWide width line)
        (refused : readRows width (number + 1) rest = .error fault) :
        ∃ before wrong after, line :: rest = before ++ wrong :: after ∧
          (∀ earlier ∈ before, isData earlier = true → HoldsWide width earlier) ∧
          isData wrong = true ∧ ¬HoldsWide width wrong ∧
          fault.row? = some (number + before.length) := by
      obtain ⟨before, wrong, after, rfl, fine, data, bad, place⟩ := ih refused
      refine ⟨line :: before, wrong, after, rfl, List.forall_mem_cons.mpr ⟨sound, fine⟩, data, bad,
        ?_⟩
      rw [place, List.length_cons, Nat.add_right_comm, Nat.add_assoc]
    unfold readRows at refused
    dsimp only at refused
    split at refused
    · rename_i skipped
      exact further (fun data => by simp [isData, skipped] at data) refused
    · rename_i data
      rcases Result.bind_error.mp refused with refused | ⟨row, first, refused⟩
      · have bad : ¬HoldsWide width line := by
          rintro ⟨row, read⟩
          rw [readRow_ok.mpr read] at refused
          cases refused
        exact ⟨[], line, rest, rfl, List.forall_mem_nil _, by simp [isData, data], bad,
          row?_of_readRow refused⟩
      · rcases Result.bind_error.mp refused with refused | ⟨others, _, refused⟩
        · exact further (fun _ => ⟨row, readRow_ok.mp first⟩) refused
        · cases refused

/-! ## Header -/

/-- A text opens with a header: lines that do not list columns, the columns, and right behind them the
units. Other lines stand behind it. -/
structure Opens (text : String) (columns units : List String) (front body : List (List Char)) :
    Prop where
  /-- These are the lines of the text. -/
  lines : Text.lines text.toList = front ++ body
  /-- The first line that lists columns is the last but one of the header, and the last lists units. -/
  header : ∃ preamble first second, front = preamble ++ [first, second] ∧
    (∀ line ∈ preamble, header? "Columns" line = none) ∧
    header? "Columns" first = some columns ∧ header? "Units" second = some units

/-- Columns are found in the first line that lists columns. -/
theorem findColumns?_eq_some {columns : List String} {passed : Nat} {rest : List (List Char)}
    (found : findColumns? number lines = some (columns, passed, rest)) :
    ∃ preamble line, lines = preamble ++ line :: rest ∧
      (∀ earlier ∈ preamble, header? "Columns" earlier = none) ∧
      header? "Columns" line = some columns ∧ passed = number + preamble.length + 1 := by
  induction lines generalizing number with
  | nil => cases found
  | cons line others ih =>
    unfold findColumns? at found
    split at found
    · rename_i listed
      obtain ⟨same, place⟩ := Prod.mk.inj (Option.some.inj found)
      obtain ⟨rfl, rfl⟩ := Prod.mk.inj place
      exact ⟨[], line, rfl, List.forall_mem_nil _, same ▸ listed, rfl⟩
    · rename_i silent
      obtain ⟨preamble, first, rfl, none, listed, rfl⟩ := ih found
      refine ⟨line :: preamble, first, rfl, List.forall_mem_cons.mpr ⟨silent, none⟩, listed, ?_⟩
      rw [List.length_cons]
      omega

/-- A text is refused for its header, or it opens with one and its rows decide. -/
theorem parseRaw_cases (text : String) :
    (∃ fault, parseRaw text = .error fault ∧ fault.row? = none) ∨
      ∃ columns units front body, Opens text columns units front body ∧
        units.length = columns.length ∧
        parseRaw text = (readRows columns.length (front.length + 1) body).map
          fun rows => ⟨columns, units, rows⟩ := by
  unfold parseRaw
  dsimp only
  cases found : findColumns? 0 (Text.lines text.toList) with
  | none => exact .inl ⟨_, rfl, rfl⟩
  | some header =>
    obtain ⟨columns, passed, rest⟩ := header
    obtain ⟨preamble, first, split, silent, listed, rfl⟩ := findColumns?_eq_some found
    dsimp only
    cases rest with
    | nil => exact .inl ⟨_, rfl, rfl⟩
    | cons second body =>
      dsimp only
      cases measured : header? "Units" second with
      | none => exact .inl ⟨_, rfl, rfl⟩
      | some units =>
        dsimp only
        by_cases described : units.length = columns.length
        · rw [if_neg (not_not.mpr described)]
          refine .inr ⟨columns, units, preamble ++ [first, second], body, ⟨?_, preamble, first,
            second, rfl, silent, listed, measured⟩, described, ?_⟩
          · rw [split, List.append_assoc]
            rfl
          · have place : 0 + preamble.length + 1 + 2 =
                (preamble ++ [first, second]).length + 1 := by
              rw [List.length_append, List.length_cons, List.length_singleton]
              omega
            rw [place]
            cases readRows columns.length ((preamble ++ [first, second]).length + 1) body with
            | error fault => rfl
            | ok rows => rfl
        · rw [if_pos described]
          exact .inl ⟨_, rfl, rfl⟩

/-! ## Places -/

/-- A table has as many units as columns, and as many values in every row. -/
structure Rectangular (table : Table) : Prop where
  /-- There are as many units as columns. -/
  units : table.units.length = table.columns.length
  /-- There are as many values in a row as columns. -/
  rows : ∀ row ∈ table.rows, row.length = table.columns.length

/-- Whatever is asked of a column by its name is there. -/
structure Accessible (table : Table) (name : String) : Prop where
  /-- The place of a column is that of a unit and of a value in every row. -/
  bounded : ∀ index, table.index? name = some index →
    index < table.units.length ∧ ∀ row ∈ table.rows, index < row.length
  /-- The columns have places. -/
  placed : (table.index? name).isSome = true ↔ name ∈ table.columns
  /-- A column has a value in every row. -/
  column : ∀ index, table.index? name = some index → ∃ values, table.column? name = some values ∧
    values.length = table.rows.length ∧
    List.Forall₂ (fun row x => row[index]? = some x) table.rows values
  /-- A column has a value in the last row, if there is one. -/
  last : ∀ index, table.index? name = some index → ∀ row, table.rows.getLast? = some row →
    ∃ x, table.last? name = some x ∧ row[index]? = some x
  /-- A column has a unit. -/
  unit : ∀ index, table.index? name = some index →
    ∃ measure, table.unit? name = some measure ∧ table.units[index]? = some measure

variable {table : Table} {name : String}

/-- Rows that are long enough have a value at a place each. -/
theorem mapM_getElem? {index : Nat} (long : ∀ row ∈ rows, index < row.length) :
    ∃ values, rows.mapM (·[index]?) = some values ∧
      List.Forall₂ (fun row x => row[index]? = some x) rows values := by
  induction rows with
  | nil => exact ⟨[], rfl, .nil⟩
  | cons row rest ih =>
    obtain ⟨first, others⟩ := List.forall_mem_cons.mp long
    obtain ⟨values, found, each⟩ := ih others
    have value : row[index]? = some row[index] := List.getElem?_eq_getElem first
    refine ⟨row[index] :: values, ?_, .cons value each⟩
    rw [List.mapM_cons, value, found]
    rfl

/-- Whatever is asked of a column of a rectangular table is there. -/
theorem Rectangular.accessible (rectangular : table.Rectangular) (name : String) :
    table.Accessible name := by
  have bounded : ∀ index, table.index? name = some index →
      index < table.units.length ∧ ∀ row ∈ table.rows, index < row.length := by
    intro index placed
    have inside : index < table.columns.length :=
      (List.idxOf?_eq_some_iff.mp placed).1
    exact ⟨rectangular.units ▸ inside, fun row member => rectangular.rows row member ▸ inside⟩
  refine ⟨bounded, List.isSome_idxOf?, fun index placed => ?_, fun index placed row last => ?_,
    fun index placed => ?_⟩
  · obtain ⟨values, found, each⟩ := mapM_getElem? (bounded index placed).2
    refine ⟨values, ?_, each.length_eq.symm, each⟩
    unfold column?
    rw [placed]
    exact found
  · have long := (bounded index placed).2 row (List.mem_of_getLast? last)
    have value : row[index]? = some row[index] := List.getElem?_eq_getElem long
    refine ⟨row[index], ?_, value⟩
    unfold last?
    rw [placed, last]
    exact value
  · have value := List.getElem?_eq_getElem (bounded index placed).1
    refine ⟨_, ?_, value⟩
    unfold unit?
    rw [placed]
    exact value

/-! ## Tables -/

/-- A table is what stands in a text: it is rectangular, and its rows are those of the lines with data
behind the header. -/
structure StandsIn (table : Table) (text : String) (rename : Bool) : Prop where
  /-- Units and rows are as wide as the columns. -/
  rectangular : table.Rectangular
  /-- The header lists the columns and units, and the lines with data hold the rows in order. -/
  rows : ∃ columns front body, Opens text columns table.units front body ∧
    table.columns = (if rename then renameColumns columns else columns) ∧
    List.Forall₂ HoldsRow (body.filter isData) table.rows

/-- What renaming columns leaves as it is. -/
def content (table : Table) : List String × List (List Float) := (table.units, table.rows)

/-- A text is refused whatever the columns are to be called. -/
theorem parse_error {text : String} {rename : Bool} :
    parse text rename = .error fault ↔ parseRaw text = .error fault := by
  unfold parse
  cases parseRaw text with
  | error other => exact Iff.rfl
  | ok table => exact ⟨(nomatch ·), (nomatch ·)⟩

/-- Units and rows are the same whatever the columns are to be called. -/
theorem content_parse (text : String) (rename : Bool) :
    (parse text rename).map content = (parseRaw text).map content := by
  unfold parse
  cases parseRaw text with
  | error fault => rfl
  | ok table => cases rename <;> rfl

/-- A table that is read is what stands in the text. -/
theorem standsIn_of_parse {text : String} {rename : Bool} (read : parse text rename = .ok table) :
    table.StandsIn text rename := by
  obtain ⟨raw, read, renamed⟩ := Result.map_ok.mp read
  rcases parseRaw_cases text with ⟨fault, refused, -⟩ | ⟨columns, units, front, body, opens, rest⟩
  · rw [refused] at read
    cases read
  · obtain ⟨described, rest⟩ := rest
    rw [rest] at read
    obtain ⟨rows, found, rfl⟩ := Result.map_ok.mp read
    obtain ⟨all, wide⟩ := readRows_ok found
    cases rename with
    | false =>
      obtain rfl := renamed
      exact ⟨⟨described, wide⟩, columns, front, body, opens, rfl, all⟩
    | true =>
      obtain rfl := renamed
      have width : (renameColumns columns).length = columns.length := List.length_map _
      refine ⟨⟨described.trans width.symm, fun row member => ?_⟩, columns, front, body, opens, rfl,
        all⟩
      exact (wide row member).trans width.symm

/-- A fault at a line with data is at the first that does not hold a row of the width of the table. -/
theorem wrong_line_of_parse {text : String} {rename : Bool}
    (refused : parse text rename = .error fault) (place : fault.row? = some number) :
    ∃ columns units front before line after,
      Opens text columns units front (before ++ line :: after) ∧
      units.length = columns.length ∧
      (∀ earlier ∈ before, isData earlier = true → HoldsWide columns.length earlier) ∧
      isData line = true ∧ ¬HoldsWide columns.length line ∧
      number = front.length + before.length + 1 := by
  have raw := parse_error.mp refused
  rcases parseRaw_cases text with ⟨other, refused, header⟩ | ⟨columns, units, front, body, opens, rest⟩
  · rw [raw] at refused
    rw [Except.error.inj refused, header] at place
    cases place
  · obtain ⟨described, rest⟩ := rest
    rw [rest] at raw
    cases read : readRows columns.length (front.length + 1) body with
    | ok rows =>
      rw [read] at raw
      cases raw
    | error other =>
      rw [read] at raw
      obtain rfl : other = fault := Except.error.inj raw
      obtain ⟨before, line, after, rfl, fine, data, bad, found⟩ := readRows_error read
      refine ⟨columns, units, front, before, line, after, opens, described, fine, data, bad, ?_⟩
      have same := Option.some.inj (found.symm.trans place)
      omega

/-- A table that is read is rectangular and has a row for each line with data, in order, so that
whatever is asked of its columns is there; renaming columns changes neither units nor rows nor what is
refused; and a fault at a line with data is at the first that does not hold a row of the width of the
table. -/
theorem parse_shape (text : String) (rename : Bool) :
    (∀ table, parse text rename = .ok table →
      table.StandsIn text rename ∧ ∀ name, table.Accessible name) ∧
    (∀ other, (parse text other).map content = (parse text rename).map content) ∧
    ∀ fault number, parse text rename = .error fault → fault.row? = some number →
      ∃ columns units front before line after,
        Opens text columns units front (before ++ line :: after) ∧
        units.length = columns.length ∧
        (∀ earlier ∈ before, isData earlier = true → HoldsWide columns.length earlier) ∧
        isData line = true ∧ ¬HoldsWide columns.length line ∧
        number = front.length + before.length + 1 := by
  refine ⟨fun table read => ?_, fun other => ?_, fun fault number => wrong_line_of_parse⟩
  · have stands := standsIn_of_parse read
    exact ⟨stands, stands.rectangular.accessible⟩
  · rw [content_parse, content_parse]

/-- A text with a row, a comment and an empty line behind its header. -/
def soundText : String := "# Columns: t E\n# Units: s J\n1 2\n# end\n\n"

/-- The same text with a word that is no number in a line behind. -/
def brokenText : String := soundText ++ "3 x\n"

/-- The sound text is read with a value in every row for a column. The first line of the broken text
that holds no row is the sixth, which is told although a comment and an empty line stand in front. -/
theorem parse_shape_broken :
    (∃ table values, parse soundText true = .ok table ∧ table.column? "E" = some values ∧
      values.length = table.rows.length) ∧
    parse brokenText true = .error (.notNumber 6 "x") ∧
      ∃ front before line after, Text.lines brokenText.toList = front ++ (before ++ line :: after) ∧
        isData line = true ∧ 6 = front.length + before.length + 1 := by
  have read : ((parse soundText true).toOption.bind fun table => table.index? "E") = some 1 := by
    decide +kernel
  obtain ⟨table, kept, index⟩ := Option.bind_eq_some_iff.mp read
  have sound := Result.ok_of_toOption kept
  obtain ⟨values, found, each, _⟩ := (((parse_shape soundText true).1 _ sound).2 "E").column 1 index
  have refused : parse brokenText true = .error (.notNumber 6 "x") := by
    have tried : (match parse brokenText true with
        | .error fault => decide (fault = .notNumber 6 "x")
        | .ok _ => false) = true := by
      decide +kernel
    split at tried
    · rename_i fault same
      rw [same, of_decide_eq_true tried]
    · cases tried
  obtain ⟨columns, units, front, before, line, after, opens, _, _, data, _, place⟩ :=
    (parse_shape brokenText true).2.2 _ 6 refused rfl
  exact ⟨⟨table, values, sound, found, each⟩, refused, front, before, line, after, opens.lines, data,
    place⟩

end Table

end Micromag
