import Micromag.Proofs.Script.Text

/-!
# Lines that declare and lines that ask

A declaration and an output each begin a line with a word of their own. The other lines of a script
are indented or begin otherwise, so that a reader who only looks for these two words finds at most
one thing in an item: what the first line of the item says.
-/

namespace Micromag.Script

variable {α : Type} {line before after text : List Char}

/-- Whether a line neither declares an object nor asks for an output. -/
def Inert (line : List Char) : Prop :=
  "Specify ".toList.isPrefixOf line = false ∧ "Schedule ".toList.isPrefixOf line = false

/-- Whether all lines of a text are inert. -/
def Silent (text : List Char) : Prop := ∀ line ∈ text.splitOnP (· = '\n'), Inert line

/-- What a reader finds in the lines of a text, in order. -/
def readings (read : List Char → Option α) (text : List Char) : List α :=
  (text.splitOnP (· = '\n')).filterMap read

/-- Whether a reader takes no notice of inert lines. -/
def Selective (read : List Char → Option α) : Prop := ∀ line, Inert line → read line = none

/-- A line that begins with another character than the two words is inert. -/
theorem inert_of_head (other : line.head? ≠ some 'S') : Inert line := by
  cases line with
  | nil => exact ⟨rfl, rfl⟩
  | cons c rest =>
    have differ : ('S' == c) = false := by
      rw [beq_eq_false_iff_ne]
      exact fun same => other (congrArg some same.symm)
    have start (word : List Char) : ('S' :: word).isPrefixOf (c :: rest) = false := by
      rw [List.isPrefixOf_cons_cons, differ, Bool.false_and]
    exact ⟨start _, start _⟩

/-- Text without a line feed is one line. -/
theorem splitOnP_of_line (one : '\n' ∉ line) : line.splitOnP (· = '\n') = [line] :=
  List.splitOnP_eq_singleton fun _ member => decide_eq_false fun same => one (same ▸ member)

/-- A line is silent when it is inert. -/
theorem silent_of_line (one : '\n' ∉ line) (inert : Inert line) : Silent line := by
  unfold Silent
  rw [splitOnP_of_line one]
  exact List.forall_mem_singleton.mpr inert

/-- A line feed ends a line. -/
theorem silent_append_cons :
    Silent (before ++ '\n' :: after) ↔ Silent before ∧ Silent after := by
  unfold Silent
  rw [List.splitOnP_append_cons before after (by decide), List.forall_mem_append]

/-- The lines of a text hold no line feed. -/
theorem notMem_of_mem_linesOf {text row : String} (member : row ∈ Text.linesOf text) :
    '\n' ∉ row.toList := by
  obtain ⟨line, inside, rfl⟩ := List.mem_map.mp member
  rw [String.toList_ofList]
  obtain ⟨piece, among, same⟩ := exists_piece_of_mem_lines inside
  have one := Text.notMem_of_mem_splitOn among
  rcases same with rfl | rfl
  · exact one
  · unfold Text.dropReturn
    split
    · exact fun feed => one (List.dropLast_subset _ feed)
    · exact one

/-- Indented rows are silent. -/
theorem silent_indented {entries : List String} {tail : List Char} (silent : Silent tail) :
    Silent ((indented entries).toList ++ tail) := by
  have rows : ∀ row ∈ entries.flatMap Text.linesOf, '\n' ∉ row.toList := by
    intro row member
    obtain ⟨entry, _, member⟩ := List.mem_flatMap.mp member
    exact notMem_of_mem_linesOf member
  unfold indented
  generalize entries.flatMap Text.linesOf = lines at rows ⊢
  induction lines with
  | nil => exact silent
  | cons row others ih =>
    have one := rows row List.mem_cons_self
    have rest := ih fun other member => rows other (List.mem_cons_of_mem row member)
    have line : '\n' ∉ ("  " ++ row).toList := by
      simp [String.toList_append, one]
    have blank : ("  " ++ row).toList.head? ≠ some 'S' := by
      rw [String.toList_append]
      simp
    rw [List.map_cons, String.join_cons, String.toList_append, String.toList_append,
      List.append_assoc, List.append_assoc]
    exact silent_append_cons.mpr ⟨silent_of_line line (inert_of_head blank), rest⟩

/-- A line feed ends what a reader finds in a line. -/
theorem readings_append_cons {read : List Char → Option α} :
    readings read (before ++ '\n' :: after) = readings read before ++ readings read after := by
  unfold readings
  rw [List.splitOnP_append_cons before after (by decide), List.filterMap_append]

/-- What a reader finds in one line. -/
theorem readings_of_line {read : List Char → Option α} (one : '\n' ∉ line) :
    readings read line = (read line).toList := by
  unfold readings
  rw [splitOnP_of_line one]
  cases found : read line with
  | none => rw [List.filterMap_cons_none found]; rfl
  | some name => rw [List.filterMap_cons_some found]; rfl

/-- A selective reader finds nothing in a silent text. -/
theorem Selective.readings_eq_nil {read : List Char → Option α} (selective : Selective read)
    (silent : Silent text) : readings read text = [] :=
  List.filterMap_eq_nil_iff.mpr fun line member => selective line (silent line member)

/-- Whether a text begins with a line and all its other lines are inert. -/
def Headed (line text : List Char) : Prop :=
  ∃ tail, text = line ++ '\n' :: tail ∧ '\n' ∉ line ∧ Silent tail

/-- A line feed alone ends a text. -/
theorem Headed.single (one : '\n' ∉ line) : Headed line (line ++ ['\n']) :=
  ⟨[], rfl, one, silent_of_line List.not_mem_nil ⟨rfl, rfl⟩⟩

/-- A selective reader finds what it finds in the first line. -/
theorem Headed.readings {read : List Char → Option α} (selective : Selective read)
    (headed : Headed line text) : readings read text = (read line).toList := by
  obtain ⟨tail, rfl, one, silent⟩ := headed
  rw [readings_append_cons, readings_of_line one, selective.readings_eq_nil silent,
    List.append_nil]

/-- The label of a declaration is one word. -/
theorem notMem_label {c : Char} {className : String} {instanceName : Option String}
    (ofClass : Text.isIdentifier className = true)
    (named : ∀ name ∈ instanceName, Text.isIdentifier name = true)
    (other : Text.isNameChar c = false) (noColon : c ≠ ':') :
    c ∉ (label className instanceName).toList := by
  cases instanceName with
  | none => exact Text.notMem_of_isIdentifier ofClass other
  | some name =>
    show c ∉ (className ++ ":" ++ name).toList
    rw [String.toList_append, String.toList_append, List.mem_append, List.mem_append]
    rintro ((member | colon) | member)
    · exact Text.notMem_of_isIdentifier ofClass other member
    · exact noColon (List.mem_singleton.mp colon)
    · exact Text.notMem_of_isIdentifier (named name rfl) other member

/-- The first line of the text of a block. -/
def blockLine (className : String) (instanceName : Option String) (entries : List String) :
    List Char :=
  "Specify ".toList ++ ((label className instanceName).toList ++
    ' ' :: if entries.isEmpty then ['\x7b', '\x7d'] else ['\x7b'])

/-- The text of a block is silent behind its first line. -/
theorem headed_blockText {className : String} {instanceName : Option String}
    {entries : List String} (ofClass : Text.isIdentifier className = true)
    (named : ∀ name ∈ instanceName, Text.isIdentifier name = true) :
    Headed (blockLine className instanceName entries)
      (blockText className instanceName entries).toList := by
  have noFeed := notMem_label ofClass named (show Text.isNameChar '\n' = false by decide)
    (by decide)
  have one {rest : List Char} (ends : '\n' ∉ rest) : '\n' ∉ "Specify ".toList ++
      ((label className instanceName).toList ++ ' ' :: rest) := by
    have start : '\n' ∉ "Specify ".toList := by decide
    rw [List.mem_append, List.mem_append, List.mem_cons]
    rintro (member | member | same | member)
    · exact start member
    · exact noFeed member
    · exact absurd same (by decide)
    · exact ends member
  show Headed _ (if entries.isEmpty then
    "Specify " ++ label className instanceName ++ " \x7b\x7d\n\n"
    else "Specify " ++ label className instanceName ++ " \x7b\n" ++ indented entries ++
      "\x7d\n\n").toList
  unfold blockLine
  split
  · have closed : Silent ['\n'] := by
      unfold Silent Inert
      decide
    refine ⟨['\n'], ?_, one (by decide), closed⟩
    simp only [String.toList_append, List.append_assoc]
    rfl
  · have closed : Silent ((indented entries).toList ++ "\x7d\n\n".toList) := by
      refine silent_indented ?_
      unfold Silent Inert
      decide
    refine ⟨_, ?_, one (by decide), closed⟩
    simp only [String.toList_append, List.append_assoc]
    rfl

/-- The text of a procedure behind its first line is silent. -/
theorem silent_body (body : List String) : Silent ((indented body).toList ++ "\x7d\n\n".toList) := by
  refine silent_indented ?_
  unfold Silent Inert
  decide

/-- Whether what an item says of its caller's making stays in its line. -/
def Item.Level : Item → Prop
  | .options basename _ => '\n' ∉ basename.toList
  | .block b => Text.isIdentifier b.className = true ∧
      ∀ name ∈ b.instanceName, Text.isIdentifier name = true
  | .procedure p => '\n' ∉ p.name.toList ∧ '\n' ∉ p.parameters.toList
  | .destination name => '\n' ∉ name.toList
  | .schedule output target event =>
    (' ' ∉ output.toList ∧ output.toList.head? ≠ some '"') ∧
      '\n' ∉ output.toList ∧ '\n' ∉ target.toList ∧ '\n' ∉ event.toList
  | .blank => True
  | .verbatim text => ∃ line, '\n' ∉ line ∧ text.toList = line ++ ['\n']

/-- The general options are silent behind their first line. -/
theorem headed_optionsText {basename : String} {format : FieldFormat}
    (one : '\n' ∉ basename.toList) :
    Headed "# MIF 2.2".toList (Item.optionsText basename format).toList := by
  have engine : '\n' ∉ (braced format.engineOption).toList := by
    cases format <;> decide
  have row {text : String} (ends : '\n' ∉ text.toList) : Silent ("  " ++ text).toList := by
    refine silent_of_line ?_ (inert_of_head ?_)
    · simp [String.toList_append, ends]
    · rw [String.toList_append]
      simp
  have named : Silent ("  " ++ ("basename " ++ basename)).toList := by
    refine row ?_
    simp [String.toList_append, one]
  have scalars : Silent ("  " ++ ("scalar_field_output_format " ++
      braced format.engineOption)).toList := by
    refine row ?_
    simp [String.toList_append, engine]
  have vectors : Silent ("  " ++ ("vector_field_output_format " ++
      braced format.engineOption)).toList := by
    refine row ?_
    simp [String.toList_append, engine]
  have table : Silent "  scalar_output_format %.12g".toList := by
    unfold Silent Inert
    decide
  have opened : Silent "SetOptions \x7b".toList := by
    unfold Silent Inert
    decide
  have closed : Silent "\x7d\n\n".toList := by
    unfold Silent Inert
    decide
  refine ⟨_, ?_, by decide, silent_append_cons.mpr ⟨opened, silent_append_cons.mpr ⟨named,
    silent_append_cons.mpr ⟨table, silent_append_cons.mpr ⟨scalars,
      silent_append_cons.mpr ⟨vectors, closed⟩⟩⟩⟩⟩⟩
  unfold Item.optionsText
  simp only [String.toList_append, List.append_assoc]
  rfl

/-- The first line of a procedure. -/
def Procedure.head (procedure : Procedure) : String :=
  "proc " ++ procedure.name ++ " " ++ braced (" " ++ procedure.parameters ++ " ") ++ " \x7b"

/-- A procedure is its first line, its body and its end. -/
theorem Procedure.toList_render {procedure : Procedure} : procedure.render.toList =
    procedure.head.toList ++ '\n' :: ((indented procedure.body).toList ++ "\x7d\n\n".toList) := by
  unfold render head
  generalize "proc " ++ procedure.name ++ " " ++ braced (" " ++ procedure.parameters ++ " ") =
    front
  simp only [String.toList_append, List.append_assoc]
  rfl

/-- A text of one line and its end is headed by the line. -/
theorem headed_endedLine {text : String} (one : '\n' ∉ text.toList) :
    Headed text.toList (text ++ "\n").toList := by
  rw [String.toList_append]
  exact .single one

/-- The line of an output. -/
def outputLine (output target event : String) : String :=
  "Schedule " ++ output ++ " " ++ target ++ " " ++ event ++ " 1"

/-- An output is one line. -/
theorem headed_schedule {output target event : String} (outputOne : '\n' ∉ output.toList)
    (targetOne : '\n' ∉ target.toList) (eventOne : '\n' ∉ event.toList) :
    Headed (outputLine output target event).toList
      (Item.schedule output target event).render.toList := by
  have text : (Item.schedule output target event).render =
      outputLine output target event ++ "\n" := by
    unfold Item.render outputLine
    simp only [String.append_assoc]
    rfl
  rw [text]
  refine headed_endedLine ?_
  unfold outputLine
  simp [String.toList_append, outputOne, targetOne, eventOne]

/-- The first line of an item. -/
def Item.headline : Item → List Char
  | .options .. => "# MIF 2.2".toList
  | .block b => blockLine b.className b.instanceName (b.entries.map Entry.render)
  | .procedure p => p.head.toList
  | .destination name => ("Destination " ++ name ++ " mmArchive").toList
  | .schedule output target event => (outputLine output target event).toList
  | .blank => []
  | .verbatim text => text.toList.dropLast

/-- A level item is silent behind its first line. -/
theorem Item.Level.headed {item : Item} (level : item.Level) :
    Headed item.headline item.render.toList := by
  cases item with
  | options basename format => exact headed_optionsText level
  | block b => exact headed_blockText level.1 level.2
  | procedure p =>
    have one : '\n' ∉ p.head.toList := by
      unfold Procedure.head braced
      simp [String.toList_append, level.1, level.2]
    exact ⟨_, Procedure.toList_render, one, silent_body p.body⟩
  | destination name =>
    have one : '\n' ∉ name.toList := level
    have text : (Item.destination name).render = "Destination " ++ name ++ " mmArchive" ++ "\n" := by
      unfold Item.render
      simp only [String.append_assoc]
      rfl
    rw [text]
    refine headed_endedLine ?_
    simp [String.toList_append, one]
  | schedule output target event =>
    obtain ⟨-, outputOne, targetOne, eventOne⟩ := level
    exact headed_schedule outputOne targetOne eventOne
  | blank =>
    have empty : Headed [] ([] ++ ['\n']) := .single List.not_mem_nil
    exact empty
  | verbatim text =>
    obtain ⟨line, one, same⟩ := level
    show Headed text.toList.dropLast text.toList
    rw [same, List.dropLast_concat]
    exact .single one

/-- What a selective reader finds in the text of level items is what it finds in their first
lines. -/
theorem Selective.readings_render {read : List Char → Option α} (selective : Selective read)
    {items : List Item} (level : ∀ item ∈ items, item.Level) :
    readings read (render items).toList = items.filterMap fun item => read item.headline := by
  induction items with
  | nil => exact selective.readings_eq_nil (silent_of_line List.not_mem_nil ⟨rfl, rfl⟩)
  | cons item rest ih =>
    have ended : item.render.toList.getLast? = some '\n' := by
      refine Item.getLast?_render_of_verbatim fun text same => ?_
      have own := level item List.mem_cons_self
      rw [same] at own
      obtain ⟨line, -, ends⟩ := own
      rw [ends, List.getLast?_append]
      rfl
    obtain ⟨front, text⟩ := List.getLast?_eq_some_iff.mp ended
    have nothing : readings read [] = [] :=
      selective.readings_eq_nil (silent_of_line List.not_mem_nil ⟨rfl, rfl⟩)
    have first := (level item List.mem_cons_self).headed.readings selective
    rw [text, readings_append_cons, nothing, List.append_nil] at first
    have others := ih fun other member => level other (List.mem_cons_of_mem item member)
    rw [toList_render_cons, text, List.append_assoc]
    refine readings_append_cons.trans ?_
    rw [first]
    show _ ++ readings read (render rest).toList = _
    rw [others]
    rw [List.filterMap_cons]
    cases read item.headline with
    | none => rfl
    | some value => rfl

end Micromag.Script
