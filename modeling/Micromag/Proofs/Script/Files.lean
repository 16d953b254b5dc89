import Micromag.Proofs.Script.Heading

/-!
# Files that the text of a script reads

An object that takes a vector field from a file names the file in a line of its block. The lines of
a text are read from the first on, and whether a line stands in such a block is remembered from line
to line: a line that begins a declaration opens or leaves it, a closing brace at the start of a line
ends it. The files that the text of a script reads are then those that its items name.
-/

namespace Micromag.Script

/-- The class of the objects that take a vector field from a file. -/
def fileClass : String := "Oxs_FileVectorField"

/-- The file that a row of a block names, if the row is the option of a file. -/
def fileOfRow? (row : List Char) : Option String :=
  if "file ".toList.isPrefixOf row then some (String.ofList (row.drop 5)) else none

/-- Whether a line opens the block of an object that takes its values from a file. -/
def opensFileBlock (line : List Char) : Bool :=
  ("Specify " ++ fileClass ++ ":").toList.isPrefixOf line && line.getLast? = some '\x7b'

/-- The files that lines name, in order, from inside or outside of such a block. Rows of a block are
indented by two blanks. -/
def filesOfLines (inside : Bool) : List (List Char) → List String
  | [] => []
  | line :: rest =>
    if "Specify ".toList.isPrefixOf line then filesOfLines (opensFileBlock line) rest
    else if line = ['\x7d'] then filesOfLines false rest
    else (if inside then (fileOfRow? (line.drop 2)).toList else []) ++ filesOfLines inside rest

/-- The files that a text names, from inside or outside of such a block. -/
def filesFrom (inside : Bool) (text : List Char) : List String :=
  filesOfLines inside (text.splitOnP (· = '\n'))

/-- The files that the text of a script reads, in order. -/
def filesRead (text : List Char) : List String := filesFrom false text

/-- The files that the rows of a block name. -/
def filesOfRows (entries : List String) : List String :=
  (entries.flatMap Text.linesOf).filterMap fun row => fileOfRow? row.toList

/-- The files that a block reads. -/
def Block.files (block : Block) : List String :=
  if block.className = fileClass ∧ block.instanceName.isSome then
    filesOfRows (block.entries.map Entry.render)
  else []

/-- The files that an item reads. -/
def Item.files : Item → List String
  | block b => b.files
  | _ => []

variable {inside : Bool} {line text tail : List Char}

/-- A line with its end is read before what follows. -/
theorem filesFrom_line (one : '\n' ∉ line) :
    filesFrom inside (line ++ '\n' :: tail) =
      if "Specify ".toList.isPrefixOf line then filesFrom (opensFileBlock line) tail
      else if line = ['\x7d'] then filesFrom false tail
      else (if inside then (fileOfRow? (line.drop 2)).toList else []) ++ filesFrom inside tail := by
  have solid : ∀ c ∈ line, decide (c = '\n') = false := by
    intro c member
    exact decide_eq_false fun same => one (same ▸ member)
  unfold filesFrom
  rw [List.splitOnP_append_cons line tail (by decide), List.splitOnP_eq_singleton solid]
  rfl

/-- A line without a colon opens no block. -/
theorem opensFileBlock_of_noColon (noColon : ':' ∉ line) : opensFileBlock line = false := by
  have colon : ':' ∈ ("Specify " ++ fileClass ++ ":").toList := by decide
  unfold opensFileBlock
  rw [Bool.and_eq_false_iff]
  left
  cases start : ("Specify " ++ fileClass ++ ":").toList.isPrefixOf line with
  | false => rfl
  | true => exact absurd ((List.isPrefixOf_iff_prefix.mp start).subset colon) noColon

/-- Outside of a block, lines that open none name no file. -/
theorem filesOfLines_append {lines rest : List (List Char)}
    (closed : ∀ line ∈ lines, opensFileBlock line = false) :
    filesOfLines false (lines ++ rest) = filesOfLines false rest := by
  induction lines with
  | nil => rfl
  | cons line others ih =>
    have first := closed line List.mem_cons_self
    have further := ih fun other member => closed other (List.mem_cons_of_mem line member)
    rw [List.cons_append, filesOfLines, first]
    split
    · exact further
    · split
      · exact further
      · exact further

/-- Outside of a block, text without a colon names no file. -/
theorem filesFrom_of_noColon (noColon : ':' ∉ text) :
    filesFrom false (text ++ '\n' :: tail) = filesFrom false tail := by
  unfold filesFrom
  rw [List.splitOnP_append_cons text tail (by decide)]
  refine filesOfLines_append fun line member => opensFileBlock_of_noColon fun colon => ?_
  exact noColon (Text.subset_of_mem_splitOnP member colon)

/-- Indented rows name files inside of a block only. -/
theorem filesFrom_indented {entries : List String} :
    filesFrom inside ((indented entries).toList ++ tail) =
      (if inside then filesOfRows entries else []) ++ filesFrom inside tail := by
  have rows : ∀ row ∈ entries.flatMap Text.linesOf, '\n' ∉ row.toList := by
    intro row member
    obtain ⟨entry, _, member⟩ := List.mem_flatMap.mp member
    exact notMem_of_mem_linesOf member
  unfold indented filesOfRows
  generalize entries.flatMap Text.linesOf = lines at rows ⊢
  induction lines with
  | nil => cases inside <;> rfl
  | cons row others ih =>
    have one := rows row List.mem_cons_self
    have rest := ih fun other member => rows other (List.mem_cons_of_mem row member)
    have line : '\n' ∉ ("  " ++ row).toList := by
      simp [String.toList_append, one]
    have begins : "Specify ".toList.isPrefixOf ("  " ++ row).toList = false := by
      rw [String.toList_append]
      rfl
    have notEnd : ("  " ++ row).toList ≠ ['\x7d'] := by
      rw [String.toList_append]
      intro same
      exact absurd (List.cons.inj same).1 (by decide)
    have dropped : ("  " ++ row).toList.drop 2 = row.toList := by
      rw [String.toList_append]
      rfl
    rw [List.map_cons, String.join_cons, String.toList_append, String.toList_append,
      List.append_assoc, List.append_assoc]
    refine (filesFrom_line line).trans ?_
    rw [begins, if_neg Bool.false_ne_true, if_neg notEnd, dropped]
    refine (congrArg _ rest).trans ?_
    cases inside with
    | false => rfl
    | true =>
      cases found : fileOfRow? row.toList with
      | none => simp [found]
      | some file => simp [found]

variable {className : String} {instanceName : Option String} {entries : List String}

/-- The first line of a block tells whether the block takes its values from a file. -/
theorem opensFileBlock_label (ofClass : Text.isIdentifier className = true) {rest : List Char}
    (noColon : ':' ∉ rest) :
    opensFileBlock ("Specify ".toList ++ ((label className instanceName).toList ++ ' ' :: rest)) =
      (decide (className = fileClass ∧ instanceName.isSome) &&
        decide ((' ' :: rest).getLast? = some '\x7b')) := by
  have noColonOfClass : ':' ∉ className.toList := Text.noColon_of_isIdentifier ofClass
  have last : ("Specify ".toList ++ ((label className instanceName).toList ++
      ' ' :: rest)).getLast? = (' ' :: rest).getLast? := by
    rw [List.getLast?_append, List.getLast?_append]
    cases ends : (' ' :: rest).getLast? with
    | none => exact absurd (List.getLast?_eq_none_iff.mp ends) (List.cons_ne_nil _ _)
    | some c => rfl
  have start : ("Specify " ++ fileClass ++ ":").toList = "Specify ".toList ++
      (fileClass.toList ++ [':']) := by decide
  have begins : ("Specify " ++ fileClass ++ ":").toList.isPrefixOf ("Specify ".toList ++
      ((label className instanceName).toList ++ ' ' :: rest)) =
      decide (className = fileClass ∧ instanceName.isSome) := by
    rw [Bool.eq_iff_iff, List.isPrefixOf_iff_prefix, start, List.prefix_append_right_inj,
      decide_eq_true_iff]
    cases instanceName with
    | none =>
      constructor
      · intro labelled
        have colon : ':' ∈ className.toList ++ ' ' :: rest :=
          labelled.subset (List.mem_append_right _ List.mem_cons_self)
        rw [List.mem_append, List.mem_cons] at colon
        rcases colon with colon | same | colon
        · exact absurd colon noColonOfClass
        · exact absurd same (by decide)
        · exact absurd colon noColon
      · exact fun both => absurd both.2 Bool.false_ne_true
    | some name =>
      have labelled : (label className (some name)).toList ++ ' ' :: rest =
          className.toList ++ ':' :: (name.toList ++ ' ' :: rest) := by
        show (className ++ ":" ++ name).toList ++ _ = _
        rw [String.toList_append, String.toList_append, List.append_assoc, List.append_assoc]
        rfl
      rw [labelled]
      constructor
      · rintro ⟨behind, same⟩
        have split := congrArg Table.splitFirstColon? same
        rw [List.append_assoc, List.singleton_append, splitFirstColon?_append (by decide),
          splitFirstColon?_append noColonOfClass] at split
        have parts := (Prod.mk.inj (Option.some.inj split)).1
        exact ⟨(String.toList_inj.mp parts).symm, rfl⟩
      · rintro ⟨rfl, _⟩
        exact ⟨name.toList ++ ' ' :: rest, by rw [List.append_assoc]; rfl⟩
  unfold opensFileBlock
  rw [begins, last]

/-- A block reads the files that its rows name, if it is one that takes its values from a file. -/
theorem filesFrom_blockText (ofClass : Text.isIdentifier className = true)
    (named : ∀ name ∈ instanceName, Text.isIdentifier name = true) :
    filesFrom false ((blockText className instanceName entries).toList ++ tail) =
      (if className = fileClass ∧ instanceName.isSome then filesOfRows entries else []) ++
        filesFrom false tail := by
  have opening {rest : List Char} (one : '\n' ∉ rest) (noColon : ':' ∉ rest)
      {after : List Char} : filesFrom false (("Specify ".toList ++
        ((label className instanceName).toList ++ ' ' :: rest)) ++ '\n' :: after) =
      filesFrom (decide (className = fileClass ∧ instanceName.isSome) &&
        decide ((' ' :: rest).getLast? = some '\x7b')) after := by
    have noFeed := notMem_label ofClass named (show Text.isNameChar '\n' = false by decide)
      (by decide)
    have start : '\n' ∉ "Specify ".toList := by decide
    have line : '\n' ∉ "Specify ".toList ++ ((label className instanceName).toList ++
        ' ' :: rest) := by
      rw [List.mem_append, List.mem_append, List.mem_cons]
      rintro (member | member | same | member)
      · exact start member
      · exact noFeed member
      · exact absurd same (by decide)
      · exact one member
    have begins : "Specify ".toList.isPrefixOf ("Specify ".toList ++
        ((label className instanceName).toList ++ ' ' :: rest)) = true :=
      List.isPrefixOf_iff_prefix.mpr (List.prefix_append _ _)
    rw [filesFrom_line line, begins, if_pos rfl, opensFileBlock_label ofClass noColon]
  have blank : filesFrom false ('\n' :: tail) = filesFrom false tail :=
    filesFrom_of_noColon List.not_mem_nil
  show filesFrom false ((if entries.isEmpty then
    "Specify " ++ label className instanceName ++ " \x7b\x7d\n\n"
    else "Specify " ++ label className instanceName ++ " \x7b\n" ++ indented entries ++
      "\x7d\n\n").toList ++ tail) = _
  by_cases empty : entries.isEmpty = true
  · have text : ("Specify " ++ label className instanceName ++ " \x7b\x7d\n\n").toList ++ tail =
        ("Specify ".toList ++ ((label className instanceName).toList ++ ' ' :: ['\x7b', '\x7d'])) ++
          '\n' :: '\n' :: tail := by
      simp only [String.toList_append, List.append_assoc]
      rfl
    rw [if_pos empty, text, opening (by decide) (by decide)]
    have closed : decide ((' ' :: ['\x7b', '\x7d']).getLast? = some '\x7b') = false := by decide
    rw [closed, Bool.and_false, blank, List.isEmpty_iff.mp empty]
    split <;> rfl
  · have text : ("Specify " ++ label className instanceName ++ " \x7b\n" ++ indented entries ++
        "\x7d\n\n").toList ++ tail =
        ("Specify ".toList ++ ((label className instanceName).toList ++ ' ' :: ['\x7b'])) ++
          '\n' :: ((indented entries).toList ++ (['\x7d'] ++ '\n' :: '\n' :: tail)) := by
      simp only [String.toList_append, List.append_assoc]
      rfl
    have opened : decide ((' ' :: ['\x7b']).getLast? = some '\x7b') = true := by decide
    have ended {inside : Bool} : filesFrom inside (['\x7d'] ++ '\n' :: '\n' :: tail) =
        filesFrom false tail := by
      rw [filesFrom_line (by decide), if_neg (by decide), if_pos rfl, blank]
    rw [if_neg empty, text, opening (by decide) (by decide), opened, Bool.and_true,
      filesFrom_indented, ended]
    simp only [decide_eq_true_eq]

/-- The text of a procedure reads no file. -/
theorem Procedure.filesFrom_render {procedure : Procedure} (resolves : procedure.Resolves) :
    filesFrom false (procedure.render.toList ++ tail) = filesFrom false tail := by
  have head : ':' ∉ ("proc " ++ procedure.name ++ " " ++
      braced (" " ++ procedure.parameters ++ " ") ++ " \x7b").toList := by
    unfold braced
    simp [String.toList_append, resolves.name, resolves.parameters]
  have text : procedure.render.toList ++ tail = ("proc " ++ procedure.name ++ " " ++
      braced (" " ++ procedure.parameters ++ " ") ++ " \x7b").toList ++
        '\n' :: ((indented procedure.body).toList ++ (['\x7d', '\n'] ++ '\n' :: tail)) := by
    unfold render
    generalize "proc " ++ procedure.name ++ " " ++ braced (" " ++ procedure.parameters ++ " ") =
      front
    simp only [String.toList_append, List.append_assoc]
    rfl
  rw [text, filesFrom_of_noColon head, filesFrom_indented, filesFrom_of_noColon (by decide)]
  rfl

/-- The text of an output reads no file. -/
theorem filesFrom_schedule {output target event : String}
    (solid : ∀ c ∈ output.toList, isDelimiter c = false)
    (targetNamed : Text.isIdentifier target = true) (eventNamed : Text.isIdentifier event = true) :
    filesFrom false ((Item.schedule output target event).render.toList ++ tail) =
      filesFrom false tail := by
  have noFeed : Text.isNameChar '\n' = false := by decide
  have noTarget := Text.notMem_of_isIdentifier targetNamed noFeed
  have noEvent := Text.notMem_of_isIdentifier eventNamed noFeed
  have noOutput : '\n' ∉ output.toList := by
    intro member
    exact absurd (solid _ member) (by decide)
  have one : '\n' ∉ ("Schedule " ++ (output ++ " " ++ target ++ " " ++ event ++ " 1")).toList := by
    simp [String.toList_append, noOutput, noTarget, noEvent]
  have start : "Specify ".toList.isPrefixOf
      ("Schedule " ++ (output ++ " " ++ target ++ " " ++ event ++ " 1")).toList = false := by
    rw [String.toList_append]
    rfl
  have notEnd : ("Schedule " ++ (output ++ " " ++ target ++ " " ++ event ++ " 1")).toList ≠
      ['\x7d'] := by
    rw [String.toList_append]
    intro same
    exact absurd (List.cons.inj same).1 (by decide)
  have text : (Item.schedule output target event).render.toList ++ tail =
      ("Schedule " ++ (output ++ " " ++ target ++ " " ++ event ++ " 1")).toList ++
        '\n' :: tail := by
    unfold Item.render
    simp only [String.toList_append, List.append_assoc]
    rfl
  rw [text, filesFrom_line one, start, if_neg Bool.false_ne_true, if_neg notEnd]
  rfl

/-- The text of an item reads the files that the item names. -/
theorem Item.filesFrom_render {known : List String} {item : Item} (resolves : item.Resolves known) :
    filesFrom false (item.render.toList ++ tail) = item.files ++ filesFrom false tail := by
  have plain (noColon : ':' ∉ item.render.toList) (none : item.files = []) :
      filesFrom false (item.render.toList ++ tail) = item.files ++ filesFrom false tail := by
    obtain ⟨front, text⟩ := List.getLast?_eq_some_iff.mp (Item.getLast?_render resolves)
    rw [text, List.mem_append, not_or] at noColon
    rw [text, none, List.append_assoc, List.singleton_append, filesFrom_of_noColon noColon.1]
    rfl
  cases item with
  | options basename format => exact plain (noColon_optionsText resolves) rfl
  | block b => exact filesFrom_blockText resolves.className resolves.instanceName
  | procedure p => exact Procedure.filesFrom_render resolves
  | destination name => exact plain (noColon_destination resolves) rfl
  | schedule output target event =>
    exact filesFrom_schedule resolves.1.2 resolves.2.1 resolves.2.2
  | blank => exact plain (by decide) rfl
  | verbatim text => exact absurd resolves not_false

/-- The text of a script that resolves reads the files that its items name. -/
theorem Resolves.filesRead_render {known : List String} {items : List Item}
    (resolves : Resolves known items) :
    filesRead (render items).toList = items.flatMap Item.files := by
  unfold filesRead
  induction items generalizing known with
  | nil => decide
  | cons item rest ih =>
    have others := ih resolves.2
    rw [toList_render_cons, Item.filesFrom_render resolves.1, others, List.flatMap_cons]

end Micromag.Script
