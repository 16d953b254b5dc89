import Micromag.Proofs.Script.Heading
import Micromag.Proofs.Script.Nesting
import Micromag.Script.Procedure

/-!
# Well-formed scripts

What is written into a script holds no brace and no line feed of its own, so that the braces and the
line feeds of the text are those of its items: the text falls into the pieces that the items stand
for. Where an entry names regions is known from its key; in a well-formed item these are regions of
the mesh.
-/

namespace Micromag.Script

variable {key : String} {word : Word} {items : List Item}

/-! ## Words without braces -/

/-- Whether a text has neither braces nor line feeds. -/
def isBare (text : String) : Bool := text.toList.all fun c => !isBrace c && c ≠ '\n'

/-- Text is bare when its parts are. -/
theorem isBare_append {first second : String} :
    isBare (first ++ second) = (isBare first && isBare second) := by
  unfold isBare
  rw [String.toList_append, List.all_append]

/-- Text of characters of a kind to which braces and line feeds do not belong is bare. -/
theorem isBare_of_all {text : String} {kind : Char → Bool}
    (each : ∀ c ∈ text.toList, kind c = true)
    (apart : (kind '\x7b' || kind '\x7d' || kind '\n') = false) : isBare text = true := by
  obtain ⟨braces, feed⟩ := Bool.or_eq_false_iff.mp apart
  obtain ⟨opening, closing⟩ := Bool.or_eq_false_iff.mp braces
  refine List.all_eq_true.mpr fun c member => ?_
  have own := each c member
  have other {d : Char} (stranger : kind d = false) : c ≠ d := fun same => by
    rw [same, stranger] at own
    cases own
  rw [Bool.and_eq_true, Bool.not_eq_true', decide_eq_true_eq]
  exact ⟨Bool.or_eq_false_iff.mpr ⟨decide_eq_false (other opening),
    decide_eq_false (other closing)⟩, other feed⟩

/-- Names are bare. -/
theorem isBare_of_isNameChar {text : String} (named : text.toList.all Text.isNameChar = true) :
    isBare text = true :=
  isBare_of_all (List.all_eq_true.mp named) (by decide)

/-- An identifier is bare. -/
theorem isBare_of_isIdentifier {name : String} (identifier : Text.isIdentifier name = true) :
    isBare name = true :=
  isBare_of_isNameChar (List.all_eq_true.mpr fun _ member =>
    Text.isNameChar_of_mem identifier member)

/-- Bare text is whole. -/
theorem whole_of_isBare {text : String} (bare : isBare text = true) : Whole text.toList := by
  have each (c : Char) (member : c ∈ text.toList) : isBrace c = false ∧ c ≠ '\n' := by
    have own := List.all_eq_true.mp bare c member
    rwa [Bool.and_eq_true, Bool.not_eq_true', decide_eq_true_eq] at own
  exact .of_level (fun c member => (each c member).1) fun feed => (each _ feed).2 rfl

/-- Bare text is balanced. -/
theorem balanced_of_isBare {text : String} (bare : isBare text = true) : Balanced text.toList :=
  (whole_of_isBare bare).balanced

/-- Text between braces, character by character. -/
theorem toList_braced {text : String} : (braced text).toList = '\x7b' :: text.toList ++ ['\x7d'] := by
  unfold braced
  rw [String.toList_append, String.toList_append]
  rfl

/-- Whether a word is one bare atom, or bare text between braces. -/
def Word.Simple : Word → Prop
  | .atom value => isBare value.render = true
  | .group values => ∀ value ∈ values, ∃ text, value = .text text ∧ isBare text = true

/-- The text of a group of bare atoms is balanced. -/
theorem balanced_group {values : List Atom} (bare : ∀ value ∈ values, isBare value.render = true) :
    Balanced (Word.group values).render.toList := by
  unfold Word.render
  rw [toList_braced]
  refine (balanced_intercalate fun part member => ?_).braced
  obtain ⟨value, inside, rfl⟩ := List.mem_map.mp member
  exact balanced_of_isBare (bare value inside)

/-- The text of a simple word is balanced. -/
theorem Word.Simple.balanced (simple : word.Simple) : Balanced word.render.toList := by
  cases word with
  | atom value => exact balanced_of_isBare simple
  | group values =>
    refine balanced_group fun value member => ?_
    obtain ⟨text, rfl, bare⟩ := simple value member
    exact bare

/-- Bare text has no line feed. -/
theorem notMem_of_isBare {text : String} (bare : isBare text = true) : '\n' ∉ text.toList :=
  fun member => absurd (List.all_eq_true.mp bare '\n' member) (by decide)

/-- Bare texts with blanks between them are bare. -/
theorem isBare_intercalate {parts : List String} (bare : ∀ part ∈ parts, isBare part = true) :
    isBare (String.intercalate " " parts) = true := by
  induction parts with
  | nil => rfl
  | cons part rest ih =>
    obtain ⟨first, others⟩ := List.forall_mem_cons.mp bare
    cases rest with
    | nil =>
      rw [String.intercalate_singleton]
      exact first
    | cons next more =>
      rw [String.intercalate_cons_cons, isBare_append, isBare_append, first, ih others]
      decide

/-- Bare text between braces has no line feed. -/
theorem notMem_braced {text : String} (bare : isBare text = true) :
    '\n' ∉ (braced text).toList := by
  rw [toList_braced, List.cons_append, List.mem_cons, List.mem_append, List.mem_singleton]
  rintro (same | member | same)
  · exact absurd same (by decide)
  · exact notMem_of_isBare bare member
  · exact absurd same (by decide)

/-- A simple word has no line feed. -/
theorem Word.Simple.notMem {word : Word} (simple : word.Simple) : '\n' ∉ word.render.toList := by
  cases word with
  | atom value => exact notMem_of_isBare simple
  | group values =>
    have bare : isBare (String.intercalate " " (values.map Atom.render)) = true := by
      refine isBare_intercalate fun part member => ?_
      obtain ⟨value, inside, rfl⟩ := List.mem_map.mp member
      obtain ⟨text, rfl, bare⟩ := simple value inside
      exact bare
    exact notMem_braced bare

/-- An option of one word is one line when the word is. -/
theorem linesOf_setting {key : String} {word : Word} (bare : isBare key = true)
    (one : '\n' ∉ word.render.toList) :
    Text.linesOf (Entry.setting key word).render = [(Entry.setting key word).render] := by
  have text : (Entry.setting key word).render = key ++ " " ++ word.render := by
    show String.intercalate " " [key, word.render] = _
    rw [String.intercalate_cons_cons, String.intercalate_singleton]
  rw [text]
  refine Text.linesOf_of_notMem ?_ fun empty => ?_
  · simp [String.toList_append, notMem_of_isBare bare, one]
  · have blank := congrArg String.toList empty
    simp [String.toList_append] at blank

/-- Whether text is one line as it is: not empty, without a line feed, and not ended by a carriage
return. -/
def IsLine (text : String) : Prop :=
  text ≠ "" ∧ '\n' ∉ text.toList ∧ text.toList.getLast? ≠ some '\r'

/-- Bare text between braces is a line. -/
theorem isLine_braced {text : String} (bare : isBare text = true) : IsLine (braced text) := by
  refine ⟨fun empty => ?_, notMem_braced bare, ?_⟩
  · have nothing := congrArg String.toList empty
    rw [toList_braced] at nothing
    cases nothing
  · rw [toList_braced, List.getLast?_concat]
    decide

/-- The rows of a table are lines of their own between that of the key and a brace. -/
theorem linesOf_tableText {key : String} {rows : List String} (one : isBare key = true)
    (each : ∀ row ∈ rows, IsLine row) :
    Text.linesOf (tableText key rows) =
      ((key ++ " \x7b") :: rows.map fun row => "  " ++ row) ++ ["\x7d"] := by
  have apart : rows.flatMap Text.linesOf = rows := by
    induction rows with
    | nil => rfl
    | cons row others ih =>
      obtain ⟨⟨filled, single, _⟩, more⟩ := List.forall_mem_cons.mp each
      rw [List.flatMap_cons, ih more, Text.linesOf_of_notMem single filled]
      rfl
  have text : (tableText key rows).toList =
      (String.join (((key ++ " \x7b") :: rows.map fun row => "  " ++ row).map
        fun row => row ++ "\n")).toList ++ ['\x7d'] := by
    unfold tableText indented
    rw [apart, List.map_cons, List.map_map, String.join_cons]
    simp only [String.toList_append, List.append_assoc]
    rfl
  have whole : ∀ row ∈ (key ++ " \x7b") :: rows.map fun row => "  " ++ row,
      '\n' ∉ row.toList ∧ row.toList.getLast? ≠ some '\r' := by
    refine List.forall_mem_cons.mpr ⟨⟨?_, ?_⟩, fun row member => ?_⟩
    · simp [String.toList_append, notMem_of_isBare one]
    · simp [String.toList_append]
    · obtain ⟨inner, inside, rfl⟩ := List.mem_map.mp member
      obtain ⟨filled, single, noReturn⟩ := each inner inside
      have some : inner.toList ≠ [] := fun empty => filled (String.toList_eq_nil_iff.mp empty)
      rw [String.toList_append]
      refine ⟨by simp [single], ?_⟩
      rwa [List.getLast?_append_of_ne_nil _ some]
  have last : Text.lines ['\x7d'] = [['\x7d']] := by decide
  have back : String.ofList ∘ String.toList = id := funext fun _ => String.ofList_toList
  unfold Text.linesOf
  rw [text, Text.lines_join whole, last, List.map_append, List.map_map, back, List.map_id]
  rfl

/-- The rows of a table of groups are lines of their own. -/
theorem linesOf_tableText_braced {key : String} {groups : List String} (one : isBare key = true)
    (bare : ∀ group ∈ groups, isBare group = true) :
    Text.linesOf (tableText key (groups.map braced)) =
      ((key ++ " \x7b") :: groups.map fun group => "  " ++ braced group) ++ ["\x7d"] := by
  rw [linesOf_tableText one (List.forall_mem_map.mpr fun group member =>
    isLine_braced (bare group member)), List.map_map]
  rfl

/-- The text of a line of balanced words is balanced. -/
theorem balanced_renderLine {words : List Word}
    (each : ∀ word ∈ words, Balanced word.render.toList) : Balanced (renderLine words).toList := by
  refine balanced_intercalate fun part member => ?_
  obtain ⟨word, inside, rfl⟩ := List.mem_map.mp member
  exact each word inside

/-! ## Regions that are named -/

/-- The regions that a line names: those behind the atlas of what is fixed. -/
def lineRegions : List Word → List String
  | [key, .group (.reference _ :: names)] =>
    if key = .text "fixed_spins" then names.map Atom.render else []
  | _ => []

/-- The regions that a row of a table names: the first word for a value of a region, the first two
for a pair of regions, and for a side of a face what stands behind its key. -/
def rowRegions (key : String) (row : List Word) : List String :=
  if key = "values" then (row.take 1).map Word.render
  else if key = "A" ∨ key = "D" then (row.take 2).map Word.render
  else if (key = "surface1" ∨ key = "surface2") ∧ row.head? = some (.text "region") then
    (row.drop 1).map Word.render
  else []

/-- The regions that an entry names. -/
def Entry.regions : Entry → List String
  | .line words => lineRegions words
  | .table key rows => rows.flatMap (rowRegions key)

/-- The regions that the blocks of a script name. -/
def usedRegions (items : List Item) : List String :=
  (blocks items).flatMap fun block => block.entries.flatMap Entry.regions

/-- What an entry sets a key to, if it is a line of that key and one word. -/
def Entry.valueOf? (key : String) : Entry → Option String
  | .line [first, value] => if first = .text key then some value.render else none
  | _ => none

/-- What each block of a class sets a key to, block by block. -/
def valuesOf (className key : String) (items : List Item) : List (List String) :=
  ((blocks items).filter fun block => block.className = className).map fun block =>
    block.entries.filterMap (Entry.valueOf? key)

/-- A row of a side of a face names a region behind its key only. -/
theorem rowRegions_side (side : key = "surface1" ∨ key = "surface2") {label : String} :
    rowRegions key [.text label, word] = if label = "region" then [word.render] else [] := by
  have noValue : key ≠ "values" := by rcases side with rfl | rfl <;> decide
  have noPair : ¬(key = "A" ∨ key = "D") := by rcases side with rfl | rfl <;> decide
  unfold rowRegions
  rw [if_neg noValue, if_neg noPair]
  by_cases region : label = "region"
  · rw [if_pos ⟨side, congrArg (some <| Word.text ·) region⟩, if_pos region]
    rfl
  · have other : [Word.text label, word].head? ≠ some (.text "region") := fun same =>
      region (Atom.text.inj (Word.atom.inj (Option.some.inj same)))
    rw [if_neg fun both => other both.2, if_neg region]

/-- A simple word names no region. -/
theorem lineRegions_setting (simple : word.Simple) : lineRegions [.text key, word] = [] := by
  cases word with
  | atom value => rfl
  | group values =>
    cases values with
    | nil => rfl
    | cons first others =>
      obtain ⟨text, rfl, -⟩ := simple first List.mem_cons_self
      rfl

/-- The values of two lists of items. -/
theorem valuesOf_append {className : String} {first second : List Item} :
    valuesOf className key (first ++ second) =
      valuesOf className key first ++ valuesOf className key second := by
  unfold valuesOf blocks
  rw [List.filterMap_append, List.filter_append, List.map_append]

/-- An object alone sets a key as its options do when it is of the class. -/
theorem valuesOf_object {className other name : String} {entries : List Entry} :
    valuesOf className key [.object other name entries] =
      if other = className then [entries.filterMap (Entry.valueOf? key)] else [] := by
  have alone : blocks [.object other name entries] = [⟨other, some name, entries⟩] := rfl
  unfold valuesOf
  rw [alone]
  by_cases same : other = className
  · simp [same]
  · simp [same]

/-! ## Well-formed entries and items -/

/-- Whether the text of an entry is balanced and the regions that it names are among some. -/
structure Entry.Formed (regions : List String) (entry : Entry) : Prop where
  /-- The text is balanced. -/
  balanced : Balanced entry.render.toList
  /-- The regions are among these. -/
  regions : ∀ name ∈ entry.regions, name ∈ regions

variable {regions : List String}

/-- A key with a simple word. -/
theorem formed_setting (bare : isBare key = true) (simple : word.Simple) :
    (Entry.setting key word).Formed regions where
  balanced := balanced_renderLine (List.forall_mem_cons.mpr
    ⟨balanced_of_isBare bare, List.forall_mem_singleton.mpr simple.balanced⟩)
  regions name member := by
    have nowhere : name ∈ ([] : List String) := lineRegions_setting simple ▸ member
    exact absurd nowhere List.not_mem_nil

/-- A key with rows of simple words. -/
theorem formed_table {rows : List (List Word)} (bare : isBare key = true)
    (simple : ∀ row ∈ rows, ∀ word ∈ row, word.Simple)
    (known : ∀ row ∈ rows, ∀ name ∈ rowRegions key row, name ∈ regions) :
    (Entry.table key rows).Formed regions where
  balanced := by
    have inner : Balanced (indented (rows.map renderLine)).toList := by
      refine balanced_indented ?_
      rw [List.flatMap_map]
      exact balanced_flatMap fun row member => balanced_renderLine fun word inside =>
        (simple row member word inside).balanced
    have feed : Balanced ['\n'] := balanced_of_unbraced (by decide)
    have blank : Balanced [' '] := balanced_of_unbraced (by decide)
    have text : (Entry.table key rows).render.toList = key.toList ++ ([' '] ++
        ('\x7b' :: (['\n'] ++ (indented (rows.map renderLine)).toList) ++ ['\x7d'])) := by
      show (key ++ " \x7b\n" ++ indented (rows.map renderLine) ++ "\x7d").toList = _
      simp [String.toList_append]
    rw [text]
    exact (balanced_of_isBare bare).append (blank.append (feed.append inner).braced)
  regions name member := by
    obtain ⟨row, inside, named⟩ := List.mem_flatMap.mp member
    exact known row inside name named

/-- Regions that are fixed in an atlas. -/
theorem formed_fixed {atlas : String} {names : List String} (bare : isBare atlas = true)
    (each : ∀ name ∈ names, isBare name = true ∧ name ∈ regions) :
    (Entry.setting "fixed_spins" (.group (.reference atlas :: names.map .text))).Formed regions where
  balanced := by
    refine balanced_renderLine (List.forall_mem_cons.mpr
      ⟨balanced_of_isBare (by decide), List.forall_mem_singleton.mpr (balanced_group ?_)⟩)
    refine List.forall_mem_cons.mpr ⟨?_, fun value member => ?_⟩
    · unfold Atom.render
      rw [isBare_append, bare]
      rfl
    · obtain ⟨name, inside, rfl⟩ := List.mem_map.mp member
      exact (each name inside).1
  regions name member := by
    have inside : name ∈ (names.map Atom.text).map Atom.render := member
    rw [List.map_map] at inside
    obtain ⟨other, among, rfl⟩ := List.mem_map.mp inside
    exact (each other among).2

/-- Whether a procedure is that of a wave or that of a table. -/
def Procedure.Emitted (procedure : Procedure) : Prop :=
  (∃ name wave, waveProcedure? name wave = some procedure) ∨
    ∃ name step samples, lookupProcedure name step samples = .ok procedure

/-- Whether what an item writes is balanced, and the regions that it names are among some. Of the
caller's text nothing is known. -/
def Item.Formed (regions : List String) : Item → Prop
  | .options basename _ => isBare basename = true
  | .block b => ∀ entry ∈ b.entries, entry.Formed regions
  | .procedure p => p.Emitted ∧ isBare p.name = true ∧ isBare p.parameters = true ∧
      Balanced (p.body.flatMap fun line => line.toList)
  | .destination name => isBare name = true
  | .schedule output target event =>
    isBare output = true ∧ isBare target = true ∧ isBare event = true
  | .blank => True
  | .verbatim _ => False

/-- The regions that well-formed items name. -/
theorem usedRegions_of_formed (formed : ∀ item ∈ items, item.Formed regions) :
    ∀ name ∈ usedRegions items, name ∈ regions := by
  intro name member
  obtain ⟨block, inside, named⟩ := List.mem_flatMap.mp member
  obtain ⟨item, member, same⟩ := List.mem_filterMap.mp inside
  have own := formed item member
  cases item with
  | block other =>
    obtain rfl := Option.some.inj same
    obtain ⟨entry, among, named⟩ := List.mem_flatMap.mp named
    exact (own entry among).regions name named
  | options | procedure | destination | schedule | blank | verbatim => cases same

/-! ## The pieces of a script -/

/-- The declaration of an object without the line feeds behind it. -/
def Block.piece (block : Block) : String :=
  "Specify " ++ label block.className block.instanceName ++ " " ++
    braced (if block.entries.isEmpty then ""
      else "\n" ++ indented (block.entries.map Entry.render))

/-- A procedure without the line feeds behind it. -/
def Procedure.piece (procedure : Procedure) : String :=
  "proc " ++ procedure.name ++ " " ++ braced (" " ++ procedure.parameters ++ " ") ++ " " ++
    braced ("\n" ++ indented procedure.body)

/-- The general options without the line of the version and the line feeds behind them. -/
def optionsPiece (basename : String) (format : FieldFormat) : String :=
  "SetOptions " ++ braced ("\n  basename " ++ basename ++
    "\n  scalar_output_format %.12g\n  scalar_field_output_format " ++ braced format.engineOption ++
    "\n  vector_field_output_format " ++ braced format.engineOption ++ "\n")

/-- The pieces that an item stands for: the version and the general options, a declaration, a
procedure, a destination, an output or nothing, and an empty line behind what has braces. -/
def Item.pieces : Item → List String
  | .options basename format => ["# MIF 2.2", optionsPiece basename format, ""]
  | .block b => [b.piece, ""]
  | .procedure p => [p.piece, ""]
  | .destination name => ["Destination " ++ name ++ " mmArchive"]
  | .schedule output target event =>
    ["Schedule " ++ output ++ " " ++ target ++ " " ++ event ++ " 1"]
  | .blank => [""]
  | .verbatim text => [text]

/-- A declaration is one piece with two line feeds. -/
theorem Block.toList_render (block : Block) :
    block.render.toList = block.piece.toList ++ ['\n', '\n'] := by
  show (if (block.entries.map Entry.render).isEmpty then
    "Specify " ++ label block.className block.instanceName ++ " \x7b\x7d\n\n"
    else "Specify " ++ label block.className block.instanceName ++ " \x7b\n" ++
      indented (block.entries.map Entry.render) ++ "\x7d\n\n").toList = _
  unfold piece braced
  rw [List.isEmpty_map]
  split <;> simp [String.toList_append]

/-- The text of an item that is not the caller's is its pieces with their line feeds. -/
theorem Item.toList_render {item : Item} (own : ∀ text, item ≠ .verbatim text) :
    item.render.toList = ended (item.pieces.map String.toList) := by
  cases item with
  | options basename format =>
    show (Item.optionsText basename format).toList = _
    unfold Item.optionsText pieces optionsPiece ended braced
    simp [String.toList_append]
  | block b =>
    show b.render.toList = _
    rw [b.toList_render]
    unfold pieces ended
    simp
  | procedure p =>
    show p.render.toList = _
    unfold Procedure.render pieces Procedure.piece ended
    simp [String.toList_append, toList_braced]
  | destination name =>
    show ("Destination " ++ name ++ " mmArchive\n").toList = _
    unfold pieces ended
    simp [String.toList_append]
  | schedule output target event =>
    show ("Schedule " ++ output ++ " " ++ target ++ " " ++ event ++ " 1\n").toList = _
    unfold pieces ended
    simp [String.toList_append]
  | blank => rfl
  | verbatim text => exact absurd rfl (own text)

/-- A label of identifiers is bare. -/
theorem isBare_label {className : String} {instanceName : Option String}
    (ofClass : Text.isIdentifier className = true)
    (named : ∀ name ∈ instanceName, Text.isIdentifier name = true) :
    isBare (label className instanceName) = true := by
  cases instanceName with
  | none => exact isBare_of_isIdentifier ofClass
  | some name =>
    show isBare (className ++ ":" ++ name) = true
    rw [isBare_append, isBare_append, isBare_of_isIdentifier ofClass,
      isBare_of_isIdentifier (named name rfl)]
    rfl

/-- The options of a well-formed block are balanced together. -/
theorem balanced_entries {entries : List Entry} (formed : ∀ entry ∈ entries, entry.Formed regions) :
    Balanced (indented (entries.map Entry.render)).toList := by
  refine balanced_indented ?_
  rw [List.flatMap_map]
  exact balanced_flatMap fun entry member => (formed entry member).balanced

/-- Each piece of a well-formed item is whole. -/
theorem Item.Formed.whole {item : Item} (formed : item.Formed regions) (level : item.Level) :
    ∀ piece ∈ item.pieces, Whole piece.toList := by
  have empty : Whole "".toList := .nil
  have feed : Balanced ['\n'] := balanced_of_unbraced (by decide)
  cases item with
  | options basename format =>
    have bare : isBare basename = true := formed
    have version : Whole "# MIF 2.2".toList := whole_of_isBare (by decide)
    have engine : Balanced (braced format.engineOption).toList := by
      rw [toList_braced]
      cases format <;> exact (balanced_of_isBare (by decide)).braced
    have named : Balanced ("\n  basename " ++ basename ++
        "\n  scalar_output_format %.12g\n  scalar_field_output_format ").toList := by
      rw [String.toList_append, String.toList_append]
      exact ((balanced_of_unbraced (by decide)).append (balanced_of_isBare bare)).append
        (balanced_of_unbraced (by decide))
    have options : Whole (optionsPiece basename format).toList := by
      unfold optionsPiece
      rw [String.toList_append, toList_braced, String.toList_append, String.toList_append,
        String.toList_append, String.toList_append]
      exact (whole_of_isBare (by decide)).append (.braced ((((named.append engine).append
        (balanced_of_unbraced (by decide))).append engine).append
          (balanced_of_unbraced (by decide))))
    exact List.forall_mem_cons.mpr ⟨version, List.forall_mem_cons.mpr
      ⟨options, List.forall_mem_singleton.mpr empty⟩⟩
  | block b =>
    have head : Whole ("Specify " ++ label b.className b.instanceName ++ " ").toList := by
      refine whole_of_isBare ?_
      rw [isBare_append, isBare_append, isBare_label level.1 level.2]
      decide
    refine List.forall_mem_cons.mpr ⟨?_, List.forall_mem_singleton.mpr empty⟩
    unfold Block.piece
    rw [String.toList_append, toList_braced]
    refine head.append (.braced ?_)
    split
    · exact empty.balanced
    · rw [String.toList_append]
      exact feed.append (balanced_entries formed)
  | procedure p =>
    obtain ⟨-, named, parameters, body⟩ := formed
    have head : Whole ("proc " ++ p.name ++ " ").toList := by
      refine whole_of_isBare ?_
      rw [isBare_append, isBare_append, named]
      decide
    have arguments : Balanced (" " ++ p.parameters ++ " ").toList := by
      refine balanced_of_isBare ?_
      rw [isBare_append, isBare_append, parameters]
      decide
    have blank : Whole " ".toList := whole_of_isBare (by decide)
    refine List.forall_mem_cons.mpr ⟨?_, List.forall_mem_singleton.mpr empty⟩
    unfold Procedure.piece
    rw [String.toList_append, String.toList_append, String.toList_append, toList_braced,
      toList_braced]
    refine ((head.append (.braced arguments)).append blank).append (.braced ?_)
    rw [String.toList_append]
    exact feed.append (balanced_indented body)
  | destination name =>
    have bare : isBare name = true := formed
    refine List.forall_mem_singleton.mpr (whole_of_isBare ?_)
    rw [isBare_append, isBare_append, bare]
    decide
  | schedule output target event =>
    obtain ⟨first, second, third⟩ := formed
    refine List.forall_mem_singleton.mpr (whole_of_isBare ?_)
    simp only [isBare_append, first, second, third]
    decide
  | blank => exact List.forall_mem_singleton.mpr empty
  | verbatim text => exact formed.elim

/-- The pieces of an item declare what the item declares. -/
theorem Item.objects_pieces {item : Item} (level : item.Level) (own : ∀ text, item ≠ .verbatim text) :
    (item.pieces.map String.toList).filterMap objectOfLine? =
      (item.block?.map Block.object).toList := by
  have empty : objectOfLine? "".toList = none := rfl
  cases item with
  | options basename format =>
    have options : objectOfLine? (optionsPiece basename format).toList = none := by
      unfold optionsPiece
      rw [String.toList_append]
      rfl
    show [_, (optionsPiece basename format).toList, _].filterMap objectOfLine? = []
    rw [List.filterMap_cons_none rfl, List.filterMap_cons_none options,
      List.filterMap_cons_none empty, List.filterMap_nil]
  | block b =>
    have text : b.piece.toList = "Specify ".toList ++
        ((label b.className b.instanceName).toList ++ ' ' :: (braced (if b.entries.isEmpty then ""
          else "\n" ++ indented (b.entries.map Entry.render))).toList) := by
      unfold Block.piece
      simp only [String.toList_append, List.append_assoc]
      rfl
    show [b.piece.toList, _].filterMap objectOfLine? = [b.object]
    rw [List.filterMap_cons_some (text ▸ objectOfLine?_label level.1 level.2),
      List.filterMap_cons_none empty, List.filterMap_nil]
    rfl
  | procedure p =>
    have procedure : objectOfLine? p.piece.toList = none := by
      unfold Procedure.piece
      simp only [String.toList_append, List.append_assoc]
      rfl
    show [p.piece.toList, _].filterMap objectOfLine? = []
    rw [List.filterMap_cons_none procedure, List.filterMap_cons_none empty, List.filterMap_nil]
  | destination name =>
    have line : objectOfLine? ("Destination " ++ name ++ " mmArchive").toList = none := by
      simp only [String.toList_append, List.append_assoc]
      rfl
    show [_].filterMap objectOfLine? = []
    rw [List.filterMap_cons_none line, List.filterMap_nil]
  | schedule output target event =>
    have line : objectOfLine?
        ("Schedule " ++ output ++ " " ++ target ++ " " ++ event ++ " 1").toList = none := by
      simp only [String.toList_append, List.append_assoc]
      rfl
    show [_].filterMap objectOfLine? = []
    rw [List.filterMap_cons_none line, List.filterMap_nil]
  | blank => rfl
  | verbatim text => exact absurd rfl (own text)

/-- The text of a well-formed script is balanced, falls into the pieces of its items in order, and
these declare what the blocks declare. -/
theorem pieces_render (formed : ∀ item ∈ items, item.Formed regions)
    (level : ∀ item ∈ items, item.Level ∧ ∀ text, item ≠ .verbatim text) :
    Balanced (render items).toList ∧
      pieces (render items).toList = (items.flatMap Item.pieces).map String.toList ++ [[]] ∧
      (pieces (render items).toList).filterMap objectOfLine? =
        (blocks items).map Block.object := by
  have whole : ∀ piece ∈ (items.flatMap Item.pieces).map String.toList, Whole piece := by
    intro piece member
    obtain ⟨text, inside, rfl⟩ := List.mem_map.mp member
    obtain ⟨item, among, inside⟩ := List.mem_flatMap.mp inside
    exact (formed item among).whole (level item among).1 text inside
  have text : (render items).toList = ended ((items.flatMap Item.pieces).map String.toList) := by
    clear whole formed
    induction items with
    | nil => rfl
    | cons item rest ih =>
      obtain ⟨first, others⟩ := List.forall_mem_cons.mp level
      rw [toList_render_cons, Item.toList_render first.2, ih others, List.flatMap_cons,
        List.map_append]
      exact (List.flatMap_append ..).symm
  have split : pieces (render items).toList = (items.flatMap Item.pieces).map String.toList ++
      [[]] := text ▸ pieces_ended whole
  refine ⟨text ▸ balanced_ended whole, split, ?_⟩
  rw [split, List.filterMap_append]
  show _ ++ [] = _
  rw [List.append_nil]
  clear whole formed text split
  induction items with
  | nil => rfl
  | cons item rest ih =>
    obtain ⟨first, others⟩ := List.forall_mem_cons.mp level
    rw [List.flatMap_cons, List.map_append, List.filterMap_append, ih others,
      Item.objects_pieces first.1 first.2]
    unfold blocks
    cases kind : item.block? with
    | none => rw [List.filterMap_cons_none kind]; rfl
    | some block => rw [List.filterMap_cons_some kind]; rfl

end Micromag.Script
