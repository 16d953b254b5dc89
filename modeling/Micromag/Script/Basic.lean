import Micromag.Field
import Micromag.Text.Basic

/-!
# Scripts

A script tells the engine which objects to make. Most of it are blocks: each declares one object of
a class, gives it an instance name by which later blocks refer to it, and sets its options line by
line. A script is held as a list of items, and references between blocks are words of their own, so
that it can be said of a script what it declares and what it refers to. Its text is the texts of the
items one after the other.
-/

namespace Micromag.Script

/-- Text between braces. -/
def braced (text : String) : String := "\x7b" ++ text ++ "\x7d"

/-- Text with a line feed at its end, unless it has one. -/
def endLine (text : String) : String :=
  if text.toList.getLast? = some '\n' then text else text ++ "\n"

/-- Rows of text, each indented by two blanks and ended. -/
def indented (entries : List String) : String :=
  String.join ((entries.flatMap Text.linesOf).map fun row => "  " ++ row ++ "\n")

/-- A key with rows between braces. -/
def tableText (key : String) (rows : List String) : String :=
  key ++ " \x7b\n" ++ indented rows ++ "\x7d"

/-- The declaration of one object, with an empty line after it. -/
def blockText (className : String) (instanceName : Option String) (entries : List String) :
    String :=
  let label := match instanceName with
    | some name => className ++ ":" ++ name
    | none => className
  if entries.isEmpty then "Specify " ++ label ++ " \x7b\x7d\n\n"
  else "Specify " ++ label ++ " \x7b\n" ++ indented entries ++ "\x7d\n\n"

/-- A part of a word: text, or a reference to an object by its instance name. -/
inductive Atom where
  /-- Text as it is. -/
  | text (value : String)
  /-- A reference to an object. -/
  | reference (name : String)
deriving DecidableEq, Repr

/-- The text of an atom. A reference starts with a colon. -/
def Atom.render : Atom → String
  | text value => value
  | reference name => ":" ++ name

/-- A word of a line: one atom, or several between braces. -/
inductive Word where
  /-- One atom. -/
  | atom (value : Atom)
  /-- Atoms between braces, separated by blanks. -/
  | group (values : List Atom)
deriving DecidableEq, Repr

namespace Word

/-- Text as a word. -/
def text (value : String) : Word := .atom (.text value)

/-- A reference as a word. -/
def reference (name : String) : Word := .atom (.reference name)

/-- The text of a word. -/
def render : Word → String
  | atom value => value.render
  | group values => braced (String.intercalate " " (values.map Atom.render))

/-- The names that a word refers to. -/
def references : Word → List String
  | atom (.reference name) => [name]
  | atom (.text _) => []
  | group values => values.filterMap fun value =>
    match value with
    | .reference name => some name
    | .text _ => none

end Word

/-- Words of one line, separated by blanks. -/
def renderLine (words : List Word) : String := String.intercalate " " (words.map Word.render)

/-- An entry of a block: a line, or a key with rows of its own. -/
inductive Entry where
  /-- One line of words. -/
  | line (words : List Word)
  /-- A key with rows between braces. -/
  | table (key : String) (rows : List (List Word))
deriving Repr

namespace Entry

/-- A key with one value. -/
def setting (key : String) (value : Word) : Entry := .line [.text key, value]

/-- The text of an entry. -/
def render : Entry → String
  | line words => renderLine words
  | table key rows => tableText key (rows.map renderLine)

/-- The names that an entry refers to. -/
def references : Entry → List String
  | line words => words.flatMap Word.references
  | table _ rows => rows.flatMap fun words => words.flatMap Word.references

end Entry

/-- The declaration of one object. -/
structure Block where
  /-- The class of the object. -/
  className : String
  /-- Its instance name, if blocks may refer to it. -/
  instanceName : Option String
  /-- Its options in order. -/
  entries : List Entry
deriving Repr

/-- The text of a block. -/
def Block.render (block : Block) : String :=
  blockText block.className block.instanceName (block.entries.map Entry.render)

/-- The names that a block refers to. -/
def Block.references (block : Block) : List String := block.entries.flatMap Entry.references

/-- A procedure of the script. -/
structure Procedure where
  /-- Its name. -/
  name : String
  /-- Its parameters, separated by blanks. -/
  parameters : String
  /-- The lines of its body. -/
  body : List String
deriving Repr

/-- The text of a procedure, with an empty line after it. -/
def Procedure.render (procedure : Procedure) : String :=
  "proc " ++ procedure.name ++ " " ++ braced (" " ++ procedure.parameters ++ " ") ++ " \x7b\n" ++
    indented procedure.body ++ "\x7d\n\n"

/-- An item of a script. -/
inductive Item where
  /-- The version line and the general options: the base of output names and the output format. -/
  | options (basename : String) (format : FieldFormat)
  /-- A declaration. -/
  | block (block : Block)
  /-- A procedure. -/
  | procedure (procedure : Procedure)
  /-- A destination for outputs. -/
  | destination (name : String)
  /-- An output, its destination, and the event after which it is written. -/
  | schedule (output target event : String)
  /-- An empty line. -/
  | blank
  /-- Text of the caller. -/
  | verbatim (text : String)
deriving Repr

namespace Item

/-- The declaration of an object with an instance name. -/
def object (className instanceName : String) (entries : List Entry) : Item :=
  .block ⟨className, some instanceName, entries⟩

/-- The declaration of an object that nothing refers to. -/
def anonymous (className : String) (entries : List Entry) : Item :=
  .block ⟨className, none, entries⟩

/-- The text of the general options. -/
def optionsText (basename : String) (format : FieldFormat) : String :=
  "# MIF 2.2\nSetOptions \x7b\n  basename " ++ basename ++
    "\n  scalar_output_format %.12g\n  scalar_field_output_format " ++ braced format.engineOption ++
    "\n  vector_field_output_format " ++ braced format.engineOption ++ "\n\x7d\n\n"

/-- The text of an item. -/
def render : Item → String
  | options basename format => optionsText basename format
  | block b => b.render
  | procedure p => p.render
  | destination name => "Destination " ++ name ++ " mmArchive\n"
  | schedule output target event => "Schedule " ++ output ++ " " ++ target ++ " " ++ event ++ " 1\n"
  | blank => "\n"
  | verbatim text => text

/-- The block of an item, if it is one. -/
def block? : Item → Option Block
  | block b => some b
  | _ => none

end Item

/-- The text of a list of items. -/
def render (items : List Item) : String := String.join (items.map Item.render)

/-- The blocks of a list of items in order. -/
def blocks (items : List Item) : List Block := items.filterMap Item.block?

/-- The instance names that a list of items declares, in order. -/
def instances (items : List Item) : List String := (blocks items).filterMap Block.instanceName

end Micromag.Script
