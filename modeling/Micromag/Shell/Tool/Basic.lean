import Micromag.Files.System
import Micromag.Shell.Text

/-!
# Tools

A tool is a program that reads an input and files, writes output and messages, may change files, and
ends with a status.
-/

namespace Micromag.Shell

/-- The directories in which programs stand. -/
def programHomes : List Place := [["bin"], ["usr", "bin"]]

/-- What a tool works on. -/
structure Desk where
  /-- What can still be read. -/
  input : Text
  /-- The file system. -/
  files : FileSystem
  /-- What was written to descriptors, the latest first. -/
  written : List (Nat × Text) := []

/-- Work at a desk. -/
abbrev Work (α : Type) := StateM Desk α

/-- A tool, given its arguments; it ends with a status. -/
abbrev Tool := List Text → Work Nat

namespace Work

/-- Write output. -/
def say (text : Text) : Work Unit := modify fun desk =>
  { desk with written := (1, text) :: desk.written }

/-- Write a line of output. -/
def sayLine (text : Text) : Work Unit := say (text ++ ['\n'])

/-- Write a message. -/
def warn (message : String) : Work Unit := modify fun desk =>
  { desk with written := (2, Text.ofString (message ++ "\n")) :: desk.written }

/-- End after a message about wrong arguments. -/
def misuse (tool what : String) : Work Nat := do
  warn s!"{tool}: {what}"
  warn s!"Try '{tool} --help' for more information."
  return 1

/-- Read all input. -/
def readInput : Work Text := do
  let desk ← get
  set { desk with input := [] }
  return desk.input

/-- Look at the files. -/
def look {α : Type} (f : FileSystem → α) : Work α := do return f (← get).files

/-- Change the files: why that is refused, if it is. -/
def change (f : FileSystem → Except FileFault FileSystem) : Work (Option FileFault) := do
  let desk ← get
  match f desk.files with
  | .ok files =>
    set { desk with files }
    return none
  | .error cause => return some cause

/-- Change the files; a refusal is told in a message and gives the status one. -/
def attempt (what : String) (f : FileSystem → Except FileFault FileSystem) : Work Nat := do
  match ← change f with
  | none => return 0
  | some cause =>
    warn s!"{what}: {cause.text}"
    return 1

/-- The content of a file; a hyphen stands for the input. -/
def contentOf (path : Text) : Work (Except FileFault Text) := do
  if path = ['-'] then return .ok (← readInput)
  else return (← look (·.contentOf path.string)).map Text.ofBytes

/-- Do something for each item: the largest status. -/
def forEach {α : Type} (items : List α) (work : α → Work Nat) : Work Nat := do
  let mut status := 0
  for item in items do
    status := max status (← work item)
  return status

/-- The contents of files, or the input if there are none, with the largest status of reading. -/
def contents (tool : String) (paths : List Text) : Work (List (Text × Text) × Nat) := do
  let mut found := []
  let mut status := 0
  for path in (if paths.isEmpty then [['-']] else paths) do
    match ← contentOf path with
    | .ok content => found := (path, content) :: found
    | .error cause =>
      warn s!"{tool}: {Text.string path}: {cause.text}"
      status := 1
  return (found.reverse, status)

end Work

/-- Arguments without the two hyphens that may end the options. -/
def withoutDashes : List Text → List Text
  | ['-', '-'] :: rest => rest
  | arguments => arguments

/-- Options and operands of a tool. -/
structure Arguments where
  /-- Letters of options, with values where they take one. -/
  options : List (Char × Text) := []
  /-- The other arguments. -/
  operands : List Text := []

namespace Arguments

/-- Whether an option is there. -/
def has (arguments : Arguments) (letter : Char) : Bool :=
  (arguments.options.lookup letter).isSome

/-- The last value of an option. -/
def value? (arguments : Arguments) (letter : Char) : Option Text :=
  arguments.options.reverse.lookup letter

/-- The letters behind a hyphen: options, and a letter that still needs a value. -/
def letters (valued : List Char) : Text → List (Char × Text) × Option Char
  | [] => ([], none)
  | letter :: rest =>
    if valued.contains letter then
      if rest.isEmpty then ([], some letter) else ([(letter, rest)], none)
    else
      let (options, waiting) := letters valued rest
      ((letter, []) :: options, waiting)

/-- The options and operands of arguments. Some letters take a value. -/
def read (valued : List Char) (found : Arguments) : List Text → Arguments
  | [] => found
  | ['-', '-'] :: rest => { found with operands := found.operands ++ rest }
  | ('-' :: letter :: more) :: rest =>
    match letters valued (letter :: more), rest with
    | (options, none), rest => read valued { found with options := found.options ++ options } rest
    | (options, some waiting), value :: rest =>
      read valued { found with options := found.options ++ options ++ [(waiting, value)] } rest
    | (options, some _), [] => { found with options := found.options ++ options }
  | operand :: rest => read valued { found with operands := found.operands ++ [operand] } rest

end Arguments

/-- The options and operands of arguments. -/
def argumentsOf (valued : String) (arguments : List Text) : Arguments :=
  Arguments.read valued.toList {} arguments

end Micromag.Shell
