import Micromag.Shell.Format
import Micromag.Shell.Tool.Edit
import Micromag.Shell.Tool.Lines
import Micromag.Shell.Tool.Search
import Micromag.Shell.Tool.Test

/-!
# The table of tools

The tools by their names, and where programs stand in the file system.
-/

namespace Micromag.Shell

namespace Tool

open Work

/-- End with a status. -/
def ending (status : Nat) : Tool := fun _ => return status

/-- Write arguments. Escapes are only understood if that is asked for. -/
def echo : Tool := fun arguments => do
  let isOption (argument : Text) : Bool :=
    match argument with
    | '-' :: c :: rest => (c :: rest).all "neE".toList.contains
    | _ => false
  let options := (arguments.takeWhile isOption).flatten
  let text := Text.joined [' '] (arguments.dropWhile isOption)
  let (text, ended) := if options.contains 'e' then Escape.all text else (text, false)
  say (text ++ (if ended || options.contains 'n' then [] else ['\n']))
  return 0

/-- Write formatted arguments. -/
def printf : Tool := fun arguments => do
  match withoutDashes arguments with
  | [] =>
    warn "printf: missing operand"
    return 1
  | format :: arguments =>
    let formatted := Formatting.run format arguments
    say formatted.text
    for message in formatted.messages.reverse do
      warn s!"printf: {message}"
    return formatted.status 1

/-- Test a condition. -/
def test (name : String) : Tool := fun arguments => do
  match Testing.evaluate (← get).files arguments with
  | .ok result => return if result then 0 else 1
  | .error sentence =>
    warn s!"{name}: {sentence}"
    return 2

/-- Test a condition up to a closing bracket. -/
def bracket : Tool := fun arguments => do
  if arguments.getLast? = some [']'] then test "[" arguments.dropLast
  else
    warn "[: missing ']'"
    return 2

/-- Write the path of the working directory. -/
def pwd : Tool := fun _ => do
  match ← look (·.currentPath) with
  | .ok path => sayLine (Text.ofString path); return 0
  | .error _ => return 1

/-- Write a fixed text. -/
def saying (text : String) : Tool := fun _ => do
  sayLine text.toList
  return 0

/-- Write the name of the user, or the user's number. -/
def id : Tool := fun arguments => do
  let arguments := argumentsOf "" arguments
  let isNumber := (arguments.has 'u' || arguments.has 'g') && !arguments.has 'n'
  sayLine (if isNumber then ['0']
    else if arguments.options.isEmpty then "uid=0(root) gid=0(root) groups=0(root)".toList
    else "root".toList)
  return 0

/-- Write the same line again and again, as often as anyone will read it. -/
def yes : Tool := fun arguments => do
  let line := if arguments.isEmpty then ['y'] else Text.joined [' '] arguments
  say (List.replicate 4096 (line ++ ['\n'])).flatten
  return 0

/-- Write lines with their numbers; empty lines have none. -/
def nl : Tool := fun arguments => do
  let arguments := argumentsOf "" arguments
  let (found, status) ← contents "nl" arguments.operands
  let mut n := 1
  for line in found.flatMap (wholeLines ·.2) do
    if line = ['\n'] then say "       \n".toList
    else
      say (numbered n [line]).1
      n := n + 1
  return status

/-- Wait for a time. -/
def sleep : Tool := fun arguments => do
  let isTime (text : Text) : Bool :=
    let digits := match text.getLast? with
      | some c => if "smhd".toList.contains c then text.dropLast else text
      | none => text
    !digits.isEmpty && digits.all (fun c => c.isDigit || c = '.') && digits ≠ ['.']
  match arguments.find? fun text => !isTime text with
  | some text => misuse "sleep" s!"invalid time interval '{text.string}'"
  | none => if arguments.isEmpty then misuse "sleep" "missing operand" else return 0

/-- The tools. -/
def all : List (String × Tool) :=
  [("true", ending 0), ("false", ending 1), ("echo", echo), ("printf", printf),
    ("test", test "test"), ("[", bracket), ("pwd", pwd), ("sleep", sleep), ("chmod", chmod),
    ("sync", ending 0), ("cat", cat), ("cp", cp), ("mv", mv), ("ln", ln), ("rm", rm),
    ("mkdir", mkdir), ("rmdir", rmdir), ("touch", touch), ("ls", ls), ("basename", basename),
    ("dirname", dirname), ("readlink", readlink), ("realpath", fun arguments =>
      readlink (['-', 'f'] :: arguments)), ("tee", tee), ("head", head), ("tail", tail), ("wc", wc),
    ("sort", sort), ("uniq", uniq), ("cut", cut), ("tr", tr), ("rev", rev), ("tac", tac),
    ("seq", seq), ("find", find), ("cmp", cmp), ("nl", nl), ("yes", yes), ("id", id),
    ("whoami", saying "root"), ("uname", saying "Linux"),
    ("date", saying "Thu Jan  1 00:00:00 UTC 1970"), ("grep", search false false),
    ("egrep", search true false),
    ("fgrep", search false true), ("sed", sed), ("expr", expr)]

/-- The tool with a name. -/
def find? (name : String) : Option Tool := all.lookup name

end Tool

/-- What a program does. -/
inductive Program where
  /-- It carries out another program with changed variables. -/
  | setting
  /-- It carries out another program with arguments that are read. -/
  | feeding
  /-- It is a tool. -/
  | tool (tool : Tool)
  /-- It is a shell. -/
  | shell
  /-- It is the text of a script. -/
  | script (text : Text)

namespace Program

/-- The program with a name. -/
def ofName? (name : String) : Option Program :=
  if ["sh", "dash", "bash"].contains name then some .shell
  else if name = "env" then some .setting
  else if name = "xargs" then some .feeding
  else (Tool.find? name).map .tool

/-- Where a path leads when programs are looked for: a program's home has all programs in it. -/
def standsAt? (place : Place) : Option Program :=
  match place.getLast? with
  | some name => if programHomes.contains place.dropLast then ofName? name else none
  | none => none

/-- The file system with the homes of programs and a file for each program, with a directory for
files that are not kept, one for the user, and a file that is always empty. -/
def install (files : FileSystem) : FileSystem :=
  let names := ["sh", "dash", "bash", "env", "xargs"] ++ Tool.all.map (·.1)
  let (files, _) := files.makeDirectories "/tmp"
  let (files, _) := files.makeDirectories "/root"
  let (files, _) := files.makeDirectories "/dev"
  let files := (files.writeFile "/dev/null" []).toOption.getD files
  programHomes.foldl (fun files home =>
    let path := FileSystem.pathOf home
    let (files, _) := files.makeDirectories path
    names.foldl (fun files name =>
      (files.writeFile (Path.join path name) []).toOption.getD files) files) files

/-- The program that a path leads to. A file that is no program cannot be carried out. -/
def atPath (files : FileSystem) (path : String) : Except (Option FileFault) Program :=
  match files.nodeOf path with
  | .error cause => .error (some cause)
  | .ok (place, node) =>
    match standsAt? place, node with
    | some program, _ => .ok program
    | none, .file content =>
      if files.isRunnable path then .ok (.script (Text.ofBytes content)) else .error none
    | none, _ => .error none

/-- The program of a command's first word: a path if it has a slash, and a name otherwise. -/
def find (files : FileSystem) (word : String) : Except (Option FileFault) Program :=
  if word.isEmpty then .error (some .absent)
  else if word.contains '/' then atPath files word
  else if word.contains '\x00' then .error (some .malformed)
  else if FileSystem.maxName < word.utf8ByteSize then .error (some .tooLong)
  else
    match ofName? word with
    | some program => .ok program
    | none => .error (some .absent)

end Program

end Micromag.Shell
