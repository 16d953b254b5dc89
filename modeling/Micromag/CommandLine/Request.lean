import Micromag.Field
import Micromag.Lowering.Basic
import Micromag.Text.Basic

/-!
# Requests on the command line
-/

/-!
## Grammars of command lines

A command line consists of options, which start with two hyphens, of short flags, which are letters
behind one hyphen, and of arguments. An option takes its value from behind an equals sign or from
the next argument. Two hyphens alone end the options. What was read is checked in order, so that a
fault in front of a request for help comes first.
-/

namespace Micromag.CommandLine

/-- Why a command line is refused. -/
inductive UsageFault where
  | unexpected (argument : String)
  | repeated (option : String)
  | missingValue (option : String)
  | unwantedValue (option : String)
  | badValue (name value : String)
  | missingArgument (name : String)
  | missingCommand
  | missingEngine (fallback : String)
deriving DecidableEq, Repr

/-- The sentence for a refusal. -/
def UsageFault.message : UsageFault → String
  | unexpected argument => s!"unexpected argument '{argument}' found"
  | repeated option => s!"the option '--{option}' cannot be used multiple times"
  | missingValue option => s!"a value is required for '--{option}' but none was supplied"
  | unwantedValue option => s!"the option '--{option}' takes no value"
  | badValue name value => s!"invalid value '{value}' for '{name}'"
  | missingArgument name => s!"the argument <{name}> was not provided"
  | missingCommand => "a command is required"
  | missingEngine fallback => s!"no engine command given; pass --engine or set {fallback}"

/-- Why reading a command line stops before its end. -/
inductive Halt where
  /-- Help is asked for. -/
  | help
  /-- The version is asked for. -/
  | version
  /-- The command line is refused. -/
  | refused (cause : UsageFault)
deriving DecidableEq, Repr

/-- What an option does. -/
inductive OptionKind where
  /-- It is there or not. -/
  | flag
  /-- It has one value, which must pass a check. -/
  | value (accepts : String → Bool)
  /-- It has values, separated by commas, and may occur several times. -/
  | values
  /-- It stops the reading. -/
  | halt (halt : Halt)

/-- The declaration of an option. -/
structure OptionRule where
  /-- Its name behind two hyphens. -/
  name : String
  /-- Its letter behind one hyphen. -/
  letter : Option Char := none
  /-- What it does. -/
  kind : OptionKind

/-- The declaration of an argument that must be there. -/
structure ArgumentRule where
  /-- Its name. -/
  name : String
  /-- The check of its value. -/
  accepts : String → Bool := fun _ => true

/-- What a command line may hold. -/
structure Grammar where
  /-- The options. -/
  options : List OptionRule
  /-- The arguments in their order. -/
  arguments : List ArgumentRule := []
  /-- The commands, each of which goes on with a grammar of its own. -/
  commands : List String := []

/-- What was found on a command line. -/
structure Found where
  /-- Options with their values; flags have an empty value. -/
  settings : List (String × String) := []
  /-- Arguments. -/
  arguments : List String := []
  /-- A command with the rest of the line. -/
  command : Option (String × List String) := none
deriving DecidableEq, Repr

namespace Found

/-- Whether an option was found. -/
def has (found : Found) (name : String) : Bool := (found.settings.lookup name).isSome

/-- The value of an option. -/
def value? (found : Found) (name : String) : Option String := found.settings.lookup name

/-- The values of an option that may occur several times. -/
def values (found : Found) (name : String) : List String :=
  (found.settings.filter (·.1 = name)).flatMap fun setting =>
    (Text.splitOn ',' setting.2.toList).map String.ofList

end Found

namespace Grammar

/-- The part of a long option in front of an equals sign, and the part behind it. -/
def splitValue (text : List Char) : String × Option String :=
  match text.dropWhile (· ≠ '=') with
  | [] => (String.ofList text, none)
  | _ :: value => (String.ofList (text.takeWhile (· ≠ '=')), some (String.ofList value))

/-- Add an option with its value. -/
def addOption (found : Found) (rule : OptionRule) (value : String) : Except Halt Found :=
  let added : Found := { found with settings := found.settings ++ [(rule.name, value)] }
  match rule.kind with
  | .halt halt => .error halt
  | .values => .ok added
  | .flag => if found.has rule.name then .error (.refused (.repeated rule.name)) else .ok added
  | .value accepts =>
    if found.has rule.name then .error (.refused (.repeated rule.name))
    else if accepts value then .ok added
    else .error (.refused (.badValue ("--" ++ rule.name) value))

/-- Add an argument. -/
def addArgument (grammar : Grammar) (found : Found) (value : String) : Except Halt Found :=
  match grammar.arguments[found.arguments.length]? with
  | none => .error (.refused (.unexpected value))
  | some rule =>
    if rule.accepts value then .ok { found with arguments := found.arguments ++ [value] }
    else .error (.refused (.badValue rule.name value))

/-- Whether an option needs a value. -/
def takesValue (rule : OptionRule) : Bool :=
  match rule.kind with
  | .value _ | .values => true
  | .flag | .halt _ => false

/-- Add the letters behind one hyphen. -/
def addLetters (grammar : Grammar) (found : Found) : List Char → Except Halt Found
  | [] => .ok found
  | letter :: rest =>
    match grammar.options.find? fun rule => rule.letter = some letter && !takesValue rule with
    | none => .error (.refused (.unexpected s!"-{letter}"))
    | some rule => do addLetters grammar (← addOption found rule "") rest

/-- A long option: what was found with it, or the option that waits for its value. -/
def addLong (grammar : Grammar) (found : Found) (text : List Char) :
    Except Halt (Found × Option OptionRule) :=
  let (name, value) := splitValue text
  match grammar.options.find? (·.name = name) with
  | none => .error (.refused (.unexpected ("--" ++ name)))
  | some rule =>
    match takesValue rule, value with
    | true, some value => (addOption found rule value).map (·, none)
    | true, none => .ok (found, some rule)
    | false, none => (addOption found rule "").map (·, none)
    | false, some _ => .error (.refused (.unwantedValue name))

/-- Read a command line up to a command or to its end. An option may wait for its value. -/
def scan (grammar : Grammar) (found : Found) (waiting : Option OptionRule) :
    List String → Except Halt Found
  | [] =>
    match waiting with
    | some rule => .error (.refused (.missingValue rule.name))
    | none => .ok found
  | item :: rest =>
    match waiting, item.toList with
    | some rule, '-' :: _ :: _ => .error (.refused (.missingValue rule.name))
    | some rule, _ => do scan grammar (← addOption found rule item) none rest
    | none, ['-', '-'] => rest.foldlM (addArgument grammar) found
    | none, '-' :: '-' :: text => do
      let (found, waiting) ← addLong grammar found text
      scan grammar found waiting rest
    | none, '-' :: letter :: letters => do
      scan grammar (← addLetters grammar found (letter :: letters)) none rest
    | none, _ =>
      if grammar.commands.contains item then .ok { found with command := some (item, rest) }
      else do scan grammar (← addArgument grammar found item) none rest

/-- Read a command line; all arguments must be there. -/
def read (grammar : Grammar) (line : List String) : Except Halt Found := do
  let found ← scan grammar {} none line
  match grammar.arguments[found.arguments.length]? with
  | some rule => .error (.refused (.missingArgument rule.name))
  | none => return found

end Grammar

end Micromag.CommandLine

/-!
## Requests

What the program is asked to do: print the script of a study, drive a study, print a table, or
remove the directory of a problem.
-/

namespace Micromag.CommandLine

/-- What the program is asked to do. -/
inductive Request where
  /-- Print the script of a study. -/
  | script (document : String) (format : FieldFormat) (platform : Platform)
  /-- Drive a study. -/
  | drive (document directory : String) (append : Bool) (format : FieldFormat)
      (fixed : List String) (everyStep : Bool) (engine : Option String)
  /-- Print a table, with the names of the engine or with short ones. -/
  | table (file : String) (raw : Bool)
  /-- Remove the directory of a problem. -/
  | delete (name directory : String) (silent : Bool)
deriving DecidableEq, Repr

namespace Request

/-! ## Declarations -/

/-- A path is not empty. -/
def isPath (value : String) : Bool := !value.isEmpty

/-- The flag that asks for more messages. -/
def verbose : OptionRule := ⟨"verbose", some 'v', .flag⟩

/-- The flag that asks for help. -/
def help : OptionRule := ⟨"help", some 'h', .halt .help⟩

/-- The flag that asks for the version. -/
def version : OptionRule := ⟨"version", some 'V', .halt .version⟩

/-- The option that chooses the format of field files. -/
def format : OptionRule :=
  ⟨"format", none, .value fun value => (FieldFormat.ofWord? value).isSome⟩

/-- The option that chooses the platform. -/
def platform : OptionRule :=
  ⟨"platform", none, .value fun value => (Platform.ofName? value).isSome⟩

/-- The option that chooses the directory of the directories of problems. -/
def directory : OptionRule := ⟨"dirname", none, .value isPath⟩

/-- The options that every command has. -/
def common : List OptionRule := [verbose, help]

/-- The grammar in front of a command. -/
def topGrammar : Grammar where
  options := version :: common
  commands := ["script", "drive", "table", "delete", "help"]

/-- The grammar of a command. -/
def grammar : String → Grammar
  | "script" => ⟨format :: platform :: common, [⟨"PROBLEM", isPath⟩], []⟩
  | "drive" =>
    ⟨[directory, ⟨"no-append", none, .flag⟩, format, ⟨"fixed", none, .values⟩,
      ⟨"output-step", none, .flag⟩, ⟨"engine", none, .value fun _ => true⟩] ++ common,
      [⟨"PROBLEM", isPath⟩], []⟩
  | "table" => ⟨⟨"raw", none, .flag⟩ :: common, [⟨"FILE", isPath⟩], []⟩
  | "delete" => ⟨[directory, ⟨"silent", none, .flag⟩] ++ common, [⟨"NAME", fun _ => true⟩], []⟩
  | _ => ⟨common, [], []⟩

/-! ## Reading -/

/-- The format of field files that was asked for. -/
def formatOf (found : Found) : FieldFormat :=
  ((found.value? "format").bind FieldFormat.ofWord?).getD .binary8

/-- The platform that was asked for. -/
def platformOf (found : Found) : Platform :=
  ((found.value? "platform").bind Platform.ofName?).getD .unix

/-- The directory that was asked for. -/
def directoryOf (found : Found) : String := (found.value? "dirname").getD "."

/-- The request of a command with what was found behind it. -/
def ofFound (command : String) (found : Found) : Except Halt Request :=
  match command, found.arguments with
  | "script", [document] => .ok (.script document (formatOf found) (platformOf found))
  | "drive", [document] =>
    .ok (.drive document (directoryOf found) (!found.has "no-append") (formatOf found)
      (found.values "fixed") (found.has "output-step") (found.value? "engine"))
  | "table", [file] => .ok (.table file (found.has "raw"))
  | "delete", [name] => .ok (.delete name (directoryOf found) (found.has "silent"))
  | _, _ => .error .help

/-- Asking for help with the program or with a command. -/
def readHelp : List String → Except Halt Request
  | [] => .error .help
  | [command] =>
    if topGrammar.commands.contains command then .error .help
    else .error (.refused (.unexpected command))
  | _ :: more :: _ => .error (.refused (.unexpected more))

/-- The request of a command line. -/
def ofArguments (line : List String) : Except Halt Request := do
  match (← topGrammar.read line).command with
  | none => .error (.refused .missingCommand)
  | some ("help", rest) => readHelp rest
  | some (command, rest) => ofFound command (← (grammar command).read rest)

end Request

end Micromag.CommandLine
