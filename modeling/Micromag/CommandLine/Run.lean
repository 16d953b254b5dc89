import Micromag.CommandLine.Request
import Micromag.Document.Problem
import Micromag.Drive.Basic
import Micromag.EngineCommand

/-!
# Running requests

A request reads its study, if it has one, and ends in text for standard output or in a fault. A
fault is reported on standard error: its line, what a failed engine wrote to its own standard error,
and the exit code.
-/

namespace Micromag.CommandLine

/-- The name and the version of the program. -/
def versionText : String := "oommfc-rs 0.1.0\n"

/-- What the program can be asked to do. -/
def helpText : String :=
  "Lower, run and inspect OOMMF micromagnetic problems\n\n" ++
  "Usage: oommfc-rs [OPTIONS] <COMMAND>\n\n" ++
  "Commands:\n" ++
  "  script  Print the MIF script for a problem document\n" ++
  "  drive   Drive a problem document through the engine\n" ++
  "  table   Parse an ODT table and print it as JSON\n" ++
  "  delete  Delete a problem directory\n" ++
  "  help    Print this message\n"

/-- The name under which the environment holds an engine command. -/
def engineName : String := "OOMMF_COMMAND"

/-- What a request is given from outside. -/
structure Surroundings where
  /-- How an engine is started. -/
  start : EngineCommand → Engine
  /-- The time. -/
  now : Timestamp
  /-- The engine command of the environment. -/
  engine : Option String

/-- The fault of a refused command line. -/
def UsageFault.fault (cause : UsageFault) : Fault :=
  .invalid "INPUT.CLI_USAGE" cause.message

/-- The study of a file. -/
def readStudy (path : String) : FileAction Study := do
  let text ← Artifact.readText "IO.CLI" path
    |> Action.mapFault fun fault => { fault with category := .ioSystem }
  match StudyDocument.ofText? text with
  | some document => document.make
  | none =>
    Action.fail (.parse "PARSE.PROBLEM_DOCUMENT" s!"{path} is not a problem document")

/-- The engine command: the one that was asked for, or that of the environment. -/
def engineCommand (around : Surroundings) (asked : Option String) :
    Except Fault EngineCommand :=
  match asked <|> around.engine with
  | some line => EngineCommand.ofCommandLine line
  | none => .error (UsageFault.missingEngine engineName).fault

/-- The summary of a drive. -/
def summary (outcome : DriveOutcome) (problem : Problem) : Json :=
  .object [("drive_number", .ofCount problem.driveNumber),
    ("drive_dir", .string outcome.directory),
    ("columns", .ofList .string ((problem.table.map (·.columns)).getD [])),
    ("row_count", .ofCount ((problem.table.map (·.rows.length)).getD 0))]

/-- Drive a study with an engine: the summary. -/
def driveStudy (around : Surroundings) (engine : Engine) (options : DriveOptions)
    (study : Study) : FileAction Json := fun system =>
  let (result, session) := Session.drive around.now engine options study.intent
    ⟨system, study.problem⟩
  (result.map (summary · session.problem), session.files)

/-- Carry out a request: the text for standard output. -/
def Request.run (around : Surroundings) : Request → FileAction String
  | .script document format platform => do
    let study ← readStudy document
    return (← study.problem.lower study.intent { format } platform).text
  | .drive document directory append format fixed everyStep engine => do
    let study ← readStudy document
    let command ← engineCommand around engine
    let options : DriveOptions := { directory, append, settings := { format, fixed, everyStep } }
    return (← driveStudy around (around.start command) options study).pretty ++ "\n"
  | .table file raw => do return (← Artifact.readTable file (!raw)).toDocument.pretty ++ "\n"
  | .delete name directory silent => do
    Drive.removeDirectory directory name silent
    return ""

/-- What the program leaves behind. -/
structure Report where
  /-- The text on standard output. -/
  stdout : String := ""
  /-- The fault that stopped the program. -/
  fault : Option Fault := none

namespace Report

/-- The report of a result. -/
def ofResult : Except Fault String → Report
  | .ok text => { stdout := text }
  | .error fault => { fault := some fault }

/-- The exit code. -/
def exitCode (report : Report) : Nat := (report.fault.map (·.category.exitCode)).getD 0

/-- What a failed engine wrote to its standard error. -/
def engineText (fault : Fault) : String :=
  match fault.output.bind (·.stderr) with
  | none => ""
  | some text =>
    if text.isEmpty then "" else String.ofList (Text.trimEnd text.toList) ++ "\n"

/-- The text on standard error. -/
def stderr (report : Report) : String :=
  match report.fault with
  | none => ""
  | some fault =>
    if fault.category = .crash then fault.message ++ "\n"
    else fault.diagnosticLine ++ "\n" ++ engineText fault ++ fault.exitLine ++ "\n"

end Report

/-- Carry out a command line. -/
def run (around : Surroundings) (line : List String) (system : FileSystem) :
    Report × FileSystem :=
  match Request.ofArguments line with
  | .error .help => ({ stdout := helpText }, system)
  | .error .version => ({ stdout := versionText }, system)
  | .error (.refused cause) => ({ fault := some cause.fault }, system)
  | .ok request =>
    let (result, system) := request.run around system
    (Report.ofResult result, system)

end Micromag.CommandLine
