import Micromag.Decimal.Basic
import Micromag.Text.Basic

/-!
# Faults

Every refusal carries a category, which decides the exit code of the command line, a code that names
the refused thing, and a sentence. A failed run of the engine also carries what the engine left
behind. The modules define their causes as types of their own; a cause becomes a `Fault` where its
sentence is needed. A program that breaks off refuses nothing; this ending is kept as a fault, too.
-/

namespace Micromag

/-- The kinds of faults. -/
inductive Category where
  | invalidParameter
  | badTermConfiguration
  | unsupportedOnPlatform
  | directoryExists
  | notFound
  | parseFailure
  | engineFailure
  | ioSystem
  | internal
  /-- No refusal: the program breaks off. -/
  | crash
deriving DecidableEq, Repr

namespace Category

/-- The name of a category. -/
def name : Category → String
  | invalidParameter => "InvalidParameter"
  | badTermConfiguration => "BadTermConfiguration"
  | unsupportedOnPlatform => "UnsupportedOnPlatform"
  | directoryExists => "DirectoryExists"
  | notFound => "NotFound"
  | parseFailure => "ParseFailure"
  | engineFailure => "EngineFailure"
  | ioSystem => "IoSystem"
  | internal => "Internal"
  | crash => "Panic"

/-- The categories of refusals. -/
def all : List Category :=
  [invalidParameter, badTermConfiguration, unsupportedOnPlatform, directoryExists, notFound,
    parseFailure, engineFailure, ioSystem, internal]

/-- The category of refusals that a name stands for. -/
def ofName? (name : String) : Option Category := all.find? (·.name = name)

/-- The exit code of a program that stops on a fault of this category. -/
def exitCode : Category → Nat
  | invalidParameter => 2
  | badTermConfiguration => 3
  | unsupportedOnPlatform => 4
  | directoryExists => 5
  | notFound => 6
  | parseFailure => 7
  | engineFailure => 8
  | ioSystem => 9
  | internal => 10
  | crash => 101

end Category

/-- What one run of the engine left behind. -/
structure RunOutput where
  /-- The exit code of the engine, negative when a signal ended it. -/
  returnCode : Int := 0
  /-- Its standard output, if it was captured. -/
  stdout : Option String := none
  /-- Its standard error, if it was captured. -/
  stderr : Option String := none
deriving DecidableEq, Repr

/-- Whether the engine reports success. -/
def RunOutput.isSuccess (output : RunOutput) : Bool := output.returnCode = 0

/-- A refusal. -/
structure Fault where
  /-- The kind of the fault. -/
  category : Category
  /-- The name of the refused thing. -/
  code : String
  /-- The sentence for the reader. -/
  message : String
  /-- The run that failed, if one did. -/
  output : Option RunOutput := none
deriving DecidableEq, Repr

namespace Fault

/-- The line that reports a fault on standard error. -/
def diagnosticLine (fault : Fault) : String := s!"ERROR: [{fault.code}] {fault.message}"

/-- The line that announces the exit code. -/
def exitLine (fault : Fault) : String := s!"FATAL EXIT CODE: {fault.category.exitCode}"

/-- A fault in full: category, code and sentence, then the standard error of a failed run unless it
is blank. -/
def display (fault : Fault) : String :=
  let head := s!"{fault.category.name} [{fault.code}] {fault.message}"
  match fault.output.bind (·.stderr) with
  | none => head
  | some stderr =>
    if Text.allBlank stderr.toList then head
    else head ++ "\nengine stderr:\n" ++ String.ofList (Text.trimEnd stderr.toList)

/-- A value that cannot be used. -/
def invalid (code message : String) : Fault := ⟨.invalidParameter, code, message, none⟩

/-- A term whose parts do not fit together. -/
def badTerm (code message : String) : Fault := ⟨.badTermConfiguration, code, message, none⟩

/-- Text or a file that cannot be understood. -/
def parse (code message : String) : Fault := ⟨.parseFailure, code, message, none⟩

/-- Something that should be there and is not. -/
def absent (code message : String) : Fault := ⟨.notFound, code, message, none⟩

/-- The end of a program that breaks off. -/
def crash (message : String) : Fault := ⟨.crash, "", message, none⟩

/-- A state that should not arise. -/
def internal (code message : String) : Fault := ⟨.internal, code, message, none⟩

end Fault

/-- The plain text of a double in a message. -/
def show64 (x : Float) : String := Layout.plain.text x

/-- Counts in a message, in brackets. -/
def listedCounts (counts : List Nat) : String :=
  "[" ++ String.intercalate ", " (counts.map toString) ++ "]"

/-- Doubles in a message, in brackets. -/
def listedFloats (values : List Float) : String :=
  "[" ++ String.intercalate ", " (values.map Layout.listed.text) ++ "]"

end Micromag
