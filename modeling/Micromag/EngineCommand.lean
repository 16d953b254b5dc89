import Micromag.Fault

/-!
# Engine commands

The engine is started by a command line: a program and arguments, separated by blanks, without any
quoting. The script is one more argument.
-/

namespace Micromag

/-- A program with its first arguments. -/
structure EngineCommand where
  /-- The program. -/
  program : String
  /-- The arguments in front of the script. -/
  arguments : List String
deriving DecidableEq, Repr

namespace EngineCommand

/-- The command of a command line. -/
def ofCommandLine (line : String) : Except Fault EngineCommand :=
  match (Text.words line.toList).map String.ofList with
  | [] => .error (.invalid "INPUT.ENGINE_COMMAND" "engine command is empty")
  | program :: arguments => .ok ⟨program, arguments⟩

end EngineCommand

end Micromag
