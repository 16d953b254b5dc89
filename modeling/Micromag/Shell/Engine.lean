import Micromag.Drive.Basic
import Micromag.EngineCommand
import Micromag.Shell.Evaluation

/-!
# Engines that are programs

An engine command starts a program, which is given the script as its last argument. Its output is
captured; bytes that are no characters are replaced. A program that cannot be started is a fault. An
engine that is ended by a signal has no exit code of its own.
-/

namespace Micromag

namespace EngineCommand

open Shell

/-- The code of an engine that a signal has ended. -/
def signalCode : Int := -1

/-- The program of a command, or the fault of starting it. -/
def program? (command : EngineCommand) (script : String) (files : FileSystem) :
    Except Fault Program :=
  let what := s!"failed to start engine '{command.program}'"
  let words := command.program :: command.arguments ++ [script]
  if words.any fun word => word.contains '\x00' then
    .error (FileFault.malformed.fault "IO.ENGINE_SPAWN" what)
  else
    match Program.find files command.program with
    | .ok program => .ok program
    | .error (some cause) => .error (cause.fault "IO.ENGINE_SPAWN" what)
    | .error none => .error ⟨.ioSystem, "IO.ENGINE_SPAWN", what ++ ": Permission denied", none⟩

/-- What a program does with arguments. -/
def work (program : Program) (name : Text) (arguments : List Text) : Run Unit :=
  let inner := Run.means Run.maxLevels
  match program with
  | .tool tool => Run.useTool tool arguments
  | .shell => Run.beShell inner name arguments
  | .setting | .feeding | .script _ => Run.useProgram inner "" name arguments

/-- Let a program work: its output and the files afterwards. -/
def execute (program : Program) (name : Text) (arguments : List Text) (files : FileSystem) :
    RunOutput × FileSystem :=
  let given : List (Text × Text) := [
    ("HOME".toList, "/root".toList), ("PATH".toList, "/usr/bin:/bin".toList),
    ("PWD".toList, Text.ofString (files.currentPath.toOption.getD "/"))]
  let start : State := {
    files, name
    bindings := given ++ Run.usualVariables
    exported := given.map (·.1)
    streams := #[.source [], .gathered [], .gathered []]
    descriptors := [(0, 0), (1, 1), (2, 2)] }
  let part := Run.inShell (Run.means Run.maxLevels) (work program name arguments)
  let (result, state) := part.run start
  let code : Int := match result with
    | .ok status => status
    | .error _ => signalCode
  (⟨code, some (Run.gatheredIn state 1).string, some (Run.gatheredIn state 2).string⟩,
    state.files)

/-- The engine of a command. -/
def start (command : EngineCommand) : Engine := fun script => do
  let program ← Action.read (program? command script)
  let program ← Action.ofExcept program
  fun files =>
    let (output, files) := execute program (Text.ofString command.program)
      ((command.arguments ++ [script]).map Text.ofString) files
    (.ok output, files)

/-- The engine of a command that is ended by a signal as soon as it has started. -/
def startAndKill (command : EngineCommand) : Engine := fun script => do
  let program ← Action.read (program? command script)
  let _ ← Action.ofExcept program
  return ⟨signalCode, some "", some ""⟩

end EngineCommand

end Micromag
