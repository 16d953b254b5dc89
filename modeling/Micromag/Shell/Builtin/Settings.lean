import Micromag.Shell.Builtin.Basic

/-!
# Settings and signals of a shell
-/

/-!
## Commands for settings

The settings of a shell, its arguments, its directory and the mask of the files it makes.
-/

namespace Micromag.Shell

namespace Builtin

open Run

/-! ## Arguments and settings -/

/-- Drop arguments. -/
def shift : Builtin := fun arguments => do
  let count ← match arguments with
    | [] => pure 1
    | text :: _ => number "shift" text
  let state ← get
  if state.arguments.length < count then die "shift: can't shift that many"
  set { state with arguments := state.arguments.drop count }
  succeed

/-- Change a setting. -/
def setting (value : Bool) (settings : Settings) : Char → Settings
  | 'e' => { settings with exitOnFailure := value }
  | 'u' => { settings with refuseUnset := value }
  | 'f' => { settings with keepPatterns := value }
  | 'x' => { settings with showCommands := value }
  | _ => settings

/-- The letter of a setting's name. -/
def settingLetter : String → Char
  | "errexit" => 'e'
  | "nounset" => 'u'
  | "noglob" => 'f'
  | "xtrace" => 'x'
  | _ => ' '

/-- Change settings by letters or names; what is left are arguments, if there are any. -/
def settings : Nat → List Text → Settings → Settings × Option (List Text)
  | 0, _, found => (found, none)
  | _ + 1, [], found => (found, none)
  | _ + 1, ['-', '-'] :: rest, found => (found, some rest)
  | fuel + 1, ['-', 'o'] :: name :: rest, found =>
    settings fuel rest (setting true found (settingLetter name.string))
  | fuel + 1, ['+', 'o'] :: name :: rest, found =>
    settings fuel rest (setting false found (settingLetter name.string))
  | fuel + 1, ('-' :: c :: letters) :: rest, found =>
    settings fuel rest ((c :: letters).foldl (setting true) found)
  | fuel + 1, ('+' :: c :: letters) :: rest, found =>
    settings fuel rest ((c :: letters).foldl (setting false) found)
  | _ + 1, rest, found => (found, some rest)

/-- Change settings and arguments. -/
def adjust : Builtin := fun arguments => do
  let state ← get
  let (found, rest) := settings (arguments.length + 1) arguments state.settings
  set { state with settings := found, arguments := rest.getD state.arguments }
  succeed

/-! ## Directories and the mask -/

/-- Change the working directory. -/
def cd : Builtin := fun arguments => do
  let state ← get
  let target := match arguments with
    | [] => (valueOf? state "HOME".toList).getD ['/']
    | ['-', '-'] :: path :: _ => path
    | ['-'] :: _ => (valueOf? state "OLDPWD".toList).getD []
    | path :: _ => path
  match state.files.changeDirectory target.string with
  | .error _ => failWith 2 s!"cd: can't cd to {target.string}"
  | .ok files =>
    let path (files : FileSystem) : Text := Text.ofString (files.currentPath.toOption.getD "")
    set { state with files }
    setVariable "OLDPWD".toList (path state.files)
    setVariable "PWD".toList (path files)
    if arguments.head? = some ['-'] then write 1 (path files ++ ['\n'])
    succeed

/-- Write the path of the working directory. -/
def pwd : Builtin := fun _ => do
  match (← get).files.currentPath with
  | .ok path =>
    write 1 (Text.ofString path ++ ['\n'])
    succeed
  | .error _ => setStatus 1

/-- The digits of a number in base eight, four at least. -/
def octal (n : Nat) : Text :=
  let digits := Nat.toDigits 8 n
  List.replicate (4 - digits.length) '0' ++ digits

/-- Show or change the mask of new files. -/
def mask : Builtin := fun arguments => do
  match arguments with
  | [] =>
    write 1 (octal (← get).mask ++ ['\n'])
    succeed
  | text :: _ =>
    if text.all fun c => '0' ≤ c ∧ c ≤ '7' then
      modify ({ · with mask := text.foldl (fun n c => 8 * n + (c.toNat - 48)) 0 % 512 })
    succeed

end Builtin

end Micromag.Shell

/-!
## Signals and commands that are not waited for

A signal ends the shell that it is sent to, unless the shell holds it back: then a command is
carried out for it, or nothing at all. A command that is not waited for has a number, under which
its status can be asked for later.
-/

namespace Micromag.Shell

namespace Signal

/-- The signals: name, number, and the words for a command that was ended by it. -/
def all : List (String × Nat × String) :=
  [("HUP", 1, "Hangup"), ("INT", 2, "Interrupt"), ("QUIT", 3, "Quit"),
    ("ILL", 4, "Illegal instruction"), ("TRAP", 5, "Trace/breakpoint trap"), ("ABRT", 6, "Aborted"),
    ("BUS", 7, "Bus error"), ("FPE", 8, "Floating point exception"), ("KILL", 9, "Killed"),
    ("USR1", 10, "User defined signal 1"), ("SEGV", 11, "Segmentation fault"),
    ("USR2", 12, "User defined signal 2"), ("PIPE", 13, "Broken pipe"), ("ALRM", 14, "Alarm clock"),
    ("TERM", 15, "Terminated"), ("CHLD", 17, "Child exited"), ("CONT", 18, "Continued"),
    ("STOP", 19, "Stopped (signal)"), ("TSTP", 20, "Stopped"), ("TTIN", 21, "Stopped (tty input)"),
    ("TTOU", 22, "Stopped (tty output)"), ("URG", 23, "Urgent I/O condition"),
    ("XCPU", 24, "CPU time limit exceeded"), ("XFSZ", 25, "File size limit exceeded"),
    ("VTALRM", 26, "Virtual timer expired"), ("PROF", 27, "Profiling timer expired"),
    ("WINCH", 28, "Window changed"), ("IO", 29, "I/O possible"), ("PWR", 30, "Power failure"),
    ("SYS", 31, "Bad system call")]

/-- The greatest number of a signal. -/
def greatest : Nat := 64

/-- The signal of a name or a number; zero is the end of a shell. -/
def ofText? (text : Text) : Option Nat :=
  match Text.toNat? text with
  | some n => if n ≤ greatest then some n else none
  | none => (("EXIT", 0, "") :: all).lookup text.string.toUpper |>.map (·.1)

/-- The name of a signal. -/
def nameOf (signal : Nat) : String :=
  ((("EXIT", 0, "") :: all).find? (·.2.1 = signal)).map (·.1) |>.getD (toString signal)

/-- The words for a command that was ended by a signal. -/
def words (signal : Nat) : String :=
  ((all.find? (·.2.1 = signal)).map (·.2.2)).getD s!"Unknown signal {signal}"

/-- Signals that do nothing by themselves. -/
def harmless : List Nat := [0, 17, 18, 19, 20, 21, 22, 23, 28]

/-- Signals that cannot be held back. -/
def certain : List Nat := [9, 19]

end Signal

namespace Run

/-- Tell that a command was ended by a signal, and set its status. -/
def tellEnded (signal : Nat) : Run Unit := do
  if signal ≠ 2 && signal ≠ 13 then write 2 (Text.ofString (Signal.words signal ++ "\n"))
  setStatus (128 + signal)

end Run

namespace Builtin

open Run

/-! ## Signals -/

/-- Send a signal to a shell or to a command that was not waited for. -/
def send (signal : Nat) (target : Text) : Run Unit := do
  let state ← get
  let shell ← number "kill" target
  if (state.jobs.lookup shell).isSome then
    if !Signal.harmless.contains signal then
      set { state with
        jobs := (shell, 128 + signal) :: state.jobs.filter (·.1 ≠ shell)
        ended := (shell, signal) :: state.ended }
  else if 1000 ≤ shell && shell ≤ state.number then
    if state.heeded.contains (shell, signal) then
      set { state with arrived := state.arrived ++ [(shell, signal)] }
    else if !Signal.harmless.contains signal then throw (.signal shell signal)
  else failWith 1 "kill: No such process\n"

/-- Send a signal to all of some targets. -/
def sendAll (signal : Nat) (targets : List Text) : Run Unit := do
  if targets.isEmpty then
    let usage := "Usage: kill [-s sigspec | -signum | -sigspec] [pid | job]... or"
    failWith 2 s!"kill: {usage}\nkill -l [exitstatus]"
  else
    succeed
    targets.forM (send signal)

/-- Send a signal to shells, or write the names of signals. -/
def kill : Builtin := fun arguments => do
  match arguments with
  | ['-', 'l'] :: [] =>
    write 1 ("0\n".toList ++ (List.range Signal.greatest).flatMap fun n =>
      Text.ofString (Signal.nameOf (n + 1)) ++ ['\n'])
    succeed
  | ['-', 'l'] :: text :: _ =>
    let status ← number "kill" text
    let signal := if 128 < status then status - 128 else status
    write 1 (Text.ofString (Signal.nameOf signal) ++ ['\n'])
    succeed
  | ['-', 's'] :: name :: targets =>
    match Signal.ofText? name with
    | some signal => sendAll signal targets
    | none => failWith 2 s!"kill: invalid signal number or name: {Text.string name}"
  | ('-' :: c :: name) :: targets =>
    match Signal.ofText? (c :: name) with
    | some signal => sendAll signal targets
    | none => failWith 2 s!"kill: Illegal option -{c}"
  | targets => sendAll 15 targets

/-- Set what is carried out for a signal, or give that up. -/
def setTrap (signal : Nat) (action : Option Text) : Run Unit := modify fun state =>
  let others := state.traps.filter (·.1 ≠ signal)
  let holds := action.isSome && !Signal.certain.contains signal
  { state with
    traps := match action with
      | some text => (others ++ [(signal, text)]).mergeSort fun a b => decide (a.1 ≤ b.1)
      | none => others
    heeded := if state.nested then state.heeded
      else
        let others := state.heeded.filter (· ≠ (state.number, signal))
        if holds then (state.number, signal) :: others else others }

/-- Keep commands for signals or for the end of the shell. -/
def trap : Builtin := fun arguments => do
  match withoutDashes arguments with
  | [] =>
    for (signal, text) in (← get).traps do
      write 1 ("trap -- '".toList ++ text ++ "' ".toList ++ Text.ofString (Signal.nameOf signal) ++
        ['\n'])
    succeed
  | first :: rest =>
    let alone := rest.isEmpty || (Signal.ofText? first).isSome
    let action := if alone || first = ['-'] then none else some first
    succeed
    for name in (if alone then first :: rest else rest) do
      if (← status) = 0 then
        match Signal.ofText? name with
        | some signal => setTrap signal action
        | none =>
          write 2 (Text.ofString s!"trap: {Text.string name}: bad trap\n")
          setStatus 1

/-! ## Commands that are not waited for -/

/-- Wait for a command: its status. -/
def waitFor (target : Text) : Run Unit := do
  let job ← number "wait" target
  let state ← get
  set { state with jobs := state.jobs.filter (·.1 ≠ job), ended := state.ended.filter (·.1 ≠ job) }
  match state.ended.lookup job, state.jobs.lookup job with
  | some signal, _ => tellEnded signal
  | none, found => setStatus (found.getD 127)

/-- Wait for commands. -/
def wait : Builtin := fun arguments => do
  if arguments.isEmpty then
    modify ({ · with jobs := [], ended := [] })
    succeed
  else arguments.forM waitFor

end Builtin

end Micromag.Shell
