import Micromag.Shell.Expansion
import Micromag.Shell.Tool.Table

/-!
# Commands of the shell itself

These commands change the shell: its variables, its arguments, its settings, its directory and the
order in which commands are carried out. Here are those that write and those that change the order.
-/

namespace Micromag.Shell

/-- A command of the shell, given its arguments; it sets the status. -/
abbrev Builtin := List Text → Run Unit

namespace Builtin

open Run

/-- Succeed. -/
def succeed : Run Unit := setStatus 0

/-- End with a status after a message. -/
def failWith (status : Nat) (message : String) : Run Unit := do
  warn message
  setStatus status

/-- A number of an argument, or a fault that ends the shell. -/
def number (command : String) (text : Text) : Run Nat := do
  match Text.toNat? text with
  | some n => return n
  | none => die s!"{command}: Illegal number: {Text.string text}"

/-- The status that an argument gives, or the last status. -/
def statusOf (command : String) (arguments : List Text) : Run Nat := do
  match arguments with
  | [] => status
  | text :: _ => return (← number command text) % 256

/-! ## Output -/

/-- Write arguments with escapes. -/
def echo : Builtin := fun arguments => do
  let (quiet, words) := match arguments with
    | ['-', 'n'] :: words => (true, words)
    | words => (false, words)
  let (text, ended) := Escape.all (Text.joined [' '] words)
  write 1 (text ++ if quiet || ended then [] else ['\n'])
  succeed

/-- Write formatted arguments. -/
def printf : Builtin := fun arguments => do
  match withoutDashes arguments with
  | [] => failWith 2 "printf: usage: printf format [arg ...]"
  | format :: arguments =>
    let formatted := Formatting.run format arguments
    write 1 formatted.text
    for message in formatted.messages.reverse do
      warn s!"printf: {message}"
    setStatus (formatted.status 2)

/-- Test a condition. -/
def test (name : String) : Builtin := fun arguments => do
  match Tool.Testing.evaluate (← get).files arguments with
  | .ok result => setStatus (if result then 0 else 1)
  | .error sentence => failWith 2 s!"{name}: {sentence}"

/-- Test a condition up to a closing bracket. -/
def bracket : Builtin := fun arguments => do
  if arguments.getLast? = some [']'] then test "[" arguments.dropLast
  else failWith 2 "[: missing ]"

/-! ## Order -/

/-- End the shell. -/
def exit : Builtin := fun arguments => do throw (.leave (← statusOf "exit" arguments))

/-- End a function or a script. -/
def back : Builtin := fun arguments => do throw (.back (← statusOf "return" arguments))

/-- The number of loops that an argument asks for, at most those that there are. -/
def loopsOf (command : String) (arguments : List Text) : Run Nat := do
  let asked ← match arguments with
    | [] => pure 1
    | text :: _ => number command text
  return min (max asked 1) (← get).loops

/-- End loops. -/
def out : Builtin := fun arguments => do
  let loops ← loopsOf "break" arguments
  succeed
  if loops ≠ 0 then throw (.out loops)

/-- Go on with the next round of a loop. -/
def again : Builtin := fun arguments => do
  let loops ← loopsOf "continue" arguments
  succeed
  if loops ≠ 0 then throw (.again loops)

end Builtin

end Micromag.Shell
