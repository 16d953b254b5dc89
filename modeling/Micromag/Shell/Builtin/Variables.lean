import Micromag.Shell.Builtin.Basic
import Micromag.Shell.Builtin.Settings

/-!
# Variables of a shell, and the table of its builtins
-/

/-!
## Commands for variables

Variables are set, removed, protected, shown to other programs, and filled with input and with the
options among arguments.
-/

namespace Micromag.Shell

namespace Builtin

open Run

/-! ## Declarations -/

/-- The name and the value of an assignment among arguments. -/
def assignment (text : Text) : Text × Option Text :=
  let name := text.takeWhile (· ≠ '=')
  match text.drop name.length with
  | _ :: value => (name, some value)
  | [] => (name, none)

/-- Refuse a name that is none, or one whose value cannot be changed. -/
def checkName (command : String) (name : Text) : Run Unit := do
  if !Text.isName name then die s!"{command}: {Text.string name}: bad variable name"
  checkChangeable s!"{command}: " name

/-- Write how names are marked, and their values. -/
def showMarked (command : String) (names : List Text) : Run Unit := do
  for name in names.mergeSort fun a b => decide (a.map Char.toNat ≤ b.map Char.toNat) do
    let value : Text := match valueOf? (← get) name with
      | some value => "='".toList ++ value ++ ['\x27']
      | none => []
    write 1 (command.toList ++ ' ' :: name ++ value ++ ['\n'])
  succeed

/-- Set variables and mark them, or show the marked ones. -/
def declare (command : String) (marked : State → List Text) (mark : Text → Run Unit) :
    Builtin := fun arguments => do
  if arguments.isEmpty || arguments = [['-', 'p']] then showMarked command (marked (← get))
  for text in if arguments = [['-', 'p']] then [] else withoutDashes arguments do
    let (name, value) := assignment text
    if value.isSome || !Text.isName name then checkName command name
    match value with
    | some value => setVariable name value
    | none => pure ()
    mark name
  succeed

/-- Protect the value of a name. -/
def protect (name : Text) : Run Unit := modify fun state =>
  { state with readOnly := name :: state.readOnly }

/-- Make variables belong to a function. -/
def ownVariables : Builtin := fun arguments => do
  if !(← get).called then die "local: not in a function"
  for text in arguments do
    let (name, value) := assignment text
    modify fun state => { state with saved := (name, valueOf? state name) :: state.saved }
    match value with
    | some value => setVariable name value
    | none => pure ()
  succeed

/-- Remove variables or functions. -/
def unset : Builtin := fun arguments => do
  match arguments with
  | ['-', 'f'] :: names =>
    modify fun state =>
      { state with functions := state.functions.filter fun entry => !names.contains entry.1 }
  | arguments =>
    for name in (if arguments.head? = some ['-', 'v'] then arguments.drop 1 else arguments) do
      checkName "unset" name
      unsetVariable name
  succeed

/-! ## Input -/

/-- The characters of a line of input and what is behind it; a backslash quotes a character unless
that is turned off. The last value says whether the line was ended. -/
def inputLine (raw : Bool) : Text → List Atom × Text × Bool
  | [] => ([], [], false)
  | '\\' :: '\n' :: rest =>
    if raw then ([.expanded '\\'], rest, true) else inputLine raw rest
  | '\\' :: c :: rest =>
    let (atoms, rest, ended) := inputLine raw rest
    if raw then (.expanded '\\' :: .expanded c :: atoms, rest, ended)
    else (.written ⟨c, true⟩ :: atoms, rest, ended)
  | c :: rest =>
    if c = '\n' then ([], rest, true)
    else
      let (atoms, rest, ended) := inputLine raw rest
      (.expanded c :: atoms, rest, ended)

/-- Pieces without the separating blanks at their start. -/
def dropBlanks (separators : Text) (atoms : List Atom) : List Atom :=
  atoms.dropWhile fun atom => match atom with
    | .expanded c => separators.contains c && " \t\n".toList.contains c
    | _ => false

/-- The first field of pieces, and the pieces behind it. -/
def firstField (separators : Text) (atoms : List Atom) : Text × List Atom :=
  let separates (atom : Atom) : Bool := match atom with
    | .expanded c => separators.contains c
    | _ => false
  let field := atoms.takeWhile fun atom => !separates atom
  let rest := dropBlanks separators (atoms.drop field.length)
  let rest := match atoms.drop field.length, rest with
    | .expanded c :: _, .expanded d :: more =>
      if separators.contains d && !(" \t\n".toList.contains d) &&
          (" \t\n".toList.contains c || rest.length = (atoms.drop field.length).length) then
        dropBlanks separators more
      else rest
    | _, rest => rest
  (Atom.text field, rest)

/-- Give fields to names; the last name takes all that is left. -/
def giveFields (separators : Text) (atoms : List Atom) : List Text → Run Unit
  | [] => return ()
  | [name] =>
    setVariable name (Atom.text (dropBlanks separators atoms.reverse).reverse)
  | name :: names => do
    let (field, rest) := firstField separators atoms
    setVariable name field
    giveFields separators rest names

/-- Read a line into variables. -/
def read : Builtin := fun arguments => do
  let raw := arguments.head? = some ['-', 'r']
  let names := if raw then arguments.drop 1 else arguments
  let state ← get
  let (atoms, rest, ended) := inputLine raw (pending 0 state)
  set (leave 0 rest state)
  let between := separators state
  giveFields between (dropBlanks between atoms) names
  setStatus (if ended then 0 else 1)

/-! ## Options -/

/-- The option that comes next among arguments. -/
structure NextOption where
  /-- The letter, or a sign that there is none. -/
  letter : Char
  /-- The value, if there is one. -/
  value : Option Text
  /-- The number of arguments that are passed. -/
  passed : Nat
  /-- The number of letters of the last of them that are passed, if more follow. -/
  within : Option Nat
  /-- A message. -/
  message : Option String := none

/-- The option with a letter; `rest` is what stands behind the letter in its argument, and `next`
the argument behind it. A colon in front of the letters asks for no messages. -/
def NextOption.ofLetter (letters : Text) (c : Char) (rest : Text) (next : Option Text)
    (passed offset : Nat) : NextOption :=
  let quiet := letters.head? = some ':'
  let within := if rest.isEmpty then none else some offset
  let behind := (letters.dropWhile (· ≠ c)).drop 1
  if c = ':' || !letters.contains c then
    if quiet then ⟨'?', some [c], passed, within, none⟩
    else ⟨'?', none, passed, within, some s!"Illegal option -{c}"⟩
  else if behind.head? = some ':' then
    if !rest.isEmpty then ⟨c, some rest, passed, none, none⟩
    else
      match next with
      | some value => ⟨c, some value, passed + 1, none, none⟩
      | none =>
        if quiet then ⟨':', some [c], passed, none, none⟩
        else ⟨'?', none, passed, none, some s!"No arg for -{c} option"⟩
  else ⟨c, some [], passed, within, none⟩

/-- The next option among arguments, of which some are passed; nothing if there is none. The second
value is the number of arguments that are passed then. -/
def nextOption (letters : Text) (arguments : List Text) (passed : Nat) (within : Option Nat) :
    Option NextOption × Nat :=
  match within, (arguments[passed - 1]?).map (·.drop (within.getD 0)) with
  | some offset, some (c :: rest) =>
    (some (.ofLetter letters c rest arguments[passed]? passed (offset + 1)), passed)
  | _, _ =>
    match arguments[passed]? with
    | some ['-', '-'] => (none, passed + 1)
    | some ('-' :: c :: rest) =>
      (some (.ofLetter letters c rest arguments[passed + 1]? (passed + 1) 2), passed)
    | _ => (none, passed)

/-- Take the next option of the arguments. -/
def takeOption : Builtin := fun arguments => do
  match arguments with
  | letters :: name :: given =>
    let state ← get
    let given := if given.isEmpty then state.arguments else given
    let position := "OPTIND".toList
    let passed := (((valueOf? state position).bind Text.toNat?).getD 1) - 1
    let (option, passed) := nextOption letters given passed state.withinOption
    let passed := (option.map (·.passed)).getD passed
    match option with
    | none => modify ({ · with withinOption := none })
    | some option =>
      modify ({ · with withinOption := option.within })
      match option.message with
      | some message => write 2 (Text.ofString (message ++ "\n"))
      | none => pure ()
      match option.value with
      | some value => setVariable "OPTARG".toList value
      | none => unsetVariable "OPTARG".toList
    setVariable position (Text.ofNat (passed + 1))
    setVariable name [(option.map (·.letter)).getD '?']
    setStatus (if option.isSome then 0 else 1)
  | _ => failWith 2 "getopts: Usage: getopts optstring var [arg]"

end Builtin

end Micromag.Shell

/-!
## The table of the shell's own commands

The commands by their names. Those marked are special: a fault in them ends the shell, and
assignments in front of them stay.
-/

namespace Micromag.Shell

namespace Builtin

/-- The commands of the shell by name. -/
def all : List (String × Bool × Builtin) :=
  [(":", true, fun _ => succeed), ("true", false, fun _ => succeed),
    ("false", false, fun _ => Run.setStatus 1), ("echo", false, echo), ("printf", false, printf),
    ("test", false, test "test"), ("[", false, bracket), ("exit", true, exit),
    ("return", true, back), ("break", true, out), ("continue", true, again),
    ("kill", false, kill), ("trap", true, trap), ("wait", false, wait),
    ("export", true, declare "export" State.exported Run.exportVariable),
    ("readonly", true, declare "readonly" State.readOnly protect), ("local", true, ownVariables),
    ("unset", true, unset), ("read", false, read), ("getopts", false, takeOption),
    ("shift", true, shift), ("set", true, adjust), ("cd", false, cd), ("chdir", false, cd),
    ("pwd", false, pwd), ("umask", false, mask), ("times", true, fun _ => succeed),
    ("hash", false, fun _ => succeed), ("ulimit", false, fun _ => succeed),
    ("alias", false, fun _ => succeed), ("unalias", false, fun _ => succeed)]

/-- The command of the shell with a name. -/
def find? (name : String) : Option (Bool × Builtin) := all.lookup name

end Builtin

end Micromag.Shell
