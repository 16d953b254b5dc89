import Micromag.Shell.Builtin.Variables
import Micromag.Shell.Reader.Command

/-!
# Carrying out commands

Commands are carried out one level at a time: what stands within a command is carried out by means
of the level below. The number of levels bounds how deep commands and calls of functions go, and a
loop has a bounded number of rounds.
-/

namespace Micromag.Shell

namespace Run

/-! ## Redirections -/

/-- An absolute path that stays right when the working directory changes. -/
def absolute (state : State) (path : Text) : String :=
  Path.join (state.files.currentPath.toOption.getD "/") path.string

/-- The words for a file that cannot be made. -/
def outputFault : FileFault → String
  | .absent | .notDirectory => "Directory nonexistent"
  | cause => cause.text

/-- The words for a file that cannot be read. -/
def inputFault : FileFault → String
  | .absent | .notDirectory => "No such file"
  | cause => cause.text

/-- Open a file for output. -/
def openOutput (path : Text) (atEnd : Bool) : Run (Option Stream) := do
  let state ← get
  if path = "/dev/null".toList then return some .nothing
  let kept := if atEnd then (state.files.contentOf path.string).toOption.getD [] else []
  match state.files.writeFile path.string kept with
  | .ok files =>
    set { state with files }
    return some (.file (absolute state path) kept.length atEnd)
  | .error cause =>
    warn s!"cannot create {path.string}: {outputFault cause}"
    return none

/-- Open a file for input. -/
def openInput (path : Text) : Run (Option Stream) := do
  if path = "/dev/null".toList then return some .nothing
  match (← get).files.contentOf path.string with
  | .ok content => return some (.source (Text.ofBytes content))
  | .error cause =>
    warn s!"cannot open {path.string}: {inputFault cause}"
    return none

/-- Let a descriptor lead where another one leads, or nowhere. -/
def duplicate (descriptor : Nat) (target : Text) : Run Bool := do
  if target = ['-'] then
    disconnect descriptor
    return true
  else
    let state ← get
    match (Text.toNat? target).bind fun n => state.descriptors.lookup n with
    | some stream =>
      connect descriptor stream
      return true
    | none =>
      warn s!"{target.string}: Bad file descriptor"
      return false

/-- Let a descriptor lead to a stream, if it could be opened. -/
def connectTo (descriptor : Nat) : Option Stream → Run Bool
  | none => return false
  | some stream => do
    connect descriptor (← openStream stream)
    return true

/-- The descriptor that a device stands for. -/
def deviceOf? (path : Text) : Option Text :=
  [("/dev/stdin".toList, ['0']), ("/dev/stdout".toList, ['1']),
    ("/dev/stderr".toList, ['2'])].lookup path

/-- Carry out a redirection, if that is possible. -/
def redirect (inner : Inner) : Redirection → Run Bool
  | .mk descriptor kind target => do
    let text ← textOf inner target
    match kind, deviceOf? text with
    | .document, _ => connectTo descriptor (some (.source text))
    | .duplicate, _ => duplicate descriptor text
    | _, some device => duplicate descriptor device
    | .input, none => connectTo descriptor (← openInput text)
    | .output, none => connectTo descriptor (← openOutput text false)
    | .append, none => connectTo descriptor (← openOutput text true)
    | .both, none =>
      match ← openOutput text true with
      | some (.file path _ _) => connectTo descriptor (some (.file path 0 false))
      | stream => connectTo descriptor stream

/-- Carry out redirections until one is not possible. -/
def redirectAll (inner : Inner) : List Redirection → Run Bool
  | [] => return true
  | first :: rest => do
    if ← redirect inner first then redirectAll inner rest else return false

/-! ## Failure -/

/-- Carry out a part whose failure is expected. -/
def guarding (part : Run Unit) : Run Unit := do
  let before := (← get).guarded
  modify ({ · with guarded := true })
  part
  modify ({ · with guarded := before })

/-- End the shell after a failure that was not expected, if it is set to do so. -/
def checkFailure : Run Unit := do
  let state ← get
  if state.settings.exitOnFailure && !state.guarded && state.status ≠ 0 then
    throw (.leave state.status)

/-! ## Scripts -/

/-- Carry out the lines of a script. -/
def scriptLines (inner : Inner) (readers : Readers) : Nat → Scan → Run Unit
  | 0, _ => return ()
  | fuel + 1, scan => do
    match (Reading.nextLine readers).run scan with
    | .error fault =>
      modify ({ · with line := fault.line })
      die fault.sentence
    | .ok (none, _) => return ()
    | .ok (some command, scan) =>
      inner.command command
      scriptLines inner readers fuel scan

/-- Carry out the commands of a text. -/
def scriptText (inner : Inner) (text : Text) : Run Unit :=
  let fuel := text.length + 1
  scriptLines inner (Reading.readers fuel) fuel { rest := text }

/-! ## Programs -/

/-- Let a tool work. -/
def useTool (tool : Tool) (arguments : List Text) : Run Unit := do
  let state ← get
  let desk : Desk := { input := pending 0 state, files := state.files }
  let (status, after) := (tool arguments).run desk
  set { state with files := after.files }
  if after.input.length ≠ desk.input.length then modify (leave 0 after.input)
  after.written.reverse.forM fun (descriptor, text) => write descriptor text
  setStatus status

/-- The settings in front of the other arguments of a shell, and whether a text is carried out. -/
def shellOptions (text : Bool) (settings : Settings) : List Text → Bool × Settings × List Text
  | ('-' :: c :: letters) :: rest =>
    if c = '-' then (text, settings, rest)
    else
      shellOptions (text || (c :: letters).contains 'c')
        ((c :: letters).foldl (Builtin.setting true) settings) rest
  | rest => (text, settings, rest)

/-- Be a shell with arguments: carry out a text, a file or the input. -/
def beShell (inner : Inner) (own : Text) (arguments : List Text) : Run Unit := do
  let (isText, settings, rest) := shellOptions false {} arguments
  modify ({ · with settings, nested := false })
  match isText, rest with
  | true, [] => die "-c requires an argument"
  | true, text :: rest =>
    modify ({ · with name := rest.headD own, arguments := rest.drop 1 })
    inner.script text
  | false, [] =>
    modify ({ · with name := own, arguments := [] })
    let text := pending 0 (← get)
    modify (leave 0 [])
    inner.script text
  | false, path :: rest =>
    match (← get).files.contentOf path.string with
    | .ok content =>
      modify ({ · with name := path, arguments := rest })
      inner.script (Text.ofBytes content)
    | .error cause =>
      modify ({ · with name := own, line := 0 })
      warn s!"cannot open {path.string}: {inputFault cause}"
      throw (.leave 2)

/-- Carry out a shell within the shell: its status. -/
def childShell (inner : Inner) (own : Text) (arguments : List Text) : Run Unit := do
  let number := (← get).number + 1
  let child : Run Nat := inShell inner do
    modify fun state => { state with
      number
      bindings := environment state ++ Run.usualVariables
      functions := [], readOnly := [], jobs := [], ended := [], lastJob := none
      guarded := false, loops := 0, called := false, saved := [], status := 0 }
    beShell inner own arguments
  let ended ← try pure (Except.ok (← child))
    catch
      | .signal shell signal =>
        if shell = number then pure (Except.error signal) else throw (.signal shell signal)
      | stop => throw stop
  match ended with
  | .ok status => setStatus status
  | .error signal => tellEnded signal

/-- Put back the values that variables had. -/
def restore (saved : List (Text × Option Text)) : Run Unit :=
  saved.forM fun (name, value) =>
    match value with
    | some value => setVariable name value
    | none => unsetVariable name

/-- Carry out a part with variables that have values only for it, and that other programs see. -/
def withVariables (settings : List (Text × Text)) (part : Run Unit) : Run Unit := do
  let state ← get
  let saved := settings.map fun (name, _) => (name, valueOf? state name)
  for (name, value) in settings do
    setVariable name value
    exportVariable name
  let putBack : Run Unit := do
    restore saved
    modify ({ · with exported := state.exported })
  try part
  catch stop =>
    putBack
    throw stop
  putBack

/-- Settings in front of words, and the words behind them. -/
def settingsOf : List Text → List (Text × Text) × List Text
  | [] => ([], [])
  | word :: rest =>
    match Builtin.assignment word with
    | (name, some value) =>
      if Text.isName name then
        let (settings, words) := settingsOf rest
        ((name, value) :: settings, words)
      else ([], word :: rest)
    | (_, none) => ([], word :: rest)

/-- Carry out words with settings in front of them by given means, or write the variables that other
programs see. -/
def withSettings (carryOut : Text → List Text → Run Unit) (arguments : List Text) : Run Unit := do
  let state ← get
  let bare := arguments.head? = some ['-', 'i']
  if bare then modify ({ · with exported := [] })
  let (settings, words) := settingsOf (if bare then arguments.drop 1 else arguments)
  withVariables settings do
    match words with
    | [] =>
      for (name, value) in environment (← get) do
        write 1 (name ++ '=' :: value ++ ['\n'])
      setStatus 0
    | word :: arguments => carryOut word arguments
  modify ({ · with exported := state.exported })

/-- The words of a text. -/
def wordsOf (text : Text) : List Text :=
  (Micromag.Text.splitOn ' ' (text.map fun c => if c = '\t' || c = '\n' then ' ' else c)).filter
    fun word => !word.isEmpty

/-- Arguments in groups of a size. -/
def inGroups (size : Nat) : Nat → List Text → List (List Text)
  | 0, _ => []
  | fuel + 1, items =>
    if items.length ≤ size then [items]
    else items.take size :: inGroups size fuel (items.drop size)

/-- A text with another text in place of a mark. -/
def replaced (mark new : Text) : Nat → Text → Text
  | fuel + 1, c :: rest =>
    if !mark.isEmpty && mark.isPrefixOf (c :: rest) then
      new ++ replaced mark new fuel ((c :: rest).drop mark.length)
    else c :: replaced mark new fuel rest
  | _, text => text

/-- Carry out words with the words of the input behind them, all at once or some at a time, or with
each line of the input in place of a mark. -/
def withInputWords (carryOut : Text → List Text → Run Unit) (arguments : List Text) : Run Unit := do
  let text := pending 0 (← get)
  modify (leave 0 [])
  let (size, words, mark) := match arguments with
    | ['-', 'n'] :: count :: words => (Text.toNat? count, words, none)
    | ('-' :: 'n' :: c :: count) :: words => (Text.toNat? (c :: count), words, none)
    | ['-', 'I'] :: mark :: words => (none, words, some mark)
    | ('-' :: 'I' :: c :: mark) :: words => (none, words, some (c :: mark))
    | words => (none, words, none)
  let words := if words.isEmpty then ["echo".toList] else words
  let rounds := match mark with
    | some mark => (Text.lines text).map fun line =>
      words.map fun (word : Text) => replaced mark line (word.length + 1) word
    | none =>
      let items := wordsOf text
      (inGroups (max (size.getD items.length) 1) (items.length + 1) items).map (words ++ ·)
  let mut failed := false
  for round in rounds do
    carryOut (round.headD []) (round.drop 1)
    if (← status) ≠ 0 then failed := true
  setStatus (if failed then 123 else 0)

/-- The words in the first line of a script that say what carries it out. -/
def interpreter (text : Text) : List Text :=
  match text with
  | '#' :: '!' :: rest => wordsOf (rest.takeWhile (· ≠ '\n'))
  | _ => []

/-- Carry out the program of a word by means for the program of another word. Messages that it
cannot be found begin with a text. -/
def useProgramBy (other : Text → List Text → Run Unit) (inner : Inner) (start : String)
    (word : Text)
    (arguments : List Text) : Run Unit := do
  let fail (status : Nat) (what : String) : Run Unit :=
    Builtin.failWith status s!"{start}{word.string}: {what}"
  match Program.find (← get).files word.string with
  | .ok (.tool tool) => useTool tool arguments
  | .ok .shell => childShell inner word arguments
  | .ok .setting => withSettings other arguments
  | .ok .feeding => withInputWords other arguments
  | .ok (.script text) =>
    match interpreter text with
    | [] => childShell inner word (word :: arguments)
    | program :: options => other program (options ++ word :: arguments)
  | .error none => fail 126 "Permission denied"
  | .error (some .absent) => fail 127 (if word.isEmpty then "Permission denied" else "not found")
  | .error (some .notDirectory) => fail 127 "not found"
  | .error (some cause) => fail 126 cause.text

/-- The greatest number of programs that carry out one another. -/
def maxCarriers : Nat := 8

/-- Carry out the program of a word. Messages that it cannot be found begin with a text. -/
def useProgram (inner : Inner) (start : String) : Text → List Text → Run Unit :=
  carried maxCarriers
where
  /-- Carry out the program of a word through a number of others. -/
  carried : Nat → Text → List Text → Run Unit
    | 0 => fun word _ => Builtin.failWith 126 s!"{word.string}: Too many levels of symbolic links"
    | depth + 1 => useProgramBy (carried depth) inner start

/-! ## Simple commands -/

/-- Call a function. -/
def callFunction (inner : Inner) (body : Command) (arguments : List Text) : Run Unit := do
  let before ← get
  set { before with arguments, saved := [], called := true }
  let leaveFunction : Run Unit := do
    restore (← get).saved
    modify fun state => { state with
      arguments := before.arguments, saved := before.saved, called := before.called }
  try inner.command body
  catch
    | .back status => setStatus status
    | stop =>
      leaveFunction
      throw stop
  leaveFunction

/-- Carry out the command of its name and arguments, passing over functions if asked to. -/
def invoke (inner : Inner) (functions : Bool) (word : Text) (arguments : List Text) :
    Run Unit := do
  let state ← get
  match word.string with
  | "eval" => inner.script (Text.joined [' '] arguments)
  | "." =>
    match arguments with
    | [] => die ".: filename argument required"
    | path :: _ =>
      match state.files.contentOf path.string with
      | .error cause => die s!".: cannot open {path.string}: {inputFault cause}"
      | .ok content =>
        try inner.script (Text.ofBytes content)
        catch
          | .back status => setStatus status
          | stop => throw stop
  | name =>
    match Builtin.find? name, state.functions.lookup word with
    | some (true, builtin), _ => builtin arguments
    | _, some body =>
      if functions then callFunction inner body arguments
      else useProgram inner "" word arguments
    | some (false, builtin), none => builtin arguments
    | none, none => useProgram inner "" word arguments

/-- Where a command is found. -/
inductive Whereabouts where
  /-- It has a meaning of its own in a script. -/
  | reserved
  /-- It is a command of the shell, perhaps a special one. -/
  | builtin (special : Bool)
  /-- It is a function. -/
  | function
  /-- It is a program with a path. -/
  | program (path : Text)
  /-- It is nowhere. -/
  | nowhere

/-- The commands of the shell that are carried out together with what they are given. -/
def carriers : List (String × Bool) :=
  [("eval", true), (".", true), ("exec", true), ("command", false), ("type", false)]

/-- Where a command is found. -/
def whereabouts (state : State) (word : Text) : Whereabouts :=
  let name := word.string
  if Reading.reserved.contains word then .reserved
  else if (state.functions.lookup word).isSome then .function
  else
    let builtin := ((Builtin.find? name).map (·.1)).or (carriers.lookup name)
    match builtin, Program.find state.files name with
    | some special, _ => .builtin special
    | none, .ok _ => .program (if word.contains '/' then word else "/usr/bin/".toList ++ word)
    | none, .error _ => .nowhere

/-- Write where a command is found. -/
def locateCommand (word : Text) : Run Unit := do
  match whereabouts (← get) word with
  | .nowhere => setStatus 127
  | found =>
    write 1 ((match found with
      | .program path => path
      | _ => word) ++ ['\n'])
    setStatus 0

/-- Tell what a command is. -/
def describeCommand (word : Text) : Run Unit := do
  let tell (what : Text) : Run Unit := write 1 (word ++ what ++ ['\n'])
  setStatus 0
  match whereabouts (← get) word with
  | .reserved => tell " is a shell keyword".toList
  | .builtin true => tell " is a special shell builtin".toList
  | .builtin false => tell " is a shell builtin".toList
  | .function => tell " is a shell function".toList
  | .program path => tell (" is ".toList ++ path)
  | .nowhere =>
    tell ": not found".toList
    setStatus 127

/-- Carry out words as a command. -/
def carryOut (inner : Inner) : List Text → Run Unit
  | [] => setStatus 0
  | word :: arguments => do
    match word.string, arguments with
    | "command", ['-', 'v'] :: name :: _ => locateCommand name
    | "command", ['-', 'V'] :: name :: _ => describeCommand name
    | "command", name :: arguments => invoke inner false name arguments
    | "type", names => names.forM describeCommand
    | "exec", name :: arguments =>
      useProgram inner "exec: " name arguments
      modify fun state => { state with traps := state.traps.filter (·.1 ≠ 0) }
      throw (.leave (← status))
    | "exec", [] => setStatus 0
    | _, arguments => invoke inner true word arguments

/-- Whether a command is special, so that its assignments and its faults concern the shell. -/
def isSpecial (words : List Text) : Bool :=
  match words with
  | [] => true
  | word :: _ =>
    ["eval", ".", "exec"].contains (Text.string word) ||
      ((Builtin.find? (Text.string word)).map (·.1)).getD false

/-- Whether redirections stay after a command. -/
def keepsRedirections (words : List Text) : Bool := words = ["exec".toList]

/-- Carry out a simple command. -/
def simple (inner : Inner) (line : Nat) (assignments : List (Text × Word)) (words : List Word)
    (redirections : List Redirection) : Run Unit := do
  modify ({ · with line, taken := none })
  let fields ← fieldsOfWords inner words
  let settings ← assignments.mapM fun (name, word) => do return (name, ← textOf inner word)
  if (← get).settings.showCommands then
    let shown := settings.map (fun (name, value) => name ++ '=' :: value) ++ fields
    write 2 ("+ ".toList ++ Text.joined [' '] shown ++ ['\n'])
  let part : Run Unit := do
    if !(← redirectAll inner redirections) then
      setStatus 2
      if isSpecial fields && !fields.isEmpty then throw (.leave 2)
    else if fields.isEmpty then
      settings.forM fun (name, value) => setVariable name value
      setStatus ((← get).taken.getD 0)
    else if isSpecial fields then
      settings.forM fun (name, value) => setVariable name value
      carryOut inner fields
    else withVariables settings (carryOut inner fields)
  if keepsRedirections fields then part else keepingDescriptors part
  checkFailure

/-! ## Compound commands -/

/-- Carry out a round of a loop: whether the loop goes on. -/
def goesOn (part : Run Unit) : Run Bool := do
  try
    part
    return true
  catch
    | .out (loops + 2) => throw (.out (loops + 1))
    | .out _ => return false
    | .again (loops + 2) => throw (.again (loops + 1))
    | .again _ => return true
    | stop => throw stop

/-- The greatest number of rounds of a loop. -/
def maxRounds : Nat := 1000000

/-- Go through the rounds of a loop. The last status of the body is the status of the loop. -/
def rounds (inner : Inner) (untilTrue : Bool) (condition body : Command) (last : Nat) :
    Nat → Run Unit
  | 0 => setStatus last
  | fuel + 1 => do
    let more ← goesOn do
      guarding (inner.command condition)
      if ((← status) == 0) == untilTrue then
        setStatus last
        throw (.out 1)
      inner.command body
    if more then rounds inner untilTrue condition body (← status) fuel

/-- Go through the words of a loop. -/
def eachRound (inner : Inner) (name : Text) (body : Command) : List Text → Run Unit
  | [] => return ()
  | word :: rest => do
    setVariable name word
    if ← goesOn (inner.command body) then eachRound inner name body rest

/-- Carry out a loop, which is counted. -/
def counted (part : Run Unit) : Run Unit := do
  modify fun state => { state with loops := state.loops + 1 }
  let uncount : Run Unit := modify fun state => { state with loops := state.loops - 1 }
  try part
  catch stop =>
    uncount
    throw stop
  uncount

/-- The command of the first case with a matching pattern. -/
def chosen (inner : Inner) (text : Text) :
    List (List Word × Command) → Run (Option Command)
  | [] => return none
  | (patterns, command) :: rest => do
    let found ← patterns.anyM fun pattern => do
      return Glob.isMatch (Glob.ofWord (Atom.marks (← inner.atoms pattern))) text
    if found then return some command else chosen inner text rest

/-- Carry out the stages of a pipeline, the first with an input. -/
def stages (inner : Inner) : List Command → Run Unit
  | [] => return ()
  | [last] => do setStatus (← inShell inner (inner.command last))
  | first :: rest => do
    let number ← openStream (.gathered [])
    let _ ← keepingDescriptors do
      connect 1 number
      inShell inner (inner.command first)
    let source ← openStream (.source (gatheredIn (← get) number))
    keepingDescriptors do
      connect 0 source
      stages inner rest

/-- Carry out a command by means of the level below. -/
def commandStep (inner : Inner) : Command → Run Unit
  | .simple line assignments words redirections =>
    simple inner line assignments words redirections
  | .pipeline commands => do
    stages inner commands
    checkFailure
  | .negate command => do
    guarding (inner.command command)
    setStatus (if (← status) = 0 then 1 else 0)
  | .whenTrue first second => do
    guarding (inner.command first)
    if (← status) = 0 then inner.command second
  | .whenFalse first second => do
    guarding (inner.command first)
    if (← status) ≠ 0 then inner.command second
  | .sequence commands => commands.forM inner.command
  | .background command => do
    let nothing ← openStream .nothing
    let status ← keepingDescriptors do
      connect 0 nothing
      inShell inner (inner.command command)
    modify fun state =>
      let job := (state.lastJob.getD (state.number + 1000)) + 1
      { state with jobs := (job, status) :: state.jobs, lastJob := some job, status := 0 }
  | .subshell command => do
    setStatus (← inShell inner (inner.command command))
    checkFailure
  | .branch condition yes no => do
    guarding (inner.command condition)
    if (← status) = 0 then inner.command yes
    else
      setStatus 0
      inner.command no
  | .loop untilTrue condition body => counted (rounds inner untilTrue condition body 0 maxRounds)
  | .each name words body => do
    let words ← match words with
      | some words => fieldsOfWords inner words
      | none => do pure (← get).arguments
    setStatus 0
    counted (eachRound inner name body words)
  | .choose word cases => do
    match ← chosen inner (← textOf inner word) cases with
    | some command =>
      setStatus 0
      inner.command command
    | none => setStatus 0
  | .define name body => do
    modify fun state => { state with
      functions := (name, body) :: state.functions.filter (·.1 ≠ name), status := 0 }
  | .redirected command redirections => keepingDescriptors do
    if ← redirectAll inner redirections then inner.command command else setStatus 2

/-- The means of a level. -/
def means : Nat → Inner
  | 0 => ⟨fun _ => die "too deep", fun _ => die "too deep", fun _ => die "too deep"⟩
  | level + 1 =>
    let inner := means level
    let command (command : Command) : Run Unit := do
      commandStep inner command
      answerSignals inner
    ⟨command, atomsStep inner, scriptText inner⟩

/-- The number of levels. -/
def maxLevels : Nat := 4000

end Run

end Micromag.Shell
