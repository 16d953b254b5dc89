import Micromag.Shell.Arithmetic
import Micromag.Shell.Fields
import Micromag.Shell.State

/-!
# Expansion of words

The parts of a word are replaced by what they stand for. Where a list of fields is wanted, the
result is split and patterns are replaced by paths; elsewhere it is one text. Commands and words
within words are carried out by means that are given.
-/

namespace Micromag.Shell

/-- The means to carry out what stands within a command. -/
structure Inner where
  /-- Carry out a command. -/
  command : Command → Run Unit
  /-- Expand a word. -/
  atoms : Word → Run (List Atom)
  /-- Carry out the commands of a text. -/
  script : Text → Run Unit

namespace Run

/-- Carry out a part in a shell of its own, with what it has left for its end: the status. -/
def inShell (inner : Inner) (part : Run Unit) : Run Nat := isolated do
  try part
  catch
    | .leave status | .back status => setStatus status
    | .out _ | .again _ => return ()
    | .signal shell signal => throw (.signal shell signal)
  let state ← get
  match state.traps.lookup 0 with
  | none => return ()
  | some text =>
    set { state with traps := state.traps.filter (·.1 ≠ 0) }
    inner.script text
    setStatus state.status

/-- Carry out what is left for the signals that have arrived. The status stays what it was. -/
def answerSignals (inner : Inner) : Run Unit := do
  let state ← get
  if state.nested || state.arrived.isEmpty then return ()
  let (own, others) := state.arrived.partition (·.1 = state.number)
  set { state with arrived := others }
  for (_, signal) in own do
    match state.traps.lookup signal with
    | some text =>
      inner.script text
      setStatus state.status
    | none => pure ()

/-! ## Parameters -/

/-- The letters of the settings. -/
def settingLetters (settings : Settings) : Text :=
  (if settings.exitOnFailure then ['e'] else []) ++ (if settings.keepPatterns then ['f'] else []) ++
    (if settings.refuseUnset then ['u'] else []) ++ (if settings.showCommands then ['x'] else [])

/-- The value of a parameter that has a single value. -/
def parameter? (state : State) (name : Text) : Option Text :=
  match name with
  | ['#'] => some (Text.ofNat state.arguments.length)
  | ['?'] => some (Text.ofNat state.status)
  | ['$'] => some (Text.ofNat state.number)
  | ['-'] => some (settingLetters state.settings)
  | ['!'] => state.lastJob.map Text.ofNat
  | ['0'] => some state.name
  | _ =>
    match Text.toNat? name with
    | some n => state.arguments[n - 1]?
    | none => valueOf? state name

/-- Whether a name stands for all arguments. -/
def isAll (name : Text) : Bool := name = ['@'] || name = ['*']

/-- The text of a parameter; all arguments are put together. -/
def parameterText? (state : State) (name : Text) : Option Text :=
  if isAll name then
    if state.arguments.isEmpty then none else some (Text.joined [' '] state.arguments)
  else parameter? state name

/-- Texts as pieces with cuts between them. -/
def cutBetween (quoted : Bool) (texts : List Text) : List Atom :=
  List.intercalate [.cut] (texts.map (Atom.ofExpansion quoted))

/-- All arguments as pieces. -/
def allArguments (state : State) (quoted : Bool) (name : Text) (texts : List Text) : List Atom :=
  if quoted && name = ['*'] then
    Atom.ofQuoted (Text.joined ((separators state).take 1) texts)
  else cutBetween quoted texts

/-- The value of a parameter as pieces. -/
def parameterAtoms (quoted : Bool) (name : Text) : Run (List Atom) := do
  let state ← get
  if isAll name then return allArguments state quoted name state.arguments
  else
    match parameter? state name with
    | some text => return Atom.ofExpansion quoted text
    | none =>
      if state.settings.refuseUnset then die s!"{Text.string name}: parameter not set"
      else return Atom.ofExpansion quoted []

/-- Pieces of a word that stands in for a value: they are split like a value. -/
def standIn (quoted : Bool) (atoms : List Atom) : List Atom :=
  if quoted then .kept :: atoms
  else atoms.map fun atom => match atom with
    | .written ⟨c, false⟩ => .expanded c
    | atom => atom

/-- Whether a value counts as missing. -/
def isMissing (onEmpty : Bool) : Option Text → Bool
  | none => true
  | some text => onEmpty && text.isEmpty

/-- The text of a word. -/
def textOf (inner : Inner) (word : Word) : Run Text := do return Atom.text (← inner.atoms word)

/-- A changed parameter as pieces. -/
def changedAtoms (inner : Inner) (quoted : Bool) (name : Text) :
    Change → Run (List Atom)
  | .none => parameterAtoms quoted name
  | .length => do
    let state ← get
    let count := if isAll name then state.arguments.length
      else ((parameter? state name).getD []).length
    return Atom.ofExpansion quoted (Text.ofNat count)
  | .default onEmpty word => do
    if isMissing onEmpty (parameterText? (← get) name) then
      return standIn quoted (← inner.atoms word)
    else parameterAtoms quoted name
  | .assign onEmpty word => do
    if isMissing onEmpty (parameterText? (← get) name) then
      let text ← textOf inner word
      setVariable name text
      return Atom.ofExpansion quoted text
    else parameterAtoms quoted name
  | .require onEmpty word => do
    if isMissing onEmpty (parameterText? (← get) name) then
      let text ← textOf inner word
      let usual := if onEmpty then "parameter not set or null" else "parameter not set"
      die s!"{Text.string name}: {if text.isEmpty then usual else Text.string text}"
    else parameterAtoms quoted name
  | .alternative onEmpty word => do
    if isMissing onEmpty (parameterText? (← get) name) then
      return if quoted then [.kept] else []
    else return standIn quoted (← inner.atoms word)
  | .trim atEnd longest pattern => do
    let glob := Glob.ofWord (Atom.marks (← inner.atoms pattern))
    let state ← get
    if isAll name then
      return allArguments state quoted name (state.arguments.map (glob.trim atEnd longest))
    else
      match parameter? state name with
      | some text => return Atom.ofExpansion quoted (glob.trim atEnd longest text)
      | none => parameterAtoms quoted name

/-! ## Words -/

/-- The output of a command, without the line feeds at its end. -/
def outputOf (inner : Inner) (command : Command) : Run Text := do
  let number ← openStream (.gathered [])
  let status ← keepingDescriptors do
    connect 1 number
    inShell inner (inner.command command)
  modify ({ · with taken := some status })
  return Text.trimLines (gatheredIn (← get) number)

/-- The value of an arithmetic expression. -/
def valueOfSum (inner : Inner) (expression : Word) : Run Int := do
  let text ← textOf inner expression
  let state ← get
  match Sum.evaluate (fun name => (parameter? state name).getD []) text with
  | .error (.expression sentence) =>
    die s!"arithmetic expression: {sentence}: \"{Text.string text}\""
  | .error (.variable value) => die s!"Illegal number: {Text.string value}"
  | .ok (n, assignments) =>
    for (name, value) in assignments do
      setVariable name (Text.ofInt value)
    return n

/-- A part of a word as pieces. -/
def partAtoms (inner : Inner) : WordPart → Run (List Atom)
  | .literal true text => return Atom.ofQuoted text
  | .literal false text => return text.map fun c => .written ⟨c, false⟩
  | .parameter quoted name change => changedAtoms inner quoted name change
  | .substitution quoted command => do
    return Atom.ofExpansion quoted (← outputOf inner command)
  | .arithmetic quoted expression => do
    return Atom.ofExpansion quoted (Text.ofInt (← valueOfSum inner expression))

/-- A word as pieces. -/
def atomsStep (inner : Inner) (word : Word) : Run (List Atom) := do
  return (← word.mapM (partAtoms inner)).flatten

/-- The fields of a word. -/
def fieldsOfWord (inner : Inner) (word : Word) : Run (List Text) := do
  let atoms ← inner.atoms word
  let state ← get
  let fields := fieldsOf (separators state) atoms
  if state.settings.keepPatterns then return fields.map fun field => field.map (·.char)
  else return fields.flatMap (Glob.paths state.files)

/-- The fields of words. -/
def fieldsOfWords (inner : Inner) (words : List Word) : Run (List Text) := do
  return (← words.mapM (fieldsOfWord inner)).flatten

end Run

end Micromag.Shell
