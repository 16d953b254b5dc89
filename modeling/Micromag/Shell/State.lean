import Micromag.Files.System
import Micromag.Shell.Command

/-!
# The state of a shell

A shell works on a file system. What it reads and writes goes through streams, to which descriptors
lead: zero for input, one for output, two for messages. A command ends with a status, which is zero
if it succeeds, or it stops the commands around it.
-/

namespace Micromag.Shell

/-- Something that can be read or written. -/
inductive Stream where
  /-- Output that is kept, its latest part first. -/
  | gathered (parts : List Text)
  /-- Input. -/
  | source (rest : Text)
  /-- A file that is written from a place, or at its end. -/
  | file (path : String) (offset : Nat) (atEnd : Bool)
  /-- Nothing. -/
  | nothing
deriving Inhabited

/-- Settings of a shell. -/
structure Settings where
  /-- A command that fails ends the shell. -/
  exitOnFailure : Bool := false
  /-- A parameter without a value is a fault. -/
  refuseUnset : Bool := false
  /-- Patterns are not replaced by paths. -/
  keepPatterns : Bool := false
  /-- Commands are shown before they are carried out. -/
  showCommands : Bool := false
deriving DecidableEq, Repr

/-- The state of a shell. -/
structure State where
  /-- The file system. -/
  files : FileSystem
  /-- The streams by their numbers. -/
  streams : Array Stream := #[]
  /-- Descriptors with the numbers of streams. -/
  descriptors : List (Nat × Nat) := []
  /-- Variables. -/
  bindings : List (Text × Text) := []
  /-- Functions. -/
  functions : List (Text × Command) := []
  /-- The name of the script or of the shell. -/
  name : Text
  /-- The arguments. -/
  arguments : List Text := []
  /-- The status of the last command. -/
  status : Nat := 0
  /-- The settings. -/
  settings : Settings := {}
  /-- A failure is expected and does not end the shell. -/
  guarded : Bool := false
  /-- Names whose values cannot be changed. -/
  readOnly : List Text := []
  /-- Names whose values other programs see. -/
  exported : List Text := []
  /-- What is carried out when a signal arrives, by its number. An empty text ignores the signal,
  and zero stands for the end of the shell. -/
  traps : List (Nat × Text) := []
  /-- The shells and signals of which one is held back for the other. -/
  heeded : List (Nat × Nat) := []
  /-- The signals that were held back for shells, the earliest first. -/
  arrived : List (Nat × Nat) := []
  /-- The shell is a part of another one. -/
  nested : Bool := false
  /-- The status of each command that was not waited for, by its number, the latest first. -/
  jobs : List (Nat × Nat) := []
  /-- The signals that have ended commands which were not waited for. -/
  ended : List (Nat × Nat) := []
  /-- The number of the last command that was not waited for. -/
  lastJob : Option Nat := none
  /-- The number of letters that are passed within the argument whose options are being read. -/
  withinOption : Option Nat := none
  /-- The mask of new files. -/
  mask : Nat := 18
  /-- The number of this shell. -/
  number : Nat := 1000
  /-- The line of the current command. -/
  line : Nat := 1
  /-- The number of loops around the current command. -/
  loops : Nat := 0
  /-- A function is called. -/
  called : Bool := false
  /-- The values that variables had before a function made them its own. -/
  saved : List (Text × Option Text) := []
  /-- The status of the last command whose output was taken into a word. -/
  taken : Option Nat := none

/-- Why commands are not carried out to their end. -/
inductive Stop where
  /-- The shell ends with a status. -/
  | leave (status : Nat)
  /-- A function ends with a status. -/
  | back (status : Nat)
  /-- A number of loops end. -/
  | out (loops : Nat)
  /-- The outermost of a number of loops goes on with its next round. -/
  | again (loops : Nat)
  /-- The shell with a number is ended by a signal. -/
  | signal (shell signal : Nat)
deriving DecidableEq, Repr

/-- Carrying out a part of a script. -/
abbrev Run (α : Type) := ExceptT Stop (StateM State) α

namespace Run

variable {α : Type}

/-- Set the status. -/
def setStatus (status : Nat) : Run Unit := modify fun state => { state with status }

/-- The status. -/
def status : Run Nat := do return (← get).status

/-! ## Streams -/

/-- Open a stream: its number. -/
def openStream (stream : Stream) : Run Nat := do
  let state ← get
  set { state with streams := state.streams.push stream }
  return state.streams.size

/-- Let a descriptor lead to a stream. -/
def connect (descriptor stream : Nat) : Run Unit := modify fun state =>
  { state with descriptors :=
      (descriptor, stream) :: state.descriptors.filter (·.1 ≠ descriptor) }

/-- Let a descriptor lead nowhere. -/
def disconnect (descriptor : Nat) : Run Unit := modify fun state =>
  { state with descriptors := state.descriptors.filter (·.1 ≠ descriptor) }

/-- Bytes with others in place of those from an offset on. -/
def overwrite (content : List UInt8) (offset : Nat) (bytes : List UInt8) : List UInt8 :=
  content.take offset ++ List.replicate (offset - content.length) 0 ++ bytes ++
    content.drop (offset + bytes.length)

/-- Write to a stream. -/
def writeStream (state : State) (number : Nat) (text : Text) : State :=
  match state.streams[number]? with
  | some (.gathered parts) =>
    { state with streams := state.streams.setIfInBounds number (.gathered (text :: parts)) }
  | some (.file path offset atEnd) =>
    let content := (state.files.contentOf path).toOption.getD []
    let offset := if atEnd then content.length else offset
    let content := overwrite content offset (Text.toBytes text)
    { state with
      files := (state.files.writeFile path content).toOption.getD state.files
      streams := state.streams.setIfInBounds number (.file path (offset + text.length) atEnd) }
  | _ => state

/-- Write to a descriptor. -/
def write (descriptor : Nat) (text : Text) : Run Unit := modify fun state =>
  if text.isEmpty then state
  else
    match state.descriptors.lookup descriptor with
    | some number => writeStream state number text
    | none => state

/-- What can still be read from a descriptor. -/
def pending (descriptor : Nat) (state : State) : Text :=
  match (state.descriptors.lookup descriptor).bind (state.streams[·]?) with
  | some (.source rest) => rest
  | some (.file path offset _) =>
    (Text.ofBytes ((state.files.contentOf path).toOption.getD [])).drop offset
  | _ => []

/-- Leave a text to be read from a descriptor. -/
def leave (descriptor : Nat) (rest : Text) (state : State) : State :=
  match state.descriptors.lookup descriptor with
  | none => state
  | some number =>
    match state.streams[number]? with
    | some (.source _) =>
      { state with streams := state.streams.setIfInBounds number (.source rest) }
    | some (.file path _ atEnd) =>
      let size := ((state.files.contentOf path).toOption.getD []).length
      { state with
        streams := state.streams.setIfInBounds number (.file path (size - rest.length) atEnd) }
    | _ => state

/-- What was gathered by a stream. -/
def gatheredIn (state : State) (number : Nat) : Text :=
  match state.streams[number]? with
  | some (.gathered parts) => parts.reverse.flatten
  | _ => []

/-- Carry out a part and put back the descriptors, even if it stops. -/
def keepingDescriptors (part : Run α) : Run α := fun state =>
  let (result, after) := part.run state
  (result, { after with descriptors := state.descriptors })

/-- Carry out a part and gather what it writes to a descriptor. -/
def gather (descriptor : Nat) (part : Run Unit) : Run Text := do
  let number ← openStream (.gathered [])
  keepingDescriptors do
    connect descriptor number
    part
  return gatheredIn (← get) number

/-! ## Messages -/

/-- The start of a message. -/
def messageStart (state : State) : Text :=
  state.name ++ ": ".toList ++ Text.ofNat state.line ++ ": ".toList

/-- Write a message. -/
def warn (message : String) : Run Unit := do
  write 2 (messageStart (← get) ++ Text.ofString message ++ ['\n'])

/-- Write a message and end the shell. -/
def die (message : String) : Run α := do
  warn message
  throw (.leave 2)

/-! ## Variables -/

/-- The value of a variable. -/
def valueOf? (state : State) (name : Text) : Option Text := state.bindings.lookup name

/-- Refuse to change the value of a name that cannot be changed; the message begins with a text. -/
def checkChangeable (start : String) (name : Text) : Run Unit := do
  if (← get).readOnly.contains name then die s!"{start}{Text.string name}: is read only"

/-- Set a variable. -/
def setVariable (name value : Text) : Run Unit := do
  checkChangeable "" name
  modify fun state =>
    { state with bindings := (name, value) :: state.bindings.filter (·.1 ≠ name) }

/-- Let other programs see the value of a name. -/
def exportVariable (name : Text) : Run Unit := modify fun state =>
  { state with exported := if state.exported.contains name then state.exported
    else state.exported ++ [name] }

/-- Remove a variable. -/
def unsetVariable (name : Text) : Run Unit := modify fun state =>
  { state with bindings := state.bindings.filter (·.1 ≠ name) }

/-- The variables that other programs see. -/
def environment (state : State) : List (Text × Text) :=
  state.exported.filterMap fun name => (valueOf? state name).map (name, ·)

/-- The characters that separate fields. -/
def separators (state : State) : Text := (valueOf? state "IFS".toList).getD " \t\n".toList

/-- The variables that every shell has by itself. -/
def usualVariables : List (Text × Text) :=
  [("OPTIND".toList, ['1']), ("PPID".toList, "999".toList)]

/-! ## Shells within the shell -/

/-- The state of a shell around another one after that has ended: what it changed of itself is
forgotten, what it did to files and streams stays, and so do the signals it sent. -/
def around (before after : State) : State :=
  { before with
    files := { after.files with workingDir := before.files.workingDir }
    streams := after.streams
    arrived := after.arrived }

/-- Carry out a part in a shell of its own: its status. Only signals that are ignored stay so there,
and signals for other shells pass on. -/
def isolated (part : Run Unit) : Run Nat := fun state =>
  let (result, after) := part.run
    { state with traps := state.traps.filter (·.2.isEmpty), nested := true }
  let back := around state after
  match result with
  | .ok () => (.ok after.status, back)
  | .error (.leave status) | .error (.back status) => (.ok status, back)
  | .error (.out _) | .error (.again _) => (.ok after.status, back)
  | .error (.signal shell signal) => (.error (.signal shell signal), back)

end Run

end Micromag.Shell
