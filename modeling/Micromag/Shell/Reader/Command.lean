import Micromag.Shell.Reader.Word

/-!
# Reading commands

Commands are joined by operators, the weakest of which are line ends. A script is read line by line:
what can be read before a fault is carried out before it. Commands within commands are read by
readers that are given; how deep they go is bounded by the length of the script.
-/

namespace Micromag.Shell

namespace Reading

/-! ## Simple commands -/

/-- The sign of a redirection, and the descriptor it stands for by itself. -/
def redirectionSign : Reading (Option (RedirectionKind × Nat × Bool)) := do
  if ← accept "<<-".toList then return some (.document, 0, true)
  else if ← accept "<<".toList then return some (.document, 0, false)
  else if ← accept "<&".toList then return some (.duplicate, 0, false)
  else if ← accept "<>".toList then return some (.both, 0, false)
  else if ← accept "<".toList then return some (.input, 0, false)
  else if ← accept ">>".toList then return some (.append, 1, false)
  else if ← accept ">&".toList then return some (.duplicate, 1, false)
  else if ← accept ">|".toList then return some (.output, 1, false)
  else if ← accept ">".toList then return some (.output, 1, false)
  else return none

/-- A redirection, if one comes next. -/
def redirection? (inner : Readers) : Reading (Option Redirection) := do
  blanks
  let digits := (← remaining).takeWhile Char.isDigit
  match ((← remaining).drop digits.length).head? with
  | some '<' | some '>' =>
    skip digits.length
    match ← redirectionSign with
    | none => return none
    | some (kind, usual, tabs) =>
      let descriptor := (Text.toNat? digits).getD usual
      if kind = .document then
        return some (.mk descriptor kind (← document inner tabs))
      else
        blanks
        let target ← inner.word .bare
        if target.isEmpty then fail ((← found) ++ " unexpected")
        return some (.mk descriptor kind target)
  | _ => return none

/-- The redirections that come next. -/
def redirections (inner : Readers) : Reading (List Redirection) := do
  collect (redirection? inner) (← fuel)

/-- The name and the value of an assignment. -/
def assignment? : Word → Option (Text × Word)
  | .literal false text :: rest =>
    let name := text.takeWhile (· ≠ '=')
    match text.drop name.length with
    | '=' :: value =>
      if Text.isName name then
        some (name, if value.isEmpty then rest else .literal false value :: rest)
      else none
    | _ => none
  | _ => none

/-- The words and redirections of a simple command. -/
def simpleParts (inner : Readers) : Reading (List (Word ⊕ Redirection)) := do
  collect (do
    match ← redirection? inner with
    | some redirection => return some (.inr redirection)
    | none =>
      let word ← inner.word .bare
      return if word.isEmpty then none else some (.inl word)) (← fuel)

/-- A simple command of its parts: assignments stand in front of all other words. -/
def simpleOf (line : Nat) (parts : List (Word ⊕ Redirection)) : Command :=
  let words := parts.filterMap fun part => part.getLeft?
  let assignments := (words.takeWhile fun word => (assignment? word).isSome).filterMap assignment?
  .simple line assignments (words.drop assignments.length)
    (parts.filterMap fun part => part.getRight?)

/-! ## Compound commands -/

/-- Commands of which there must be at least one. At the end of the script nothing is a fault yet:
what has to follow is missing, too. -/
def body (inner : Readers) : Reading Command := do
  match ← inner.commands with
  | .sequence [] =>
    if ← atEnd then return .sequence [] else fail ((← found) ++ " unexpected")
  | commands => return commands

/-- What follows the condition of a branch, with further branches up to a number of them. -/
def branches (inner : Readers) : Nat → Reading Command
  | 0 => fail "end of file unexpected"
  | fuel + 1 => do
    let condition ← body inner
    expectWord "then"
    let yes ← body inner
    if ← acceptWord "elif" then return .branch condition yes (← branches inner fuel)
    else if ← acceptWord "else" then
      let no ← body inner
      expectWord "fi"
      return .branch condition yes no
    else
      expectWord "fi"
      return .branch condition yes (.sequence [])

/-- The words of a list up to its end. -/
def wordList (inner : Readers) : Reading (List Word) := do
  collect (do
    blanks
    let word ← inner.word .bare
    return if word.isEmpty then none else some word) (← fuel)

/-- A body between `do` and `done`. -/
def doneBody (inner : Readers) : Reading Command := do
  linesAndBlanks
  expectWord "do"
  let commands ← body inner
  expectWord "done"
  return commands

/-- A loop over words, behind its first word. -/
def eachLoop (inner : Readers) : Reading Command := do
  blanks
  let name ← takeWhile Text.inName
  if !Text.isName name then fail "Bad for loop variable"
  linesAndBlanks
  let words ← if ← acceptWord "in" then do pure (some (← wordList inner)) else pure none
  blanks
  let _ ← accept [';']
  return .each name words (← doneBody inner)

/-- The patterns of a case. -/
def patterns (inner : Readers) : Nat → Reading (List Word)
  | 0 => return []
  | fuel + 1 => do
    blanks
    let pattern ← inner.word .bare
    if pattern.isEmpty then
      fail ((← found) ++ if ← atEnd then " unexpected (expecting \x22)\x22)" else " unexpected")
    blanks
    if ← accept ['|'] then return pattern :: (← patterns inner fuel)
    else if ← accept [')'] then return [pattern]
    else fail ((← found) ++ " unexpected (expecting \x22)\x22)")

/-- A case, unless the cases end. -/
def case? (inner : Readers) : Reading (Option (List Word × Command)) := do
  linesAndBlanks
  if ← acceptWord "esac" then return none
  let _ ← accept ['(']
  let patterns ← patterns inner (← fuel)
  let command ← inner.commands
  linesAndBlanks
  if !(← accept ";;".toList) && (← peekWord) ≠ some "esac".toList then
    fail ((← found) ++ " unexpected (expecting \x22;;\x22)")
  return some (patterns, command)

/-- A choice among cases, behind its first word. -/
def choice (inner : Readers) : Reading Command := do
  blanks
  let word ← inner.word .bare
  linesAndBlanks
  expectWord "in"
  return .choose word (← collect (case? inner) (← fuel))

/-- A compound command, if one comes next. -/
def compound? (inner : Readers) : Reading (Option Command) := do
  if ← acceptWord "\x7b" then
    let commands ← body inner
    expectWord "\x7d"
    return some commands
  else if ← accept ['('] then
    let commands ← body inner
    linesAndBlanks
    if !(← accept [')']) then fail ((← found) ++ " unexpected (expecting \x22)\x22)")
    return some (.subshell commands)
  else if ← acceptWord "if" then return some (← branches inner (← fuel))
  else if ← acceptWord "while" then
    let condition ← body inner
    return some (.loop false condition (← doneBody inner))
  else if ← acceptWord "until" then
    let condition ← body inner
    return some (.loop true condition (← doneBody inner))
  else if ← acceptWord "for" then return some (← eachLoop inner)
  else if ← acceptWord "case" then return some (← choice inner)
  else return none

/-! ## Lists of commands -/

/-- A command with redirections behind it. -/
def withRedirections (inner : Readers) (command : Command) : Reading Command := do
  match ← redirections inner with
  | [] => return command
  | redirections => return .redirected command redirections

/-- A command that is not joined to others and does not define a function. -/
def plain (inner : Readers) : Reading Command := do
  match ← compound? inner with
  | some command => withRedirections inner command
  | none =>
    if ((← peekWord).map reserved.contains).getD false then fail ((← found) ++ " unexpected")
    let line := (← get).line
    match ← simpleParts inner with
    | [] => fail ((← found) ++ " unexpected")
    | parts => return simpleOf line parts

/-- The name of a function that is defined next: a word in front of a parenthesis. -/
def functionName? : Reading (Option Text) := do
  blanks
  match ← peekWord with
  | none => return none
  | some name =>
    let after := ((← remaining).drop name.length).dropWhile fun c => c = ' ' || c = '\t'
    let isOther := reserved.contains name || (assignment? [.literal false name]).isSome
    return if after.head? = some '(' && !isOther then some name else none

/-- The definition of a function, whose name comes next. -/
def definition (inner : Readers) (name : Text) : Reading Command := do
  skip name.length
  blanks
  skip 1
  blanks
  if !(← accept [')']) then
    let next ← if (← peekWord).isSome then pure "word" else found
    fail (next ++ " unexpected (expecting \x22)\x22)")
  if !Text.isName name then fail "Bad function name"
  linesAndBlanks
  return .define name (← plain inner)

/-- A command that is not joined to others. -/
def stage (inner : Readers) : Reading Command := do
  match ← functionName? with
  | some name => definition inner name
  | none => plain inner

/-- The further stages of a pipeline. -/
def stages (inner : Readers) : Reading (List Command) := do
  collect (do
    blanks
    if "||".toList.isPrefixOf (← remaining) then return none
    else if ← accept ['|'] then
      linesAndBlanks
      return some (← stage inner)
    else return none) (← fuel)

/-- A pipeline, perhaps with the opposite result. -/
def pipeline (inner : Readers) : Reading Command := do
  let negated ← acceptWord "!"
  let first ← stage inner
  let command ← match ← stages inner with
    | [] => pure first
    | others => pure (.pipeline (first :: others))
  return if negated then .negate command else command

/-- Pipelines joined behind a first one. -/
def joinedBehind (inner : Readers) (first : Command) : Nat → Reading Command
  | 0 => return first
  | fuel + 1 => do
    blanks
    if ← accept "&&".toList then
      linesAndBlanks
      joinedBehind inner (.whenTrue first (← pipeline inner)) fuel
    else if ← accept "||".toList then
      linesAndBlanks
      joinedBehind inner (.whenFalse first (← pipeline inner)) fuel
    else return first

/-- Whether no command can begin here. -/
def atListEnd : Reading Bool := do
  blanks
  match ← remaining with
  | [] => return true
  | ')' :: _ => return true
  | ';' :: ';' :: _ => return true
  | _ =>
    let closing := ["then", "elif", "else", "fi", "do", "done", "esac", "\x7d"].map String.toList
    return ((← peekWord).map closing.contains).getD false

/-- The next command of a list, and whether another one may follow it on the same line. -/
def item (inner : Readers) : Reading (Command × Bool) := do
  let command ← joinedBehind inner (← pipeline inner) (← fuel)
  blanks
  if ";;".toList.isPrefixOf (← remaining) then return (command, false)
  else if ← accept ['&'] then return (.background command, true)
  else return (command, ← accept [';'])

/-- Commands up to the end of a line, or up to something that cannot be one. -/
def line (inner : Readers) : Nat → Reading (List Command)
  | 0 => return []
  | fuel + 1 => do
    if (← atListEnd) || (← peek) = some '\n' then return []
    let (command, more) ← item inner
    if more then return command :: (← line inner fuel) else return [command]

/-- Lines of commands up to something that cannot be one. -/
def linesOf (inner : Readers) : Nat → Reading (List Command)
  | 0 => return []
  | fuel + 1 => do
    linesAndBlanks
    if ← atListEnd then return []
    let commands ← line inner (← Reading.fuel)
    if (← peek) = some '\n' then return commands ++ (← linesOf inner fuel) else return commands

/-- One command, or several one after the other. -/
def sequenceOf : List Command → Command
  | [command] => command
  | commands => .sequence commands

/-- Commands up to something that cannot be one. -/
def listStep (inner : Readers) : Reading Command := do
  return sequenceOf (← linesOf inner (← fuel))

/-- Readers that go down to a depth. -/
def readers : Nat → Readers
  | 0 => ⟨fail "too deep", fun _ => fail "too deep"⟩
  | depth + 1 =>
    let inner := readers depth
    ⟨listStep inner, wordStep inner⟩

/-- The commands of the next line of a script that is not empty; nothing at the end. The whole line
is read before any of it is carried out. -/
def nextLine (readers : Readers) : Reading (Option Command) := do
  linesAndBlanks
  if ← atEnd then return none
  let commands ← line readers (← fuel)
  blanks
  if !(← atEnd) && (← peek) ≠ some '\n' then fail ((← found) ++ " unexpected")
  return some (sequenceOf commands)

end Reading

end Micromag.Shell
