import Micromag.Shell.Command

/-!
# Scanning scripts

A script is read character by character. Lines are counted; the lines of a text that belongs to a
redirection are taken out of the script as soon as the redirection is read, and are counted when its
own line ends.
-/

namespace Micromag.Shell

/-- What is left of a script. -/
structure Scan where
  /-- The text. -/
  rest : Text
  /-- The number of its first line. -/
  line : Nat := 1
  /-- The lines taken out behind the end of this line. -/
  owed : Nat := 0

/-- Why a script cannot be read. -/
structure ScriptFault where
  /-- The line. -/
  line : Nat
  /-- The sentence. -/
  sentence : String
deriving DecidableEq, Repr

/-- Reading from a script. -/
abbrev Reading (α : Type) := StateT Scan (Except ScriptFault) α

namespace Reading

variable {α : Type}

/-- A fault. -/
def refuse (sentence : String) : Reading α := do throw ⟨(← get).line, sentence⟩

/-- A fault of the script's form. -/
def fail (sentence : String) : Reading α := refuse ("Syntax error: " ++ sentence)

/-- The next character. -/
def peek : Reading (Option Char) := do return (← get).rest.head?

/-- The text that is left. -/
def remaining : Reading Text := do return (← get).rest

/-- The number of characters that are left, and one more. -/
def fuel : Reading Nat := do return (← get).rest.length + 1

/-- Whether nothing is left. -/
def atEnd : Reading Bool := do return (← get).rest.isEmpty

/-- Count the characters of a text that is passed over. -/
def Scan.advance (scan : Scan) (count : Nat) : Scan :=
  (scan.rest.take count).foldl (fun scan c =>
    if c = '\n' then ⟨scan.rest.drop 1, scan.line + 1 + scan.owed, 0⟩
    else { scan with rest := scan.rest.drop 1 }) scan

/-- Pass over characters. -/
def skip (count : Nat) : Reading Unit := modify (Scan.advance · count)

/-- The next character, which is passed over. -/
def next : Reading (Option Char) := do
  let c ← peek
  skip 1
  return c

/-- Pass over a text if it comes next. -/
def accept (text : Text) : Reading Bool := do
  if text.isPrefixOf (← remaining) then
    skip text.length
    return true
  else return false

/-- The characters that come next and pass a test. -/
def takeWhile (test : Char → Bool) : Reading Text := do
  let taken := (← remaining).takeWhile test
  skip taken.length
  return taken

/-- Carry out a reading again and again, up to a number of times, while it gives something. -/
def collect (read : Reading (Option α)) : Nat → Reading (List α)
  | 0 => return []
  | fuel + 1 => do
    match ← read with
    | none => return []
    | some item => return item :: (← collect read fuel)

/-- Read a text of its own. -/
def within (text : Text) (read : Reading α) : Reading α := do
  let line := (← get).line
  let (result, _) ← read.run { rest := text, line }
  return result

/-- Characters that end a word unless they are quoted. -/
def endsWord (c : Char) : Bool := " \t\n;&|<>()".toList.contains c

/-- Pass over blanks, joined lines and a comment. -/
def skipBlanks : Nat → Reading Unit
  | 0 => return ()
  | fuel + 1 => do
    match ← remaining with
    | ' ' :: _ | '\t' :: _ =>
      skip 1
      skipBlanks fuel
    | '\\' :: '\n' :: _ =>
      skip 2
      skipBlanks fuel
    | '#' :: _ =>
      let _ ← takeWhile (· ≠ '\n')
      return ()
    | _ => return ()

/-- Pass over blanks. -/
def blanks : Reading Unit := do skipBlanks (← fuel)

/-- Pass over blanks and line ends. -/
def skipLines : Nat → Reading Unit
  | 0 => return ()
  | fuel + 1 => do
    blanks
    if ← accept ['\n'] then skipLines fuel

/-- Pass over blanks and line ends. -/
def linesAndBlanks : Reading Unit := do skipLines (← fuel)

/-- The unquoted word that comes next, if it is one that can have a meaning of its own. -/
def peekWord : Reading (Option Text) := do
  let text ← remaining
  let word := text.takeWhile fun c => !endsWord c
  if word.isEmpty || word.any "\x22\x27\\$\x60".toList.contains then return none
  else return some word

/-- Words with a meaning of their own where a command may begin. -/
def reserved : List Text :=
  ["if", "then", "elif", "else", "fi", "while", "until", "do", "done", "for", "in", "case", "esac",
    "\x7b", "\x7d", "!"].map String.toList

/-- Pass over a reserved word if it comes next. -/
def acceptWord (word : String) : Reading Bool := do
  blanks
  if (← peekWord) = some word.toList then
    skip word.length
    return true
  else return false

/-- What stands where something else should stand. -/
def found : Reading String := do
  match ← peek with
  | none => return "end of file"
  | some '\n' => return "newline"
  | some c =>
    match ← peekWord with
    | some word =>
      return if reserved.contains word then "\x22" ++ word.string ++ "\x22" else "word"
    | none =>
      if ";;".toList.isPrefixOf (← remaining) then return "\x22;;\x22"
      else if "&&".toList.isPrefixOf (← remaining) then return "\x22&&\x22"
      else if "||".toList.isPrefixOf (← remaining) then return "\x22||\x22"
      else if endsWord c then return "\x22" ++ String.ofList [c] ++ "\x22"
      else return "word"

/-- A reserved word that must come next. -/
def expectWord (word : String) : Reading Unit := do
  if !(← acceptWord word) then
    fail ((← found) ++ " unexpected (expecting \x22" ++ word ++ "\x22)")

end Reading

end Micromag.Shell
