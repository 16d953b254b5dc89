import Micromag.Shell.Reader.Basic

/-!
# Reading words

What a character means in a word depends on what is around the word: nothing, double quotes, the
braces of a parameter, or a text of the script. Commands and words within words are read by readers
that are given.
-/

namespace Micromag.Shell

/-- What is around a word. -/
inductive Context where
  /-- Nothing; blanks and operators end the word. -/
  | bare
  /-- Double quotes. -/
  | double
  /-- The braces of a parameter, perhaps in double quotes. -/
  | braces (quoted : Bool)
  /-- A text that is not quoted but not split either. -/
  | document
deriving DecidableEq, Repr

/-- Readers for what stands within a word. -/
structure Readers where
  /-- Commands up to something that cannot be one. -/
  commands : Reading Command
  /-- The parts of a word. -/
  word : Context → Reading Word

namespace Reading

/-- Pass over a character that must come next. -/
def expect (c : Char) (sentence : String) : Reading Unit := do
  if !(← accept [c]) then fail sentence

/-- The text of an arithmetic expression up to two closing parentheses, within open ones. -/
def arithmeticText? (depth : Nat) : Text → Option Text
  | [] => none
  | '(' :: rest => (arithmeticText? (depth + 1) rest).map ('(' :: ·)
  | ')' :: rest =>
    match depth with
    | 0 => if rest.head? = some ')' then some [] else none
    | depth + 1 => (arithmeticText? depth rest).map (')' :: ·)
  | c :: rest => (arithmeticText? depth rest).map (c :: ·)

/-- An arithmetic expression behind its opening parentheses. -/
def arithmeticPart (inner : Readers) (quoted : Bool) : Reading WordPart := do
  match arithmeticText? 0 (← remaining) with
  | none => fail "Missing '))'"
  | some text =>
    skip (text.length + 2)
    return .arithmetic quoted (← within (text.filter (· ≠ '\x22')) (inner.word .document))

/-- A command behind its opening parenthesis. -/
def substitutionPart (inner : Readers) (quoted : Bool) : Reading WordPart := do
  let command ← inner.commands
  linesAndBlanks
  if !(← accept [')']) then fail ((← found) ++ " unexpected (expecting \x22)\x22)")
  return .substitution quoted command

/-- The text up to a grave accent; a backslash in front of some characters is dropped. -/
def graveText? (quoted : Bool) : Text → Option (Text × Nat)
  | [] => none
  | '\x60' :: _ => some ([], 1)
  | '\\' :: c :: rest =>
    let dropped := c = '\x60' || c = '\\' || c = '$' || (quoted && c = '\x22')
    (graveText? quoted rest).map fun (text, count) =>
      (if dropped then c :: text else '\\' :: c :: text, count + 2)
  | c :: rest => (graveText? quoted rest).map fun (text, count) => (c :: text, count + 1)

/-- A command between grave accents, behind the first. -/
def gravePart (inner : Readers) (quoted : Bool) : Reading WordPart := do
  match graveText? quoted (← remaining) with
  | none => fail "EOF in backquote substitution"
  | some (text, count) =>
    let command ← within text inner.commands
    skip count
    return .substitution quoted command

/-- Characters that are the name of a parameter by themselves. -/
def isSpecial (c : Char) : Bool := "@*#?-$!".toList.contains c || c.isDigit

/-- The name of a parameter in braces. -/
def bracedName : Reading Text := do
  match ← peek with
  | some c =>
    if Text.startsName c then takeWhile Text.inName
    else if c.isDigit then takeWhile Char.isDigit
    else if isSpecial c then
      skip 1
      return [c]
    else refuse "Bad substitution"
  | none => fail "Missing '\x7d'"

/-- The change of a parameter up to its closing brace. -/
def change (inner : Readers) (quoted : Bool) : Reading Change := do
  let onEmpty ← accept [':']
  match onEmpty, ← peek with
  | false, some '\x7d' => return .none
  | _, some '-' => skip 1; return .default onEmpty (← inner.word (.braces quoted))
  | _, some '=' => skip 1; return .assign onEmpty (← inner.word (.braces quoted))
  | _, some '?' => skip 1; return .require onEmpty (← inner.word (.braces quoted))
  | _, some '+' => skip 1; return .alternative onEmpty (← inner.word (.braces quoted))
  | false, some '%' =>
    skip 1
    let longest ← accept ['%']
    return .trim true longest (← inner.word (.braces false))
  | false, some '#' =>
    skip 1
    let longest ← accept ['#']
    return .trim false longest (← inner.word (.braces false))
  | _, _ => refuse "Bad substitution"

/-- A parameter in braces, behind the opening brace. -/
def bracedPart (inner : Readers) (quoted : Bool) : Reading WordPart := do
  let takesLength := match ← remaining with
    | '#' :: c :: _ => Text.startsName c || c.isDigit || c = '@' || c = '*' || c = '?'
    | _ => false
  if takesLength then skip 1
  let name ← bracedName
  let change ← if takesLength then pure Change.length else change inner quoted
  expect '\x7d' "Missing '\x7d'"
  return .parameter quoted name change

/-- What a dollar sign begins, behind the sign. -/
def dollarPart (inner : Readers) (quoted : Bool) : Reading WordPart := do
  match ← remaining with
  | '(' :: '(' :: _ => skip 2; arithmeticPart inner quoted
  | '(' :: _ => skip 1; substitutionPart inner quoted
  | '\x7b' :: _ => skip 1; bracedPart inner quoted
  | c :: _ =>
    if isSpecial c then
      skip 1
      return .parameter quoted [c] .none
    else if Text.startsName c then return .parameter quoted (← takeWhile Text.inName) .none
    else return .literal quoted ['$']
  | [] => return .literal quoted ['$']

/-- A text in single quotes, behind the first. -/
def singleQuoted : Reading WordPart := do
  let text ← takeWhile (· ≠ '\x27')
  expect '\x27' "Unterminated quoted string"
  return .literal true text

/-- A text in double quotes, behind the first. -/
def doubleQuoted (inner : Readers) : Reading Word := do
  let parts ← inner.word .double
  expect '\x22' "Unterminated quoted string"
  return if parts.isEmpty then [.literal true []] else parts

/-- What a backslash does outside quotes, behind the backslash. -/
def bareEscape : Reading Word := do
  match ← next with
  | none => return [.literal true ['\\']]
  | some '\n' => return []
  | some c => return [.literal true [c]]

/-- What a backslash does where only some characters can be escaped, behind the backslash. -/
def quotedEscape (escapable : String) : Reading Word := do
  match ← peek with
  | some '\n' => skip 1; return []
  | some c =>
    if escapable.toList.contains c then
      skip 1
      return [.literal true [c]]
    else return [.literal true ['\\']]
  | none => return [.literal true ['\\']]

/-- The next parts of a word that is not in double quotes. -/
def barePart (inner : Readers) (c : Char) : Reading Word := do
  skip 1
  match c with
  | '\\' => bareEscape
  | '\x27' => return [← singleQuoted]
  | '\x22' => doubleQuoted inner
  | '$' => return [← dollarPart inner false]
  | '\x60' => return [← gravePart inner false]
  | c => return [.literal false [c]]

/-- The next parts of a word in which blanks and single quotes mean nothing. -/
def quotedPart (inner : Readers) (escapable : String) (c : Char) : Reading Word := do
  skip 1
  match c with
  | '\\' => quotedEscape escapable
  | '$' => return [← dollarPart inner true]
  | '\x60' => return [← gravePart inner true]
  | c => return [.literal true [c]]

/-- The next parts of a word, or nothing at its end. -/
def part (inner : Readers) (context : Context) : Reading (Option Word) := do
  match context, ← peek with
  | .double, some '\x22' => return none
  | .braces _, some '\x7d' => return none
  | .braces true, some '\x22' => skip 1; return some (← doubleQuoted inner)
  | .bare, some c => if endsWord c then return none else return some (← barePart inner c)
  | .braces false, some c => return some (← barePart inner c)
  | .double, some c => return some (← quotedPart inner "$\x60\x22\\" c)
  | .braces true, some c => return some (← quotedPart inner "$\x60\x22\\\x7d" c)
  | .document, some c => return some (← quotedPart inner "$\x60\\" c)
  | .double, none => fail "Unterminated quoted string"
  | .braces _, none => fail "Missing '\x7d'"
  | _, none => return none

/-- A tilde that stands for the user's directory, alone or in front of a slash. -/
def homePart : Reading Word := do
  match ← remaining with
  | '~' :: rest =>
    if rest.head?.all fun c => c = '/' || endsWord c then
      skip 1
      return [.parameter true "HOME".toList .none]
    else return []
  | _ => return []

/-- The parts of a word in a context. -/
def wordStep (inner : Readers) (context : Context) : Reading Word := do
  let home ← if context = .bare then homePart else pure []
  return home ++ Word.merged (← collect (part inner context) (← fuel)).flatten

/-! ## Texts of the script -/

/-- The text in front of a last line, the lines behind it, and the number of lines passed. Without
the last line the text goes on to the end. -/
def linesUntil (stop : Text) (tabs : Bool) : List Text → Text × List Text × Nat
  | [] => ([], [], 0)
  | line :: rest =>
    let line := if tabs then line.dropWhile (· = '\t') else line
    if line = stop then ([], rest, 1)
    else
      let (text, after, count) := linesUntil stop tabs rest
      (line ++ (if rest.isEmpty then [] else '\n' :: text), after, count + 1)

/-- Take the text of a redirection out of the script: the next lines up to a last line. -/
def takeDocument (stop : Text) (tabs : Bool) : Reading Text := do
  let scan ← get
  let before := scan.rest.takeWhile (· ≠ '\n')
  match scan.rest.drop before.length with
  | [] => return []
  | _ :: after =>
    let (text, rest, count) := linesUntil stop tabs (Text.splitOn '\n' after)
    set { scan with rest := before ++ '\n' :: Text.joined ['\n'] rest, owed := scan.owed + count }
    return text

/-- Whether a part of a word is quoted text. -/
def isQuoted : WordPart → Bool
  | .literal quoted _ => quoted
  | _ => false

/-- The text of a part of a word, if it is text. -/
def textOf : WordPart → Text
  | .literal _ text => text
  | _ => []

/-- The text of a redirection, behind its sign. -/
def document (inner : Readers) (tabs : Bool) : Reading Word := do
  blanks
  let stop ← inner.word .bare
  if stop.isEmpty then fail ((← found) ++ " unexpected")
  let text ← takeDocument (stop.flatMap textOf) tabs
  if stop.any isQuoted then return [.literal true text]
  else within text (inner.word .document)

end Reading

end Micromag.Shell
