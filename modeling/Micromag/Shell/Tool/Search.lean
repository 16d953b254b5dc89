import Micromag.Shell.Glob
import Micromag.Shell.Regular
import Micromag.Shell.Tool.Basic
import Micromag.Shell.Tool.Files

/-!
# Searching text and files
-/

/-!
## Searching lines

Lines that hold a match of one of some patterns are written, counted or only looked for.
-/

namespace Micromag.Shell.Tool

open Work

/-- How lines are searched. -/
structure SearchRule where
  /-- The patterns. -/
  patterns : List Regular
  /-- In either case. -/
  anyCase : Bool
  /-- Lines without a match are chosen. -/
  inverted : Bool

namespace SearchRule

/-- The match of a line that starts first. -/
def match? (rule : SearchRule) (line : Text) : Option Regular.Match :=
  let found := rule.patterns.filterMap fun pattern => pattern.first? rule.anyCase line
  found.foldl (fun best next =>
    match best with
    | none => some next
    | some best =>
      if next.before.length < best.before.length ||
          next.before.length = best.before.length && best.text.length < next.text.length then
        some next
      else some best) none

/-- Whether a line is chosen. -/
def chooses (rule : SearchRule) (line : Text) : Bool := (rule.match? line).isSome != rule.inverted

/-- All matches in a line. -/
def matchesIn (rule : SearchRule) (line : Text) : Nat → List Text
  | 0 => []
  | fuel + 1 =>
    match rule.match? line with
    | none => []
    | some found =>
      if found.text.isEmpty then
        match found.after with
        | [] => []
        | _ :: rest => matchesIn rule rest fuel
      else found.text :: matchesIn rule found.after fuel

end SearchRule

/-- The expression of a pattern in a form: extended, basic or plain. -/
def pattern? (extended plain : Bool) (text : Text) : Option Regular :=
  if plain then some (.ofPlain text) else Regular.ofText? extended text

/-- An expression that must match a whole line, or whole words. -/
def restricted (whole word : Bool) (pattern : Regular) : Regular :=
  if whole then .both .atStart (.both pattern .atEnd)
  else if word then .both (.wordEdge true false) (.both pattern (.wordEdge false true))
  else pattern

/-- The chosen lines with their numbers. -/
def chosenLines (rule : SearchRule) (text : Text) : List (Text × Nat) :=
  ((Text.lines text).zipIdx 1).filter fun line => rule.chooses line.1

/-- What is written about a text. -/
def searchReport (arguments : Arguments) (rule : SearchRule) (path : Text) (named : Bool)
    (lines : List (Text × Nat)) : Text :=
  let start : Text := if named then path ++ [':'] else []
  if arguments.has 'q' then []
  else if arguments.has 'c' then start ++ Text.ofNat lines.length ++ ['\n']
  else if arguments.has 'l' then if lines.isEmpty then [] else path ++ ['\n']
  else if arguments.has 'L' then if lines.isEmpty then path ++ ['\n'] else []
  else
    lines.flatMap fun (line, n) =>
      let start := start ++ (if arguments.has 'n' then Text.ofNat n ++ [':'] else [])
      let shown := if arguments.has 'o' then rule.matchesIn line (line.length + 1) else [line]
      shown.flatMap fun text => start ++ text ++ ['\n']

/-- Search with a given form of patterns. -/
def search (extended plain : Bool) : Tool := fun arguments => do
  let arguments := argumentsOf "emAB" arguments
  let extended := extended || arguments.has 'E'
  let plain := plain || arguments.has 'F'
  let given := (arguments.options.filter (·.1 = 'e')).map (·.2)
  let texts := if given.isEmpty then arguments.operands.take 1 else given
  let paths := if given.isEmpty then arguments.operands.drop 1 else arguments.operands
  match (texts.flatMap (Micromag.Text.splitOn '\n')).mapM (pattern? extended plain) with
  | none =>
    warn "grep: Invalid regular expression"
    return 2
  | some patterns =>
    let patterns := patterns.map (restricted (arguments.has 'x') (arguments.has 'w'))
    let rule : SearchRule := ⟨patterns, arguments.has 'i', arguments.has 'v'⟩
    let named := (1 < paths.length || arguments.has 'H') && !arguments.has 'h'
    let mut status := 1
    let mut failed := false
    for path in (if paths.isEmpty then [['-']] else paths) do
      match ← contentOf path with
      | .error cause =>
        if !arguments.has 's' then warn s!"grep: {Text.string path}: {cause.text}"
        failed := true
      | .ok text =>
        let lines := chosenLines rule text
        let lines := match (arguments.value? 'm').bind Text.toNat? with
          | some most => lines.take most
          | none => lines
        let shown := if path = ['-'] then "(standard input)".toList else path
        say (searchReport arguments rule shown named lines)
        if !lines.isEmpty then status := 0
    return if failed && !(arguments.has 'q' && status = 0) then 2 else status

end Micromag.Shell.Tool

/-!
## Finding and comparing files

The paths below some paths that pass all of some tests, and the first difference of two files.
-/

namespace Micromag.Shell.Tool

open Work

/-- What a path must be to be found. -/
structure FindRule where
  /-- A pattern for its last name. -/
  name : Option Glob := none
  /-- The letter of what it leads to: a file, a directory or a link. -/
  kind : Option Char := none
  /-- The least number of names behind the path where the search starts. -/
  leastDepth : Nat := 0
  /-- The greatest number of names behind it. -/
  mostDepth : Nat := 64

namespace FindRule

/-- A pattern of a text none of which is quoted. -/
def globOf (text : Text) : Glob := Glob.ofWord (text.map fun c => ⟨c, false⟩)

/-- A rule with the tests of some arguments, or the first argument that is no test. -/
def read (rule : FindRule) : List Text → Except Text FindRule
  | [] => .ok rule
  | test :: value :: rest =>
    match test.string, Text.toNat? value with
    | "-name", _ => read { rule with name := some (globOf value) } rest
    | "-type", _ => read { rule with kind := value.head? } rest
    | "-mindepth", some n => read { rule with leastDepth := n } rest
    | "-maxdepth", some n => read { rule with mostDepth := n } rest
    | "-print", _ => read rule (value :: rest)
    | _, _ => .error test
  | [last] => if last = "-print".toList then .ok rule else .error last
termination_by arguments => arguments.length

/-- Whether a path is found, at which something stands. -/
def accepts (rule : FindRule) (path : Text) (depth : Nat) (node : Node) : Bool :=
  let letter := match node with
    | .directory => 'd'
    | .file _ => 'f'
    | .link _ => 'l'
  decide (rule.leastDepth ≤ depth) && rule.kind.all (· = letter) &&
    rule.name.all (·.isMatch (lastName path))

/-- The paths that are found at a path and below it. -/
def search (rule : FindRule) (files : FileSystem) (path : Text) (depth : Nat) : Nat → List Text
  | 0 => []
  | fuel + 1 =>
    match files.locate path.string true with
    | .ok ⟨_, some node⟩ =>
      let own := if rule.accepts path depth node then [path] else []
      let deeper := node = .directory && decide (depth < rule.mostDepth)
      own ++ if deeper then
        (namesIn files path.string true).flatMap fun name =>
          search rule files (path ++ (if path.getLast? = some '/' then [] else ['/']) ++ name)
            (depth + 1) fuel
      else []
    | _ => []

end FindRule

/-- Write the paths that are found. -/
def find : Tool := fun arguments => do
  let starts := arguments.takeWhile fun argument => argument.head? ≠ some '-'
  match FindRule.read {} (arguments.drop starts.length) with
  | .error test =>
    warn s!"find: unknown predicate '{test.string}'"
    return 1
  | .ok rule => forEach (if starts.isEmpty then [['.']] else starts) fun (start : Text) => do
    if (← look (·.locate start.string true)).toOption.any (·.node.isSome) then
      say (Text.ofLines (← look fun files => rule.search files start 0 64))
      return 0
    else
      warn s!"find: '{start.string}': No such file or directory"
      return 1

/-- The first character in which two texts differ and its line, both counted from one; nothing if
one text is the start of the other. -/
def difference? (char line : Nat) : Text → Text → Option (Nat × Nat)
  | a :: left, b :: right =>
    if a = b then difference? (char + 1) (if a = '\n' then line + 1 else line) left right
    else some (char, line)
  | _, _ => none

/-- Compare two files. -/
def cmp : Tool := fun arguments => do
  let arguments := argumentsOf "" arguments
  match arguments.operands with
  | [first, second] =>
    match ← contentOf first, ← contentOf second with
    | .ok left, .ok right =>
      if left = right then return 0
      else
        if !arguments.has 's' then
          match difference? 1 1 left right with
          | some (char, line) =>
            sayLine (first ++ ' ' :: second ++
              Text.ofString s!" differ: char {char}, line {line}")
          | none =>
            let shorter := if left.length < right.length then first else second
            warn s!"cmp: EOF on {shorter.string}"
        return 1
    | .error cause, _ =>
      warn s!"cmp: {first.string}: {cause.text}"
      return 2
    | _, .error cause =>
      warn s!"cmp: {second.string}: {cause.text}"
      return 2
  | _ =>
    let _ ← misuse "cmp" "missing operand after 'cmp'"
    return 2

end Micromag.Shell.Tool
