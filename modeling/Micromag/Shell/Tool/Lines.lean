import Micromag.Shell.Glob
import Micromag.Shell.Tool.Basic

/-!
# Tools for lines

Taking lines from the start or the end of a text, counting, sorting and cutting them, and replacing
characters.
-/

namespace Micromag.Shell.Tool

open Work

/-- Lines with their line feeds; the last one may be without. -/
def wholeLines : Text → List Text
  | [] => []
  | c :: rest =>
    if c = '\n' then ['\n'] :: wholeLines rest
    else
      match wholeLines rest with
      | [] => [[c]]
      | line :: lines => (c :: line) :: lines

/-- The arguments with a count behind a single hyphen in the form of an option. -/
def withCount : List Text → List Text
  | ('-' :: d :: digits) :: rest =>
    if d.isDigit then ['-', 'n'] :: (d :: digits) :: rest else ('-' :: d :: digits) :: rest
  | arguments => arguments

/-- Apply a part to each of some texts, with headings if there are several. -/
def eachPart (tool : String) (paths : List Text) (part : Text → Text) : Work Nat := do
  let (found, status) ← contents tool paths
  let mut first := true
  for (path, text) in found do
    if 1 < paths.length then
      say ((if first then [] else ['\n']) ++ "==> ".toList ++ path ++ " <==\n".toList)
    say (part text)
    first := false
  return status

/-- The start of texts. -/
def head : Tool := fun arguments => do
  let arguments := argumentsOf "nc" (withCount arguments)
  eachPart "head" arguments.operands fun text =>
    match arguments.value? 'c', arguments.value? 'n' with
    | some ('-' :: count), _ => text.take (text.length - (Text.toNat? count).getD 0)
    | some count, _ => text.take ((Text.toNat? count).getD 0)
    | none, some ('-' :: count) =>
      let lines := wholeLines text
      (lines.take (lines.length - (Text.toNat? count).getD 0)).flatten
    | none, count =>
      ((wholeLines text).take (((count.getD "10".toList) |> Text.toNat?).getD 0)).flatten

/-- The end of texts. -/
def tail : Tool := fun arguments => do
  let arguments := argumentsOf "nc" (withCount arguments)
  eachPart "tail" arguments.operands fun text =>
    match arguments.value? 'c', arguments.value? 'n' with
    | some ('+' :: count), _ => text.drop ((Text.toNat? count).getD 0 - 1)
    | some count, _ => text.drop (text.length - (Text.toNat? count).getD 0)
    | none, some ('+' :: count) =>
      ((wholeLines text).drop ((Text.toNat? count).getD 0 - 1)).flatten
    | none, count =>
      let lines := wholeLines text
      (lines.drop (lines.length - (((count.getD "10".toList) |> Text.toNat?).getD 0))).flatten

/-- The number of words of a text. -/
def countWords (inWord : Bool) : Text → Nat
  | [] => 0
  | c :: rest =>
    let blank := SetItem.inNamed "space" c
    (if !blank && !inWord then 1 else 0) + countWords (!blank) rest

/-- Count lines, words and bytes. -/
def wc : Tool := fun arguments => do
  let arguments := argumentsOf "" arguments
  let all := arguments.options.isEmpty
  let counts (text : Text) : List Nat :=
    (if all || arguments.has 'l' then [text.count '\n'] else []) ++
    (if all || arguments.has 'w' then [countWords false text] else []) ++
    (if all || arguments.has 'c' || arguments.has 'm' then [text.length] else [])
  let (found, status) ← contents "wc" arguments.operands
  let rows := found.map fun (path, text) => (path, counts text)
  let sum : List Nat := rows.foldl (fun sum row =>
    if sum.isEmpty then row.2 else List.zipWith (· + ·) sum row.2) []
  let single := (rows.headD ([], [])).2.length ≤ 1 && rows.length ≤ 1
  let width :=
    if single then 1
    else if arguments.operands.isEmpty then 7
    else (sum.map fun n => (Text.ofNat n).length).foldl max 1
  let row (path : Text) (counts : List Nat) : Text :=
    let cells := counts.map fun n =>
      let digits := Text.ofNat n
      List.replicate (width - digits.length) ' ' ++ digits
    Text.joined [' '] cells ++ (if arguments.operands.isEmpty then [] else ' ' :: path)
  for (path, counts) in rows do
    sayLine (row path counts)
  if 1 < rows.length then sayLine (row "total".toList sum)
  return status

/-! ## Sorting -/

/-- Whether a text comes before another or is equal to it, by bytes. -/
def textLe (a b : Text) : Bool := decide (a.map Char.toNat ≤ b.map Char.toNat)

/-- The number at the start of a text, in thousandths of thousandths. -/
def leadingNumber (text : Text) : Int :=
  let text := text.dropWhile fun c => c = ' ' || c = '\t'
  let (negative, text) := match text with
    | '-' :: rest => (true, rest)
    | _ => (false, text)
  let whole := text.takeWhile Char.isDigit
  let fraction := match text.drop whole.length with
    | '.' :: rest => (rest.takeWhile Char.isDigit).take 6
    | _ => []
  let digits := whole ++ fraction ++ List.replicate (6 - fraction.length) '0'
  let size : Int := (Text.toNat? digits).getD 0
  if negative then -size else size

/-- The fields of a line, each with the blanks in front of it. -/
def blankFields (line : Text) : Nat → List Text
  | 0 => []
  | fuel + 1 =>
    if line.isEmpty then []
    else
      let blanks := line.takeWhile fun c => c = ' ' || c = '\t'
      let rest := line.drop blanks.length
      let word := rest.takeWhile fun c => c ≠ ' ' && c ≠ '\t'
      (blanks ++ word) :: blankFields (rest.drop word.length) fuel

/-- The part of a line that a key names: fields from a first to a last one. -/
def keyPart (separator : Option Char) (key : Text) (line : Text) : Text :=
  let first := (Text.toNat? (key.takeWhile Char.isDigit)).getD 1
  let last := match key.dropWhile (· ≠ ',') with
    | _ :: rest => Text.toNat? (rest.takeWhile Char.isDigit)
    | [] => none
  match separator with
  | some c =>
    let fields := Micromag.Text.splitOn c line
    let chosen := fields.drop (first - 1)
    Text.joined [c] (match last with
      | some n => chosen.take (n + 1 - first)
      | none => chosen)
  | none =>
    let chosen := (blankFields line (line.length + 1)).drop (first - 1)
    (match last with
      | some n => chosen.take (n + 1 - first)
      | none => chosen).flatten

/-- Neighbours of which the first is kept if they are equal under a key. -/
def distinctBy (same : Text → Text → Bool) : List Text → List Text
  | [] => []
  | first :: rest =>
    match distinctBy same rest with
    | [] => [first]
    | next :: others => if same first next then first :: others else first :: next :: others

/-- Sort lines. -/
def sort : Tool := fun arguments => do
  let arguments := argumentsOf "ktoS" arguments
  let (found, status) ← contents "sort" arguments.operands
  let keys := (arguments.options.filter (·.1 = 'k')).map (·.2)
  let numeric := arguments.has 'n' || arguments.has 'g' ||
    keys.any fun key => key.contains 'n'
  let fold (line : Text) : Text := if arguments.has 'f' then line.map Char.toUpper else line
  let part (line : Text) : Text :=
    fold (match keys with
      | [] => line
      | key :: _ => keyPart ((arguments.value? 't').bind List.head?) key line)
  let le (a b : Text) : Bool :=
    if numeric then decide (leadingNumber (part a) ≤ leadingNumber (part b))
    else textLe (part a) (part b)
  let reversed := arguments.has 'r' || keys.any fun key => key.contains 'r'
  let order (a b : Text) : Bool :=
    let forward := le a b
    let backward := le b a
    if forward && backward then
      arguments.has 'u' || arguments.has 's' || (if reversed then textLe b a else textLe a b)
    else if reversed then backward else forward
  let lines := (found.flatMap fun entry => Text.lines entry.2).mergeSort order
  let lines := if arguments.has 'u' then distinctBy (fun a b => le a b && le b a) lines else lines
  match arguments.value? 'o' with
  | some path =>
    attempt "sort: open failed" fun files =>
      files.writeFile path.string (Text.toBytes (Text.ofLines lines))
  | none =>
    say (Text.ofLines lines)
    return status

/-- Runs of equal lines with their lengths. -/
def runs : List Text → List (Text × Nat)
  | [] => []
  | first :: rest =>
    match runs rest with
    | (line, count) :: others =>
      if line = first then (line, count + 1) :: others else (first, 1) :: (line, count) :: others
    | [] => [(first, 1)]

/-- Write each line of a run once. -/
def uniq : Tool := fun arguments => do
  let arguments := argumentsOf "" arguments
  let (found, status) ← contents "uniq" (arguments.operands.take 1)
  for (line, count) in runs (found.flatMap fun entry => Text.lines entry.2) do
    let chosen :=
      if arguments.has 'd' then 1 < count else if arguments.has 'u' then count = 1 else true
    if chosen then
      let digits := Text.ofNat count
      sayLine ((if arguments.has 'c' then
        List.replicate (7 - digits.length) ' ' ++ digits ++ [' '] else []) ++ line)
  return status

/-! ## Cutting and replacing -/

/-- Whether a number is in a list of numbers and ranges. -/
def inRanges (ranges : Text) (n : Nat) : Bool :=
  (Micromag.Text.splitOn ',' ranges).any fun range =>
    let low := range.takeWhile (· ≠ '-')
    match range.drop low.length with
    | [] => Text.toNat? low = some n
    | _ :: high =>
      let isBelow := (Text.toNat? high).all fun high => decide (n ≤ high)
      (Text.toNat? low).getD 1 ≤ n && isBelow

/-- The items at chosen places, counted from one. -/
def chosenItems {α : Type} (ranges : Text) (items : List α) : List α :=
  (items.zipIdx 1).filterMap fun (item, n) => if inRanges ranges n then some item else none

/-- Write parts of lines. -/
def cut : Tool := fun arguments => do
  let arguments := argumentsOf "dfcb" arguments
  let (found, status) ← contents "cut" arguments.operands
  for line in found.flatMap fun entry => Text.lines entry.2 do
    match arguments.value? 'f', arguments.value? 'c' <|> arguments.value? 'b' with
    | some ranges, _ =>
      let separator := ((arguments.value? 'd').bind List.head?).getD '\t'
      let fields := Micromag.Text.splitOn separator line
      if fields.length ≤ 1 then
        if !arguments.has 's' then sayLine line
      else sayLine (Text.joined [separator] (chosenItems ranges fields))
    | none, some ranges => sayLine (chosenItems ranges line)
    | none, none => pure ()
  return status

/-- The characters of a set, with ranges, classes and escapes. -/
def setChars : Nat → Text → List Char
  | 0, _ => []
  | _ + 1, [] => []
  | fuel + 1, '[' :: ':' :: rest =>
    let name := rest.takeWhile (· ≠ ':')
    ((List.range 256).map Char.ofNat).filter (SetItem.inNamed (Text.string name)) ++
      setChars fuel (rest.drop (name.length + 2))
  | fuel + 1, '\\' :: c :: rest =>
    (match c with
      | 'n' => '\n'
      | 't' => '\t'
      | 'r' => '\r'
      | '0' => '\x00'
      | c => c) :: setChars fuel rest
  | fuel + 1, low :: '-' :: high :: rest =>
    ((List.range (high.toNat + 1 - low.toNat)).map fun n => Char.ofNat (low.toNat + n)) ++
      setChars fuel rest
  | fuel + 1, c :: rest => c :: setChars fuel rest

/-- The characters of a set. -/
def charsOf (text : Text) : List Char := setChars (text.length + 1) text

/-- Runs of equal characters of a set made single. -/
def squeeze (set : List Char) : Text → Text
  | [] => []
  | c :: rest =>
    match squeeze set rest with
    | d :: others => if c = d && set.contains c then d :: others else c :: d :: others
    | [] => [c]

/-- Replace or remove characters of the input. -/
def tr : Tool := fun arguments => do
  let arguments := argumentsOf "" arguments
  let complement := arguments.has 'c' || arguments.has 'C'
  let first := charsOf (arguments.operands.headD [])
  let second := charsOf (arguments.operands[1]?.getD [])
  let inFirst (c : Char) : Bool := first.contains c != complement
  let replace (c : Char) : Char :=
    if !inFirst c then c
    else if complement then second.getLastD c
    else second.getD (min (first.idxOf c) (second.length - 1)) c
  let text ← readInput
  let text :=
    if arguments.has 'd' then text.filter fun c => !inFirst c
    else if second.isEmpty then text else text.map replace
  let squeezed := if second.isEmpty || arguments.has 'd' && second.isEmpty then first else second
  say (if arguments.has 's' then squeeze squeezed text else text)
  return 0

/-- Write the lines of texts from their ends. -/
def rev : Tool := fun arguments => do
  let (found, status) ← contents "rev" (argumentsOf "" arguments).operands
  for line in found.flatMap fun entry => Text.lines entry.2 do
    sayLine line.reverse
  return status

/-- Write texts with their lines in the opposite order. -/
def tac : Tool := fun arguments => do
  let (found, status) ← contents "tac" (argumentsOf "" arguments).operands
  for (_, text) in found do
    say (wholeLines text).reverse.flatten
  return status

/-- An integer with a sign. -/
def signedNumber? : Text → Option Int
  | '-' :: rest => (Text.toNat? rest).map fun n => -(n : Int)
  | '+' :: rest => (Text.toNat? rest).map fun n => (n : Int)
  | text => (Text.toNat? text).map fun n => (n : Int)

/-- How numbers are written one after the other. -/
structure Series where
  /-- What stands between them. -/
  separator : Text := ['\n']
  /-- Zeros make them equally long. -/
  even : Bool := false

/-- Options in front of numbers, and the numbers. -/
def Series.read (series : Series) : List Text → Series × List Text
  | ['-', 'w'] :: rest => Series.read { series with even := true } rest
  | ['-', 's'] :: separator :: rest => Series.read { series with separator } rest
  | ('-' :: 's' :: c :: separator) :: rest =>
    Series.read { series with separator := c :: separator } rest
  | rest => (series, rest)

/-- A decimal number, in units of its last digit, and the number of its digits behind the point. -/
def decimal? (text : Text) : Option (Int × Nat) :=
  let whole := text.takeWhile (· ≠ '.')
  let part := (text.drop (whole.length + 1))
  if part.isEmpty then (signedNumber? whole).map (·, 0)
  else if part.all Char.isDigit then
    (signedNumber? (if whole.all (· = '-') then whole ++ '0' :: part else whole ++ part)).map
      (·, part.length)
  else none

/-- A decimal number with a number of digits behind the point, with zeros up to a length. -/
def decimalText (places size : Nat) (n : Int) : Text :=
  let digits := Text.ofNat n.natAbs
  let digits := List.replicate (places + 1 - digits.length) '0' ++ digits
  let text := digits.take (digits.length - places) ++
    if places = 0 then [] else '.' :: digits.drop (digits.length - places)
  let start : Text := if n < 0 then ['-'] else []
  start ++ List.replicate (size - start.length - text.length) '0' ++ text

/-- Write the numbers from one to another in steps. -/
def seq : Tool := fun arguments => do
  let (series, operands) := Series.read {} arguments
  match operands.map decimal? with
  | [some last] => write series (1, 0) (1, 0) last
  | [some first, some last] => write series first (1, 0) last
  | [some first, some step, some last] => write series first step last
  | [] => misuse "seq" "missing operand"
  | found =>
    match (operands.zip found).find? (·.2.isNone) with
    | some (text, _) => misuse "seq" s!"invalid floating point argument: '{text.string}'"
    | none => misuse "seq" s!"extra operand '{Text.string (operands.getD 3 [])}'"
where
  /-- Write the numbers in steps. -/
  write (series : Series) (first step last : Int × Nat) : Work Nat := do
    let places := max first.2 step.2
    let finest := max places last.2
    let scaled (n : Int × Nat) : Int := n.1 * 10 ^ (finest - n.2)
    let count := if step.1 = 0 then 0
      else ((scaled last - scaled first).fdiv (scaled step) + 1).toNat
    let numbers := (List.range count).map fun (n : Nat) =>
      (scaled first + scaled step * n).tdiv (10 ^ (finest - places))
    let size := if series.even then
      ((numbers.map fun n => (decimalText places 0 n).length).max?).getD 0 else 0
    if !numbers.isEmpty then
      sayLine (Text.joined series.separator (numbers.map (decimalText places size)))
    return 0

end Micromag.Shell.Tool
