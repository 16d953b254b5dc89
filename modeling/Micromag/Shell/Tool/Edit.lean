import Micromag.Shell.Regular
import Micromag.Shell.Tool.Basic

/-!
# Editing lines

A script of edits is applied to every line of a text. An edit may be restricted to some lines by
addresses: a number, the last line, the lines that match, or all lines from one such to another.
-/

namespace Micromag.Shell.Tool

open Work

/-- Lines that an edit applies to. -/
inductive Address where
  /-- The line with a number. -/
  | line (n : Nat)
  /-- The last line. -/
  | last
  /-- Lines with a match. -/
  | found (pattern : Regular) (anyCase : Bool)

/-- A part of a replacement. -/
inductive ReplacementPart where
  /-- Text. -/
  | text (c : Char)
  /-- What a group has matched; zero stands for the whole match. -/
  | group (number : Nat)

/-- A replacement of matches. -/
structure Substitution where
  /-- What is replaced. -/
  pattern : Regular
  /-- What stands in its place. -/
  replacement : List ReplacementPart
  /-- In either case. -/
  anyCase : Bool := false
  /-- The first match that is replaced, counted from one. -/
  first : Nat := 1
  /-- Further matches are replaced too. -/
  all : Bool := false
  /-- A changed line is written. -/
  prints : Bool := false

/-- What an edit does. -/
inductive EditAction where
  | substitute (substitution : Substitution)
  | translate (source target : Text)
  | delete
  | print
  | number
  | quit (prints : Bool) (status : Nat)
  | append (text : Text)
  | insert (text : Text)
  | change (text : Text)

/-- An edit. -/
structure Edit where
  /-- The lines, or the first of them. -/
  first : Option Address := none
  /-- The last of the lines. -/
  second : Option Address := none
  /-- All other lines are meant. -/
  negated : Bool := false
  /-- What is done. -/
  action : EditAction

/-! ## Reading -/

/-- A text up to a delimiter, and what is behind it. A backslash in front of the delimiter is
dropped; the delimiter does not count in the brackets of a pattern. -/
def delimited? (delimiter : Char) (isPattern inSet : Bool) : Text → Option (Text × Text)
  | [] => none
  | '\\' :: c :: rest =>
    (delimited? delimiter isPattern inSet rest).map fun (text, rest) =>
      (if c = delimiter && c ≠ '\\' then c :: text else '\\' :: c :: text, rest)
  | c :: rest =>
    if c = delimiter && !inSet then some ([], rest)
    else
      let inSet := isPattern && (c = '[' || (inSet && c ≠ ']'))
      (delimited? delimiter isPattern inSet rest).map fun (text, rest) => (c :: text, rest)

/-- The parts of a replacement. -/
def replacementParts : Text → List ReplacementPart
  | [] => []
  | '\\' :: c :: rest =>
    (if c.isDigit then .group (c.toNat - 48)
      else match c with
        | 'n' => .text '\n'
        | 't' => .text '\t'
        | c => .text c) :: replacementParts rest
  | '&' :: rest => .group 0 :: replacementParts rest
  | c :: rest => .text c :: replacementParts rest

/-- The flags of a substitution, and what is behind them. -/
def substitutionFlags (substitution : Substitution) : Text → Substitution × Text
  | 'g' :: rest => substitutionFlags { substitution with all := true } rest
  | 'p' :: rest => substitutionFlags { substitution with prints := true } rest
  | 'i' :: rest => substitutionFlags { substitution with anyCase := true } rest
  | 'I' :: rest => substitutionFlags { substitution with anyCase := true } rest
  | c :: rest =>
    if c.isDigit then substitutionFlags { substitution with first := c.toNat - 48 } rest
    else (substitution, c :: rest)
  | [] => (substitution, [])

/-- An address, if one comes next. -/
def address? (extended : Bool) (text : Text) : Option (Option Address × Text) :=
  match text with
  | '$' :: rest => some (some .last, rest)
  | '/' :: rest => do
    let (pattern, rest) ← delimited? '/' true false rest
    let pattern ← Regular.ofText? extended pattern
    return match rest with
      | 'I' :: rest => (some (.found pattern true), rest)
      | rest => (some (.found pattern false), rest)
  | _ =>
    let digits := text.takeWhile Char.isDigit
    some ((Text.toNat? digits).map .line, text.drop digits.length)

/-- The text of a line to be added, and what is behind it. -/
def lineText (text : Text) : Text × Text :=
  let text := text.dropWhile fun c => c = ' ' || c = '\t'
  let text := match text with
    | '\\' :: '\n' :: rest => rest
    | '\\' :: rest => rest
    | text => text
  let line := text.takeWhile (· ≠ '\n')
  (line, text.drop (line.length + 1))

/-- What an edit does, and what is behind it. -/
def action? (extended : Bool) : Text → Option (EditAction × Text)
  | 's' :: delimiter :: rest => do
    let (pattern, rest) ← delimited? delimiter true false rest
    let (replacement, rest) ← delimited? delimiter false false rest
    let pattern ← Regular.ofText? extended pattern
    let (substitution, rest) :=
      substitutionFlags { pattern, replacement := replacementParts replacement } rest
    return (.substitute substitution, rest)
  | 'y' :: delimiter :: rest => do
    let (source, rest) ← delimited? delimiter false false rest
    let (target, rest) ← delimited? delimiter false false rest
    if source.length = target.length then some (.translate source target, rest) else none
  | 'd' :: rest => some (.delete, rest)
  | 'p' :: rest => some (.print, rest)
  | '=' :: rest => some (.number, rest)
  | 'q' :: rest =>
    let digits := (rest.dropWhile (· = ' ')).takeWhile Char.isDigit
    some (.quit true ((Text.toNat? digits).getD 0),
      (rest.dropWhile (· = ' ')).drop digits.length)
  | 'Q' :: rest =>
    let digits := (rest.dropWhile (· = ' ')).takeWhile Char.isDigit
    some (.quit false ((Text.toNat? digits).getD 0),
      (rest.dropWhile (· = ' ')).drop digits.length)
  | 'a' :: rest => let (text, rest) := lineText rest; some (.append text, rest)
  | 'i' :: rest => let (text, rest) := lineText rest; some (.insert text, rest)
  | 'c' :: rest => let (text, rest) := lineText rest; some (.change text, rest)
  | _ => none

/-- The edits of a script. -/
def edits? (extended : Bool) : Nat → Text → Option (List Edit)
  | 0, _ => none
  | fuel + 1, text => do
    let text := text.dropWhile fun c => " \t\n;".toList.contains c
    if text.isEmpty then return []
    else if text.head? = some '#' then edits? extended fuel (text.dropWhile (· ≠ '\n'))
    else
      let (first, rest) ← address? extended text
      let (second, rest) ← match rest with
        | ',' :: rest => address? extended (rest.dropWhile (· = ' '))
        | rest => some (none, rest)
      let rest := rest.dropWhile (· = ' ')
      let (negated, rest) := match rest with
        | '!' :: rest => (true, rest.dropWhile (· = ' '))
        | rest => (false, rest)
      let (action, rest) ← action? extended rest
      let rest := rest.dropWhile fun c => c = ' ' || c = '\t'
      match rest.head? with
      | none | some ';' | some '\n' | some '#' =>
        return ⟨first, second, negated, action⟩ :: (← edits? extended fuel rest)
      | some _ =>
        match action with
        | .append _ | .insert _ | .change _ =>
          return ⟨first, second, negated, action⟩ :: (← edits? extended fuel rest)
        | _ => none

/-! ## Applying -/

/-- The text of a replacement. -/
def replacementText (found : Regular.Match) (parts : List ReplacementPart) : Text :=
  parts.flatMap fun part => match part with
    | .text c => [c]
    | .group 0 => found.text
    | .group n => (found.groups.lookup n).getD []

/-- Replace matches from a place on. An empty match right behind another match does not count. -/
def substituteFrom (substitution : Substitution) (place : Regular.Place) (behindMatch : Bool)
    (count : Nat) : Nat → Text × Bool
  | 0 => (place.left, false)
  | fuel + 1 =>
    let limit := 40 * (place.left.length + 50)
    match Regular.run substitution.anyCase limit substitution.pattern place
        [] fun after groups => some (after, groups) with
    | some (after, groups) =>
      let text := place.left.take (place.left.length - after.left.length)
      if text.isEmpty && behindMatch then pass fuel
      else
        let replaced := substitution.first ≤ count
        let new := if replaced then
          replacementText ⟨[], text, [], groups⟩ substitution.replacement else text
        if replaced && !substitution.all then (new ++ after.left, true)
        else if text.isEmpty then
          match place.left with
          | [] => (new, replaced)
          | c :: _ =>
            let (rest, more) :=
              substituteFrom substitution (place.advance 1) false (count + 1) fuel
            (new ++ c :: rest, replaced || more)
        else
          let (rest, more) := substituteFrom substitution after true (count + 1) fuel
          (new ++ rest, replaced || more)
    | none => pass fuel
where
  /-- Go on behind the next character. -/
  pass (fuel : Nat) : Text × Bool :=
    match place.left with
    | [] => ([], false)
    | c :: _ =>
      let (rest, more) := substituteFrom substitution (place.advance 1) false count fuel
      (c :: rest, more)

/-- A line after a substitution, and whether it has changed. -/
def substitute (substitution : Substitution) (line : Text) : Text × Bool :=
  substituteFrom substitution ⟨[], line⟩ false 1 (2 * line.length + 2)

/-- A text that is being edited. -/
structure Editing where
  /-- The current line. -/
  line : Text
  /-- Its number. -/
  number : Nat := 0
  /-- It is the last line. -/
  isLast : Bool := false
  /-- The edits whose lines have begun and not yet ended. -/
  active : List Nat := []
  /-- What was written, the latest part first. -/
  written : List Text := []
  /-- What is written behind the line. -/
  behind : List Text := []
  /-- The line has been removed. -/
  deleted : Bool := false
  /-- The status with which editing has ended. -/
  ended : Option Nat := none

namespace Editing

/-- Whether an address means the current line. -/
def isAt (state : Editing) : Address → Bool
  | .line n => state.number = n
  | .last => state.isLast
  | .found pattern anyCase => (pattern.first? anyCase state.line).isSome

/-- Whether an edit with a number applies to the current line, and which edits go on. -/
def applies (state : Editing) (index : Nat) (edit : Edit) : Bool × Editing :=
  match edit.first, edit.second with
  | none, _ => (!edit.negated, state)
  | some first, none => (state.isAt first != edit.negated, state)
  | some first, some second =>
    let stop : Editing := { state with active := state.active.filter (· ≠ index) }
    if state.active.contains index then
      let ends := match second with
        | .line n => decide (n ≤ state.number)
        | second => state.isAt second
      let inside := match second with
        | .line n => decide (state.number ≤ n)
        | _ => true
      (inside != edit.negated, if ends then stop else state)
    else if state.isAt first then
      let single := match second with
        | .line n => decide (n ≤ state.number)
        | _ => false
      (!edit.negated, if single then state else { state with active := index :: state.active })
    else (edit.negated, state)

/-- Write a text. -/
def write (state : Editing) (text : Text) : Editing :=
  { state with written := text :: state.written }

/-- Carry out an edit. -/
def carryOut (state : Editing) : EditAction → Editing
  | .substitute substitution =>
    let (line, changed) := Tool.substitute substitution state.line
    let state := { state with line }
    if changed && substitution.prints then state.write (line ++ ['\n']) else state
  | .translate source target =>
    { state with line := state.line.map fun c =>
        if source.contains c then target.getD (source.idxOf c) c else c }
  | .delete => { state with deleted := true }
  | .print => state.write (state.line ++ ['\n'])
  | .number => state.write (Text.ofNat state.number ++ ['\n'])
  | .quit prints status => { state with ended := some status, deleted := !prints }
  | .append text => { state with behind := state.behind ++ [text ++ ['\n']] }
  | .insert text => state.write (text ++ ['\n'])
  | .change text => { state.write (text ++ ['\n']) with deleted := true }

/-- Carry out edits on the current line, until it is removed or editing ends. -/
def editLine (state : Editing) : List (Edit × Nat) → Editing
  | [] => state
  | (edit, index) :: rest =>
    let (applies, state) := state.applies index edit
    let state := if applies then state.carryOut edit.action else state
    if state.deleted || state.ended.isSome then state else editLine state rest

/-- Edit lines one after the other. -/
def editLines (edits : List (Edit × Nat)) (quiet : Bool) (ending : Text) (state : Editing) :
    List Text → Editing
  | [] => state
  | line :: rest =>
    let start : Editing := { state with
      line, number := state.number + 1, isLast := rest.isEmpty, behind := [], deleted := false }
    let state := start.editLine edits
    let close : Text := if rest.isEmpty then ending else ['\n']
    let state := if quiet || state.deleted then state else state.write (state.line ++ close)
    let state := state.behind.foldl write state
    if state.ended.isSome then state else editLines edits quiet ending state rest

end Editing

/-- A text after edits, and the status. -/
def editText (edits : List Edit) (quiet : Bool) (text : Text) : Text × Nat :=
  let ending : Text := if text.getLast? = some '\n' then ['\n'] else []
  let state := Editing.editLines edits.zipIdx quiet ending { line := [] } (Text.lines text)
  (state.written.reverse.flatten, state.ended.getD 0)

/-- Edit texts. -/
def sed : Tool := fun arguments => do
  let inPlace := arguments.any fun argument => argument = ['-', 'i']
  let arguments := argumentsOf "ef" (arguments.filter (· ≠ ['-', 'i']))
  let given := (arguments.options.filter (·.1 = 'e')).map (·.2)
  let script := if given.isEmpty then arguments.operands.headD [] else Text.joined ['\n'] given
  let paths := if given.isEmpty then arguments.operands.drop 1 else arguments.operands
  let extended := arguments.has 'E' || arguments.has 'r'
  match edits? extended (script.length + 2) script with
  | none =>
    warn "sed: -e expression #1, char 1: unknown command"
    return 1
  | some edits =>
    if inPlace then
      forEach paths fun path => do
        match ← contentOf path with
        | .ok text =>
          let (text, status) := editText edits (arguments.has 'n') text
          let _ ← change (·.writeFile path.string (Text.toBytes text))
          return status
        | .error cause =>
          warn s!"sed: can't read {path.string}: {cause.text}"
          return 2
    else
      let mut parts := []
      let mut status := 0
      for path in (if paths.isEmpty then [['-']] else paths) do
        match ← contentOf path with
        | .ok text => parts := text :: parts
        | .error cause =>
          warn s!"sed: can't read {Text.string path}: {cause.text}"
          status := 2
      let (text, ended) := editText edits (arguments.has 'n') parts.reverse.flatten
      say text
      return max status ended

end Micromag.Shell.Tool
