import Micromag.Shell.Text

/-!
# Glob patterns

In a pattern of the shell a star stands for any text, a question mark for one character, and
brackets for one character of a set. A quoted character stands for itself.
-/

namespace Micromag.Shell

/-- A character that may be quoted. -/
structure Mark where
  /-- The character. -/
  char : Char
  /-- It has lost any special meaning. -/
  quoted : Bool
deriving DecidableEq, Repr

/-- What may stand between brackets. -/
inductive SetItem where
  /-- A range of characters. -/
  | range (low high : Char)
  /-- A named class. -/
  | named (name : Text)
deriving DecidableEq, Repr

namespace SetItem

/-- Whether a character is in a named class. -/
def inNamed (name : String) (c : Char) : Bool :=
  match name with
  | "alpha" => c.isAlpha
  | "digit" => c.isDigit
  | "alnum" => c.isAlphanum
  | "upper" => c.isUpper
  | "lower" => c.isLower
  | "space" => " \t\n\x0b\x0c\r".toList.contains c
  | "blank" => c = ' ' || c = '\t'
  | "punct" => 0x20 < c.toNat && c.toNat < 0x7F && !c.isAlphanum
  | "xdigit" => c.isDigit || "abcdefABCDEF".toList.contains c
  | "print" => 0x20 ≤ c.toNat && c.toNat < 0x7F
  | "graph" => 0x20 < c.toNat && c.toNat < 0x7F
  | "cntrl" => c.toNat < 0x20 || c.toNat = 0x7F
  | _ => false

/-- Whether a character is meant. -/
def accepts (c : Char) : SetItem → Bool
  | range low high => low ≤ c && c ≤ high
  | named name => inNamed name.string c

end SetItem

/-- A part of a pattern. -/
inductive GlobPart where
  /-- A character. -/
  | one (c : Char)
  /-- Any character. -/
  | any
  /-- Any text. -/
  | many
  /-- A character of a set, or one that is not in it. -/
  | oneOf (negated : Bool) (items : List SetItem)
deriving DecidableEq, Repr

/-- A pattern. -/
abbrev Glob := List GlobPart

namespace Glob

/-- The items of a set up to its closing bracket, and the text behind it. A bracket at the start is
an item. -/
def setItems? : Bool → Text → Option (List SetItem × Text)
  | _, [] => none
  | false, ']' :: rest => some ([], rest)
  | _, '[' :: ':' :: rest =>
    let name := rest.takeWhile (· ≠ ':')
    let after := rest.drop (name.length + 2)
    if after.length < rest.length + 2 then
      (setItems? false after).map fun (items, rest) => (.named name :: items, rest)
    else none
  | _, low :: '-' :: ']' :: rest => some ([.range low low, .range '-' '-'], rest)
  | _, low :: '-' :: high :: rest =>
    (setItems? false rest).map fun (items, rest) => (.range low high :: items, rest)
  | _, c :: rest => (setItems? false rest).map fun (items, rest) => (.range c c :: items, rest)
termination_by _ text => text.length
decreasing_by all_goals simp only [List.length_cons]; omega

/-- The set behind an opening bracket, and the number of characters it takes. -/
def set? (text : Text) : Option (GlobPart × Nat) :=
  let (negated, inside) := match text with
    | '!' :: rest => (true, rest)
    | '^' :: rest => (true, rest)
    | _ => (false, text)
  (setItems? true inside).map fun (items, rest) =>
    (.oneOf negated items, text.length - rest.length)

/-- The pattern of marked characters. -/
def ofMarks : Nat → List Mark → Glob
  | 0, _ => []
  | _ + 1, [] => []
  | fuel + 1, mark :: rest =>
    match mark.quoted, mark.char with
    | false, '*' => .many :: ofMarks fuel rest
    | false, '?' => .any :: ofMarks fuel rest
    | false, '[' =>
      match set? (rest.map (·.char)) with
      | some (part, count) => part :: ofMarks fuel (rest.drop count)
      | none => .one '[' :: ofMarks fuel rest
    | false, '\\' =>
      match rest with
      | next :: rest => .one next.char :: ofMarks fuel rest
      | [] => [.one '\\']
    | _, c => .one c :: ofMarks fuel rest

/-- The pattern of marked characters. -/
def ofWord (marks : List Mark) : Glob := ofMarks (marks.length + 1) marks

/-- Whether a part stands for a character. -/
def accepts (c : Char) : GlobPart → Bool
  | .one d => c = d
  | .any => true
  | .many => false
  | .oneOf negated items => (items.any (SetItem.accepts c)) != negated

/-- Whether a pattern stands for a text. -/
def isMatch : Glob → Text → Bool
  | [], text => text.isEmpty
  | .many :: rest, [] => isMatch rest []
  | .many :: rest, c :: text => isMatch rest (c :: text) || isMatch (.many :: rest) text
  | _ :: _, [] => false
  | part :: rest, c :: text => accepts c part && isMatch rest text
termination_by glob text => glob.length + text.length

/-- Whether a text can be a pattern of more than one text. -/
def isOpen (glob : Glob) : Bool := glob.any fun part => match part with
  | .one _ => false
  | _ => true

/-- A text without a part at its start or end that matches a pattern. -/
def trim (glob : Glob) (atEnd longest : Bool) (text : Text) : Text :=
  let counts := List.range (text.length + 1)
  let counts := if longest then counts.reverse else counts
  if atEnd then
    match counts.find? fun count => isMatch glob (text.drop (text.length - count)) with
    | some count => text.take (text.length - count)
    | none => text
  else
    match counts.find? fun count => isMatch glob (text.take count) with
    | some count => text.drop count
    | none => text

end Glob

end Micromag.Shell
