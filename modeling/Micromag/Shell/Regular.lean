import Micromag.Shell.Glob

/-!
# Regular expressions

A regular expression is written in one of two forms, which differ in the characters that need a
backslash. It is matched from the left, with each repetition as long as possible; groups keep what
they matched.
-/

namespace Micromag.Shell

/-- A regular expression. -/
inductive Regular where
  /-- Nothing. -/
  | empty
  /-- A character. -/
  | one (c : Char)
  /-- Any character. -/
  | any
  /-- A character of a set, or one that is not in it. -/
  | oneOf (negated : Bool) (items : List SetItem)
  /-- The start of the text. -/
  | atStart
  /-- The end of the text. -/
  | atEnd
  /-- The start of a word, the end of a word, or either. -/
  | wordEdge (start finish : Bool)
  /-- What a group with a number has matched. -/
  | again (number : Nat)
  /-- A group with a number. -/
  | group (number : Nat) (body : Regular)
  /-- One after the other. -/
  | both (first second : Regular)
  /-- One or the other. -/
  | either (first second : Regular)
  /-- Several times. -/
  | several (body : Regular) (least : Nat) (most : Option Nat)
deriving Inhabited

namespace Regular

/-! ## Reading -/

/-- What is left of a written expression, and how many groups it has had. -/
structure Scan where
  /-- The text. -/
  rest : Text
  /-- The groups. -/
  groups : Nat := 0

/-- Reading an expression. -/
abbrev Reading (α : Type) := StateT Scan Option α

/-- Pass over a text if it comes next. -/
def accept (text : String) : Reading Bool := do
  let scan ← get
  if text.toList.isPrefixOf scan.rest then
    set { scan with rest := scan.rest.drop text.length }
    return true
  else return false

/-- A number, if one comes next. -/
def count? : Reading (Option Nat) := do
  let scan ← get
  let digits := scan.rest.takeWhile Char.isDigit
  set { scan with rest := scan.rest.drop digits.length }
  return Text.toNat? digits

/-- The bounds of a repetition behind its opening brace. -/
def bounds (close : String) : Reading (Nat × Option Nat) := do
  let least ← count?
  let most ← if ← accept "," then count? else pure least
  if ← accept close then return (least.getD 0, most) else failure

/-- An operator in its written form: some need a backslash in basic expressions. -/
def sign (extended : Bool) (text : String) : String := if extended then text else "\\" ++ text

/-- Repetitions of an expression. -/
def repeated (extended : Bool) (body : Regular) : Nat → Reading Regular
  | 0 => return body
  | fuel + 1 => do
    if ← accept "*" then repeated extended (.several body 0 none) fuel
    else if ← accept (sign extended "+") then repeated extended (.several body 1 none) fuel
    else if ← accept (sign extended "?") then repeated extended (.several body 0 (some 1)) fuel
    else if ← accept (sign extended "\x7b") then
      let (least, most) ← bounds (sign extended "\x7d")
      repeated extended (.several body least most) fuel
    else return body

/-- A set behind its opening bracket. -/
def set? : Reading Regular := do
  let scan ← get
  match Glob.set? scan.rest with
  | some (.oneOf negated items, count) =>
    set { scan with rest := scan.rest.drop count }
    return .oneOf negated items
  | _ => failure

/-- The characters of words. -/
def wordItems : List SetItem := [.named "alnum".toList, .range '_' '_']

/-- What a backslash stands for, with the character behind it. -/
def escaped (c : Char) : Regular :=
  match c with
  | 'w' => .oneOf false wordItems
  | 'W' => .oneOf true wordItems
  | 's' => .oneOf false [.named "space".toList]
  | 'S' => .oneOf true [.named "space".toList]
  | 'b' => .wordEdge true true
  | '<' => .wordEdge true false
  | '>' => .wordEdge false true
  | 'n' => .one '\n'
  | 't' => .one '\t'
  | c => if c.isDigit && c ≠ '0' then .again (c.toNat - 48) else .one c

/-- Whether an expression, or a part of one in a group, ends here. -/
def atPartEnd (extended : Bool) : Reading Bool := do
  let rest := (← get).rest
  return rest.isEmpty || (sign extended ")").toList.isPrefixOf rest ||
    (sign extended "|").toList.isPrefixOf rest

/-- A single character or group, with what a group holds read by a given reader. -/
def atom (extended : Bool) (inner : Reading Regular) (isFirst : Bool) : Reading Regular := do
  if ← accept (sign extended "(") then
    let number := (← get).groups + 1
    modify ({ · with groups := number })
    let body ← inner
    if ← accept (sign extended ")") then return .group number body else failure
  else
    let scan ← get
    match scan.rest with
    | [] => failure
    | '[' :: rest =>
      set { scan with rest }
      set?
    | '.' :: rest => set { scan with rest }; return .any
    | '\\' :: c :: rest => set { scan with rest }; return escaped c
    | '^' :: rest =>
      set { scan with rest }
      return if extended || isFirst then .atStart else .one '^'
    | '$' :: rest =>
      set { scan with rest }
      return if extended || (← atPartEnd extended) then .atEnd else .one '$'
    | c :: rest => set { scan with rest }; return .one c

/-- One after the other, up to the end of a part. -/
def chain (extended : Bool) (inner : Reading Regular) (isFirst : Bool) : Nat → Reading Regular
  | 0 => failure
  | fuel + 1 => do
    if ← atPartEnd extended then return .empty
    let part ← atom extended inner isFirst
    let isAnchor := match part with
      | .atStart => true
      | _ => false
    let part ← if isAnchor && !extended then pure part else repeated extended part fuel
    let rest ← chain extended inner false fuel
    return match rest with
      | .empty => part
      | rest => .both part rest

/-- Alternatives. -/
def alternatives (extended : Bool) (inner : Reading Regular) : Nat → Reading Regular
  | 0 => failure
  | fuel + 1 => do
    let first ← chain extended inner true ((← get).rest.length + 1)
    if ← accept (sign extended "|") then
      return .either first (← alternatives extended inner fuel)
    else return first

/-- An expression with groups down to a depth. -/
def expression (extended : Bool) : Nat → Reading Regular
  | 0 => failure
  | depth + 1 => do
    alternatives extended (expression extended depth) ((← get).rest.length + 1)

/-- The expression of a text. -/
def ofText? (extended : Bool) (text : Text) : Option Regular := do
  let (regular, scan) ← (expression extended (text.length + 1)).run { rest := text }
  if scan.rest.isEmpty then some regular else none

/-- The expression that stands for a text itself. -/
def ofPlain (text : Text) : Regular :=
  text.foldr (fun c rest => .both (.one c) rest) .empty

/-! ## Matching -/

/-- What groups have matched: the latest match of a number comes first. -/
abbrev Groups := List (Nat × Text)

/-- A place in a text: what is behind it, the nearest character first, and what is before it. -/
structure Place where
  /-- The text that was passed. -/
  passed : Text
  /-- The text that is left. -/
  left : Text

namespace Place

/-- Pass over a number of characters. -/
def advance (place : Place) (count : Nat) : Place :=
  ⟨(place.left.take count).reverse ++ place.passed, place.left.drop count⟩

/-- Whether a word starts here. -/
def startsWord (place : Place) : Bool :=
  place.left.head?.any Text.inName && !place.passed.head?.any Text.inName

/-- Whether a word ends here. -/
def endsWord (place : Place) : Bool :=
  !place.left.head?.any Text.inName && place.passed.head?.any Text.inName

end Place

/-- How a match goes on. -/
abbrev Next := Place → Groups → Option (Place × Groups)

/-- Whether a character passes a test, in either case if case does not matter. -/
def charMatches (anyCase : Bool) (test : Char → Bool) (c : Char) : Bool :=
  test c || (anyCase && (test c.toLower || test c.toUpper))

/-- Pass over one character that passes a test. -/
def step (anyCase : Bool) (test : Char → Bool) (place : Place) (groups : Groups) (next : Next) :
    Option (Place × Groups) :=
  match place.left with
  | c :: rest =>
    if charMatches anyCase test c then next ⟨c :: place.passed, rest⟩ groups else none
  | [] => none

/-- Match an expression and go on. The fuel bounds the depth of the match. -/
def run (anyCase : Bool) : Nat → Regular → Place → Groups → Next → Option (Place × Groups)
  | 0, _, _, _, _ => none
  | fuel + 1, regular, place, groups, next =>
    match regular with
    | .empty => next place groups
    | .one c => step anyCase (· = c) place groups next
    | .any => step false (fun _ => true) place groups next
    | .oneOf negated items =>
      let listed (c : Char) : Bool := items.any (SetItem.accepts c)
      step false (fun c => charMatches anyCase listed c != negated)
        place groups next
    | .atStart => if place.passed.isEmpty then next place groups else none
    | .atEnd => if place.left.isEmpty then next place groups else none
    | .wordEdge start finish =>
      if start && place.startsWord || finish && place.endsWord then next place groups else none
    | .again number =>
      let text := (groups.lookup number).getD []
      if text.isPrefixOf place.left then next (place.advance text.length) groups else none
    | .group number body =>
      run anyCase fuel body place groups fun after groups =>
        let count := place.left.length - after.left.length
        next after ((number, place.left.take count) :: groups)
    | .both first second =>
      run anyCase fuel first place groups fun after groups =>
        run anyCase fuel second after groups next
    | .either first second =>
      match run anyCase fuel first place groups next with
      | some found => some found
      | none => run anyCase fuel second place groups next
    | .several body least most =>
      let stop : Option (Place × Groups) := if least = 0 then next place groups else none
      if most = some 0 then stop
      else
        let more := run anyCase fuel body place groups fun after groups =>
          if after.left.length = place.left.length && least = 0 then none
          else run anyCase fuel (.several body (least - 1) (most.map (· - 1))) after groups next
        match more with
        | some found => some found
        | none => stop

/-- A match: the text in front of it, itself, the text behind it, and what its groups matched. -/
structure Match where
  /-- The text in front. -/
  before : Text
  /-- The match. -/
  text : Text
  /-- The text behind. -/
  after : Text
  /-- What groups matched. -/
  groups : Groups

/-- The first match from a place on. -/
def firstFrom (anyCase : Bool) (regular : Regular) (place : Place) : Nat → Option Match
  | 0 => none
  | fuel + 1 =>
    match run anyCase (40 * (place.left.length + 50)) regular place [] fun after groups =>
      some (after, groups) with
    | some (after, groups) =>
      some ⟨place.passed.reverse, place.left.take (place.left.length - after.left.length),
        after.left, groups⟩
    | none => if place.left.isEmpty then none else firstFrom anyCase regular (place.advance 1) fuel

/-- The first match in a text. -/
def first? (anyCase : Bool) (regular : Regular) (text : Text) : Option Match :=
  firstFrom anyCase regular ⟨[], text⟩ (text.length + 1)

end Regular

end Micromag.Shell
