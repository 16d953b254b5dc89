import Micromag.Text.Utf8

/-!
# Patterns of file names

A pattern is read into parts. A question mark stands for one byte and a star for any bytes; a class
in brackets stands for one byte of a set; braces hold alternatives; two stars between slashes stand
for any directories. A backslash takes away the meaning of the next character. Patterns are matched
against the bytes of a name, so a character outside ASCII counts as several bytes.
-/

namespace Micromag

/-- A part of a pattern. -/
inductive PatternPart where
  /-- A character itself. -/
  | literal (c : Char)
  /-- One byte. -/
  | anyByte
  /-- Any bytes. -/
  | anyBytes
  /-- Any directories at the start. -/
  | leadingDirectories
  /-- Anything inside a directory. -/
  | trailingPath
  /-- Any directories between two names. -/
  | innerDirectories
  /-- One byte of a set, or one that is not in it. -/
  | byteClass (negated : Bool) (ranges : List (Char × Char))
  /-- One of several patterns. -/
  | choice (branches : List (List PatternPart))
deriving Inhabited

/-- A pattern of file names. -/
abbrev Pattern := List PatternPart

namespace Pattern

/-! ## Reading -/

/-- The alternatives of an open brace. -/
structure Branches where
  /-- The alternatives before, the latest first. -/
  before : List Pattern := []
  /-- The current alternative, its latest part first. -/
  current : Pattern := []
deriving Inhabited

/-- What is known of a pattern while it is read: the whole at the bottom of open braces. -/
structure Scan where
  /-- The innermost open brace, or the whole pattern. -/
  top : Branches := {}
  /-- The braces around it, the whole pattern last. -/
  outer : List Branches := []

namespace Scan

/-- Add a part. -/
def push (scan : Scan) (part : PatternPart) : Scan :=
  { scan with top := { scan.top with current := part :: scan.top.current } }

/-- Put a part in place of the latest one. -/
def replaceLast (scan : Scan) (part : PatternPart) : Scan :=
  { scan with top := { scan.top with current := part :: scan.top.current.drop 1 } }

/-- Whether a brace is open. -/
def inBraces (scan : Scan) : Bool := !scan.outer.isEmpty

/-- Open a brace. -/
def openBrace (scan : Scan) : Scan := ⟨{}, scan.top :: scan.outer⟩

/-- Close a brace, if one is open. -/
def closeBrace? (scan : Scan) : Option Scan :=
  match scan.outer with
  | [] => none
  | parent :: outer =>
    let branches := ((scan.top.current :: scan.top.before).map List.reverse).reverse
    some ⟨{ parent with current := .choice branches :: parent.current }, outer⟩

/-- A comma begins the next alternative; outside braces it is a character. -/
def comma (scan : Scan) : Scan :=
  if scan.inBraces then
    { scan with top := ⟨scan.top.current :: scan.top.before, []⟩ }
  else scan.push (.literal ',')

end Scan

/-- What is known of a class while it is read. -/
structure ClassScan where
  /-- The ranges, the latest first. -/
  ranges : List (Char × Char) := []
  /-- Nothing has been read yet. -/
  isFirst : Bool := true
  /-- A dash waits for the end of a range. -/
  inRange : Bool := false

/-- Extend the latest range; its end must not lie before its start. -/
def ClassScan.extend? (scan : ClassScan) (c : Char) : Option ClassScan :=
  match scan.ranges with
  | (low, _) :: rest => if c < low then none else some ⟨(low, c) :: rest, false, false⟩
  | [] => none

/-- Read the inside of a class up to its bracket: the ranges, and the text after it. -/
def readClass? (scan : ClassScan) : List Char → Option (List (Char × Char) × List Char)
  | [] => none
  | c :: rest =>
    if c = ']' && !scan.isFirst then
      let ranges := if scan.inRange then ('-', '-') :: scan.ranges else scan.ranges
      some (ranges.reverse, rest)
    else if scan.inRange then (scan.extend? c).bind (readClass? · rest)
    else if c = '-' && !scan.isFirst then readClass? { scan with inRange := true } rest
    else readClass? ⟨(c, c) :: scan.ranges, false, false⟩ rest

/-- Two stars with nothing special around them. -/
def Scan.pushStars (scan : Scan) : Scan := (scan.push .anyBytes).push .anyBytes

/-- Two stars at the start of a pattern or an alternative. If they fill a whole name they stand for
directories. The text after them is without its slash. -/
def leadingStars (scan : Scan) : List Char → Scan × Option Char × List Char
  | [] => (scan.push .leadingDirectories, none, [])
  | '/' :: rest => (scan.push .leadingDirectories, some '/', rest)
  | rest => (scan.pushStars, some '*', rest)

/-- Two stars elsewhere, where a name begins. Behind other such stars they add nothing. -/
def innerStars (scan : Scan) (rest : List Char) : Scan × Option Char × List Char :=
  let merged (part : PatternPart) : Scan :=
    match scan.top.current.head? with
    | some .leadingDirectories => scan
    | some .trailingPath => scan
    | _ => scan.replaceLast part
  match rest with
  | [] => (merged .trailingPath, none, [])
  | '/' :: after => (merged .innerDirectories, some '/', after)
  | c :: _ =>
    if (c = ',' || c = '\x7d') && scan.inBraces then (merged .trailingPath, some '*', rest)
    else (scan.pushStars, some '*', rest)

/-- Whether two stars after a character may stand for directories. -/
def opensName (scan : Scan) (before : Option Char) : Bool :=
  before = some '/' || (scan.inBraces && (before = some ',' || before = some '\x7b'))

/-- Two stars after a character: how the scan goes on. -/
def stars (scan : Scan) (before : Option Char) (rest : List Char) :
    Scan × Option Char × List Char :=
  if scan.top.current.isEmpty then leadingStars scan rest
  else if opensName scan before then innerStars scan rest
  else (scan.pushStars, some '*', rest)

/-- Read a pattern after a character. The fuel bounds the characters. -/
def readFrom? : Nat → Scan → Option Char → List Char → Option Scan
  | 0, _, _, _ => none
  | _ + 1, scan, _, [] => some scan
  | fuel + 1, scan, before, c :: rest =>
    match c, rest with
    | '?', rest => readFrom? fuel (scan.push .anyByte) (some c) rest
    | '*', '*' :: rest =>
      let (scan, before, rest) := stars scan before rest
      readFrom? fuel scan before rest
    | '*', rest => readFrom? fuel (scan.push .anyBytes) (some c) rest
    | '[', rest => do
      let (negated, rest) := match rest with
        | '!' :: rest => (true, rest)
        | '^' :: rest => (true, rest)
        | rest => (false, rest)
      let (ranges, rest) ← readClass? {} rest
      readFrom? fuel (scan.push (.byteClass negated ranges)) (some ']') rest
    | '\x7b', rest => readFrom? fuel scan.openBrace (some c) rest
    | '\x7d', rest => do readFrom? fuel (← scan.closeBrace?) (some c) rest
    | ',', rest => readFrom? fuel scan.comma (some c) rest
    | '\\', rest =>
      match rest with
      | [] => none
      | escaped :: rest => readFrom? fuel (scan.push (.literal escaped)) (some escaped) rest
    | c, rest => readFrom? fuel (scan.push (.literal c)) (some c) rest

/-- The pattern of a text: every bracket and every brace is closed, ranges ascend, and no backslash
stands at the end. -/
def ofText? (text : String) : Option Pattern := do
  let scan ← readFrom? (text.length + 1) {} none text.toList
  if scan.inBraces then none else some scan.top.current.reverse

/-! ## Matching -/

/-- Marks of the places in a name up to which a pattern can have matched: before the first byte,
after the first byte, and so on. -/
abbrev Marks := List Bool

/-- Go on by one byte that passes a test. -/
def nextByte (test : UInt8 → Bool) (name : List UInt8) (marks : Marks) : Marks :=
  false :: List.zipWith (fun mark byte => mark && test byte) marks name

/-- Go on by any bytes. -/
def laterMarks (reached : Bool) : Marks → Marks
  | [] => []
  | mark :: rest => (reached || mark) :: laterMarks (reached || mark) rest

/-- Go on by any bytes. -/
def skipBytes (marks : Marks) : Marks := laterMarks false marks

/-- Places marked on one of two sides. -/
def either (left right : Marks) : Marks := List.zipWith (· || ·) left right

/-- Go on by a slash. -/
def slash (name : List UInt8) (marks : Marks) : Marks := nextByte (· == 47) name marks

/-- The bytes of a character. -/
def bytesOf (c : Char) : List UInt8 := String.utf8EncodeChar c

/-- The byte ranges of a range of characters: the bytes of both ends, with a range from the last
byte of the first to the first byte of the last. -/
def byteRanges (range : Char × Char) : List (UInt8 × UInt8) :=
  let low := bytesOf range.1
  let high := bytesOf range.2
  if range.1 = range.2 then low.map fun byte => (byte, byte)
  else
    low.dropLast.map (fun byte => (byte, byte)) ++
      [(low.getLast?.getD 0, high.head?.getD 0)] ++ (high.drop 1).map fun byte => (byte, byte)

/-- Whether a byte lies in one of some ranges of characters. -/
def inClass (ranges : List (Char × Char)) (byte : UInt8) : Bool :=
  (ranges.flatMap byteRanges).any fun range => range.1 ≤ byte && byte ≤ range.2

mutual

/-- Whether a part says nothing: a choice whose alternatives all say nothing. -/
def saysNothing : PatternPart → Bool
  | .choice branches => allSayNothing branches
  | _ => false

/-- Whether a pattern says nothing. -/
def isBlank : List PatternPart → Bool
  | [] => true
  | part :: rest => saysNothing part && isBlank rest

/-- Whether all alternatives say nothing. -/
def allSayNothing : List (List PatternPart) → Bool
  | [] => true
  | branch :: rest => isBlank branch && allSayNothing rest

end

mutual

/-- Go on by a part. -/
def advance (name : List UInt8) (marks : Marks) : PatternPart → Marks
  | .literal c => (bytesOf c).foldl (fun marks byte => nextByte (· == byte) name marks) marks
  | .anyByte => nextByte (fun _ => true) name marks
  | .anyBytes => skipBytes marks
  | .leadingDirectories =>
    either marks (slash name (skipBytes marks))
  | .trailingPath => skipBytes (slash name marks)
  | .innerDirectories =>
    either (slash name marks) (slash name (skipBytes (slash name marks)))
  | .byteClass negated ranges => nextByte (fun byte => inClass ranges byte != negated) name marks
  | .choice branches =>
    if allSayNothing branches then marks
    else advanceChoice name marks branches

/-- Go on by the parts of a pattern. -/
def advanceAll (name : List UInt8) (marks : Marks) : List PatternPart → Marks
  | [] => marks
  | part :: rest => advanceAll name (advance name marks part) rest

/-- Go on by one of several patterns; those that say nothing are no alternatives. -/
def advanceChoice (name : List UInt8) (marks : Marks) : List (List PatternPart) → Marks
  | [] => marks.map fun _ => false
  | branch :: rest =>
    let others := advanceChoice name marks rest
    if isBlank branch then others else either (advanceAll name marks branch) others

end

/-- Whether a pattern is two stars alone, which match everything. -/
def isEverything : Pattern → Bool
  | [.leadingDirectories] => true
  | _ => false

/-- Whether a pattern matches the whole of a name. -/
def matchesName (pattern : Pattern) (name : String) : Bool :=
  let bytes := Text.Utf8.ofString name
  let start : Marks := true :: bytes.map fun _ => false
  isEverything pattern || (advanceAll bytes start pattern).getLast?.getD false

end Pattern

end Micromag
