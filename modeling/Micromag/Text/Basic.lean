/-!
# Text

Blank characters, identifiers and lines of text.
-/

/-!
## Blank characters

A character is blank when it has the property White_Space; there are twenty-five of them. Header
fields, data rows and command lines are separated by blanks.
-/

namespace Micromag.Text

/-- Closed ranges of code points of the blank characters, ascending and apart. -/
def blankRanges : List (Nat × Nat) :=
  [(0x09, 0x0D), (0x20, 0x20), (0x85, 0x85), (0xA0, 0xA0), (0x1680, 0x1680), (0x2000, 0x200A),
    (0x2028, 0x2029), (0x202F, 0x202F), (0x205F, 0x205F), (0x3000, 0x3000)]

/-- Whether a character is blank. -/
def isBlank (c : Char) : Bool :=
  blankRanges.any fun range => range.1 ≤ c.toNat && c.toNat ≤ range.2

/-- Every character that separates words in ASCII text is blank. -/
theorem isBlank_of_isWhitespace (c : Char) (h : c.isWhitespace = true) : isBlank c = true := by
  simp [Char.isWhitespace] at h
  rcases h with ((h | h) | h) | h <;> subst h <;> decide

/-- Text without the blanks at its start. -/
def trimStart (text : List Char) : List Char := text.dropWhile isBlank

/-- Text without the blanks at its end. -/
def trimEnd (text : List Char) : List Char := (text.reverse.dropWhile isBlank).reverse

/-- Text without the blanks at both ends. -/
def trim (text : List Char) : List Char := trimEnd (trimStart text)

/-- Characters up to the first blank go to the word under construction; a blank ends it. -/
def wordsFrom (word : List Char) : List Char → List (List Char)
  | [] => if word.isEmpty then [] else [word.reverse]
  | c :: rest =>
    if isBlank c then
      if word.isEmpty then wordsFrom [] rest else word.reverse :: wordsFrom [] rest
    else wordsFrom (c :: word) rest

/-- The maximal runs of characters that are not blank. -/
def words (text : List Char) : List (List Char) := wordsFrom [] text

/-- Whether text holds nothing but blanks. -/
def allBlank (text : List Char) : Bool := text.all isBlank

end Micromag.Text

/-!
## Identifiers

Terms and subregions are named by identifiers: one or more ASCII letters, digits and underscores.
Such a name can stand in a script without quoting and cannot end a word, a block or a reference.
-/

namespace Micromag.Text

/-- Whether a character may stand in an identifier. -/
def isNameChar (c : Char) : Bool :=
  ('a' ≤ c && c ≤ 'z') || ('A' ≤ c && c ≤ 'Z') || ('0' ≤ c && c ≤ '9') || c = '_'

/-- Whether text is an identifier. -/
def isIdentifier (name : String) : Bool := !name.isEmpty && name.toList.all isNameChar

end Micromag.Text

/-!
## Lines of text

A line of the text files read here ends in a line feed, with or without a carriage return before
it. Files written by the library have canonical line ends: every line, the last one too, ends in a
single line feed, and no carriage return is left.
-/

namespace Micromag.Text

/-- The pieces between occurrences of a separator; there is always at least one. -/
def splitOn (separator : Char) : List Char → List (List Char)
  | [] => [[]]
  | c :: rest =>
    if c = separator then [] :: splitOn separator rest
    else
      match splitOn separator rest with
      | [] => [[c]]
      | first :: others => (c :: first) :: others

/-- A line without a carriage return at its end. -/
def dropReturn (line : List Char) : List Char :=
  if line.getLast? = some '\r' then line.dropLast else line

/-- The lines of a text without their ends. Text after the last line feed is a line unless it is
empty, and only lines that a line feed ends lose a carriage return. -/
def lines (text : List Char) : List (List Char) :=
  let pieces := splitOn '\n' text
  let last := pieces.getLast?.getD []
  pieces.dropLast.map dropReturn ++ (if last.isEmpty then [] else [last])

/-- Text in which a carriage return, alone or before a line feed, is replaced by a line feed. -/
def unifyLineEnds : List Char → List Char
  | [] => []
  | '\r' :: '\n' :: rest => '\n' :: unifyLineEnds rest
  | '\r' :: rest => '\n' :: unifyLineEnds rest
  | c :: rest => c :: unifyLineEnds rest

/-- Text whose last line ends in a line feed. -/
def endLine (text : List Char) : List Char :=
  if text.isEmpty || text.getLast? = some '\n' then text else text ++ ['\n']

/-- Text with canonical line ends. -/
def canonicalLines (text : List Char) : List Char := endLine (unifyLineEnds text)

/-- Text with canonical line ends. -/
def canonical (text : String) : String := String.ofList (canonicalLines text.toList)

/-- The lines of a text without their ends. -/
def linesOf (text : String) : List String := (lines text.toList).map String.ofList

end Micromag.Text
