import Micromag.Decimal.Basic
import Micromag.Keyed

/-!
# Documents

Problems, manifests and reports are JSON documents. Whole numbers and doubles are kept apart, since
counts accept only whole numbers, and objects keep their entries as they stand, since a repeated key
means different things to different readers.
-/

namespace Micromag

/-- A JSON document. -/
inductive Json where
  /-- The absent value. -/
  | null
  /-- A truth value. -/
  | bool (value : Bool)
  /-- A number written without fraction and exponent that fits a 64-bit word. -/
  | whole (value : Int)
  /-- Any other number. -/
  | number (value : Float)
  /-- Text. -/
  | string (value : String)
  /-- A list of documents. -/
  | array (items : List Json)
  /-- Documents under keys, in the order in which they stand. -/
  | object (entries : List (String × Json))
deriving Inhabited

namespace Json

/-- Doubles in documents: positional from `1e-5` up to `1e16` and always with a fraction, otherwise
with a signed exponent. -/
def numberLayout : Layout where
  positional leading := -5 ≤ leading && leading < 16
  pointZero := true
  exponentSign := true
  tie := .even
  signedZero := true

/-- A double in a document; what is no number is the absent value. -/
def numberChars (x : Float) : List Char :=
  if x.isFinite then numberLayout.chars x else ['n', 'u', 'l', 'l']

/-- A hexadecimal digit in lower case. -/
def hexDigit (n : Nat) : Char := if n < 10 then Char.ofNat (48 + n) else Char.ofNat (87 + n)

/-- A character inside quotes. Quotes, backslashes and control characters are escaped, by a letter
where there is one. -/
def escape (c : Char) : List Char :=
  if c = '"' then ['\\', '"']
  else if c = '\\' then ['\\', '\\']
  else if c = '\x08' then ['\\', 'b']
  else if c = '\x0c' then ['\\', 'f']
  else if c = '\n' then ['\\', 'n']
  else if c = '\r' then ['\\', 'r']
  else if c = '\t' then ['\\', 't']
  else if c.toNat < 32 then
    ['\\', 'u', '0', '0', hexDigit (c.toNat / 16), hexDigit (c.toNat % 16)]
  else [c]

/-- Text in quotes. -/
def quote (text : String) : List Char := '"' :: (text.toList.flatMap escape ++ ['"'])

mutual

/-- A document on one line without blanks. -/
def compactChars : Json → List Char
  | null => ['n', 'u', 'l', 'l']
  | bool true => ['t', 'r', 'u', 'e']
  | bool false => ['f', 'a', 'l', 's', 'e']
  | whole n => integerDigits n
  | number x => numberChars x
  | string s => quote s
  | array items => '[' :: compactItems items
  | object entries => '\x7b' :: compactEntries entries

/-- The items of a list and its closing bracket. -/
def compactItems : List Json → List Char
  | [] => [']']
  | [item] => compactChars item ++ [']']
  | item :: rest => compactChars item ++ ',' :: compactItems rest

/-- The entries of an object and its closing brace. -/
def compactEntries : List (String × Json) → List Char
  | [] => ['\x7d']
  | [(key, item)] => quote key ++ ':' :: (compactChars item ++ ['\x7d'])
  | (key, item) :: rest => quote key ++ ':' :: (compactChars item ++ ',' :: compactEntries rest)

end

/-- A document on one line. -/
def compact (json : Json) : String := String.ofList json.compactChars

/-- A line break and the indentation of a depth. -/
def newLine (depth : Nat) : List Char := '\n' :: List.replicate (2 * depth) ' '

mutual

/-- A document on several lines, inside `depth` brackets. -/
def prettyChars (depth : Nat) : Json → List Char
  | array [] => ['[', ']']
  | object [] => ['\x7b', '\x7d']
  | array (item :: rest) =>
    '[' :: (newLine (depth + 1) ++ prettyChars (depth + 1) item ++ prettyItems depth rest)
  | object ((key, item) :: rest) =>
    '\x7b' :: (newLine (depth + 1) ++ quote key ++ ':' :: ' ' :: prettyChars (depth + 1) item ++
      prettyEntries depth rest)
  | null => ['n', 'u', 'l', 'l']
  | bool true => ['t', 'r', 'u', 'e']
  | bool false => ['f', 'a', 'l', 's', 'e']
  | whole n => integerDigits n
  | number x => numberChars x
  | string s => quote s

/-- The items after the first and the closing bracket. -/
def prettyItems (depth : Nat) : List Json → List Char
  | [] => newLine depth ++ [']']
  | item :: rest =>
    ',' :: (newLine (depth + 1) ++ prettyChars (depth + 1) item ++ prettyItems depth rest)

/-- The entries after the first and the closing brace. -/
def prettyEntries (depth : Nat) : List (String × Json) → List Char
  | [] => newLine depth ++ ['\x7d']
  | (key, item) :: rest =>
    ',' :: (newLine (depth + 1) ++ quote key ++ ':' :: ' ' :: prettyChars (depth + 1) item ++
      prettyEntries depth rest)

end

/-- A document on several lines, two blanks deeper inside each bracket. -/
def pretty (json : Json) : String := String.ofList (json.prettyChars 0)

mutual

/-- A document with the entries of every object in the order of their keys; of entries with the same
key the last stays. -/
def sorted : Json → Json
  | array items => array (sortedItems items)
  | object entries => object (Keyed.ofList (sortedEntries entries)).entries
  | null => null
  | bool value => bool value
  | whole n => whole n
  | number x => number x
  | string s => string s

/-- Every item of a list in order of keys. -/
def sortedItems : List Json → List Json
  | [] => []
  | item :: rest => sorted item :: sortedItems rest

/-- Every entry of an object in order of keys. -/
def sortedEntries : List (String × Json) → List (String × Json)
  | [] => []
  | (key, item) :: rest => (key, sorted item) :: sortedEntries rest

end

end Json

end Micromag
