import Micromag.Json.Basic
import Micromag.Decimal.Reading

/-!
# Reading documents

The grammar of JSON, with three limits: a number beyond the range of doubles is refused, an escape
must not stand for half of a pair, and brackets may be nested 127 deep. Whole numbers are those
written without fraction and exponent that fit 64 bits; the negative zero is a double.
-/

namespace Micromag.Json

/-- Whether a character may stand between the parts of a document. -/
def isSpace (c : Char) : Bool := c = ' ' || c = '\n' || c = '\t' || c = '\r'

/-- Text without the space at its start. -/
def skipSpace (text : List Char) : List Char := text.dropWhile isSpace

/-- Text after a given start, if it has it. -/
def after? : List Char → List Char → Option (List Char)
  | [], text => some text
  | c :: start, d :: text => if c = d then after? start text else none
  | _ :: _, [] => none

/-- The value of a hexadecimal digit. -/
def hexValue? (c : Char) : Option Nat :=
  if '0' ≤ c ∧ c ≤ '9' then some (c.toNat - 48)
  else if 'a' ≤ c ∧ c ≤ 'f' then some (c.toNat - 87)
  else if 'A' ≤ c ∧ c ≤ 'F' then some (c.toNat - 55)
  else none

/-- Four hexadecimal digits and the text after them. -/
def readUnit? : List Char → Option (Nat × List Char)
  | a :: b :: c :: d :: rest => do
    let a ← hexValue? a
    let b ← hexValue? b
    let c ← hexValue? c
    let d ← hexValue? d
    return (((a * 16 + b) * 16 + c) * 16 + d, rest)
  | _ => none

/-- The character of an escape that starts with the letter `u`: one unit, or the two of a pair. -/
def readEscapedUnit? (text : List Char) : Option (Char × List Char) := do
  let (unit, rest) ← readUnit? text
  if 0xD800 ≤ unit ∧ unit < 0xDC00 then
    let rest ← after? ['\\', 'u'] rest
    let (low, rest) ← readUnit? rest
    if 0xDC00 ≤ low ∧ low < 0xE000 then
      return (Char.ofNat (0x10000 + (unit - 0xD800) * 0x400 + (low - 0xDC00)), rest)
    else none
  else if 0xDC00 ≤ unit ∧ unit < 0xE000 then none
  else return (Char.ofNat unit, rest)

/-- The character that a letter after a backslash stands for. -/
def unescape? : Char → Option Char
  | '"' => some '"'
  | '\\' => some '\\'
  | '/' => some '/'
  | 'b' => some '\x08'
  | 'f' => some '\x0c'
  | 'n' => some '\n'
  | 'r' => some '\r'
  | 't' => some '\t'
  | _ => none

/-- The characters up to the closing quote, in front of those read before. -/
def readQuoted? : Nat → List Char → List Char → Option (String × List Char)
  | 0, _, _ => none
  | fuel + 1, before, text =>
    match text with
    | [] => none
    | '"' :: rest => some (String.ofList before.reverse, rest)
    | '\\' :: 'u' :: rest => do
      let (c, rest) ← readEscapedUnit? rest
      readQuoted? fuel (c :: before) rest
    | '\\' :: letter :: rest => do
      let c ← unescape? letter
      readQuoted? fuel (c :: before) rest
    | c :: rest => if c.toNat < 32 || c = '\\' then none else readQuoted? fuel (c :: before) rest

/-- The text between quotes, after the opening quote. -/
def readText? (text : List Char) : Option (String × List Char) :=
  readQuoted? (text.length + 1) [] text

/-- The fraction of a number: a point and at least one digit, or nothing. -/
def readFraction? : List Char → Option (List Char × List Char)
  | '.' :: rest =>
    let digits := rest.takeWhile isDigit
    if digits.isEmpty then none else some ('.' :: digits, rest.dropWhile isDigit)
  | rest => some ([], rest)

/-- The exponent of a number: a mark, an optional sign and at least one digit, or nothing. -/
def readPower? (text : List Char) : Option (List Char × List Char) :=
  match text with
  | c :: rest =>
    if c = 'e' ∨ c = 'E' then
      let (negative, rest) := splitSign rest
      let digits := rest.takeWhile isDigit
      if digits.isEmpty then none
      else some ('e' :: (if negative then '-' :: digits else digits), rest.dropWhile isDigit)
    else some ([], text)
  | [] => some ([], text)

/-- The number of digits without fraction and exponent. -/
def wholeNumber (negative : Bool) (digits : List Char) : Json :=
  let n := natOfDigits digits
  if negative then
    if 0 < n ∧ n ≤ 2 ^ 63 then whole (-(n : Int)) else number (-nearestFloat ⟨n, 0⟩)
  else if n < 2 ^ 64 then whole n else number (nearestFloat ⟨n, 0⟩)

/-- A number and the text after it. -/
def readNumber? (text : List Char) : Option (Json × List Char) := do
  let (negative, text) := match text with
    | '-' :: rest => (true, rest)
    | text => (false, text)
  let digits := text.takeWhile isDigit
  if digits.isEmpty || (digits.head? = some '0' && 1 < digits.length) then none
  let (fraction, rest) ← readFraction? (text.dropWhile isDigit)
  let (power, rest) ← readPower? rest
  let json := if fraction.isEmpty && power.isEmpty then wholeNumber negative digits
    else
      let x := ((readDecimal? (digits ++ fraction ++ power)).map nearestFloat).getD 0
      number (if negative then -x else x)
  match json with
  | number x => if x.isFinite then return (json, rest) else none
  | _ => return (json, rest)

/-- Parts separated by commas up to a closing bracket, in front of those read before. -/
def readParts? {α : Type} (part : List Char → Option (α × List Char)) (close : Char) :
    Nat → List α → List Char → Option (List α × List Char)
  | 0, _, _ => none
  | fuel + 1, before, text => do
    let (value, rest) ← part (skipSpace text)
    match skipSpace rest with
    | c :: rest =>
      if c = close then some ((value :: before).reverse, rest)
      else if c = ',' then readParts? part close fuel (value :: before) rest
      else none
    | [] => none

/-- The parts between brackets, after the opening bracket. -/
def readBracketed? {α : Type} (part : List Char → Option (α × List Char)) (close : Char)
    (text : List Char) : Option (List α × List Char) :=
  match skipSpace text with
  | c :: rest =>
    if c = close then some ([], rest) else readParts? part close (text.length + 1) [] text
  | [] => none

/-- An entry of an object: quoted key, colon, document. -/
def readMember? (value : List Char → Option (Json × List Char)) (text : List Char) :
    Option ((String × Json) × List Char) :=
  match text with
  | '"' :: rest => do
    let (key, rest) ← readText? rest
    match skipSpace rest with
    | ':' :: rest =>
      let (json, rest) ← value (skipSpace rest)
      return ((key, json), rest)
    | _ => none
  | _ => none

/-- A document with at most `depth` nested brackets, and the text after it. -/
def readValue? : Nat → List Char → Option (Json × List Char)
  | depth, text =>
    match text with
    | '"' :: rest => (readText? rest).map fun (s, rest) => (.string s, rest)
    | '[' :: rest =>
      match depth with
      | 0 => none
      | depth + 1 => (readBracketed? (readValue? depth) ']' rest).map fun (items, rest) =>
        (array items, rest)
    | '\x7b' :: rest =>
      match depth with
      | 0 => none
      | depth + 1 =>
        (readBracketed? (readMember? (readValue? depth)) '\x7d' rest).map fun (entries, rest) =>
          (object entries, rest)
    | 'n' :: rest => (after? ['u', 'l', 'l'] rest).map fun rest => (null, rest)
    | 't' :: rest => (after? ['r', 'u', 'e'] rest).map fun rest => (bool true, rest)
    | 'f' :: rest => (after? ['a', 'l', 's', 'e'] rest).map fun rest => (bool false, rest)
    | text => readNumber? text

/-- The deepest nesting of brackets. -/
def maxDepth : Nat := 127

/-- The document that a whole text stands for. -/
def read? (text : String) : Option Json := do
  let (json, rest) ← readValue? maxDepth (skipSpace text.toList)
  if (skipSpace rest).isEmpty then some json else none

end Micromag.Json
