import Micromag.Decimal.Basic

/-!
# Reading number text

The grammar is an optional sign, then a special word or digits with an optional point and an
optional exponent. At least one digit stands before the exponent, on either side of the point. The
value is the double nearest to the exact decimal, ties to even, whatever the number of digits.
-/

namespace Micromag

/-- The value of an ASCII digit. -/
def digitValue? (c : Char) : Option Nat :=
  if '0' ≤ c ∧ c ≤ '9' then some (c.toNat - 48) else none

/-- Whether a character is an ASCII digit. -/
def isDigit (c : Char) : Bool := (digitValue? c).isSome

/-- The number that a list of digits stands for; a character that is no digit counts as zero. -/
def natOfDigits (digits : List Char) : Nat :=
  digits.foldl (fun n c => 10 * n + (digitValue? c).getD 0) 0

/-- The count that digits stand for, which may follow a plus, if it fits 64 bits. -/
def readCount? (text : List Char) : Option Nat :=
  let digits := match text with
    | '+' :: rest => rest
    | _ => text
  if digits.isEmpty || !digits.all isDigit then none
  else
    let n := natOfDigits digits
    if n < 2 ^ 64 then some n else none

/-- The double nearest to `digits · 10 ^ exponent`. Decimals far beyond the range of doubles are
settled first, so that the power of ten stays small. -/
def nearestFloat (d : Decimal) : Float :=
  if d.digits = 0 then 0
  else if 400 < d.exponent then 1 / 0
  else if d.exponent + d.digits.log2 < -400 then 0
  else Float.ofScientific d.digits (d.exponent < 0) d.exponent.natAbs

/-- An optional sign; `true` stands for a minus. -/
def splitSign : List Char → Bool × List Char
  | '-' :: rest => (true, rest)
  | '+' :: rest => (false, rest)
  | text => (false, text)

/-- The exponent part of a number: nothing, or a mark, an optional sign and digits to the end. -/
def readExponent? : List Char → Option Int
  | [] => some 0
  | c :: rest =>
    if c = 'e' ∨ c = 'E' then
      let (negative, digits) := splitSign rest
      if !digits.isEmpty && digits.all isDigit then
        some (if negative then -(natOfDigits digits : Int) else natOfDigits digits)
      else none
    else none

/-- The exact decimal that unsigned number text stands for. -/
def readDecimal? (text : List Char) : Option Decimal :=
  let whole := text.takeWhile isDigit
  let rest := text.dropWhile isDigit
  let (fraction, rest) :=
    match rest with
    | '.' :: rest => (rest.takeWhile isDigit, rest.dropWhile isDigit)
    | rest => ([], rest)
  if whole.isEmpty && fraction.isEmpty then none
  else
    (readExponent? rest).map fun exponent =>
      ⟨natOfDigits (whole ++ fraction), exponent - fraction.length⟩

/-- The double that number text stands for. The words for infinity and not-a-number are read
without regard to case. -/
def readFloat? (text : List Char) : Option Float :=
  let (negative, rest) := splitSign text
  let word := rest.map Char.toLower
  let magnitude : Option Float :=
    if word = "inf".toList ∨ word = "infinity".toList then some (1 / 0)
    else if word = "nan".toList then some (0 / 0)
    else (readDecimal? rest).map nearestFloat
  magnitude.map fun x => if negative then -x else x

end Micromag
